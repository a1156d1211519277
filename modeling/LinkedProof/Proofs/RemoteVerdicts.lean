import LinkedProof.Backend
import LinkedProof.Proofs.Http
import LinkedProof.Proofs.KeyExport
import LinkedProof.Proofs.Verdicts

/-! Verdicts of a suite whose signatures are checked by a remote service. A proof that gets as far as
the verifier is valid exactly when the service said so in a reply to the one request that was sent;
every other outcome is a verdict against it. What was sent stands for what the verifier was given. -/
namespace LinkedProof

def Cause.IsVerification (c : Cause) : Prop :=
  c.family = .verification ∨ c.family.parent? = some .verification

namespace Http

def Reply.Affirms (room : Nat) (reply : Reply) : Prop :=
  ∃ status body, ∃ members : Members, reply = .response status body ∧ isSuccess status = true ∧
    Json.parseBytes room body = .ok (.object members) ∧ members.get? "valid" = some (.bool true)

/-- The failures of a client are its own, none of them a cause of the proof layer. -/
def Client.Foreign {σ : Type} (client : Client σ) : Prop :=
  ∀ request s cause, (client request s).1 ≠ .failed (.proof cause)

end Http

theorem Json.isTrue_get {ms : Members} {name : Text} :
    (ms.get name).isTrue = true ↔ ms.get? name = some (.bool true) := by
  unfold Members.get
  cases ms.get? name with
  | none => simp [isTrue]
  | some v =>
    cases v with
    | bool b => cases b <;> simp [isTrue]
    | _ => simp [isTrue]

namespace Jwk

/-- The members of a key hold all that its point is read from. -/
theorem point_toMembers (table : CurveTable) (k : Jwk) :
    (ofMembers k.toMembers).point table = k.point table := rfl

end Jwk

namespace RemoteKey

open Http

variable {σ : Type} (k : RemoteKey) {client : Client σ} {table : CurveTable} {key : PublicKey}
  {message signature : Bytes} {timeout : Option Timeout} {members : Members} {s : σ}

def question (timeout : Option Timeout) (message signature : Bytes) (members : Members) :
    Request where
  method := "POST"
  url := k.url "/verify"
  timeout := timeout.getD k.timeout
  verify := k.verifyTls
  accept := "application/json"
  payload := some (.object [("message", .text (Base64.encode message)),
    ("signature", .text (Base64.encode signature)), ("publicKeyJwk", .object members)])

def object (task : RemoteTask) (reply : Reply) : Outcome Members := do
  match ← reply.value k.room with
  | .ok (.object members) => return members
  | .ok _ => throw (k.fault (.exchange task .body))
  | .error fault => throw (k.fault (.exchange task fault))

/-- One request is sent for a task, and what comes of it is what the reply says. -/
theorem exchange_ends {task : RemoteTask} {method suffix : Text} {payload : Option Json} (s : σ) :
    let request : Request :=
      ⟨method, k.url suffix, timeout.getD k.timeout, k.verifyTls, "application/json", payload⟩
    (k.exchange client task method suffix timeout payload).Ends s
      (k.object task (client request s).1) (client request s).2 := by
  intro request
  have sent : (Http.exchange k.room client request).Ends s ((client request s).1.value k.room)
      (client request s).2 := ends_exchange.mpr ⟨rfl, rfl⟩
  rw [object]
  cases value : (client request s).1.value k.room with
  | error failure =>
    rw [value] at sent
    exact Action.ends_bind.mpr (.inr ⟨failure, sent, rfl⟩)
  | ok said =>
    rw [value] at sent
    refine Action.ends_bind.mpr (.inl ⟨said, _, sent, ?_⟩)
    cases said with
    | error fault => exact Action.ends_throw.mpr ⟨rfl, rfl⟩
    | ok data =>
      cases data with
      | object members => exact Action.ends_pure.mpr ⟨rfl, rfl⟩
      | _ => exact Action.ends_throw.mpr ⟨rfl, rfl⟩

theorem object_ok {task : RemoteTask} {reply : Reply} : k.object task reply = .ok members ↔
    ∃ status body, reply = .response status body ∧ isSuccess status = true ∧
      Json.parseBytes k.room body = .ok (.object members) := by
  rw [← Reply.value_ok, object, Outcome.bind_ok]
  constructor
  · rintro ⟨fault | data, value, said⟩
    · cases said
    · cases data with
      | object found =>
        obtain rfl := Outcome.pure_ok.mp said
        exact value
      | _ => cases said
  · intro value
    exact ⟨_, value, rfl⟩

/-- Without an object there is a cause for the task, unless the body nests too deeply or the client
failed in a way that is no fault of the exchange. -/
theorem object_error {task : RemoteTask} {reply : Reply} {failure : Failure}
    (stopped : k.object task reply = .error failure) :
    (∃ fault, failure = k.fault (.exchange task fault)) ∨
      (∃ container, failure = .nesting container) ∨ reply = .failed failure := by
  rw [object, Outcome.bind_error] at stopped
  rcases stopped with stopped | ⟨fault | data, _, said⟩
  · exact .inr (Reply.value_error stopped)
  · exact .inl ⟨fault, (Except.error.inj said).symm⟩
  · cases data with
    | object found => cases said
    | _ => exact .inl ⟨.body, (Except.error.inj said).symm⟩

def answer (reply : Reply) : Outcome Unit := do
  let members ← k.object .verify reply
  if (Members.get "valid" members).isTrue then return () else throw (.proof .invalidSignature)

theorem answer_ok {reply : Reply} : k.answer reply = .ok () ↔ reply.Affirms k.room := by
  rw [answer, Outcome.bind_ok]
  constructor
  · rintro ⟨members, object, said⟩
    obtain ⟨status, body, rfl, success, parsed⟩ := k.object_ok.mp object
    split at said
    · rename_i affirmed
      exact ⟨status, body, members, rfl, success, parsed, Json.isTrue_get.mp affirmed⟩
    · cases said
  · rintro ⟨status, body, members, rfl, success, parsed, affirmed⟩
    refine ⟨members, k.object_ok.mpr ⟨status, body, rfl, success, parsed⟩, ?_⟩
    exact if_pos (Json.isTrue_get.mpr affirmed)

/-- A reply that says anything else gives a cause of verification, unless the client reported a
cause of the proof layer itself. -/
theorem answer_error {reply : Reply} {failure : Failure} (said : k.answer reply = .error failure)
    (foreign : ∀ cause, reply ≠ .failed (.proof cause)) :
    ∃ cause, Verification.refused failure = .proof cause ∧ cause.IsVerification := by
  rcases Outcome.bind_error.mp said with stopped | ⟨members, _, said⟩
  · rcases k.object_error stopped with ⟨fault, rfl⟩ | ⟨container, rfl⟩ | rfl
    · exact ⟨_, rfl, .inr rfl⟩
    · exact ⟨_, rfl, .inl rfl⟩
    · cases failure with
      | proof cause => exact absurd rfl (foreign cause)
      | _ => exact ⟨_, rfl, .inl rfl⟩
  · split at said
    · cases said
    · obtain rfl := Except.error.inj said
      exact ⟨_, rfl, .inl rfl⟩

theorem verify_described (described : describe table key = .ok members) (s : σ) :
    (k.verify client table key message signature timeout).Ends s
      (k.answer (client (k.question timeout message signature members) s).1)
      (client (k.question timeout message signature members) s).2 := by
  rw [verify, described]
  refine Action.ends_bind.mpr (.inl ⟨members, s, Action.ends_ofOutcome.mpr ⟨rfl, rfl⟩, ?_⟩)
  have sent : (k.exchange client .verify "POST" "/verify" timeout
      (k.question timeout message signature members).payload).Ends s
      (k.object .verify (client (k.question timeout message signature members) s).1)
      (client (k.question timeout message signature members) s).2 := k.exchange_ends s
  rw [answer]
  cases object : k.object .verify (client (k.question timeout message signature members) s).1 with
  | error failure =>
    rw [object] at sent
    exact Action.ends_bind.mpr (.inr ⟨failure, sent, rfl⟩)
  | ok reply =>
    rw [object] at sent
    refine Action.ends_bind.mpr (.inl ⟨reply, _, sent, ?_⟩)
    by_cases affirmed : (Members.get "valid" reply).isTrue = true
    · simp only [affirmed, if_true, bind, Except.bind]
      exact Action.ends_pure.mpr ⟨rfl, rfl⟩
    · simp only [affirmed, bind, Except.bind]
      exact Action.ends_throw.mpr ⟨rfl, rfl⟩

theorem verify_undescribed {failure : Failure} (stopped : describe table key = .error failure)
    (s : σ) : (k.verify client table key message signature timeout).Ends s (.error failure) s := by
  rw [verify, stopped]
  rfl

inductive Plain : PublicKey → Prop
  | jwk {key : Jwk} {type : Text} : Plain (.jwk key type)
  | encoded {bytes : Bytes} {curve : Json} {type : Text} : Plain (.encoded bytes curve type)

/-- The members that are sent for a key stand for its point. -/
theorem describe_point {q : CurvePoint} (plain : Plain key)
    (described : describe table key = .ok members) (read : key.point table = .ok q) :
    (Jwk.ofMembers members).point table = .ok q := by
  cases plain with
  | jwk =>
    obtain rfl := Except.ok.inj described
    exact Outcome.rename_ok.mp read
  | encoded =>
    obtain ⟨e, named, _⟩ := Outcome.bind_ok.mp (Outcome.rename_ok.mp read)
    have on := Announces.encoded.point named read
    obtain ⟨_, read', written⟩ := Outcome.bind_ok.mp described
    obtain rfl := Except.ok.inj (read.symm.trans read')
    obtain ⟨exported, made, same⟩ := Outcome.bind_ok.mp written
    obtain rfl := Outcome.pure_ok.mp same
    exact (Jwk.point_toMembers table exported).trans (Jwk.point_ofPoint on made)

private theorem refused_other {failure : Failure}
    (own : ∀ cause, failure = .proof cause → cause.IsVerification) :
    ∃ cause, Verification.refused failure = .proof cause ∧ cause.IsVerification := by
  cases failure with
  | proof cause => exact ⟨cause, rfl, own cause rfl⟩
  | _ => exact ⟨_, rfl, .inl rfl⟩

private theorem decodePoint_error {e : CurveEntry} {bytes : Bytes} {cause : Cause} :
    PublicKey.decodePoint e bytes ≠ .error (.proof cause) := by
  intro stopped
  unfold PublicKey.decodePoint at stopped
  split at stopped
  · cases stopped
  · split at stopped
    · cases stopped
    · rcases Outcome.bind_error.mp stopped with missing | ⟨c, _, stopped⟩
      · unfold CurveLabel.curve at missing
        split at missing <;> cases missing
      · split at stopped <;> cases stopped

/-- A point that is not read gives a cause of verification, if it gives one. -/
private theorem point_error {bytes : Bytes} {curve : Json} {type : Text} {cause : Cause}
    (stopped : (PublicKey.encoded bytes curve type).point table = .error (.proof cause)) :
    cause.IsVerification := by
  obtain ⟨reason, unread, same⟩ := Outcome.rename_error.mp stopped
  cases reason with
  | proof known =>
    have family : known.family = .unsupportedCurve := by
      rcases Outcome.bind_error.mp unread with unnamed | ⟨e, _, unread⟩
      · rcases DetachedJws.ofValue_error unnamed with ⟨_, ⟨⟩, family⟩ | ⟨_, ⟨⟩⟩
        exact family
      · exact absurd unread decodePoint_error
    rw [PublicKey.unusable, if_pos family] at same
    obtain rfl := Failure.proof.inj same
    exact .inl rfl
  | _ =>
    unfold PublicKey.unusable at same
    dsimp only at same
    split at same
    · obtain rfl := Failure.proof.inj same
      exact .inl rfl
    · cases same

/-- The point of a key whose curve has an entry is exported, or its coordinates are too wide. -/
private theorem ofPoint_error {e : CurveEntry} {q : CurvePoint} {cause : Cause}
    (listed : e ∈ table.entries) (on : e.curve.curve = .ok q.curve) :
    Jwk.ofPoint table q .null ≠ .error (.proof cause) := by
  intro stopped
  rcases Outcome.bind_error.mp stopped with missing | ⟨_, _, stopped⟩
  · rw [CurveTable.ofCurve] at missing
    split at missing
    · cases missing
    · rename_i unlisted
      have other := List.find?_eq_none.mp unlisted e listed
      exact other (decide_eq_true (CurveLabel.curve_name on).symm)
  rcases Outcome.bind_error.mp stopped with wide | ⟨_, _, stopped⟩
  · dsimp only at wide
    split at wide <;> cases wide
  rcases Outcome.bind_error.mp stopped with wide | ⟨_, _, done⟩
  · dsimp only at wide
    split at wide <;> cases wide
  · cases done

/-- What a request says that was sent for a signature: the bytes of message and signature, and a key
of the same point. -/
def Transmits (table : CurveTable) (key : PublicKey) (message signature : Bytes)
    (request : Request) : Prop :=
  ∃ m t members, request.payload = some (.object [("message", .text m), ("signature", .text t),
      ("publicKeyJwk", .object members)]) ∧
    Base64.decode m = .ok message ∧ Base64.decode t = .ok signature ∧
    ∀ q, Plain key → key.point table = .ok q → (Jwk.ofMembers members).point table = .ok q

def Asks (table : CurveTable) (timeout : Option Timeout) (key : PublicKey)
    (message signature : Bytes) (request : Request) : Prop :=
  ∃ members, describe table key = .ok members ∧
    request = k.question timeout message signature members

theorem Asks.transmits {request : Request}
    (asks : k.Asks table timeout key message signature request) :
    Transmits table key message signature request := by
  obtain ⟨members, described, rfl⟩ := asks
  exact ⟨_, _, members, rfl, Base64.decode_encode _, Base64.decode_encode _,
    fun _ plain => describe_point plain described⟩

/-- A key without members to be sent gives a cause of verification. -/
theorem describe_error {failure : Failure} (stopped : describe table key = .error failure) :
    ∃ cause, Verification.refused failure = .proof cause ∧ cause.IsVerification := by
  refine refused_other fun cause same => ?_
  subst same
  cases key with
  | jwk => cases stopped
  | bound => cases stopped
  | other =>
    rcases Outcome.bind_error.mp stopped with unread | ⟨_, read, _⟩
    · cases unread
      exact .inl rfl
    · cases read
  | encoded bytes curve type =>
    rcases Outcome.bind_error.mp stopped with unread | ⟨q, read, stopped⟩
    · exact point_error unread
    · obtain ⟨e, named, _⟩ := Outcome.bind_ok.mp (Outcome.rename_ok.mp read)
      rcases Outcome.bind_error.mp stopped with unmade | ⟨_, _, done⟩
      · exact absurd unmade
          (ofPoint_error (CurveTable.ofValue_mem named) (Announces.encoded.point named read))
      · cases done

end RemoteKey

namespace Verification

open Http

section Stages

variable {σ : Type} (table : CurveTable) (fetch : Fetcher σ) (suites : SuiteTable σ) (d : Document)
  (index : Nat) (proof : Members)

/-- A check that gets from the state `s` as far as the verifier of its suite, which has its turn in
the state `t`: every stage in front of it passed. -/
inductive Reaches (s : σ) (suite : Suite σ) (key : PublicKey) (message signature : Bytes) (t : σ) :
    Prop
  | intro {r : Representation} {value : Text} {method : Method} {optionBytes documentBytes : Bytes}
    (registered : Registered suites proof suite)
    (carries : Carries proof r value)
    (names : Names proof method)
    (fetched : (fetch method.issuer method.keyId).Ends s (.ok key) t)
    (optionText : Document.canonicalize suite.canonicalizer (options proof) none = .ok optionBytes)
    (documentText : d.canonicalize suite.canonicalizer (some index) = .ok documentBytes)
    (presents : Presents suite.headerRoom table key
      (suite.digest.hash optionBytes ++ suite.digest.hash documentBytes) r value message signature)

variable {table fetch suites d index proof} {s t u : σ} {suite : Suite σ} {key : PublicKey}
  {message signature : Bytes} {o : Outcome Unit}

/-- From there on the verifier decides. -/
theorem Reaches.verdict (reaches : Reaches table fetch suites d index proof s suite key message
    signature t) (ended : (suite.verifier key message signature).Ends t o u) :
    (verdict table fetch suites d index proof).Ends s
      (concluded index proof (o.mapError refused)) u := by
  obtain @⟨r, value, _, _, _, registered, carries, names, fetched, optionText, documentText,
    presents⟩ := reaches
  have opened : (fetchKey fetch suites proof).Ends s (.ok ⟨suite, r, value, key⟩) t :=
    fetchKey_ok.mpr ⟨registered, carries, _, names, fetched⟩
  refine verdict_ends.mpr ⟨_, Action.ends_bind.mpr (.inl ⟨_, t, opened, ?_⟩), rfl⟩
  have payload := Suite.verifyData_ok.mpr ⟨_, _, optionText, documentText, rfl⟩
  refine Action.ends_bind.mpr (.inl ⟨_, t, Action.ends_ofOutcome.mpr ⟨payload, rfl⟩, ?_⟩)
  refine Action.ends_rename.mpr ⟨o, ?_, rfl⟩
  exact Action.ends_bind.mpr
    (.inl ⟨_, t, Action.ends_ofOutcome.mpr ⟨opening_ok.mpr presents, rfl⟩, ended⟩)

/-- A verdict is for a proof, or it is against it and has a cause. -/
theorem concluded_refused (index : Nat) (proof : Members) (o : Outcome Unit) :
    ∃ v, concluded index proof (o.mapError refused) = .ok v ∧ v.index = index ∧
      (v.valid = true ↔ o = .ok ()) ∧ (v.valid = true ↔ v.error = none) ∧
      ∀ failure cause, o = .error failure → refused failure = .proof cause →
        v.error = some cause := by
  cases o with
  | ok =>
    refine ⟨⟨index, stated "type" proof, stated "verificationMethod" proof, true, none⟩, rfl, rfl,
      iff_of_true rfl rfl, iff_of_true rfl rfl, ?_⟩
    intro _ _ stopped
    cases stopped
  | error failure =>
    obtain ⟨cause, same⟩ := refused_proof failure
    refine ⟨⟨index, stated "type" proof, stated "verificationMethod" proof, false, some cause⟩, ?_,
      rfl, iff_of_false nofun nofun, iff_of_false nofun nofun, ?_⟩
    · rw [error_mapError, same]
      rfl
    · intro _ _ stopped said
      obtain rfl := Except.error.inj stopped
      exact congrArg some (Failure.proof.inj (same.symm.trans said))

/-- Where a remote service checks the signatures, a proof that reaches the verifier has a verdict,
whatever the client does. It is valid exactly if a request was sent and the reply affirms; otherwise
it is invalid with a cause of verification. At most one request is sent, and it transmits what the
verifier was given. -/
theorem remote_verdict {k : RemoteKey} {client : Client σ} {timeout : Option Timeout}
    (reaches : Reaches table fetch suites d index proof s suite key message signature t)
    (remote : suite.verifier = (k.toBackend client table).toVerifier timeout) :
    ∃ v u, (verdict table fetch suites d index proof).Ends s (.ok v) u ∧ v.index = index ∧
      (v.valid = true ↔ ∃ request, k.Asks table timeout key message signature request ∧
        (client request t).1.Affirms k.room) ∧
      (v.valid = true ↔ v.error = none) ∧
      (client.Foreign → v.valid = false → ∃ cause, v.error = some cause ∧ cause.IsVerification) ∧
      (∀ request, k.Asks table timeout key message signature request →
        u = (client request t).2 ∧ RemoteKey.Transmits table key message signature request) ∧
      ((∀ request, ¬k.Asks table timeout key message signature request) → u = t) := by
  have verifier : suite.verifier key message signature =
      k.verify client table key message signature timeout := by rw [remote]; rfl
  cases described : RemoteKey.describe table key with
  | error failure =>
    have unasked : ∀ request, ¬k.Asks table timeout key message signature request := by
      rintro request ⟨members, described', _⟩
      cases described.symm.trans described'
    have ended := reaches.verdict (verifier ▸ k.verify_undescribed described t)
    obtain ⟨v, concluded, place, valid, sure, cause⟩ :=
      concluded_refused index proof (.error failure)
    rw [concluded] at ended
    refine ⟨v, t, ended, place, iff_of_false (mt valid.mp nofun) ?_, sure, fun _ _ => ?_,
      fun request asks => absurd asks (unasked request), fun _ => rfl⟩
    · rintro ⟨request, asks, _⟩
      exact unasked request asks
    · obtain ⟨reason, refused, verification⟩ := RemoteKey.describe_error described
      exact ⟨reason, cause failure reason rfl refused, verification⟩
  | ok members =>
    have ended := reaches.verdict (verifier ▸ k.verify_described described t)
    obtain ⟨v, concluded, place, valid, sure, cause⟩ := concluded_refused index proof
      (k.answer (client (k.question timeout message signature members) t).1)
    have asked : k.Asks table timeout key message signature
        (k.question timeout message signature members) := ⟨members, described, rfl⟩
    have only : ∀ request, k.Asks table timeout key message signature request →
        request = k.question timeout message signature members := by
      rintro request ⟨members', described', rfl⟩
      rw [Except.ok.inj (described.symm.trans described')]
    rw [concluded] at ended
    refine ⟨v, _, ended, place, ?_, sure, fun foreign invalid => ?_, fun request asks => ?_,
      fun unasked => absurd asked (unasked _)⟩
    · rw [valid, k.answer_ok]
      constructor
      · intro affirms
        exact ⟨_, asked, affirms⟩
      · rintro ⟨request, asks, affirms⟩
        rwa [only request asks] at affirms
    · cases said : k.answer (client (k.question timeout message signature members) t).1 with
      | ok => 
        rw [valid.mpr said] at invalid
        cases invalid
      | error failure =>
        obtain ⟨reason, refused, verification⟩ := k.answer_error said (foreign _ _)
        exact ⟨reason, cause failure reason said refused, verification⟩
    · exact ⟨by rw [only request asks], asks.transmits⟩

end Stages

def affirming : Client (List Request) := fun request past =>
  (.ofJson (.object [("valid", .bool true)]), past ++ [request])

def remoteKey : RemoteKey := ⟨"https://kms.example/", "k", .whole 5, true, Json.usualRoom⟩

def remoteSuite : Suite (List Request) where
  type := Suite.defaultType
  signer := none
  verifier := (remoteKey.toBackend affirming .initial).toVerifier none
  canonicalizer := ⟨false, Json.usualRoom⟩
  headerRoom := Json.usualRoom
  digest := Digest.sha256

def asked : Members :=
  [("type", .text "JsonWebSignature2020"), ("verificationMethod", .text "did:ex:1#k"),
    ("proofValue", .text "AA")]

def askedDocument : Document := [("id", .text "urn:1"), ("proof", .object asked)]

def askedKey : PublicKey := .jwk Jwk.loose PublicKey.defaultType

def askedFetcher : Fetcher (List Request) := fun _ _ => pure askedKey

def remoteTable : SuiteTable (List Request) := [(Suite.defaultType, remoteSuite)]

private theorem affirming_affirms (request : Request) (past : List Request) :
    (affirming request past).1.Affirms remoteKey.room := by
  have fits : Json.Fits remoteKey.room (.object [("valid", .bool true)]) := by
    refine .object fun m member => ?_
    obtain rfl := List.mem_singleton.mp member
    exact .bool true
  have clear : ¬Json.Broken ((Json.object [("valid", .bool true)]).render .literal) := by decide
  obtain ⟨status, body, same, success, parsed⟩ := Reply.value_ok.mp (Reply.ofJson_value fits clear)
  exact ⟨status, body, _, same, success, parsed, rfl⟩

set_option maxRecDepth 8000 in
private theorem asked_reaches : ∃ message, Reaches .initial askedFetcher remoteTable
    askedDocument 0 asked [] remoteSuite askedKey message [0] [] := by
  have names : Names asked ⟨"did:ex:1", "k"⟩ := ⟨rfl, by decide, by decide, by decide⟩
  have optionText : Document.canonicalize ⟨false, Json.usualRoom⟩ (options asked) none =
    .ok (Bytes.ofCodes
      "\x7b\"type\":\"JsonWebSignature2020\",\"verificationMethod\":\"did:ex:1#k\"\x7d") := rfl
  have documentText : askedDocument.canonicalize ⟨false, Json.usualRoom⟩ (some ↑(0 : Nat)) =
    .ok (Bytes.ofCodes "\x7b\"id\":\"urn:1\"\x7d") := rfl
  have decoded : DetachedJws.decodePart "AA" = .ok [0] := rfl
  exact ⟨_, .intro ⟨Suite.defaultType, .inl rfl, rfl⟩ (.proofValue rfl (by decide)) names rfl
    optionText documentText (.proofValue decoded)⟩

theorem remote_verdict_affirmed : affirming.Foreign ∧ ∃ v u,
    (verdict .initial askedFetcher remoteTable askedDocument 0 asked).Ends [] (.ok v) u ∧
    v.valid = true ∧ v.error = none ∧
    ∃ request, u = [request] ∧ ∃ message,
      RemoteKey.Transmits .initial askedKey message [0] request := by
  obtain ⟨message, reaches⟩ := asked_reaches
  have remote : remoteSuite.verifier =
    (remoteKey.toBackend affirming .initial).toVerifier none := rfl
  obtain ⟨v, u, ended, _, valid, sure, _, sent, _⟩ := remote_verdict reaches remote
  have asks : remoteKey.Asks .initial none askedKey message [0]
      (remoteKey.question none message [0] Jwk.loose.toMembers) := ⟨_, rfl, rfl⟩
  have isValid := valid.mpr ⟨_, asks, affirming_affirms _ _⟩
  obtain ⟨rfl, transmits⟩ := sent _ asks
  exact ⟨fun _ _ _ => nofun, v, _, ended, isValid, sure.mp isValid, _, rfl, message, transmits⟩

end Verification

end LinkedProof
