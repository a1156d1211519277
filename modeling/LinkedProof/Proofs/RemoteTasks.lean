import LinkedProof.Proofs.KeyRefusals
import LinkedProof.Proofs.RemoteVerdicts

/-! What becomes of the three tasks of a remote key service. Each of them sends one request and is
settled by the reply: by the object of a success if there is one, else by a cause of the task.
Bodies that nest too deeply are neither, and what they stop at is no cause of the proof layer. -/
namespace LinkedProof

open DetachedJws (IsRefusal)

namespace Http.Reply

variable {room : Nat} {reply : Reply} {failure : Failure} {members others : Members}

def Holds (room : Nat) (reply : Reply) (members : Members) : Prop :=
  ∃ status body, reply = .response status body ∧ isSuccess status = true ∧
    Json.parseBytes room body = .ok (.object members)

theorem Holds.unique (holds : reply.Holds room members) (holds' : reply.Holds room others) :
    others = members := by
  cases (value_ok.mpr holds).symm.trans (value_ok.mpr holds')
  rfl

theorem Holds.caught (holds : reply.Holds room members) : ¬reply.Escapes room failure := by
  intro escapes
  cases (value_ok.mpr holds).symm.trans (value_error_iff.mpr escapes)

end Http.Reply

open Http

def RemoteTask.denial : RemoteTask → Family
  | .describe => .keyResolution
  | .sign => .signing
  | .verify => .verification

/-- An outcome of a task that is settled by the reply. What the members of an object are good for is
left to the task. -/
structure RemoteTask.Follows {α : Type} (task : RemoteTask) (room : Nat)
    (grants : Members → α → Prop) (reply : Reply) (outcome : Outcome α) : Prop where
  granted : ∀ value, outcome = .ok value ↔
    ∃ members, reply.Holds room members ∧ grants members value
  denied : ∀ members, reply.Holds room members → (∀ value, ¬grants members value) →
    ∃ cause, outcome = .error (.proof cause) ∧ cause.family = task.denial
  missing : (∀ members, ¬reply.Holds room members) → (∀ failure, ¬reply.Escapes room failure) →
    ∃ cause, outcome = .error (.proof cause) ∧ cause.family = task.family
  escaped : ∀ failure, reply.Escapes room failure → outcome = .error failure

namespace RemoteTask.Follows

variable {α : Type} {task : RemoteTask} {room : Nat} {grants : Members → α → Prop} {reply : Reply}
  {members : Members} {outcome : Outcome α}

theorem of_grant {value : α} (holds : reply.Holds room members) (granted : grants members value)
    (only : ∀ other, grants members other → other = value) :
    task.Follows room grants reply (.ok value) := by
  refine ⟨?_, ?_, ?_, ?_⟩
  · intro other
    constructor
    · intro same
      obtain rfl := Except.ok.inj same
      exact ⟨members, holds, granted⟩
    · intro ⟨others, holds', granted'⟩
      obtain rfl := holds.unique holds'
      rw [only other granted']
  · intro others holds' none
    obtain rfl := holds.unique holds'
    exact absurd granted (none value)
  · intro without
    exact absurd holds (without members)
  · intro failure escapes
    exact absurd escapes holds.caught

theorem of_denial {cause : Cause} (holds : reply.Holds room members)
    (none : ∀ value, ¬grants members value) (family : cause.family = task.denial) :
    task.Follows room grants reply (.error (.proof cause)) := by
  refine ⟨?_, ?_, ?_, ?_⟩
  · intro value
    apply iff_of_false
    · intro same
      cases same
    · intro ⟨others, holds', granted⟩
      obtain rfl := holds.unique holds'
      exact none value granted
  · intro _ _ _
    exact ⟨cause, rfl, family⟩
  · intro without
    exact absurd holds (without members)
  · intro failure escapes
    exact absurd escapes holds.caught

/-- Whether the service answered can be told from the family of the cause. -/
theorem unavailable_iff (follows : RemoteTask.verify.Follows room grants reply outcome)
    (caught : ∀ failure, ¬reply.Escapes room failure) :
    (∃ cause, outcome = .error (.proof cause) ∧ cause.family = .backendUnavailable) ↔
      ∀ members, ¬reply.Holds room members := by
  constructor
  · intro ⟨cause, stopped, family⟩ members holds
    by_cases grant : ∃ value, grants members value
    · obtain ⟨value, granted⟩ := grant
      cases stopped.symm.trans ((follows.granted value).mpr ⟨members, holds, granted⟩)
    · obtain ⟨cause', stopped', family'⟩ :=
        follows.denied members holds fun value granted => grant ⟨value, granted⟩
      cases stopped.symm.trans stopped'
      cases family.symm.trans family'
  · intro without
    exact follows.missing without caught

end RemoteTask.Follows

theorem Members.get_text {members : Members} {name t : Text} : members.get name = .text t ↔
    members.get? name = some (.text t) := by
  unfold get
  cases members.get? name <;> simp

theorem Members.get_object {members inner : Members} {name : Text} :
    members.get name = .object inner ↔ members.get? name = some (.object inner) := by
  unfold get
  cases members.get? name <;> simp

namespace RemoteKey

variable {σ α : Type} (k : RemoteKey) {client : Client σ} {task : RemoteTask} {reply : Reply}
  {failure : Failure} {members : Members} {grants : Members → α → Prop} {timeout : Option Timeout}
  {s : σ}

theorem object_escaped (escapes : reply.Escapes k.room failure) :
    k.object task reply = .error failure :=
  Outcome.bind_error.mpr (.inl (Reply.value_error_iff.mpr escapes))

theorem object_missing (without : ∀ members, ¬reply.Holds k.room members)
    (caught : ∀ failure, ¬reply.Escapes k.room failure) :
    ∃ fault, k.object task reply = .error (k.fault (.exchange task fault)) := by
  rw [object]
  cases value : reply.value k.room with
  | error failure => exact absurd (Reply.value_error_iff.mp value) (caught failure)
  | ok said =>
    cases said with
    | error fault => exact ⟨fault, rfl⟩
    | ok data =>
      cases data with
      | object members => exact absurd (Reply.value_ok.mp value) (without members)
      | _ => exact ⟨.body, rfl⟩

/-- What a task does with an object: it takes a value from it or throws a cause, and asks for
nothing more. -/
structure Judges (task : RemoteTask) (grants : Members → α → Prop) (next : Members → Action σ α) :
    Prop where
  granted : ∀ members value s, grants members value → (next members).Ends s (.ok value) s
  denied : ∀ members s, (∀ value, ¬grants members value) →
    ∃ cause, (next members).Ends s (.error (.proof cause)) s ∧ cause.family = task.denial

/-- One request is sent for a task whose outcome follows from the reply. -/
def Performs (client : Client σ) (request : Request) (task : RemoteTask)
    (grants : Members → α → Prop) (s : σ) (a : Action σ α) : Prop :=
  ∃ outcome, a.Ends s outcome (client request s).2 ∧
    task.Follows k.room grants (client request s).1 outcome

theorem Judges.follows {k : RemoteKey} {next : Members → Action σ α}
    (judges : Judges task grants next) (holds : reply.Holds k.room members) (s : σ) :
    ∃ outcome, (next members).Ends s outcome s ∧ task.Follows k.room grants reply outcome := by
  by_cases grant : ∃ value, grants members value
  · obtain ⟨value, granted⟩ := grant
    have ended := judges.granted members value s granted
    refine ⟨_, ended, .of_grant holds granted ?_⟩
    intro other granted'
    exact Except.ok.inj ((judges.granted members other s granted').unique ended).1
  · have none (value : α) : ¬grants members value := fun granted => grant ⟨value, granted⟩
    obtain ⟨cause, ended, family⟩ := judges.denied members s none
    exact ⟨_, ended, .of_denial holds none family⟩

theorem follows_failure (stopped : k.object task reply = .error failure) :
    task.Follows k.room grants reply (.error failure : Outcome α) := by
  have without (members : Members) : ¬reply.Holds k.room members := by
    intro holds
    cases stopped.symm.trans (k.object_ok.mpr holds)
  refine ⟨?_, ?_, ?_, ?_⟩
  · intro value
    apply iff_of_false
    · intro same
      cases same
    · intro ⟨members, holds, _⟩
      exact without members holds
  · intro members holds
    exact absurd holds (without members)
  · intro _ caught
    obtain ⟨fault, missing⟩ : ∃ fault, k.object task reply = .error _ :=
      k.object_missing without caught
    obtain rfl := Except.error.inj (stopped.symm.trans missing)
    exact ⟨_, rfl, rfl⟩
  · intro reason escapes
    obtain rfl := Except.error.inj (stopped.symm.trans (k.object_escaped escapes))
    rfl

def request (timeout : Option Timeout) (method suffix : Text) (payload : Option Json) :
    Request where
  method := method
  url := k.url suffix
  timeout := timeout.getD k.timeout
  verify := k.verifyTls
  accept := "application/json"
  payload := payload

theorem exchange_performs {next : Members → Action σ α} {method suffix : Text}
    {payload : Option Json} (judges : Judges task grants next) (s : σ) :
    k.Performs client (k.request timeout method suffix payload) task grants s
      (k.exchange client task method suffix timeout payload >>= next) := by
  generalize sender : k.request timeout method suffix payload = request
  have sent : (k.exchange client task method suffix timeout payload).Ends s
      (k.object task (client request s).1) (client request s).2 := sender ▸ k.exchange_ends s
  cases object : k.object task (client request s).1 with
  | error failure =>
    rw [object] at sent
    exact ⟨_, Action.ends_bind.mpr (.inr ⟨failure, sent, rfl⟩), k.follows_failure object⟩
  | ok members =>
    rw [object] at sent
    obtain ⟨outcome, ended, follows⟩ := judges.follows (k.object_ok.mp object) (client request s).2
    exact ⟨outcome, Action.ends_bind.mpr (.inl ⟨members, _, sent, ended⟩), follows⟩

theorem Performs.ends_ok {k : RemoteKey} {request : Request} {a : Action σ α} {value : α}
    (performs : k.Performs client request task grants s a)
    (holds : (client request s).1.Holds k.room members) (granted : grants members value) :
    a.Ends s (.ok value) (client request s).2 := by
  obtain ⟨outcome, ended, follows⟩ := performs
  rwa [(follows.granted value).mpr ⟨members, holds, granted⟩] at ended

theorem Performs.ends_error {k : RemoteKey} {request : Request} {a : Action σ α}
    (performs : k.Performs client request task grants s a)
    (escapes : (client request s).1.Escapes k.room failure) :
    a.Ends s (.error failure) (client request s).2 := by
  obtain ⟨outcome, ended, follows⟩ := performs
  rwa [follows.escaped failure escapes] at ended

def Signed (members : Members) (signature : Bytes) : Prop :=
  ∃ text, members.get? "signature" = some (.text text) ∧ text ≠ [] ∧
    Base64.decode text = .ok signature

def Published (members : Members) (key : PublicKey) : Prop :=
  ∃ published, members.get? "publicKeyJwk" = some (.object published) ∧
    key = .jwk (Jwk.ofMembers published) PublicKey.defaultType

def Affirmed (members : Members) (_ : Unit) : Prop := members.get? "valid" = some (.bool true)

def signRequest (timeout : Option Timeout) (message : Bytes) : Request :=
  k.request timeout "POST" "/sign" (some (.object [("message", .text (Base64.encode message))]))

def keyRequest (timeout : Option Timeout) : Request := k.request timeout "GET" [] none

theorem sign_performs (timeout : Option Timeout) (message : Bytes) (s : σ) :
    k.Performs client (k.signRequest timeout message) .sign Signed s
      (k.sign client message timeout) := by
  apply k.exchange_performs
  constructor
  · intro members signature s signed
    obtain ⟨text, found, filled, decoded⟩ := signed
    cases text with
    | nil => exact absurd rfl filled
    | cons c rest =>
      simp only [Members.get_text.mpr found, decoded]
      exact Action.ends_pure.mpr ⟨rfl, rfl⟩
  · intro members s none
    split
    · rename_i c rest found
      split
      · rename_i signature decoded
        exact absurd ⟨_, Members.get_text.mp found, nofun, decoded⟩ (none signature)
      · exact ⟨_, Action.ends_throw.mpr ⟨rfl, rfl⟩, rfl⟩
    · exact ⟨_, Action.ends_throw.mpr ⟨rfl, rfl⟩, rfl⟩

theorem publicKey_performs (timeout : Option Timeout) (s : σ) :
    k.Performs client (k.keyRequest timeout) .describe Published s
      (k.publicKey client timeout) := by
  apply k.exchange_performs
  constructor
  · intro members key s published
    obtain ⟨inner, found, rfl⟩ := published
    simp only [Members.get_object.mpr found]
    exact Action.ends_pure.mpr ⟨rfl, rfl⟩
  · intro members s none
    split
    · rename_i inner found
      exact absurd ⟨inner, Members.get_object.mp found, rfl⟩ (none _)
    · exact ⟨_, Action.ends_throw.mpr ⟨rfl, rfl⟩, rfl⟩

theorem verify_performs {table : CurveTable} {key : PublicKey}
    (described : describe table key = .ok members) (timeout : Option Timeout)
    (message signature : Bytes) (s : σ) :
    k.Performs client (k.question timeout message signature members) .verify Affirmed s
      (k.verify client table key message signature timeout) := by
  rw [verify, described]
  apply k.exchange_performs
  constructor
  · intro members _ s affirmed
    rw [if_pos (Json.isTrue_get.mpr affirmed)]
    exact Action.ends_pure.mpr ⟨rfl, rfl⟩
  · intro members s none
    rw [if_neg (fun affirmed => none () (Json.isTrue_get.mp affirmed))]
    exact ⟨_, Action.ends_throw.mpr ⟨rfl, rfl⟩, rfl⟩

/-- The keys that can be put to the verifier of a service: a JSON Web Key, or bytes with the name of
a curve. -/
inductive Declared : PublicKey → Prop
  | jwk (key : Jwk) (type : Text) : Declared (.jwk key type)
  | encoded (bytes : Bytes) (curve type : Text) : Declared (.encoded bytes (.text curve) type)

theorem describe_refused {table : CurveTable} {key : PublicKey} (reachable : table.Reachable)
    (declared : Declared key) (stopped : describe table key = .error failure) :
    IsRefusal failure := by
  cases declared with
  | jwk => cases stopped
  | encoded bytes curve type =>
    rcases Outcome.bind_error.mp stopped with unread | ⟨q, read, stopped⟩
    · rcases PublicKey.point_error reachable unread with refusal | ⟨misread, _⟩
      · exact refusal
      · cases misread with
        | encoded unnamed => cases unnamed
    -- A point that was read lies on a curve with an entry, so it can be written as a key.
    · obtain ⟨e, named, _⟩ := Outcome.bind_ok.mp (Outcome.rename_ok.mp read)
      obtain ⟨first, _, binds⟩ := reachable.binds (CurveTable.ofValue_mem named)
        (Announces.encoded.point named read)
      rcases Outcome.bind_error.mp stopped with unmade | ⟨_, _, done⟩
      · cases unmade.symm.trans (Jwk.ofPoint_ok binds)
      · cases done

/-- Each task sends one request, and the reply settles the outcome: a value if it is a success with
an object that has one, a cause of the task's denial for any other object, a cause of the task's own
family without an object. Only what escapes the exchange is something else. A key that cannot be
described is refused before anything is sent. -/
theorem tasks_settled {table : CurveTable} (reachable : table.Reachable) (k : RemoteKey)
    (client : Client σ) (timeout : Option Timeout) (s : σ) :
    (∀ message, k.Performs client (k.signRequest timeout message) .sign Signed s
      (k.sign client message timeout)) ∧
    k.Performs client (k.keyRequest timeout) .describe Published s (k.publicKey client timeout) ∧
    ∀ key, Declared key → ∀ message signature,
      (∀ failure, describe table key = .error failure →
        (k.verify client table key message signature timeout).Ends s (.error failure) s ∧
        IsRefusal failure) ∧
      ∀ members, describe table key = .ok members →
        k.Performs client (k.question timeout message signature members) .verify Affirmed s
          (k.verify client table key message signature timeout) ∧
        ∀ outcome t, (k.verify client table key message signature timeout).Ends s outcome t →
          let reply := (client (k.question timeout message signature members) s).1
          (∀ failure, ¬reply.Escapes k.room failure) →
          ((∃ cause, outcome = .error (.proof cause) ∧ cause.family = .backendUnavailable) ↔
            ∀ members, ¬reply.Holds k.room members) := by
  refine ⟨fun message => k.sign_performs timeout message s, k.publicKey_performs timeout s, ?_⟩
  intro key declared message signature
  constructor
  · intro failure stopped
    exact ⟨k.verify_undescribed stopped s, describe_refused reachable declared stopped⟩
  · intro members described
    have performs : k.Performs client (k.question timeout message signature members) .verify
        Affirmed s (k.verify client table key message signature timeout) :=
      k.verify_performs described timeout message signature s
    refine ⟨performs, ?_⟩
    intro outcome t ended reply caught
    obtain ⟨outcome', ended', follows⟩ := performs
    obtain ⟨rfl, rfl⟩ := ended.unique ended'
    exact follows.unavailable_iff caught

open Verification (remoteKey)

def obligingMembers : Members :=
  [("signature", .text "AA"), ("publicKeyJwk", .object [("kty", .text "EC")]),
    ("valid", .bool true)]

def obliging : Client (List Request) := fun request past =>
  (.ofJson (.object obligingMembers), past ++ [request])

theorem obliging_holds (request : Request) (past : List Request) :
    (obliging request past).1.Holds remoteKey.room obligingMembers := by
  have fits : Json.Fits remoteKey.room (.object obligingMembers) := by
    apply Json.Fits.object
    intro m member
    simp only [obligingMembers, List.mem_cons, List.not_mem_nil, or_false] at member
    rcases member with rfl | rfl | rfl
    · exact .text _
    · apply Json.Fits.object
      intro m member
      obtain rfl := List.mem_singleton.mp member
      exact .text _
    · exact .bool _
  have clear : ¬Json.Broken ((Json.object obligingMembers).render .literal) := by decide
  exact Reply.value_ok.mp (Reply.ofJson_value fits clear)

def pointless : PublicKey := .encoded [] (.text "P-256") PublicKey.defaultType

def bareKey : PublicKey := .jwk (Jwk.ofMembers [("kty", .text "EC")]) PublicKey.defaultType

/-- A service that is good for each task. A key without a point is refused without asking it. -/
theorem tasks_settled_obliging : CurveTable.initial.Reachable ∧ Declared bareKey ∧
    Declared pointless ∧
    (remoteKey.sign obliging [1] none).Ends [] (.ok [0]) [remoteKey.signRequest none [1]] ∧
    (remoteKey.publicKey obliging none).Ends [] (.ok bareKey) [remoteKey.keyRequest none] ∧
    (∃ request, (remoteKey.verify obliging .initial bareKey [1] [0] none).Ends [] (.ok ())
      [request]) ∧
    ∃ failure, (remoteKey.verify obliging .initial pointless [1] [0] none).Ends [] (.error failure)
      [] ∧ IsRefusal failure := by
  obtain ⟨signs, shows, verifies⟩ := tasks_settled .initial remoteKey obliging none []
  have bare : Declared bareKey := .jwk _ _
  have unread : Declared pointless := .encoded _ _ _
  obtain ⟨_, described⟩ := verifies bareKey bare [1] [0]
  obtain ⟨refused, _⟩ := verifies pointless unread [1] [0]
  have affirmed : Affirmed obligingMembers () := rfl
  have taken := (described _ rfl).1.ends_ok (obliging_holds _ _) affirmed
  refine ⟨.initial, bare, unread, ?_, ?_, ⟨_, taken⟩, ⟨_, refused _ rfl⟩⟩
  · exact (signs [1]).ends_ok (obliging_holds _ _) ⟨"AA", rfl, by decide, rfl⟩
  · exact shows.ends_ok (obliging_holds _ _) ⟨_, rfl, rfl⟩

def nesting : Client Unit := fun _ s =>
  (.response 200 (List.replicate (Json.usualRoom + 1) 0x5B), s)

theorem nesting_escapes (request : Request) :
    (nesting request ()).1.Escapes remoteKey.room (.nesting .array) :=
  .nested rfl (Json.parseBytes_brackets (Nat.lt_succ_self _))

/-- Even when every request has a response, a task can fail with what is no cause of its own. -/
theorem tasks_not_closed :
    (¬∀ (k : RemoteKey) (client : Client Unit) (message : Bytes) (failure : Failure),
      (∀ request s, ∃ status body, (client request s).1 = .response status body) →
      (k.sign client message none).Ends () (.error failure) () →
      ∃ cause, failure = .proof cause ∧ cause.family = .signing) ∧
    (¬∀ (k : RemoteKey) (client : Client Unit) (failure : Failure),
      (∀ request s, ∃ status body, (client request s).1 = .response status body) →
      (k.publicKey client none).Ends () (.error failure) () →
      ∃ cause, failure = .proof cause ∧ cause.family = .keyResolution) ∧
    ¬∀ (k : RemoteKey) (client : Client Unit) (message signature : Bytes) (failure : Failure),
      (∀ request s, ∃ status body, (client request s).1 = .response status body) →
      (k.verify client .initial bareKey message signature none).Ends () (.error failure) () →
      ∃ cause, failure = .proof cause ∧ cause.IsVerification := by
  have responds (request : Request) (s : Unit) :
      ∃ status body, (nesting request s).1 = .response status body := ⟨_, _, rfl⟩
  refine ⟨?_, ?_, ?_⟩
  · intro closed
    have escaped := (remoteKey.sign_performs none [] ()).ends_error (nesting_escapes _)
    obtain ⟨cause, same, _⟩ := closed remoteKey nesting [] _ responds escaped
    cases same
  · intro closed
    have escaped := (remoteKey.publicKey_performs none ()).ends_error (nesting_escapes _)
    obtain ⟨cause, same, _⟩ := closed remoteKey nesting _ responds escaped
    cases same
  · intro closed
    have described : describe .initial bareKey = .ok _ := rfl
    have escaped := (remoteKey.verify_performs described none [] [] ()).ends_error
      (nesting_escapes _)
    obtain ⟨cause, same, _⟩ := closed remoteKey nesting [] [] _ responds escaped
    cases same

end RemoteKey

end LinkedProof
