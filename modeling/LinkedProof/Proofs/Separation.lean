import LinkedProof.Proofs.Token

/-! What a message stands for. Under one digest all verify data have one length, so the length of a
message tells verify data that stand alone from those behind a header part and its point, and cuts
the latter in two. Whoever is handed a message can tell what it was made of, and so a signature can
be used for something else only where it goes with two messages. -/
namespace LinkedProof

variable {σ τ α : Type}

def Action.keeping (message : Bytes) (a : Action σ α) : Action (List Bytes × σ) α := do
  modify fun (past, s) => (past ++ [message], s)
  a.onSecond

theorem Action.ends_keeping {a : Action σ α} {m : Bytes} {past past' : List Bytes} {s t : σ}
    {o : Outcome α} : (a.keeping m).Ends (past, s) o (past', t) ↔
      a.Ends s o t ∧ past ++ [m] = past' := by
  rw [keeping, ends_bind]
  constructor
  · rintro (⟨_, _, kept, ended⟩ | ⟨_, kept, _⟩)
    · obtain ⟨_, rfl⟩ := ends_modify.mp kept
      exact ends_onSecond.mp ended
    · cases (ends_modify.mp kept).1
  · rintro ⟨ended, rfl⟩
    exact .inl ⟨⟨⟩, _, ends_modify.mpr ⟨rfl, rfl⟩, ends_onSecond.mpr ⟨ended, rfl⟩⟩

namespace Suite

open DetachedJws

def recorded (s : Suite σ) : Suite (List Bytes × σ) where
  type := s.type
  signer := s.signer.map fun signer =>
    ⟨signer.algorithm, fun message => (signer.sign message).keeping message⟩
  verifier := fun key message signature => (s.verifier key message signature).keeping message
  canonicalizer := s.canonicalizer
  headerRoom := s.headerRoom
  digest := s.digest

inductive Task
  | sign
  | verify (table : CurveTable) (key : PublicKey) (value : Text)

structure Operation where
  payload : Bytes
  representation : Representation
  task : Task

namespace Operation

def run (s : Suite σ) (op : Operation) : Action σ Text :=
  match op.task with
  | .sign => s.sign op.payload op.representation
  | .verify table key value => do
    s.verify table key op.payload op.representation value
    return value

/-- A message is handed to the signer or the verifier, whatever comes of it. -/
def Hands (s : Suite σ) (op : Operation) (u : σ) (message : Bytes) : Prop :=
  ∃ o past t, (op.run s.recorded).Ends ([], u) o (past, t) ∧ message ∈ past

def header? (s : Suite σ) (op : Operation) : Option Text :=
  match op.task with
  | .sign => s.signer.map fun signer => headerPart signer.algorithm
  | .verify _ _ value => some (Text.before '.' value)

/-- Operations that do not differ in anything that a signature is to vouch for. -/
structure Matches (s : Suite σ) (op : Operation) (s' : Suite τ) (op' : Operation) : Prop where
  representation : op.representation = op'.representation
  payload : op.payload = op'.payload
  header : op.representation = .jws → op.header? s = op'.header? s'

/-- The signature goes with the message: the signer made it for this message, or the verifier took
it under the key. -/
def Vouches (s : Suite σ) (op : Operation) (message signature : Bytes) : Prop :=
  match op.task with
  | .sign => ∃ signer u t, s.signer = some signer ∧ (signer.sign message).Ends u (.ok signature) t
  | .verify _ key _ => ∃ u t, (s.verifier key message signature).Ends u (.ok ()) t

end Operation

inductive Carried : Representation → Text → Bytes → Prop
  | proofValue {value : Text} {signature : Bytes} (decoded : decodePart value = .ok signature) :
    Carried .proofValue value signature
  | jws {token header : Text} {signature : Bytes} (parted : Parted token header signature) :
    Carried .jws token signature

section Handing

variable {s : Suite σ} {s' : Suite τ} {op op' : Operation} {payload message signature : Bytes}
  {r : Representation} {table : CurveTable} {key : PublicKey} {value : Text} {u t : σ} {u' t' : τ}

/-- A suite that goes on with what it has kept hands over this one message. -/
private theorem mem_kept {a : Action σ α} {f : α → Text} {m : Bytes} :
    (∃ o past t, (do return f (← a.keeping m) : Action (List Bytes × σ) Text).Ends ([], u) o
      (past, t) ∧ message ∈ past) ↔ message = m := by
  constructor
  · rintro ⟨o, past, t, ended, member⟩
    have kept : [m] = past := by
      rcases Action.ends_bind.mp ended with ⟨_, _, handed, done⟩ | ⟨_, handed, _⟩
      · obtain ⟨_, rfl⟩ := Action.ends_pure.mp done
        exact (Action.ends_keeping.mp handed).2
      · exact (Action.ends_keeping.mp handed).2
    rw [← kept] at member
    exact List.mem_singleton.mp member
  · rintro rfl
    obtain ⟨o, t, ended⟩ := Action.ends_some a u
    have handed : (a.keeping message).Ends ([], u) o ([message], t) :=
      Action.ends_keeping.mpr ⟨ended, rfl⟩
    cases o with
    | ok value =>
      refine ⟨.ok (f value), [message], t, ?_, List.mem_singleton_self message⟩
      exact Action.ends_bind.mpr (.inl ⟨value, _, handed, Action.ends_pure.mpr ⟨rfl, rfl⟩⟩)
    | error failure =>
      refine ⟨.error failure, [message], t, ?_, List.mem_singleton_self message⟩
      exact Action.ends_bind.mpr (.inr ⟨failure, handed, rfl⟩)

private theorem not_kept {failure : Failure} :
    ¬∃ o past t, (throw failure : Action (List Bytes × σ) Text).Ends ([], u) o (past, t) ∧
      message ∈ past := by
  rintro ⟨o, past, t, ended, member⟩
  obtain ⟨rfl, _⟩ := Prod.mk.inj (Action.ends_throw.mp ended).2
  cases member

theorem hands_sign : Operation.Hands s ⟨payload, r, .sign⟩ u message ↔
    ∃ signer, s.signer = some signer ∧ message = signedMessage signer.algorithm payload r := by
  rw [Operation.Hands, Operation.run]
  cases holds : s.signer with
  | none =>
    have stops : s.recorded.sign payload r = throw (.proof (.suiteWithoutSigner s.type)) := by
      rw [sign, recorded, holds]
      rfl
    simp only [stops]
    refine iff_of_false not_kept ?_
    rintro ⟨_, other, _⟩
    cases other
  | some signer =>
    have keeps : s.recorded.signer = some ⟨signer.algorithm,
        fun message => (signer.sign message).keeping message⟩ := by
      rw [recorded, holds]
      rfl
    simp only [sign_eq keeps, mem_kept]
    simp

theorem hands_verify : Operation.Hands s ⟨payload, r, .verify table key value⟩ u message ↔
    ∃ signature, opening s.headerRoom table key payload r value = .ok (message, signature) := by
  rw [Operation.Hands, Operation.run]
  cases opened : opening s.headerRoom table key payload r value with
  | error failure =>
    have stops : (do s.recorded.verify table key payload r value; return value) =
        (throw failure : Action (List Bytes × σ) Text) := by
      rw [verify, recorded, opened]
      rfl
    simp only [stops]
    refine iff_of_false not_kept ?_
    rintro ⟨_, other⟩
    cases other
  | ok found =>
    obtain ⟨m, signature⟩ := found
    have keeps : s.recorded.verify table key payload r value =
        (s.verifier key m signature).keeping m := by
      rw [verify, recorded, opened]
      rfl
    simp only [keeps]
    rw [mem_kept]
    simp [eq_comm]

/-- What a message is made of: verify data alone, or behind the header part of a token. -/
theorem Operation.Hands.made (hands : op.Hands s u message) :
    (op.representation = .proofValue ∧ message = op.payload) ∨
    (op.representation = .jws ∧ ∃ header, op.header? s = some header ∧
      (∀ c ∈ header, c.isAscii = true) ∧ message = Bytes.ofCodes header ++ 0x2E :: op.payload) := by
  obtain ⟨payload, r, task⟩ := op
  cases task with
  | sign =>
    obtain ⟨signer, holds, rfl⟩ := hands_sign.mp hands
    cases r with
    | proofValue => exact .inl ⟨rfl, rfl⟩
    | jws =>
      refine .inr ⟨rfl, headerPart signer.algorithm, ?_, ?_, rfl⟩
      · exact congrArg (Option.map _) holds
      · exact List.all_eq_true.mp (Base64.encode_ascii _)
  | verify table key value =>
    obtain ⟨signature, opened⟩ := hands_verify.mp hands
    cases r with
    | proofValue =>
      cases Verification.opening_ok.mp opened with
      | proofValue _ => exact .inl ⟨rfl, rfl⟩
    | jws =>
      obtain ⟨header, ⟨⟨part, rfl, points, _⟩, members, declared, _⟩, rfl⟩ :=
        opening_iff.mp opened
      refine .inr ⟨rfl, header, ?_, ?_, rfl⟩
      · rw [List.append_assoc]
        exact congrArg some (Text.before_append points.1 (CodePoint.ofChar '.' :: part))
      · exact List.all_eq_true.mp (Declared.ascii declared)

/-- Where all verify data are of one length, a message was made of one thing only. -/
theorem Operation.matches_of_hands (long : op.payload.length = op'.payload.length)
    (hands : op.Hands s u message) (hands' : op'.Hands s' u' message) : op.Matches s s' op' := by
  rcases hands.made with ⟨alone, made⟩ | ⟨token, header, part, ascii, made⟩
  · rcases hands'.made with ⟨alone', made'⟩ | ⟨_, header', _, _, made'⟩
    · refine ⟨alone.trans alone'.symm, made.symm.trans made', ?_⟩
      intro token
      cases alone.symm.trans token
    -- A point and a header part make a message longer than verify data are.
    · have longer := congrArg List.length (made.symm.trans made')
      simp only [List.length_append, List.length_cons] at longer
      omega
  · rcases hands'.made with ⟨_, made'⟩ | ⟨token', header', part', ascii', made'⟩
    · have longer := congrArg List.length (made.symm.trans made')
      simp only [List.length_append, List.length_cons] at longer
      omega
    · obtain ⟨front, back⟩ := List.append_inj' (made.symm.trans made')
        (by rw [List.length_cons, List.length_cons, long])
      refine ⟨token.trans token'.symm, (List.cons.inj back).2, fun _ => ?_⟩
      rw [part, part', Bytes.ofCodes_inj ascii ascii' front]

theorem Carried.unique {other : Bytes} (carried : Carried r value signature)
    (carried' : Carried r value other) : signature = other := by
  cases carried with
  | proofValue decoded =>
    cases carried' with
    | proofValue decoded' => exact Except.ok.inj (decoded.symm.trans decoded')
  | jws parted =>
    cases carried' with
    | jws parted' =>
      have split := (Verification.split_ok.mpr parted).symm.trans
        (Verification.split_ok.mpr parted')
      exact (Prod.mk.inj (Except.ok.inj split)).2

theorem carried_signatureText (algorithm : Text) (signature : Bytes) (r : Representation) :
    Carried r (signatureText algorithm signature r) signature := by
  cases r with
  | proofValue => exact .proofValue (decodePart_encode signature)
  | jws => exact .jws (parted_token (Base64.encode_clear _) signature)

theorem carried_of_opening {room : Nat}
    (opened : opening room table key payload r value = .ok (message, signature)) :
    Carried r value signature := by
  cases Verification.opening_ok.mp opened with
  | proofValue decoded => exact .proofValue decoded
  | jws points decoded => exact .jws ⟨_, rfl, points, decoded⟩

/-- An operation that succeeds vouches for the message that it handed over, by the signature in its
text. -/
theorem Operation.vouches_of_ends (ended : (op.run s).Ends u (.ok value) t)
    (carried : Carried op.representation value signature) :
    ∃ message, op.Hands s u message ∧ op.Vouches s message signature := by
  obtain ⟨payload, r, task⟩ := op
  cases task with
  | sign =>
    obtain ⟨signer, made, holds, signed, rfl⟩ := sign_ok.mp ended
    obtain rfl := (carried_signatureText signer.algorithm made r).unique carried
    exact ⟨_, hands_sign.mpr ⟨signer, holds, rfl⟩, signer, u, t, holds, signed⟩
  | verify table key text =>
    obtain ⟨_, _, checked, done⟩ := Action.ends_bind_ok.mp ended
    obtain ⟨same, rfl⟩ := Action.ends_pure.mp done
    obtain rfl := Except.ok.inj same
    obtain ⟨⟨message, given⟩, _, opened, taken⟩ := Action.ends_bind_ok.mp checked
    obtain ⟨found, rfl⟩ := Action.ends_ofOutcome.mp opened
    obtain rfl := (carried_of_opening found).unique carried
    exact ⟨message, hands_verify.mpr ⟨given, found⟩, u, _, taken⟩

theorem length_verifyData {d options : Document} {exclude : Option Int} {data : Bytes}
    (built : s.verifyData d options exclude = .ok data) : data.length = 2 * s.digest.size := by
  obtain ⟨x, y, _, _, rfl⟩ := verifyData_ok.mp built
  rw [List.length_append, s.digest.length_hash, s.digest.length_hash]
  omega

/-- Suites with one digest hand the same message to a signer or a verifier only for the same verify
data in the same representation and, in a token, behind the same header part. A signature that was
made or taken for one operation goes through in a different one only if it is vouched for with two
messages. -/
theorem messages_separated {d d' options options' : Document} {exclude exclude' : Option Int}
    (shared : s.digest = s'.digest) (built : s.verifyData d options exclude = .ok op.payload)
    (built' : s'.verifyData d' options' exclude' = .ok op'.payload) :
    (∀ message u u', op.Hands s u message → op'.Hands s' u' message → op.Matches s s' op') ∧
    ∀ signature value value' u t u' t', (op.run s).Ends u (.ok value) t →
      (op'.run s').Ends u' (.ok value') t' → Carried op.representation value signature →
      Carried op'.representation value' signature → ¬op.Matches s s' op' →
      ∃ message message', message ≠ message' ∧
        (op.Hands s u message ∧ op.Vouches s message signature) ∧
        op'.Hands s' u' message' ∧ op'.Vouches s' message' signature := by
  have long : op.payload.length = op'.payload.length := by
    rw [length_verifyData built, length_verifyData built', shared]
  refine ⟨fun message u u' => Operation.matches_of_hands long, ?_⟩
  intro signature value value' u t u' t' ended ended' carried carried' differ
  obtain ⟨message, hands, vouches⟩ := Operation.vouches_of_ends ended carried
  obtain ⟨message', hands', vouches'⟩ := Operation.vouches_of_ends ended' carried'
  refine ⟨message, message', ?_, ⟨hands, vouches⟩, hands', vouches'⟩
  rintro rfl
  exact differ (Operation.matches_of_hands long hands hands')

end Handing

section Copies

def copying : Suite Unit := { trusting with signer := some ⟨"ES256", pure⟩ }

def unannounced : PublicKey := .other .null

def copiedToken (data : Bytes) : Text :=
  signatureText "ES256" (signedMessage "ES256" data .jws) .jws

private theorem copied_opening (data : Bytes) :
    opening trusting.headerRoom .initial unannounced data .jws (copiedToken data) =
      .ok (signedMessage "ES256" data .jws, signedMessage "ES256" data .jws) :=
  Verification.opening_ok.mpr (presents_signatureText fun _ => nofun)

/-- The message of a token is the one that was signed; as a value of its own the signature goes with
another message. -/
theorem messages_separated_copied : ∃ data,
    let made : Operation := ⟨data, .jws, .sign⟩
    let checked : Operation := ⟨data, .jws, .verify .initial unannounced (copiedToken data)⟩
    let signature := signedMessage "ES256" data .jws
    let replayed : Operation :=
      ⟨data, .proofValue, .verify .initial unannounced (Base64.encode signature)⟩
    copying.digest = trusting.digest ∧
    copying.verifyData [] plainOptions (some 0) = .ok data ∧
    trusting.verifyData [] plainOptions (some 1) = .ok data ∧
    made.Hands copying () signature ∧ checked.Hands trusting () signature ∧
    made.Matches copying trusting checked ∧
    ¬made.Matches copying trusting replayed ∧
    ∃ message message', message ≠ message' ∧
      (made.Hands copying () message ∧ made.Vouches copying message signature) ∧
      replayed.Hands trusting () message' ∧ replayed.Vouches trusting message' signature := by
  have built : ∃ data, copying.verifyData [] plainOptions (some 0) = .ok data ∧
      trusting.verifyData [] plainOptions (some 1) = .ok data :=
    ⟨_, verifyData_ok.mpr ⟨_, _, rfl, rfl, rfl⟩, verifyData_ok.mpr ⟨_, _, rfl, rfl, rfl⟩⟩
  obtain ⟨data, first, second⟩ := built
  refine ⟨data, ?_⟩
  intro made checked signature replayed
  have hands : made.Hands copying () signature := hands_sign.mpr ⟨_, rfl, rfl⟩
  have hands' : checked.Hands trusting () signature := hands_verify.mpr ⟨_, copied_opening data⟩
  have same := @messages_separated _ _ copying trusting made checked
  have apart := @messages_separated _ _ copying trusting made replayed
  have differ : ¬made.Matches copying trusting replayed := fun same => nomatch same.representation
  have signed : (copying.sign data .jws).Ends () (.ok (copiedToken data)) () :=
    sign_ok.mpr ⟨⟨"ES256", pure⟩, signature, rfl, Action.ends_pure.mpr ⟨rfl, rfl⟩, rfl⟩
  have opened : opening trusting.headerRoom .initial unannounced data .proofValue
      (Base64.encode signature) = .ok (data, signature) :=
    Verification.opening_ok.mpr (.proofValue (decodePart_encode signature))
  have taken : (replayed.run trusting).Ends () (.ok (Base64.encode signature)) () := by
    refine Action.ends_bind_ok.mpr ⟨(), (), ?_, Action.ends_pure.mpr ⟨rfl, rfl⟩⟩
    refine Action.ends_bind_ok.mpr ⟨_, (), Action.ends_ofOutcome.mpr ⟨opened, rfl⟩, ?_⟩
    exact Action.ends_pure.mpr ⟨rfl, rfl⟩
  refine ⟨rfl, first, second, hands, hands', ?_, differ, ?_⟩
  · exact (same rfl first second).1 signature () () hands hands'
  · exact (apart rfl first second).2 signature _ _ () () () () signed taken
      (carried_signatureText "ES256" signature .jws) (.proofValue (decodePart_encode signature))
      differ

end Copies

end Suite

end LinkedProof
