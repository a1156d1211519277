import LinkedProof.Proofs.Binding
import LinkedProof.Proofs.Method
import LinkedProof.Verification

/-! What it takes for the check of one proof to succeed: every stage passes, and the verifier takes
the signature of the very message that document and options call for, under the very key that was
fetched. -/
namespace LinkedProof

namespace Verification

variable {σ : Type}

def Registered (suites : SuiteTable σ) (proof : Members) (suite : Suite σ) : Prop :=
  ∃ type, (proof.get? "type" = some (.text type) ∨ proof.get? "type" = none ∧ type = []) ∧
    suites.get? type = some suite

/-- The signature that a proof carries: a text under `proofValue`, or failing that one under `jws`,
and none of them empty. -/
inductive Carries (proof : Members) : Representation → Text → Prop
  | proofValue {value : Text} (found : proof.get? "proofValue" = some (.text value))
    (filled : value ≠ []) : Carries proof .proofValue value
  | jws {value : Text}
    (missing : ∀ other, proof.get? "proofValue" = some (.text other) → other = [])
    (found : proof.get? "jws" = some (.text value)) (filled : value ≠ []) :
    Carries proof .jws value

theorem mem_options {proof : Members} {m : Text × Json} :
    m ∈ options proof ↔ m ∈ proof ∧ m.1 ≠ "proofValue" ∧ m.1 ≠ "jws" := by
  simp only [options, Representation.all, List.mem_filter, List.all_cons, List.all_nil,
    Bool.and_true, Bool.and_eq_true, decide_eq_true_eq]
  rfl

/-- The verification method that a proof names: what stands before the first mark and behind it. -/
structure Names (proof : Members) (method : Method) : Prop where
  found : proof.get? "verificationMethod" = some (.text method.text)
  first : CodePoint.ofChar '#' ∉ method.issuer
  issuer : method.issuer ≠ []
  fragment : method.fragment ≠ []

theorem findSuite_ok {suites : SuiteTable σ} {proof : Members} {suite : Suite σ} :
    findSuite suites (member "type" proof) = .ok suite ↔ Registered suites proof suite := by
  unfold findSuite member Registered
  cases found : proof.get? "type" with
  | none => cases listed : suites.get? [] <;> simp [listed]
  | some v =>
    cases v with
    | text t => cases listed : suites.get? t <;> simp [listed]
    | _ => simp

private theorem text_or (v : Option Json) : (∃ t, v = some (.text t) ∧ t ≠ []) ∨
    ∀ t, v = some (.text t) → t = [] := by
  cases v with
  | none => exact .inr fun t same => nomatch same
  | some w =>
    cases w with
    | text t =>
      cases t with
      | nil => exact .inr fun t same => by cases same; rfl
      | cons c t => exact .inl ⟨c :: t, rfl, List.cons_ne_nil _ _⟩
    | _ => exact .inr fun t same => nomatch same

private def filledText (proof : Members) (r : Representation) : Option (Representation × Text) :=
  match proof.get r.key with
  | .text [] => none
  | .text value => some (r, value)
  | _ => none

private theorem filledText_some {proof : Members} {r : Representation} {value : Text}
    (found : proof.get? r.key = some (.text value)) (filled : value ≠ []) :
    filledText proof r = some (r, value) := by
  obtain ⟨c, rest, rfl⟩ := List.exists_cons_of_ne_nil filled
  simp [filledText, Members.get, found]

private theorem filledText_none {proof : Members} {r : Representation}
    (empty : ∀ t, proof.get? r.key = some (.text t) → t = []) : filledText proof r = none := by
  cases found : proof.get? r.key with
  | none => simp [filledText, Members.get, found]
  | some v =>
    cases v with
    | text t =>
      obtain rfl := empty t found
      simp [filledText, Members.get, found]
    | _ => simp [filledText, Members.get, found]

private theorem signatureValue_eq (proof : Members) : signatureValue proof =
    match [Representation.proofValue, .jws].findSome? (filledText proof) with
    | some signature => .ok signature
    | none => .error (.proof .noSignature) := rfl

theorem signatureValue_ok {proof : Members} {r : Representation} {value : Text} :
    signatureValue proof = .ok (r, value) ↔ Carries proof r value := by
  rw [signatureValue_eq, List.findSome?_cons, List.findSome?_cons, List.findSome?_nil]
  rcases text_or (proof.get? "proofValue") with ⟨t, found, filled⟩ | empty
  · have taken := filledText_some (r := .proofValue) found filled
    rw [taken]
    constructor
    · intro same
      obtain ⟨rfl, rfl⟩ := Prod.mk.inj (Except.ok.inj same)
      exact .proofValue found filled
    · intro carries
      cases carries with
      | proofValue found' _ =>
        rw [found] at found'
        cases found'
        rfl
      | jws missing _ _ => exact absurd (missing t found) filled
  · rw [filledText_none (r := .proofValue) empty]
    rcases text_or (proof.get? "jws") with ⟨t, found, filled⟩ | empty'
    · have taken := filledText_some (r := .jws) found filled
      rw [taken]
      constructor
      · intro same
        obtain ⟨rfl, rfl⟩ := Prod.mk.inj (Except.ok.inj same)
        exact .jws empty found filled
      · intro carries
        cases carries with
        | proofValue found' filled' => exact absurd (empty _ found') filled'
        | jws _ found' _ =>
          rw [found] at found'
          cases found'
          rfl
    · rw [filledText_none (r := .jws) empty']
      constructor
      · intro same
        cases same
      · intro carries
        cases carries with
        | proofValue found' filled' => exact absurd (empty _ found') filled'
        | jws _ found' filled' => exact absurd (empty' _ found') filled'

theorem methodOf_ok {proof : Members} {method : Method} :
    Method.ofValue (member "verificationMethod" proof) = .ok method ↔ Names proof method := by
  unfold member
  constructor
  · intro ok
    cases found : proof.get? "verificationMethod" with
    | none =>
      rw [found] at ok
      cases ok
    | some v =>
      rw [found] at ok
      cases v with
      | text t =>
        obtain ⟨rfl, first, issuer, fragment⟩ := Method.ofText_ok.mp ok
        exact ⟨found, first, issuer, fragment⟩
      | _ => cases ok
  · rintro ⟨found, first, issuer, fragment⟩
    rw [found]
    exact Method.ofText_ok.mpr ⟨rfl, first, issuer, fragment⟩

/-- The message and the signature that the text of a signature puts before a verifier. A token does
so with its own header in front of the payload, if the header fits the payload and the key. -/
inductive Presents (room : Nat) (table : CurveTable) (key : PublicKey) (payload : Bytes) :
    Representation → Text → Bytes → Bytes → Prop
  | proofValue {value : Text} {signature : Bytes}
    (decoded : DetachedJws.decodePart value = .ok signature) :
    Presents room table key payload .proofValue value payload signature
  | jws {header part : Text} {members : Members} {ascii signature : Bytes}
    (points : CodePoint.ofChar '.' ∉ header ∧ CodePoint.ofChar '.' ∉ part)
    (decoded : DetachedJws.decodePart part = .ok signature)
    (read : DetachedJws.readHeader room header = .ok members)
    (fits : DetachedJws.checkAlgorithm table ((members.get? "alg").getD (.text [])) key = .ok ())
    (spelled : Bytes.ofAscii? header = some ascii) :
    Presents room table key payload .jws (header ++ Text.ofString ".." ++ part)
      (ascii ++ 0x2E :: payload) signature

theorem split_ok {token header : Text} {signature : Bytes} :
    DetachedJws.split token = .ok (header, signature) ↔
      ∃ part, token = header ++ Text.ofString ".." ++ part ∧
        (CodePoint.ofChar '.' ∉ header ∧ CodePoint.ofChar '.' ∉ part) ∧
        DetachedJws.decodePart part = .ok signature := by
  have points : Text.ofString ".." = [CodePoint.ofChar '.', CodePoint.ofChar '.'] := by decide
  unfold DetachedJws.split
  constructor
  · intro ok
    split at ok
    · rename_i header' part parts
      rw [Outcome.bind_ok] at ok
      obtain ⟨bytes, decoded, same⟩ := ok
      obtain ⟨rfl, rfl⟩ := Prod.mk.inj (Outcome.pure_ok.mp same)
      obtain ⟨shape, first, last⟩ := Text.split_eq_outer.mp parts
      exact ⟨part, by rw [shape, points]; simp, ⟨first, last⟩, decoded⟩
    · cases ok
  · rintro ⟨part, rfl, ⟨first, last⟩, decoded⟩
    have parts : Text.split (CodePoint.ofChar '.') (header ++ Text.ofString ".." ++ part) =
        [header, [], part] := Text.split_eq_outer.mpr ⟨by rw [points]; simp, first, last⟩
    rw [parts]
    exact Outcome.bind_ok.mpr ⟨signature, decoded, rfl⟩

theorem opening_ok {room : Nat} {table : CurveTable} {key : PublicKey}
    {payload message signature : Bytes} {r : Representation} {value : Text} :
    Suite.opening room table key payload r value = .ok (message, signature) ↔
      Presents room table key payload r value message signature := by
  unfold Suite.opening
  cases r with
  | proofValue =>
    simp only [Outcome.bind_ok, Outcome.pure_ok, Prod.mk.injEq]
    constructor
    · rintro ⟨bytes, decoded, rfl, rfl⟩
      exact .proofValue decoded
    · intro presents
      cases presents with
      | proofValue decoded => exact ⟨_, decoded, rfl, rfl⟩
  | jws =>
    simp only [DetachedJws.opening, Outcome.bind_ok, Outcome.pure_ok, Prod.mk.injEq]
    constructor
    · rintro ⟨⟨header, bytes⟩, parts, members, read, ⟨⟩, fits, input, spelled, rfl, rfl⟩
      obtain ⟨part, rfl, points, decoded⟩ := split_ok.mp parts
      unfold DetachedJws.signingInput at spelled
      split at spelled
      · rename_i ascii found
        obtain rfl := Except.ok.inj spelled
        exact .jws points decoded read fits found
      · cases spelled
    · intro presents
      cases presents with
      | jws points decoded read fits spelled =>
        refine ⟨_, split_ok.mpr ⟨_, rfl, points, decoded⟩, _, read, ⟨⟩, fits, _, ?_, rfl, rfl⟩
        rw [DetachedJws.signingInput, spelled]

section Stages

variable (table : CurveTable) (fetch : Fetcher σ) (suites : SuiteTable σ) (d : Document)
  (index : Nat) (proof : Members)

/-- A check with every stage passed: the stages up to the key begin in the state `s`, those from the
key on in the state `u`. -/
inductive Accepted (s u : σ) : Prop
  | intro {suite : Suite σ} {r : Representation} {value : Text} {method : Method}
    {key : PublicKey} {s' u' : σ} {optionBytes documentBytes message signature : Bytes}
    (registered : Registered suites proof suite)
    (carries : Carries proof r value)
    (names : Names proof method)
    (fetched : (fetch method.issuer method.keyId).Ends s (.ok key) s')
    (optionText : Document.canonicalize suite.canonicalizer (options proof) none = .ok optionBytes)
    (documentText : d.canonicalize suite.canonicalizer (some index) = .ok documentBytes)
    (presents : Presents suite.headerRoom table key
      (suite.digest.hash optionBytes ++ suite.digest.hash documentBytes) r value message signature)
    (verified : (suite.verifier key message signature).Ends u (.ok ()) u')

/-- What a suite signs of the document or of the options has no bytes. -/
def Unsignable (suite : Suite σ) : Prop :=
  Document.Unwritable suite.canonicalizer.room
      (.object (Members.erase Document.proofKey (options proof))) ∨
    Document.Unwritable suite.canonicalizer.room
      (.object (d.signed suite.canonicalizer.chain (some index)))

/-- A check that begins in the state `s` and comes to what has no bytes. -/
inductive Stuck (s : σ) : Prop
  | intro {suite : Suite σ} {r : Representation} {value : Text} {method : Method}
    {key : PublicKey} {s' : σ}
    (registered : Registered suites proof suite)
    (carries : Carries proof r value)
    (names : Names proof method)
    (fetched : (fetch method.issuer method.keyId).Ends s (.ok key) s')
    (unsignable : Unsignable d index proof suite)

variable {table fetch suites d index proof} {s t u : σ} {k : Keyed σ}

theorem fetchKey_ok : (fetchKey fetch suites proof).Ends s (.ok k) t ↔
    Registered suites proof k.suite ∧ Carries proof k.representation k.value ∧
      ∃ method, Names proof method ∧ (fetch method.issuer method.keyId).Ends s (.ok k.key) t := by
  simp only [fetchKey, Action.ends_bind_ok, Action.ends_ofOutcome, Action.ends_rename_ok,
    Action.ends_pure, findSuite_ok]
  constructor
  · rintro ⟨suite, _, ⟨registered, rfl⟩, ⟨r, value⟩, _, ⟨carries, rfl⟩, method, _, ⟨names, rfl⟩,
      key, _, fetched, same, rfl⟩
    obtain rfl := Except.ok.inj same
    exact ⟨registered, signatureValue_ok.mp carries, method, methodOf_ok.mp names, fetched⟩
  · rintro ⟨registered, carries, method, names, fetched⟩
    exact ⟨_, _, ⟨registered, rfl⟩, _, _, ⟨signatureValue_ok.mpr carries, rfl⟩, _, _,
      ⟨methodOf_ok.mpr names, rfl⟩, _, _, fetched, rfl, rfl⟩

theorem checkSignature_ok : (checkSignature table d index proof k).Ends u (.ok ()) t ↔
    ∃ optionBytes documentBytes message signature,
      Document.canonicalize k.suite.canonicalizer (options proof) none = .ok optionBytes ∧
      d.canonicalize k.suite.canonicalizer (some index) = .ok documentBytes ∧
      Presents k.suite.headerRoom table k.key
        (k.suite.digest.hash optionBytes ++ k.suite.digest.hash documentBytes)
        k.representation k.value message signature ∧
      (k.suite.verifier k.key message signature).Ends u (.ok ()) t := by
  simp only [checkSignature, Suite.verify, Action.ends_bind_ok, Action.ends_ofOutcome,
    Action.ends_rename_ok]
  constructor
  · rintro ⟨payload, _, ⟨data, rfl⟩, ⟨message, signature⟩, _, ⟨presents, rfl⟩, verified⟩
    obtain ⟨x, y, optionText, documentText, rfl⟩ := Suite.verifyData_ok.mp data
    exact ⟨x, y, message, signature, optionText, documentText, opening_ok.mp presents, verified⟩
  · rintro ⟨x, y, message, signature, optionText, documentText, presents, verified⟩
    exact ⟨_, _, ⟨Suite.verifyData_ok.mpr ⟨x, y, optionText, documentText, rfl⟩, rfl⟩, _, _,
      ⟨opening_ok.mpr presents, rfl⟩, verified⟩

theorem accepted_iff : Accepted table fetch suites d index proof s u ↔
    ∃ k s' u', (fetchKey fetch suites proof).Ends s (.ok k) s' ∧
      (checkSignature table d index proof k).Ends u (.ok ()) u' := by
  constructor
  · rintro ⟨registered, carries, names, fetched, optionText, documentText, presents, verified⟩
    exact ⟨⟨_, _, _, _⟩, _, _, fetchKey_ok.mpr ⟨registered, carries, _, names, fetched⟩,
      checkSignature_ok.mpr ⟨_, _, _, _, optionText, documentText, presents, verified⟩⟩
  · rintro ⟨k, s', u', opened, checked⟩
    obtain ⟨registered, carries, method, names, fetched⟩ := fetchKey_ok.mp opened
    obtain ⟨_, _, _, _, optionText, documentText, presents, verified⟩ :=
      checkSignature_ok.mp checked
    exact .intro registered carries names fetched optionText documentText presents verified

theorem refused_proof (failure : Failure) : ∃ cause, refused failure = .proof cause := by
  cases failure <;> exact ⟨_, rfl⟩

private theorem unresolved_proof (m : Method) (failure : Failure) :
    ∃ cause, unresolved m failure = .proof cause := by
  cases failure <;> exact ⟨_, rfl⟩

private theorem findSuite_error {suites : SuiteTable σ} {type : Json} {failure : Failure}
    (stopped : findSuite suites type = .error failure) : ∃ cause, failure = .proof cause := by
  unfold findSuite at stopped
  split at stopped
  · split at stopped
    · cases stopped
    · exact ⟨_, (Except.error.inj stopped).symm⟩
  · exact ⟨_, (Except.error.inj stopped).symm⟩

private theorem signatureValue_error {failure : Failure}
    (stopped : signatureValue proof = .error failure) : ∃ cause, failure = .proof cause := by
  unfold signatureValue at stopped
  dsimp only at stopped
  split at stopped
  · cases stopped
  · exact ⟨_, (Except.error.inj stopped).symm⟩

private theorem methodOf_error {value : Json} {failure : Failure}
    (stopped : Method.ofValue value = .error failure) : ∃ cause, failure = .proof cause := by
  unfold Method.ofValue at stopped
  split at stopped
  · exact ⟨_, Method.ofText_error stopped⟩
  · exact ⟨_, (Except.error.inj stopped).symm⟩

theorem verifyData_error {suite : Suite σ} {failure : Failure}
    (stopped : suite.verifyData d (options proof) (some index) = .error failure) :
    Unsignable d index proof suite ∧ Document.IsUnwritten failure := by
  rw [Suite.verifyData, Outcome.bind_error] at stopped
  rcases stopped with stopped | ⟨optionBytes, _, stopped⟩
  · obtain ⟨unwritable, unwritten⟩ := Document.serialize_error stopped
    rw [Document.signed_none] at unwritable
    exact ⟨.inl unwritable, unwritten⟩
  · rw [Outcome.bind_error] at stopped
    rcases stopped with stopped | ⟨_, _, done⟩
    · obtain ⟨unwritable, unwritten⟩ := Document.serialize_error stopped
      exact ⟨.inr unwritable, unwritten⟩
    · cases done

theorem verifyData_unsignable {suite : Suite σ} (stuck : Unsignable d index proof suite) :
    ∃ failure, Document.IsUnwritten failure ∧
      suite.verifyData d (options proof) (some index) = .error failure := by
  cases data : suite.verifyData d (options proof) (some index) with
  | error failure => exact ⟨failure, (verifyData_error data).2, rfl⟩
  | ok bytes =>
    obtain ⟨x, y, optionText, documentText, _⟩ := Suite.verifyData_ok.mp data
    rw [Document.canonicalize, Document.signed_none] at optionText
    rcases stuck with stuck | stuck
    · exact absurd stuck (Document.serialize_written.mp ⟨x, optionText⟩)
    · exact absurd stuck (Document.serialize_written.mp ⟨y, documentText⟩)

theorem stuck_iff : Stuck fetch suites d index proof s ↔
    ∃ k s', (fetchKey fetch suites proof).Ends s (.ok k) s' ∧
      Unsignable d index proof k.suite := by
  constructor
  · rintro ⟨registered, carries, names, fetched, broken⟩
    exact ⟨⟨_, _, _, _⟩, _, fetchKey_ok.mpr ⟨registered, carries, _, names, fetched⟩, broken⟩
  · rintro ⟨k, s', opened, broken⟩
    obtain ⟨registered, carries, method, names, fetched⟩ := fetchKey_ok.mp opened
    exact .intro registered carries names fetched broken

/-- Without the key a check fails with a cause of the proof layer. -/
theorem fetchKey_error {failure : Failure}
    (stopped : (fetchKey fetch suites proof).Ends s (.error failure) t) :
    ∃ cause, failure = .proof cause := by
  simp only [fetchKey, Action.ends_bind_error, Action.ends_ofOutcome, Action.ends_rename_error,
    Action.ends_pure] at stopped
  rcases stopped with ⟨unlisted, _⟩ | ⟨suite, _, _, stopped⟩
  · exact findSuite_error unlisted
  rcases stopped with ⟨unsigned, _⟩ | ⟨⟨r, value⟩, _, _, stopped⟩
  · exact signatureValue_error unsigned
  rcases stopped with ⟨unnamed, _⟩ | ⟨method, _, _, stopped⟩
  · exact methodOf_error unnamed
  rcases stopped with ⟨reason, _, rfl⟩ | ⟨_, _, _, same, _⟩
  · exact unresolved_proof method reason
  · cases same

/-- With the key it does so too, unless there are no bytes to be signed. -/
theorem checkSignature_error {failure : Failure}
    (stopped : (checkSignature table d index proof k).Ends u (.error failure) t) :
    (∃ cause, failure = .proof cause) ∨
      Unsignable d index proof k.suite ∧ Document.IsUnwritten failure := by
  simp only [checkSignature, Action.ends_bind_error, Action.ends_ofOutcome,
    Action.ends_rename_error] at stopped
  rcases stopped with ⟨stuck, _⟩ | ⟨payload, _, _, reason, _, rfl⟩
  · exact .inr (verifyData_error stuck)
  · exact .inl (refused_proof reason)

theorem checkSignature_unsignable (table : CurveTable) (stuck : Unsignable d index proof k.suite)
    (u : σ) :
    ∃ failure, Document.IsUnwritten failure ∧
      (checkSignature table d index proof k).Ends u (.error failure) u := by
  obtain ⟨failure, unwritten, stopped⟩ := verifyData_unsignable stuck
  refine ⟨failure, unwritten, ?_⟩
  simp only [checkSignature, Action.ends_bind_error, Action.ends_ofOutcome]
  exact .inl ⟨stopped, trivial⟩

end Stages

end Verification

end LinkedProof
