import LinkedProof.Proofs.Registration

/-! Keys that the verifier for local keys refuses. A key whose members are texts, or that is given
as a point on a named curve, or that is no key at all, is refused by a failure of verification if
anything is wrong with it. A member that is no text where one is read gives a failure of another
kind. -/
namespace LinkedProof

open DetachedJws (IsRefusal ofValue_error)

/-- A member that is read as a text and is none: the curve of a key, its first coordinate, or its
second one behind a first one that can be decoded. -/
inductive PublicKey.Misread (table : CurveTable) : PublicKey → Prop
  | curve {k : Jwk} {type : Text} (kind : k.kty = .text "EC") (unnamed : k.crv.text? = none) :
    Misread table (.jwk k type)
  | first {k : Jwk} {type : Text} {e : CurveEntry} (kind : k.kty = .text "EC")
    (named : table.ofValue k.crv = .ok e) (other : k.x.text? = none) : Misread table (.jwk k type)
  | second {k : Jwk} {type : Text} {e : CurveEntry} {bytes : Bytes} (kind : k.kty = .text "EC")
    (named : table.ofValue k.crv = .ok e) (read : Base64.decodeValue k.x = .ok bytes)
    (other : k.y.text? = none) : Misread table (.jwk k type)
  | encoded {bytes : Bytes} {curve : Json} {type : Text} (unnamed : curve.text? = none) :
    Misread table (.encoded bytes curve type)

section Stages

variable {table : CurveTable} {e : CurveEntry} {c : Curve} {key : PublicKey} {k : Jwk} {type : Text}
  {v : Json} {bytes : Bytes} {failure : Failure}

theorem CurveTable.Reachable.arithmetic (reachable : table.Reachable) (listed : e ∈ table.entries) :
    ∃ c, e.curve.curve = .ok c := by
  obtain ⟨c, available, label⟩ := reachable.available e listed
  exact ⟨c, by rw [label, CurveLabel.curve, Curve.label, Curve.ofName?_name available]⟩

theorem CurveTable.ofValue_other (unnamed : v.text? = none) :
    table.ofValue v = .error (.wrongKind (.noMember v.kindWord "name")) := by
  cases v with
  | text name => cases unnamed
  | _ => rfl

theorem Base64.decodeValue_other (other : v.text? = none) :
    ∃ fault, Base64.decodeValue v = .error (.wrongKind fault) := by
  cases v with
  | text t => cases other
  | object members =>
    rw [decodeValue]
    split
    · exact ⟨_, rfl⟩
    · exact ⟨_, rfl⟩
  | _ => exact ⟨_, rfl⟩

theorem Base64.decodeValue_error (stopped : Base64.decodeValue v = .error failure) :
    failure.isUnfit = true ∨ v.text? = none ∧ ∃ fault, failure = .wrongKind fault := by
  by_cases other : v.text? = none
  · obtain ⟨fault, same⟩ := decodeValue_other other
    exact .inr ⟨other, fault, Except.error.inj (stopped.symm.trans same)⟩
  · cases v with
    | text t =>
      obtain ⟨fault, _, rfl⟩ := mapError_error.mp stopped
      exact .inl rfl
    | _ => exact absurd rfl other

namespace PublicKey

def Unusable (failure : Failure) : Prop :=
  failure.isUnfit = true ∨ ∃ cause, failure = .proof cause ∧ cause.family = .unsupportedCurve

theorem unusable_unfit (unfit : failure.isUnfit = true) :
    unusable failure = .proof (.unusableKey failure.message) := by
  unfold unusable
  split
  · cases unfit
  · rw [if_pos unfit]

theorem Unusable.refusal (unusable : Unusable failure) :
    IsRefusal (PublicKey.unusable failure) := by
  rcases unusable with unfit | ⟨cause, rfl, family⟩
  · exact ⟨_, unusable_unfit unfit, rfl⟩
  · exact ⟨_, if_pos family, rfl⟩

theorem decodePoint_unusable (arithmetic : e.curve.curve = .ok c)
    (stopped : decodePoint e bytes = .error failure) : Unusable failure := by
  unfold decodePoint at stopped
  split at stopped
  · obtain rfl := Except.error.inj stopped
    exact .inl rfl
  · rw [arithmetic] at stopped
    split at stopped
    · obtain rfl := Except.error.inj stopped
      exact .inl rfl
    · rcases Outcome.bind_error.mp stopped with missing | ⟨_, _, stopped⟩
      · cases missing
      · split at stopped
        · cases stopped
        · obtain rfl := Except.error.inj stopped
          exact .inl rfl

end PublicKey

open PublicKey (Misread Unusable)

theorem Jwk.point_error (reachable : table.Reachable) (stopped : k.point table = .error failure) :
    Unusable failure ∨ Misread table (.jwk k type) ∧ ∃ fault, failure = .wrongKind fault := by
  unfold point at stopped
  by_cases kind : k.isCurveKey = true
  · have kind' := Json.isText_iff.mp kind
    rw [kind] at stopped
    rcases Outcome.bind_error.mp stopped with unnamed | ⟨e, named, stopped⟩
    · rcases ofValue_error unnamed with unsupported | ⟨other, rfl⟩
      · exact .inl (.inr unsupported)
      · exact .inr ⟨.curve kind' other, _, rfl⟩
    rcases Outcome.bind_error.mp stopped with unread | ⟨x, read, stopped⟩
    · rcases Base64.decodeValue_error unread with unfit | ⟨other, wrong⟩
      · exact .inl (.inl unfit)
      · exact .inr ⟨.first kind' named other, wrong⟩
    rcases Outcome.bind_error.mp stopped with unread | ⟨y, _, stopped⟩
    · rcases Base64.decodeValue_error unread with unfit | ⟨other, wrong⟩
      · exact .inl (.inl unfit)
      · exact .inr ⟨.second kind' named read other, wrong⟩
    rcases Outcome.bind_error.mp stopped with missing | ⟨c, _, stopped⟩
    · obtain ⟨c, arithmetic⟩ := reachable.arithmetic (CurveTable.ofValue_mem named)
      cases arithmetic.symm.trans missing
    · split at stopped
      · cases stopped
      · obtain rfl := Except.error.inj stopped
        exact .inl (.inl rfl)
  · simp only [kind] at stopped
    obtain rfl := Except.error.inj stopped
    exact .inl (.inl rfl)

namespace PublicKey

/-- A key without a point is refused, or a member of it is read as what it is not. -/
theorem point_error (reachable : table.Reachable) (stopped : key.point table = .error failure) :
    IsRefusal failure ∨ Misread table key ∧ ∃ fault, failure = .wrongKind fault := by
  cases key with
  | bound _ q => cases stopped
  | other value =>
    obtain rfl := Except.error.inj stopped
    exact .inl ⟨_, rfl, rfl⟩
  | jwk k type =>
    obtain ⟨reason, unread, rfl⟩ := Outcome.rename_error.mp stopped
    rcases Jwk.point_error reachable unread with unusable | ⟨misread, fault, rfl⟩
    · exact .inl unusable.refusal
    · exact .inr ⟨misread, fault, rfl⟩
  | encoded bytes curve type =>
    obtain ⟨reason, unread, rfl⟩ := Outcome.rename_error.mp stopped
    rcases Outcome.bind_error.mp unread with unnamed | ⟨e, named, unread⟩
    · rcases ofValue_error unnamed with unsupported | ⟨other, rfl⟩
      · exact .inl (Unusable.refusal (.inr unsupported))
      · exact .inr ⟨.encoded other, _, rfl⟩
    · obtain ⟨c, arithmetic⟩ := reachable.arithmetic (CurveTable.ofValue_mem named)
      exact .inl (decodePoint_unusable arithmetic unread).refusal

theorem Misread.point (misread : Misread table key) :
    ∃ fault, key.point table = .error (.wrongKind fault) := by
  have renamed {o : Outcome CurvePoint} (fault : WrongKind)
      (stopped : o = .error (.wrongKind fault)) : o.rename unusable = .error (.wrongKind fault) :=
    Outcome.rename_error.mpr ⟨_, stopped, rfl⟩
  cases misread with
  | @curve k _ kind unnamed =>
    refine ⟨_, renamed (.noMember k.crv.kindWord "name") ?_⟩
    simp only [Jwk.point, Jwk.isCurveKey, kind, CurveTable.ofValue_other unnamed]
    rfl
  | first kind named other =>
    obtain ⟨fault, unread⟩ := Base64.decodeValue_other other
    refine ⟨fault, renamed fault ?_⟩
    simp only [Jwk.point, Jwk.isCurveKey, kind, named, unread]
    rfl
  | second kind named read other =>
    obtain ⟨fault, unread⟩ := Base64.decodeValue_other other
    refine ⟨fault, renamed fault ?_⟩
    simp only [Jwk.point, Jwk.isCurveKey, kind, named, read, unread]
    rfl
  | @encoded _ curve _ unnamed =>
    refine ⟨_, renamed (.noMember curve.kindWord "name") ?_⟩
    rw [CurveTable.ofValue_other unnamed]
    rfl

end PublicKey

end Stages

namespace LocalVerifier

open PublicKey (Misread)

variable {p : Primitive} {table : CurveTable} {key : PublicKey} {message signature : Bytes}
  {failure : Failure}

theorem verify_error (reachable : table.Reachable) (hashed : table.Hashed)
    (stopped : verify p table key message signature = .error failure) :
    IsRefusal failure ∨ Misread table key ∧ ∃ fault, failure = .wrongKind fault := by
  rcases Outcome.bind_error.mp stopped with unusable | ⟨q, _, stopped⟩
  · exact PublicKey.point_error reachable unusable
  rcases Outcome.bind_error.mp stopped with unlisted | ⟨e, listed, stopped⟩
  · obtain ⟨reason, _, rfl⟩ := Outcome.rename_error.mp unlisted
    exact .inl ⟨_, rfl, rfl⟩
  rcases Outcome.bind_error.mp stopped with undecoded | ⟨pair, _, stopped⟩
  · unfold Signature.decode at undecoded
    split at undecoded
    · cases undecoded
    · obtain rfl := Except.error.inj undecoded
      exact .inl ⟨_, rfl, rfl⟩
  have member := List.mem_of_find?_eq_some (CurveTable.ofCurve_ok.mp (Outcome.rename_ok.mp listed))
  obtain ⟨hash, made⟩ := hashed e member
  rcases Outcome.bind_error.mp stopped with unmade | ⟨_, _, stopped⟩
  · cases made.symm.trans unmade
  · split at stopped
    · cases stopped
    · obtain rfl := Except.error.inj stopped
      exact .inl ⟨_, rfl, rfl⟩

theorem verify_misread (misread : Misread table key) :
    ∃ fault, verify p table key message signature = .error (.wrongKind fault) := by
  obtain ⟨fault, stopped⟩ := misread.point
  exact ⟨fault, Outcome.bind_error.mpr (.inl stopped)⟩

/-- With a table whose hashes can all be made, the verifier takes a signature or refuses it under
every key that is not misread, whatever the message and the bytes of the signature are. Under a
misread key it always stops at a value of the wrong kind, which is no refusal. -/
theorem refusals_iff (reachable : table.Reachable) (hashed : table.Hashed) (p : Primitive)
    (key : PublicKey) (message signature : Bytes) :
    ((∀ failure, verify p table key message signature = .error failure → IsRefusal failure) ↔
      ¬Misread table key) ∧
    (Misread table key →
      ∃ fault, verify p table key message signature = .error (.wrongKind fault)) := by
  refine ⟨⟨?_, ?_⟩, verify_misread⟩
  · intro refused misread
    obtain ⟨fault, stopped⟩ := @verify_misread p _ _ message signature misread
    obtain ⟨_, same, _⟩ := refused _ stopped
    cases same
  · intro fits failure stopped
    rcases verify_error reachable hashed stopped with refusal | ⟨misread, _⟩
    · exact refusal
    · exact absurd misread fits

def coordinateMembers (x : Json) : Members :=
  [("kty", .text "EC"), ("crv", .text "P-256"), ("x", x), ("y", .text "AA")]

def keyOf (members : Members) : PublicKey := .jwk (.ofMembers members) PublicKey.defaultType

theorem misread_number (n : Int) : Misread .initial (keyOf (coordinateMembers (.int n))) :=
  .first rfl rfl rfl

theorem not_misread_text (t : Text) : ¬Misread .initial (keyOf (coordinateMembers (.text t))) := by
  intro misread
  cases misread with
  | curve _ unnamed => cases unnamed
  | first _ _ other => cases other
  | second _ _ _ other => cases other

/-- A coordinate that is a text of no use makes the key refused, and a number in its place does
not. -/
theorem refusals_iff_coordinate : CurveTable.initial.Reachable ∧ CurveTable.initial.Hashed ∧
    (∃ failure, verify .deterministic .initial (keyOf (coordinateMembers (.text "A"))) [0] [0] =
      .error failure ∧ IsRefusal failure) ∧
    ∃ fault, verify .deterministic .initial (keyOf (coordinateMembers (.int 5))) [0] [0] =
      .error (.wrongKind fault) := by
  have hashed := CurveTable.initial_hashed
  refine ⟨.initial, hashed, ⟨_, rfl, ?_⟩, ?_⟩
  · exact (refusals_iff .initial hashed .deterministic _ [0] [0]).1.mpr (not_misread_text "A") _ rfl
  · exact (refusals_iff .initial hashed .deterministic _ [0] [0]).2 (misread_number 5)

/-- Not every failure of the verifier says that the signature does not verify. -/
theorem not_only_refusals : ¬∀ (p : Primitive) (members : Members) (message signature : Bytes)
    (failure : Failure), verify p .initial (keyOf members) message signature = .error failure →
      IsRefusal failure := by
  intro refused
  obtain ⟨fault, stopped⟩ := @verify_misread .deterministic _ _ [0] [0] (misread_number 5)
  obtain ⟨_, same, _⟩ := refused _ _ _ _ _ stopped
  cases same

end LocalVerifier

end LinkedProof
