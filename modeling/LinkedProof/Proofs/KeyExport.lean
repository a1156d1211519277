import LinkedProof.Proofs.AlgorithmBinding
import LinkedProof.Proofs.LocalKeys

/-! Export of public keys. A point on a curve of the first table has one exported JSON Web Key; the
forms of it stand for the same point. Whatever a key looks like that gives a point, its export is
this one, so exporting once more changes nothing. -/
namespace LinkedProof

def Json.SpellsNumber (size n : Nat) (v : Json) : Prop :=
  ∃ t, v = .text t ∧ t.length = (4 * size + 2) / 3 ∧ (∀ c ∈ t, Base64.InAlphabet c) ∧
    Base64.decode t = .ok (Bytes.ofNat size n)

theorem CurveEntry.coordinate_spells (e : CurveEntry) (n : Nat) :
    (e.coordinate n).SpellsNumber e.coordinateSize n :=
  ⟨_, rfl, by rw [Base64.length_encode, Bytes.length_ofNat], Base64.encode_alphabet _,
    Base64.decode_encode _⟩

namespace Jwk

def IsKeyName (kid : Json) : Prop := kid = .null ∨ ∃ t, t ≠ [] ∧ kid = .text t

def uncompressed (e : CurveEntry) (q : CurvePoint) : Bytes :=
  4 :: (Bytes.ofNat e.coordinateSize q.x ++ Bytes.ofNat e.coordinateSize q.y)

/-- The exported key of a point under an entry. Its coordinates are texts of fixed length, it is read
from its members as it was, and both the key itself and its uncompressed encoding under the name of
its curve stand for the point. -/
structure Exports (table : CurveTable) (e : CurveEntry) (q : CurvePoint) (kid : Json) (k : Jwk) :
    Prop where
  made : ofPoint table q kid = .ok k
  x : k.x.SpellsNumber e.coordinateSize q.x
  y : k.y.SpellsNumber e.coordinateSize q.y
  reread : ofMembers k.toMembers = k
  point : k.point table = .ok q
  bytes (type : Text) : (PublicKey.jwk k type).bytes table = .ok (uncompressed e q)
  encoded (type : Text) : (PublicKey.encoded (uncompressed e q) k.crv type).point table = .ok q

def reexport (table : CurveTable) (kid : Json) (k : Jwk) : Outcome Jwk := do
  ofPoint table (← k.point table) kid

variable {table : CurveTable} {e : CurveEntry} {q : CurvePoint} {k : Jwk} {kid : Json}

theorem ofMembers_toMembers {x y : Json} {crv algorithm : Text} (filled : algorithm ≠ [])
    (name : IsKeyName kid) : ofMembers (toMembers ⟨.text "EC", .text crv, x, y, .text algorithm,
      kid⟩) = ⟨.text "EC", .text crv, x, y, .text algorithm, kid⟩ := by
  obtain ⟨c, rest, rfl⟩ := List.exists_cons_of_ne_nil filled
  rcases name with rfl | ⟨t, filled, rfl⟩
  · rfl
  · obtain ⟨c, rest, rfl⟩ := List.exists_cons_of_ne_nil filled
    rfl

theorem encode_eq (binds : table.Binds e q.curve) : q.encode = uncompressed e q := by
  rw [CurvePoint.encode, uncompressed, binds.width]
  rfl

theorem exports_ofPoint (binds : table.Binds e q.curve) (filled : e.algorithm ≠ [])
    (name : IsKeyName kid) : ∃ k, Exports table e q kid k := by
  have point : (⟨.text "EC", .text e.name, e.coordinate q.x, e.coordinate q.y, .text e.algorithm,
    kid⟩ : Jwk).point table = .ok q := point_coordinates binds rfl rfl rfl rfl
  refine ⟨_, ofPoint_ok binds, e.coordinate_spells q.x, e.coordinate_spells q.y,
    ofMembers_toMembers filled name, point, fun type => ?_, fun type => ?_⟩
  · rw [PublicKey.bytes, point, ← encode_eq binds]
    rfl
  · rw [← encode_eq binds]
    exact PublicKey.point_encoded binds

end Jwk

theorem LocalVerifier.verify_congr {table : CurveTable} {key other : PublicKey} (p : Primitive)
    (same : key.point table = other.point table) (message signature : Bytes) :
    verify p table key message signature = verify p table other message signature := by
  rw [verify, verify, same]

namespace Jwk

section Exported

variable {table : CurveTable} {e : CurveEntry} {q : CurvePoint} {k : Jwk} {kid : Json}

/-- Both exported forms are checked alike. -/
theorem Exports.checks (exported : Exports table e q kid k) (p : Primitive) (type type' : Text)
    (message signature : Bytes) :
    LocalVerifier.verify p table (.jwk k type) message signature =
      LocalVerifier.verify p table (.encoded (uncompressed e q) k.crv type') message signature :=
  LocalVerifier.verify_congr p
    ((PublicKey.point_jwk exported.point).trans (exported.encoded type').symm) message signature

private theorem coordinate_ok {n : Nat} {v : Json}
    (made : (match Bytes.ofNat? e.coordinateSize n with
      | some bytes => .ok (.text (Base64.encode bytes))
      | none => .error (.overflow "int too big to convert") : Outcome Json) = .ok v) :
    n < 256 ^ e.coordinateSize ∧ v = e.coordinate n := by
  split at made
  · rename_i bytes room
    obtain ⟨small, rfl⟩ := Bytes.ofNat?_eq_some.mp room
    exact ⟨small, (Except.ok.inj made).symm⟩
  · cases made

/-- The exported key of a point on a curve at hand stands for it in every table, whatever length the
entry of the curve gives to coordinates. -/
theorem point_ofPoint {label : CurveLabel} (on : label.curve = .ok q.curve)
    (made : ofPoint table q kid = .ok k) : k.point table = .ok q := by
  obtain ⟨first, found, made⟩ := Outcome.bind_ok.mp made
  obtain ⟨x, made, rest⟩ := Outcome.bind_ok.mp made
  obtain ⟨y, made', rest⟩ := Outcome.bind_ok.mp rest
  obtain ⟨smallX, rfl⟩ := coordinate_ok made
  obtain ⟨smallY, rfl⟩ := coordinate_ok made'
  obtain rfl := Outcome.pure_ok.mp rest
  have search := CurveTable.ofCurve_ok.mp found
  have shared : first.curve.name = label.name := by
    rw [← CurveLabel.curve_name on]
    simpa using List.find?_some search
  have arithmetic : first.curve.curve = .ok q.curve := by
    rw [CurveLabel.curve, shared]
    exact on
  exact point_spelled (CurveTable.ofName_name (List.mem_of_find?_eq_some search)) arithmetic
    ⟨smallX, smallY⟩ rfl rfl rfl rfl

/-- A key that gives a point gives the exported key of the point, which gives itself. -/
theorem reexport_ok (read : k.point table = .ok q) (binds : table.Binds e q.curve) (kid : Json) :
    ∃ k', k.reexport table kid = .ok k' ∧ k'.point table = .ok q ∧
      k'.reexport table kid = .ok k' := by
  have again : (⟨.text "EC", .text e.name, e.coordinate q.x, e.coordinate q.y, .text e.algorithm,
    kid⟩ : Jwk).point table = .ok q := point_coordinates binds rfl rfl rfl rfl
  refine ⟨_, ?_, again, ?_⟩
  · rw [reexport, read]
    exact ofPoint_ok binds
  · rw [reexport, again]
    exact ofPoint_ok binds

end Exported

/-- On every curve of the first table all exported forms of a point denote it and are checked alike.
Every key that gives a point, in whatever way its curve and its coordinates are written, is exported
as a key of the same point, and the exported key is exported as itself. -/
theorem exports_denote :
    (∀ (e : CurveEntry) (q : CurvePoint) (kid : Json), e ∈ CurveTable.initial.entries →
      e.curve.curve = .ok q.curve → IsKeyName kid →
        ∃ k, Exports .initial e q kid k ∧
          ∀ (p : Primitive) (type type' : Text) (message signature : Bytes),
            LocalVerifier.verify p .initial (.jwk k type) message signature =
              LocalVerifier.verify p .initial (.encoded (uncompressed e q) k.crv type') message
                signature) ∧
    ∀ (k : Jwk) (q : CurvePoint) (kid : Json), k.point .initial = .ok q →
      ∃ k', k.reexport .initial kid = .ok k' ∧ k'.point .initial = .ok q ∧
        k'.reexport .initial kid = .ok k' := by
  constructor
  · intro e q kid listed on name
    have filled : ∀ e ∈ CurveTable.initial.entries, e.algorithm ≠ [] := by decide
    obtain ⟨k, exported⟩ :=
      exports_ofPoint (CurveTable.initial_binds listed on) (filled e listed) name
    exact ⟨k, exported, exported.checks⟩
  · intro k q kid read
    obtain ⟨e, named, on⟩ := point_curve read
    exact reexport_ok read (CurveTable.initial_binds (CurveTable.ofValue_mem named) on) kid

/-- A key of the widest base point that names its curve by the standard, with an unreduced
coordinate that is padded and one with leading zeros. -/
def loose : Jwk where
  kty := .text "EC"
  crv := .text "secp521r1"
  x := .text (Base64.encode (Bytes.ofNat 67 (Curve.secp521r1.gx + Curve.secp521r1.p)) ++
    Text.ofString "==")
  y := .text (Base64.encode (Bytes.ofNat 69 Curve.secp521r1.gy))
  alg := .null
  kid := .null

private theorem loose_point : loose.point .initial = .ok Suite.widestPoint := by
  have read : (loose.point .initial).toOption = some Suite.widestPoint := by decide +kernel
  cases given : loose.point .initial with
  | error failure =>
    rw [given] at read
    cases read
  | ok q =>
    rw [given] at read
    rw [Option.some.inj read]

theorem exports_denote_widest : CurveTable.p521 ∈ CurveTable.initial.entries ∧
    CurveTable.p521.curve.curve = .ok Suite.widestPoint.curve ∧ IsKeyName (.text "k") ∧
    (∃ k, Exports .initial CurveTable.p521 Suite.widestPoint (.text "k") k ∧
      k.x.SpellsNumber 66 Curve.secp521r1.gx) ∧
    loose.point .initial = .ok Suite.widestPoint ∧
    ∃ k, loose.reexport .initial .null = .ok k ∧ k.point .initial = .ok Suite.widestPoint ∧
      k.reexport .initial .null = .ok k := by
  have listed : CurveTable.p521 ∈ CurveTable.initial.entries := by
    simp [CurveTable.initial]
  have on : CurveTable.p521.curve.curve = .ok Suite.widestPoint.curve := rfl
  have name : IsKeyName (.text "k") := .inr ⟨_, by decide, rfl⟩
  obtain ⟨k, exported, _⟩ := exports_denote.1 _ _ _ listed on name
  exact ⟨listed, on, name, ⟨k, exported, exported.x⟩, loose_point,
    exports_denote.2 loose _ .null loose_point⟩

end Jwk

end LinkedProof
