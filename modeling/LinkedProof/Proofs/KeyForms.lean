import LinkedProof.Proofs.Base64
import LinkedProof.Proofs.FixedWidth
import LinkedProof.Proofs.Json.Members
import LinkedProof.PublicKey

/-! The forms of a public key. A point that is written as a JSON Web Key or in its encoded form is
the point that is read from it, on every curve that the table binds to an entry wide enough. -/
namespace LinkedProof

-- Powers are the core library's, whatever else is in scope.
attribute [local instance (high)] instPowNat

namespace CurvePoint

variable (q : CurvePoint)

theorem x_lt : q.x < q.curve.p := by
  have inside := q.onCurve
  simp only [Curve.contains, Bool.and_eq_true, decide_eq_true_eq] at inside
  exact inside.1.1

theorem y_lt : q.y < q.curve.p := by
  have inside := q.onCurve
  simp only [Curve.contains, Bool.and_eq_true, decide_eq_true_eq] at inside
  exact inside.1.2

theorem ofCoordinates?_self : ofCoordinates? q.curve q.x q.y = some q := by
  rw [ofCoordinates?, dif_pos q.onCurve]

theorem ofResidues?_self : ofResidues? q.curve q.x q.y = some q := by
  rw [ofResidues?, Nat.mod_eq_of_lt q.x_lt, Nat.mod_eq_of_lt q.y_lt, ofCoordinates?_self]

/-- An encoded point whose coordinates have room for every residue is read as the point. -/
theorem decode?_encode (fits : q.curve.p ≤ 256 ^ q.curve.coordinateSize) :
    decode? q.curve q.encode = some q := by
  have width : (Bytes.ofNat q.curve.coordinateSize q.x).length = q.curve.coordinateSize :=
    Bytes.length_ofNat _ _
  have first := Bytes.toNat_ofNat (Nat.lt_of_lt_of_le q.x_lt fits)
  have second := Bytes.toNat_ofNat (Nat.lt_of_lt_of_le q.y_lt fits)
  have both : (Bytes.ofNat q.curve.coordinateSize q.x ++
      Bytes.ofNat q.curve.coordinateSize q.y).length = 2 * q.curve.coordinateSize := by
    rw [List.length_append, width, Bytes.length_ofNat]
    omega
  rw [encode, List.cons_append, decode?]
  simp only [if_true, if_pos both, List.take_left' width, List.drop_left' width, first, second]
  exact q.ofCoordinates?_self

end CurvePoint

namespace CurveTable

theorem ofName_mem {t : CurveTable} {name : Text} {e : CurveEntry} (found : t.ofName name = .ok e) :
    e ∈ t.entries := by
  rw [ofName] at found
  split at found
  · rename_i entry listed
    obtain rfl := Except.ok.inj found
    exact List.mem_of_find?_eq_some listed
  · rw [ofCurve] at found
    split at found
    · rename_i entry listed
      obtain rfl := Except.ok.inj found
      exact List.mem_of_find?_eq_some listed
    · cases found

theorem ofValue_mem {t : CurveTable} {curve : Json} {e : CurveEntry}
    (found : t.ofValue curve = .ok e) : e ∈ t.entries := by
  cases curve with
  | text name => exact ofName_mem found
  | _ => cases found

/-- A table binds a curve to an entry: it leads there by the name of the key and by the name of the
curve, the arithmetic of the curve is at hand, and a coordinate has room for residues by the prime
of the curve and by the order of its base point. -/
structure Binds (t : CurveTable) (e : CurveEntry) (c : Curve) : Prop where
  byName : t.ofName e.name = .ok e
  byCurve : t.ofCurve c.name = .ok e
  arithmetic : e.curve.curve = .ok c
  width : e.coordinateSize = c.coordinateSize
  field : c.p ≤ 256 ^ e.coordinateSize
  order : c.n ≤ 256 ^ e.coordinateSize

theorem initial_binds {e : CurveEntry} {c : Curve} (listed : e ∈ initial.entries)
    (arithmetic : e.curve.curve = .ok c) : initial.Binds e c := by
  simp only [initial, List.mem_cons, List.not_mem_nil, or_false] at listed
  rcases listed with rfl | rfl | rfl | rfl
  all_goals
    cases arithmetic
    exact ⟨rfl, rfl, rfl, rfl, by decide +kernel, by decide +kernel⟩

def Hashed (t : CurveTable) : Prop := ∀ e ∈ t.entries, ∃ hash, e.newHash = .ok hash

theorem initial_hashed : initial.Hashed := by
  simp only [Hashed, initial, List.forall_mem_cons]
  exact ⟨⟨_, rfl⟩, ⟨_, rfl⟩, ⟨_, rfl⟩, ⟨_, rfl⟩, List.forall_mem_nil _⟩

theorem p256k_listed : p256k ∈ initial.entries := by simp [initial]

end CurveTable

section Forms

variable {table : CurveTable} {e : CurveEntry} {q : CurvePoint} {k : Jwk} {kid : Json} {type : Text}

def CurveEntry.coordinate (e : CurveEntry) (n : Nat) : Json :=
  .text (Base64.encode (Bytes.ofNat e.coordinateSize n))

theorem Jwk.ofPoint_ok (binds : table.Binds e q.curve) : Jwk.ofPoint table q kid =
    .ok ⟨.text "EC", .text e.name, e.coordinate q.x, e.coordinate q.y, .text e.algorithm, kid⟩ := by
  have first := Bytes.ofNat?_eq_some.mpr ⟨Nat.lt_of_lt_of_le q.x_lt binds.field, rfl⟩
  have second := Bytes.ofNat?_eq_some.mpr ⟨Nat.lt_of_lt_of_le q.y_lt binds.field, rfl⟩
  simp only [Jwk.ofPoint, binds.byCurve, bind, Except.bind, first, second]
  rfl

/-- A key gives a point by the four members that name its curve and its coordinates, whatever the
curve is bound to, if the coordinates have room. -/
theorem Jwk.point_spelled (byName : table.ofName e.name = .ok e)
    (arithmetic : e.curve.curve = .ok q.curve)
    (room : q.x < 256 ^ e.coordinateSize ∧ q.y < 256 ^ e.coordinateSize)
    (kty : k.kty = .text "EC") (crv : k.crv = .text e.name) (x : k.x = e.coordinate q.x)
    (y : k.y = e.coordinate q.y) : k.point table = .ok q := by
  have isCurveKey : k.isCurveKey = true := Json.isText_iff.mpr kty
  have named : table.ofValue k.crv = .ok e := by rw [crv, CurveTable.ofValue, byName]
  have read (n : Nat) : Base64.decodeValue (e.coordinate n) =
      .ok (Bytes.ofNat e.coordinateSize n) := by
    rw [CurveEntry.coordinate, Base64.decodeValue, Base64.decode_encode]
    rfl
  have first := Bytes.toNat_ofNat room.1
  have second := Bytes.toNat_ofNat room.2
  simp only [Jwk.point, isCurveKey, named, x, y, read, arithmetic, bind, Except.bind, first,
    second, q.ofResidues?_self]
  rfl

theorem Jwk.point_coordinates (binds : table.Binds e q.curve) (kty : k.kty = .text "EC")
    (crv : k.crv = .text e.name) (x : k.x = e.coordinate q.x) (y : k.y = e.coordinate q.y) :
    k.point table = .ok q :=
  point_spelled binds.byName binds.arithmetic
    ⟨Nat.lt_of_lt_of_le q.x_lt binds.field, Nat.lt_of_lt_of_le q.y_lt binds.field⟩ kty crv x y

theorem PublicKey.point_jwk (read : k.point table = .ok q) :
    (PublicKey.jwk k type).point table = .ok q := by
  rw [PublicKey.point, read]
  rfl

theorem PublicKey.point_encoded (binds : table.Binds e q.curve) :
    (PublicKey.encoded q.encode (.text e.name) type).point table = .ok q := by
  have fits := binds.field
  rw [binds.width] at fits
  have decoded := q.decode?_encode fits
  have point : PublicKey.decodePoint e q.encode = .ok q := by
    rw [CurvePoint.encode, List.cons_append] at decoded ⊢
    simp only [PublicKey.decodePoint, binds.arithmetic, bind, Except.bind, decoded]
    rfl
  simp only [PublicKey.point, CurveTable.ofValue, binds.byName, bind, Except.bind, point]
  rfl

end Forms

end LinkedProof
