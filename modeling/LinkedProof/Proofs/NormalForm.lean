import LinkedProof.Proofs.Canonical
import LinkedProof.Proofs.Json.FromBytes

/-! The bytes of a value are its normal form: they are the same for values that are alike and for no
others, and they are read as the value in order, whose bytes they are again. -/
namespace LinkedProof.Document

open Json (Alike HoldsBroken)

variable {room room' : Nat} {v w : Json} {bytes : Bytes}

theorem serialize_eq_of_alike (distinct : v.Distinct) (distinct' : w.Distinct)
    (alike : Alike v w) : serialize room v = serialize room w := by
  have sorted : Alike v.sortKeys w.sortKeys :=
    ((Json.sortKeys_alike v).symm.trans alike).trans (Json.sortKeys_alike w)
  have text : v.sortKeys.render .literal = w.sortKeys.render .literal :=
    Json.write_alike .literal 0 sorted (Json.sortKeys_ascending distinct)
      (Json.sortKeys_ascending distinct')
  rw [serialize, serialize, text, alike.depth_eq]

theorem serialize_eq_iff (distinct : v.Distinct) (distinct' : w.Distinct)
    (written : serialize room v = .ok bytes) :
    serialize room v = serialize room w ↔ Alike v w := by
  constructor
  · intro same
    rw [written] at same
    exact serialize_alike written same.symm
  · exact serialize_eq_of_alike distinct distinct'

private theorem serialize_read (fits : Json.Fits room' v) (written : serialize room v = .ok bytes) :
    Json.parseBytes room' bytes = .ok (v.sortKeys.readBack false) := by
  obtain ⟨⟨clear, _⟩, rfl⟩ := serialize_ok.mp written
  apply Json.parseBytes_render fits.sortKeys
  intro broken
  have held := (Json.broken_write 0 v.sortKeys).mp broken
  exact clear ((Json.sortKeys_alike v).symm.holdsBroken held)

/-- A value has bytes unless half of a surrogate pair stands in it or its containers lie deeper in
one another than there is room for. Two values have the same bytes exactly if they are alike. A
value that is not too large for the reader is read from its bytes with its members in order, and
this value has the same bytes. -/
theorem serialize_faithful (distinct : v.Distinct) (distinct' : w.Distinct) :
    (∀ room, (∃ bytes, serialize room v = .ok bytes) ↔ ¬HoldsBroken v ∧ v.depth ≤ room) ∧
    (∀ room room' x y, serialize room v = .ok x → serialize room' w = .ok y →
      (x = y ↔ Alike v w)) ∧
    (∀ room room', Json.Fits room' v → ∀ bytes, serialize room v = .ok bytes →
      ∃ u, Json.parseBytes room' bytes = .ok u ∧ Alike v u ∧ u.Ascending ∧
        serialize room u = .ok bytes) := by
  refine ⟨fun room => ?_, ?_, ?_⟩
  · rw [serialize_written, not_unwritable]
  · intro room room' x y first second
    constructor
    · rintro rfl
      exact serialize_alike first second
    · intro alike
      have enough := (serialize_ok.mp first).1.2
      rw [alike.depth_eq] at enough
      have second' := serialize_within second enough
      rw [serialize_eq_of_alike distinct distinct' alike, second'] at first
      exact (Except.ok.inj first).symm
  · intro room room' fits bytes written
    have ascending := Json.sortKeys_ascending distinct
    have ordered := Json.readBack_ascending ascending
    have alike : Alike v (v.sortKeys.readBack false) :=
      (Json.sortKeys_alike v).trans (Json.readBack_alike ascending.distinct)
    refine ⟨_, serialize_read fits written, alike, ordered, ?_⟩
    rw [← written]
    exact (serialize_eq_of_alike distinct ordered.distinct alike).symm

section Measured

def measured : Json := .object [("b", .array [.int 1, .float .nan]), ("a", .text "é")]

def remeasured : Json :=
  .object [("a", .text "é"), ("b", .array [.int 1, .float (.ofFields true 2047 1)])]

private theorem measured_alike : Alike measured remeasured := by
  have none : Alike (.float .nan) (.float (.ofFields true 2047 1)) := .float (.inr ⟨rfl, rfl⟩)
  refine .object (.swap _ _ _) (.cons "a" (.text "é") (.cons "b" ?_ .nil)) (.refl _)
  exact .array (.cons (.int 1) (.cons none .nil))

set_option maxRecDepth 8000 in
theorem serialize_faithful_measured :
    measured.Distinct ∧ remeasured.Distinct ∧ Json.Fits 2 measured ∧
    (∀ room, (∃ bytes, serialize room measured = .ok bytes) ↔ 2 ≤ room) ∧
    ∃ bytes u, serialize 2 measured = .ok bytes ∧ serialize 2 remeasured = .ok bytes ∧
      Json.parseBytes 2 bytes = .ok u ∧ Alike measured u ∧ u.Ascending ∧
      serialize 2 u = .ok bytes := by
  have distinct : measured.Distinct := by decide
  have distinct' : remeasured.Distinct := by decide
  have fits : Json.Fits 2 measured := by
    have short : Int.natAbs 1 < Json.leastLong := Nat.one_lt_pow (by decide) (by decide)
    have items (room : Nat) : Json.Fits (room + 1) (.array [.int 1, .float .nan]) :=
      .array (List.forall_mem_cons.mpr ⟨.int short, List.forall_mem_singleton.mpr (.float _)⟩)
    exact .object (List.forall_mem_cons.mpr ⟨items _, List.forall_mem_singleton.mpr (.text _)⟩)
  have clear : ¬HoldsBroken measured := by decide
  have faithful := serialize_faithful distinct distinct'
  have total (room : Nat) : (∃ bytes, serialize room measured = .ok bytes) ↔ 2 ≤ room := by
    rw [faithful.1 room]
    exact and_iff_right clear
  have written : ∃ bytes, serialize 2 measured = .ok bytes := ⟨_, rfl⟩
  have written' : ∃ bytes, serialize 2 remeasured = .ok bytes := ⟨_, rfl⟩
  obtain ⟨x, first⟩ := written
  obtain ⟨y, second⟩ := written'
  obtain rfl := (faithful.2.1 2 2 x y first second).mpr measured_alike
  obtain ⟨u, read⟩ := faithful.2.2 2 2 fits x first
  exact ⟨distinct, distinct', fits, total, x, u, first, second, read⟩

end Measured

end LinkedProof.Document
