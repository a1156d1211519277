import LinkedProof.Proofs.Json.Graphic
import LinkedProof.Proofs.Json.ReadBack
import LinkedProof.Proofs.Json.Surrogate
import LinkedProof.Proofs.Json.Unambiguous
import LinkedProof.Proofs.Json.United
import LinkedProof.Proofs.Utf8

/-! Reading the bytes of a value: it comes back alike, and with its members in order if they were in
order when it was written. Containers that lie too deep in one another stop the reader. -/
namespace LinkedProof

section Bytes

variable {t : Text} {c : CodePoint}

-- A mark begins with zero or above ASCII, and without one the wider forms are told by a zero among
-- the first two bytes.
private theorem detect_plain {b : UInt8} {rest : Bytes} (first : 0 < b.toNat ∧ b.toNat < 0x80)
    (second : ∀ d ∈ rest.head?, d ≠ 0) : Encoding.detect (b :: rest) = (.utf8, 0) := by
  have zero : b ≠ 0 := by
    rintro rfl
    exact absurd first.1 (by decide)
  have leads : ∀ mark ∈ Encoding.marks, ∃ lead ∈ mark.1.head?, lead = 0 ∨ 0x80 ≤ lead.toNat := by
    decide
  have unmarked : Encoding.marks.find? (·.1.isPrefixOf (b :: rest)) = none := by
    rw [List.find?_eq_none]
    intro mark member begins
    obtain ⟨lead, head, far⟩ := leads mark member
    obtain ⟨tail, shape⟩ := List.head?_eq_some_iff.mp head
    rw [shape, List.isPrefixOf_cons_cons, Bool.and_eq_true, beq_iff_eq] at begins
    rcases far with rfl | far
    · exact zero begins.1.symm
    · rw [begins.1] at far
      omega
  have plain : Encoding.unmarked (b :: rest) = .utf8 := by
    unfold Encoding.unmarked
    split
    · rename_i shape
      obtain ⟨rfl, rfl⟩ := List.cons.inj shape
      rw [if_neg zero, if_neg (second _ rfl)]
    · rename_i shape
      obtain ⟨rfl, rfl⟩ := List.cons.inj shape
      rw [if_neg zero, if_neg (second _ rfl)]
    · rfl
  rw [Encoding.detect, unmarked, plain]

private theorem encodePoint_head (visible : 0x20 ≤ c.val) :
    ∀ b ∈ (Utf8.encodePoint c).head?, b ≠ 0 := by
  have nonzero (n : Nat) (small : n < 256) (positive : 0 < n) : UInt8.ofNat n ≠ 0 := by
    intro same
    have value := Utf8.toNat_byte small
    rw [same] at value
    simp at value
    omega
  have bound := c.isLt
  intro b head
  unfold Utf8.encodePoint at head
  dsimp only at head
  split at head
  · obtain rfl := Option.some.inj head
    exact nonzero _ (by omega) (by omega)
  split at head
  · obtain rfl := Option.some.inj head
    exact nonzero _ (by omega) (by omega)
  split at head
  · obtain rfl := Option.some.inj head
    exact nonzero _ (by omega) (by omega)
  · obtain rfl := Option.some.inj head
    exact nonzero _ (by omega) (by omega)

/-- Bytes of a text without controls and surrogate halves are read as the text, if it begins in
ASCII. -/
theorem decode_encodePoints (ascii : c.isAscii = true) (printed : Json.Printed (c :: t))
    (clear : ∀ d ∈ c :: t, d.isSurrogate = false) :
    Encoding.decode ((c :: t).flatMap Utf8.encodePoint) = .ok (c :: t) := by
  simp only [CodePoint.isAscii, decide_eq_true_eq] at ascii
  obtain ⟨visible, others⟩ := Json.printed_cons.mp printed
  have first : Utf8.encodePoint c = [UInt8.ofNat c.val] := by
    rw [Utf8.encodePoint, if_pos ascii]
  have lead := Utf8.toNat_byte (show c.val < 256 by omega)
  have second : ∀ b ∈ (t.flatMap Utf8.encodePoint).head?, b ≠ 0 := by
    cases t with
    | nil =>
      intro b member
      cases member
    | cons d rest =>
      obtain ⟨b, tail, shape, _⟩ := Utf8.step_encodePoint d (clear d (by simp)) []
      have nonzero := encodePoint_head (Json.printed_cons.mp others).1
      rw [List.flatMap_cons, shape]
      rw [shape] at nonzero
      exact nonzero
  have form : Encoding.detect ((c :: t).flatMap Utf8.encodePoint) = (.utf8, 0) := by
    rw [List.flatMap_cons, first]
    exact detect_plain (by omega) second
  rw [Encoding.decode, form]
  exact Utf8.decodeFrom_encode true 0 _ clear

end Bytes

namespace Json

section Reading

theorem itemsBack_eq_map (asciiOnly : Bool) (items : List Json) :
    itemsBack asciiOnly items = items.map (readBack asciiOnly) := by
  induction items with
  | nil => rfl
  | cons item rest ih => rw [itemsBack, ih, List.map_cons]

theorem membersBack_eq_map (ms : Members) :
    membersBack false ms = ms.map fun m => (m.1, m.2.readBack false) := by
  induction ms with
  | nil => rfl
  | cons m rest ih =>
    rw [membersBack, ih, List.map_cons]
    rfl

private theorem keys_membersBack (ms : Members) :
    Members.keys (membersBack false ms) = ms.keys := by
  rw [membersBack_eq_map, Members.keys, List.map_map]
  rfl

private theorem readBack_object {ms : Members} (distinct : ms.Distinct) :
    (object ms).readBack false = object (membersBack false ms) := by
  have names : Members.Distinct (membersBack false ms) := by
    rw [Members.Distinct, keys_membersBack]
    exact distinct
  rw [readBack, uniteMembers_self names]

private theorem itemsBack_alike {items : List Json}
    (each : ∀ item ∈ items, Alike item (item.readBack false)) :
    AlikeItems items (itemsBack false items) := by
  induction items with
  | nil => exact .nil
  | cons item rest ih =>
    have others := ih fun x member => each x (List.mem_cons_of_mem _ member)
    exact .cons (each item List.mem_cons_self) others

private theorem membersBack_alike {ms : Members}
    (each : ∀ m ∈ ms, Alike m.2 (m.2.readBack false)) :
    AlikeMembers ms (membersBack false ms) := by
  induction ms with
  | nil => exact .nil
  | cons m rest ih =>
    have others := ih fun x member => each x (List.mem_cons_of_mem _ member)
    exact .cons m.1 (each m List.mem_cons_self) others

theorem readBack_alike {v : Json} (distinct : v.Distinct) : Alike v (v.readBack false) := by
  induction distinct with
  | null => exact oneNaN_alike null
  | bool b => exact oneNaN_alike (bool b)
  | int i => exact oneNaN_alike (int i)
  | float x => exact oneNaN_alike (float x)
  | text t => exact .text t
  | array _ each => exact .array (itemsBack_alike each)
  | @object ms here _ each =>
    rw [readBack_object here]
    exact .object (.refl ms) (membersBack_alike each) (.refl _)

theorem readBack_ascending {v : Json} (ascending : v.Ascending) :
    (v.readBack false).Ascending := by
  induction ascending with
  | null => exact .null
  | bool b => exact .bool b
  | int i => exact .int i
  | float x => exact .float _
  | text t => exact .text t
  | array _ each =>
    rw [readBack, itemsBack_eq_map]
    exact .array (List.forall_mem_map.mpr each)
  | @object ms here _ each =>
    have names : Members.Ascending (membersBack false ms) := by
      rw [Members.Ascending, keys_membersBack]
      exact here
    rw [readBack_object here.distinct]
    apply Everywhere.object names
    rw [membersBack_eq_map]
    exact List.forall_mem_map.mpr each

theorem Fits.sortKeys {room : Nat} {v : Json} (fits : Fits room v) : Fits room v.sortKeys := by
  induction fits with
  | null => exact .null
  | bool b => exact .bool b
  | int short => exact .int short
  | float x => exact .float x
  | text t => exact .text t
  | array _ each =>
    rw [Json.sortKeys, sortItems_eq_map]
    exact .array (List.forall_mem_map.mpr each)
  | object _ each =>
    rw [Json.sortKeys]
    exact .object (forall_mem_sort each)

end Reading

section Texts

theorem write_ascii (layout : JsonLayout) (depth : Nat) (v : Json) :
    ∃ c tail, v.write layout depth = c :: tail ∧ c.isAscii = true := by
  have graphic (written : Graphic (v.write layout depth)) :
      ∃ c tail, v.write layout depth = c :: tail ∧ c.isAscii = true := by
    obtain ⟨c, tail, shape, _⟩ := write_head layout depth v
    rw [shape] at written
    exact ⟨c, tail, shape, (written c List.mem_cons_self).2⟩
  cases v with
  | null => exact graphic (show Graphic (Text.ofString "null") by decide)
  | bool b => cases b <;> exact ⟨_, _, rfl, rfl⟩
  | int i => exact graphic (graphic_ofInt i)
  | float x => exact graphic (graphic_floatText x)
  | text t => exact ⟨_, _, rfl, rfl⟩
  | array items => cases items <;> exact ⟨_, _, rfl, rfl⟩
  | object ms => cases ms <;> exact ⟨_, _, rfl, rfl⟩

/-- The bytes of a text without halves of pairs are read as the value that was written. -/
theorem parseBytes_render {room : Nat} {v : Json} (fits : Fits room v)
    (clear : ¬Broken (v.render .literal)) :
    parseBytes room ((v.render .literal).flatMap Utf8.encodePoint) = .ok (v.readBack false) := by
  have printed : Printed (v.render .literal) := printed_write 0 v
  have read : document room (v.render .literal) = .ok (v.readBack false) :=
    document_render .literal fits
  obtain ⟨c, tail, shape, ascii⟩ := write_ascii .literal 0 v
  have whole : v.render .literal = c :: tail := shape
  have halves : ∀ d ∈ c :: tail, d.isSurrogate = false := by
    intro d member
    rw [whole] at clear
    by_contra half
    exact clear ⟨d, member, by simpa using half⟩
  rw [whole] at printed read ⊢
  rw [parseBytes, decode_encodePoints ascii printed halves]
  simp only [parse.read, read]
  rfl

end Texts

section Depth

def brackets (n : Nat) : Text := List.replicate n (CodePoint.ofChar '[')

/-- Each bracket takes room for one container and two units of the fuel. -/
theorem value_brackets {room fuel n : Nat} (deep : room < n) (enough : 2 * room < fuel) :
    value room fuel (brackets n) = .error (.depth .array) := by
  have quote : CodePoint.ofChar '[' ≠ CodePoint.ofChar '"' := by decide
  have close : CodePoint.ofChar '[' ≠ CodePoint.ofChar ']' := by decide
  induction room generalizing fuel n with
  | zero =>
    obtain ⟨n, rfl⟩ := Nat.exists_eq_add_one.mpr deep
    obtain ⟨fuel, rfl⟩ := Nat.exists_eq_add_one.mpr enough
    rw [brackets, List.replicate_succ, value, if_neg quote, if_pos rfl, if_pos rfl]
  | succ room ih =>
    obtain ⟨n, rfl⟩ := Nat.exists_eq_add_of_le' (show 2 ≤ n by omega)
    obtain ⟨fuel, rfl⟩ := Nat.exists_eq_add_of_le' (show 2 ≤ fuel by omega)
    have inner : value room fuel (brackets (n + 1)) = .error (.depth .array) :=
      ih (by omega) (by omega)
    have next : skipBlanks (brackets (n + 1)) = CodePoint.ofChar '[' :: brackets n :=
      skipBlanks_cons (by decide) _
    have items : elements room (fuel + 1) (brackets (n + 1)) = .error (.depth .array) := by
      rw [elements, inner]
      rfl
    change value (room + 1) (fuel + 2) (CodePoint.ofChar '[' :: brackets (n + 1)) = _
    rw [value, if_neg quote, if_pos rfl, if_neg (Nat.succ_ne_zero room), next]
    dsimp only
    rw [if_neg close]
    exact bind_error.mpr (.inl items)

theorem parseBytes_brackets {room n : Nat} (deep : room < n) :
    parseBytes room (List.replicate n 0x5B) = .error (.text (.depth .array)) := by
  obtain ⟨n, rfl⟩ := Nat.exists_eq_add_one.mpr (Nat.zero_lt_of_lt deep)
  have clear : ∀ d ∈ brackets (n + 1), d.isSurrogate = false := by
    intro d member
    rw [List.eq_of_mem_replicate member]
    decide
  have printed : Printed (brackets (n + 1)) := by
    intro d member
    rw [List.eq_of_mem_replicate member]
    decide
  have bytes : (brackets (n + 1)).flatMap Utf8.encodePoint = List.replicate (n + 1) 0x5B := by
    have single : Utf8.encodePoint (CodePoint.ofChar '[') = [0x5B] := by decide
    rw [brackets, List.flatMap_replicate, single, List.flatten_replicate_singleton]
  have decoded : Encoding.decode (List.replicate (n + 1) 0x5B) = .ok (brackets (n + 1)) := by
    rw [← bytes]
    exact decode_encodePoints (by decide) printed clear
  have blanks : skipBlanks (brackets (n + 1)) = brackets (n + 1) := skipBlanks_cons (by decide) _
  have length : (brackets (n + 1)).length = n + 1 := List.length_replicate
  have stopped := value_brackets deep
    (show 2 * room < 2 * (brackets (n + 1)).length + 1 by rw [length]; omega)
  have read : document room (brackets (n + 1)) = .error (.depth .array) := by
    rw [document, blanks]
    exact bind_error.mpr (.inl stopped)
  rw [parseBytes, decoded]
  simp only [parse.read, read]
  rfl

end Depth

end Json

end LinkedProof
