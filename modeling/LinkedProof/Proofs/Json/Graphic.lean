import LinkedProof.Json.Writer
import LinkedProof.Proofs.Json.Alike
import LinkedProof.Proofs.Json.Quoted
import LinkedProof.Proofs.Number.Decimal

/-! What JSON text is made of: numbers of visible ASCII, and everything else of no controls, which
are escaped in strings and stand nowhere else on a line. -/
namespace LinkedProof.Json

def Graphic (t : Text) : Prop := ∀ c ∈ t, 0x20 ≤ c.val ∧ c.isAscii = true

def Printed (t : Text) : Prop := ∀ c ∈ t, 0x20 ≤ c.val

instance (t : Text) : Decidable (Graphic t) :=
  inferInstanceAs (Decidable (∀ c ∈ t, 0x20 ≤ c.val ∧ c.isAscii = true))

section Texts

variable {s t : Text} {c : CodePoint}

@[simp] theorem graphic_nil : Graphic [] := fun _ member => nomatch member

@[simp] theorem graphic_append : Graphic (s ++ t) ↔ Graphic s ∧ Graphic t := List.forall_mem_append

@[simp] theorem printed_nil : Printed [] := fun _ member => nomatch member

@[simp] theorem printed_cons : Printed (c :: t) ↔ 0x20 ≤ c.val ∧ Printed t := List.forall_mem_cons

@[simp] theorem printed_append : Printed (s ++ t) ↔ Printed s ∧ Printed t := List.forall_mem_append

theorem Graphic.printed (graphic : Graphic t) : Printed t := fun c member => (graphic c member).1

theorem Graphic.subset (graphic : Graphic t) (inside : s ⊆ t) : Graphic s :=
  fun c member => graphic c (inside member)

end Texts

section Numbers

theorem graphic_ofNat (n : Nat) : Graphic (Text.ofNat n) := by
  intro c member
  have digit := (Text.ofNat_isDecimal n).digits c member
  simp only [CodePoint.isDigit, CodePoint.isAscii, Bool.and_eq_true, decide_eq_true_eq] at digit ⊢
  omega

theorem graphic_ofInt (i : Int) : Graphic (Text.ofInt i) := by
  have minus : Graphic (Text.ofString "-") := by decide
  unfold Text.ofInt
  split <;> simp [minus, graphic_ofNat]

private theorem graphic_zeros (n : Nat) : Graphic (List.replicate n (CodePoint.ofChar '0')) := by
  intro c member
  rw [List.eq_of_mem_replicate member]
  decide

private theorem graphic_positional {digits : Text} (graphic : Graphic digits) (point : Int) :
    Graphic (FloatLayout.positional digits point) := by
  have lead : Graphic (Text.ofString "0.") := by decide
  have trail : Graphic (Text.ofString ".0") := by decide
  have middle : Graphic (Text.ofString ".") := by decide
  have front (k : Nat) : Graphic (digits.take k) := graphic.subset (List.take_subset k _)
  have back (k : Nat) : Graphic (digits.drop k) := graphic.subset (List.drop_subset k _)
  unfold FloatLayout.positional
  dsimp only
  split
  · simp [lead, graphic_zeros, graphic]
  · split
    · simp [trail, graphic_zeros, graphic]
    · simp [middle, front, back]

private theorem graphic_scientific (layout : FloatLayout) {digits : Text}
    (graphic : Graphic digits) (point : Int) : Graphic (layout.scientific digits point) := by
  have below : Graphic (Text.ofString "e-") := by decide
  have above : Graphic (Text.ofString "e+") := by decide
  have dot : Graphic [CodePoint.ofChar '.'] := by decide
  have power (n : Nat) : Graphic (Text.ofNatPadded layout.exponentDigits n) := by
    simp [Text.ofNatPadded, graphic_zeros, graphic_ofNat]
  unfold FloatLayout.scientific
  dsimp only
  rw [graphic_append, graphic_append]
  refine ⟨⟨?_, ?_⟩, power _⟩
  · rcases digits with _ | ⟨d, _ | ⟨e, rest⟩⟩
    · exact graphic_nil
    · exact graphic
    · have parts : Graphic ([d] ++ (e :: rest)) := graphic
      have whole : Graphic ([d] ++ ([CodePoint.ofChar '.'] ++ (e :: rest))) := by
        rw [graphic_append] at parts ⊢
        exact ⟨parts.1, graphic_append.mpr ⟨dot, parts.2⟩⟩
      exact whole
  · split
    · exact below
    · exact above

private theorem graphic_magnitude (layout : FloatLayout) (x : Binary64) :
    Graphic (layout.magnitude x) := by
  have zero : Graphic (Text.ofString "0.0") := by decide
  unfold FloatLayout.magnitude
  split
  · exact zero
  · dsimp only
    split
    · exact graphic_positional (graphic_ofNat _) _
    · exact graphic_scientific layout (graphic_ofNat _) _

theorem graphic_floatText (x : Binary64) : Graphic (FloatLayout.json.text x) := by
  have minus : Graphic (Text.ofString "-") := by decide
  have nan : Graphic FloatLayout.json.nan := by decide
  have infinity : Graphic FloatLayout.json.infinity := by decide
  have unsigned : Graphic (if x.isInfinite then FloatLayout.json.infinity
      else FloatLayout.json.magnitude x) := by
    split
    · exact infinity
    · exact graphic_magnitude _ x
  unfold FloatLayout.text
  split
  · exact nan
  · dsimp only
    split
    · exact graphic_append.mpr ⟨minus, unsigned⟩
    · exact unsigned

end Numbers

section Values

private theorem printed_ofHex (width n : Nat) : Printed (Text.ofHex width n) := by
  have digit : ∀ n < 16, 0x20 ≤ (CodePoint.hexDigit n).val := by decide
  induction width generalizing n with
  | zero => exact printed_nil
  | succ width ih =>
    rw [Text.ofHex, printed_append, printed_cons]
    exact ⟨ih _, digit _ (Nat.mod_lt _ (by decide)), printed_nil⟩

private theorem printed_shortEscape {c d : CodePoint} (short : shortEscape? d = some c) :
    0x20 ≤ d.val := by
  unfold shortEscape? at short
  split at short
  · rename_i itself
    simp only [Bool.or_eq_true, decide_eq_true_eq] at itself
    rcases itself with (rfl | rfl) | rfl <;> decide
  repeat' split at short
  all_goals cases short
  all_goals rename_i letter
  all_goals subst letter
  all_goals decide

private theorem printed_escape (c : CodePoint) : Printed (escape false c) := by
  have backslash : 0x20 ≤ (CodePoint.ofChar '\\').val := by decide
  have lead : Printed (Text.ofString "\\u") := Graphic.printed (by decide)
  rcases escape_cases false c with ⟨d, shape, _, short⟩ | ⟨shape, _, _⟩ | ⟨other, _⟩ |
    ⟨shape, _, _, visible, _⟩
  · simp [shape, backslash, printed_shortEscape short]
  · simp [shape, escapeUnit, lead, printed_ofHex]
  · cases other
  · simp [shape, visible]

private theorem printed_quoted (t : Text) : Printed (quoted false t) := by
  have quote : Printed (Text.ofString "\"") := Graphic.printed (by decide)
  have inside : Printed (t.flatMap (escape false)) := by
    intro c member
    obtain ⟨d, _, written⟩ := List.mem_flatMap.mp member
    exact printed_escape d c written
  rw [quoted]
  simp [quote, inside]

section Layouts

variable {p : CodePoint → Prop} {layout : JsonLayout} {depth : Nat}

def Consists (p : CodePoint → Prop) (t : Text) : Prop := ∀ c ∈ t, p c

@[simp] theorem consists_nil : Consists p [] := fun _ member => nomatch member

@[simp] theorem consists_append {s t : Text} :
    Consists p (s ++ t) ↔ Consists p s ∧ Consists p t := List.forall_mem_append

theorem Printed.consists {t : Text} (printed : Printed t) (visible : ∀ c, 0x20 ≤ c.val → p c) :
    Consists p t := fun c member => visible c (printed c member)

private theorem consists_nameEnd (visible : ∀ c, 0x20 ≤ c.val → p c) (layout : JsonLayout) :
    Consists p (nameEnd layout) := by
  unfold nameEnd
  split
  · exact Printed.consists (Graphic.printed (by decide)) visible
  · exact Printed.consists (Graphic.printed (by decide)) visible

private theorem consists_items (visible : ∀ c, 0x20 ≤ c.val → p c)
    (breaks : ∀ depth, Consists p (lineBreak layout depth)) {items : List Json}
    (each : ∀ item ∈ items, Consists p (item.write layout depth)) :
    Consists p (writeItems layout depth items) := by
  have comma : Consists p (Text.ofString ",") := (Graphic.printed (by decide)).consists visible
  induction items with
  | nil => exact consists_nil
  | cons item rest ih =>
    have first := each item List.mem_cons_self
    have others := ih fun x member => each x (List.mem_cons_of_mem _ member)
    simp only [writeItems, consists_append]
    exact ⟨⟨⟨comma, breaks depth⟩, first⟩, others⟩

private theorem consists_members (asIs : layout.asciiOnly = false)
    (visible : ∀ c, 0x20 ≤ c.val → p c) (breaks : ∀ depth, Consists p (lineBreak layout depth))
    {ms : Members} (each : ∀ m ∈ ms, Consists p (m.2.write layout depth)) :
    Consists p (writeMembers layout depth ms) := by
  have comma : Consists p (Text.ofString ",") := (Graphic.printed (by decide)).consists visible
  induction ms with
  | nil => exact consists_nil
  | cons m rest ih =>
    have first := each m List.mem_cons_self
    have others := ih fun x member => each x (List.mem_cons_of_mem _ member)
    have name : Consists p (quoted layout.asciiOnly m.1) := by
      rw [asIs]
      exact (printed_quoted m.1).consists visible
    simp only [writeMembers, consists_append]
    exact ⟨⟨⟨⟨⟨comma, breaks depth⟩, name⟩, consists_nameEnd visible layout⟩, first⟩, others⟩

/-- With code points as they are, nothing but the line breaks of a layout puts a control into the
text of a value. -/
theorem consists_write (asIs : layout.asciiOnly = false) (visible : ∀ c, 0x20 ≤ c.val → p c)
    (breaks : ∀ depth, Consists p (lineBreak layout depth)) (depth : Nat) (v : Json) :
    Consists p (v.write layout depth) := by
  have seen {t : Text} (graphic : Graphic t) : Consists p t := graphic.printed.consists visible
  induction v using inside generalizing depth with
  | null => exact seen (show Graphic (Text.ofString "null") by decide)
  | bool b =>
    cases b with
    | false => exact seen (show Graphic (Text.ofString "false") by decide)
    | true => exact seen (show Graphic (Text.ofString "true") by decide)
  | int i => exact seen (graphic_ofInt i)
  | float x => exact seen (graphic_floatText x)
  | text t =>
    rw [write, asIs]
    exact (printed_quoted t).consists visible
  | array items ih =>
    have left : Consists p (Text.ofString "[") := seen (by decide)
    have right : Consists p (Text.ofString "]") := seen (by decide)
    cases items with
    | nil => exact seen (show Graphic (Text.ofString "[]") by decide)
    | cons item rest =>
      have first := ih item List.mem_cons_self (depth + 1)
      have others := consists_items visible breaks fun x member =>
        ih x (List.mem_cons_of_mem _ member) (depth + 1)
      simp only [write, consists_append]
      exact ⟨⟨⟨⟨⟨left, breaks (depth + 1)⟩, first⟩, others⟩, breaks depth⟩, right⟩
  | object ms ih =>
    have left : Consists p (Text.ofString "\x7b") := seen (by decide)
    have right : Consists p (Text.ofString "\x7d") := seen (by decide)
    cases ms with
    | nil => exact seen (show Graphic (Text.ofString "\x7b\x7d") by decide)
    | cons m rest =>
      have first := ih m List.mem_cons_self (depth + 1)
      have others := consists_members asIs visible breaks fun x member =>
        ih x (List.mem_cons_of_mem _ member) (depth + 1)
      have name : Consists p (quoted layout.asciiOnly m.1) := by
        rw [asIs]
        exact (printed_quoted m.1).consists visible
      simp only [write, consists_append]
      exact ⟨⟨⟨⟨⟨⟨⟨left, breaks (depth + 1)⟩, name⟩, consists_nameEnd visible layout⟩, first⟩,
        others⟩, breaks depth⟩, right⟩

/-- On one line with code points as they are, no text of a value holds a control. -/
theorem printed_write (depth : Nat) (v : Json) : Printed (v.write .literal depth) :=
  consists_write rfl (fun _ visible => visible) (fun _ => consists_nil) depth v

end Layouts

end Values

end LinkedProof.Json
