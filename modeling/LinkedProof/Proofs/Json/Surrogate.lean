import LinkedProof.Proofs.Json.Alike
import LinkedProof.Proofs.Json.Graphic
import LinkedProof.Proofs.Utf8

/-! Where the text of a value holds half of a surrogate pair: exactly where one of its strings or
names does, so these alone decide whether the text has bytes. -/
namespace LinkedProof.Json

def Broken (t : Text) : Prop := ∃ c ∈ t, c.isSurrogate = true

instance (t : Text) : Decidable (Broken t) :=
  inferInstanceAs (Decidable (∃ c ∈ t, c.isSurrogate = true))

inductive HoldsBroken : Json → Prop
  | text {t : Text} (broken : Broken t) : HoldsBroken (text t)
  | item {items : List Json} {item : Json} (member : item ∈ items) (broken : HoldsBroken item) :
    HoldsBroken (array items)
  | name {ms : Members} {m : Text × Json} (member : m ∈ ms) (broken : Broken m.1) :
    HoldsBroken (object ms)
  | value {ms : Members} {m : Text × Json} (member : m ∈ ms) (broken : HoldsBroken m.2) :
    HoldsBroken (object ms)

@[simp] theorem holdsBroken_null : ¬HoldsBroken null := nofun

@[simp] theorem holdsBroken_bool (b : Bool) : ¬HoldsBroken (bool b) := nofun

@[simp] theorem holdsBroken_int (i : Int) : ¬HoldsBroken (int i) := nofun

@[simp] theorem holdsBroken_text {t : Text} : HoldsBroken (text t) ↔ Broken t := by
  constructor
  · rintro ⟨broken⟩
    exact broken
  · exact .text

theorem HoldsBroken.subset {ms ns : Members} (inside : ms ⊆ ns) (holds : HoldsBroken (object ms)) :
    HoldsBroken (object ns) := by
  cases holds with
  | name member broken => exact .name (inside member) broken
  | value member broken => exact .value (inside member) broken

section Texts

variable {s t : Text} {c : CodePoint}

@[simp] theorem broken_nil : ¬Broken [] := fun ⟨_, member, _⟩ => nomatch member

@[simp] theorem broken_append : Broken (s ++ t) ↔ Broken s ∨ Broken t := by
  simp [Broken, or_and_right, exists_or]

@[simp] theorem broken_cons : Broken (c :: t) ↔ c.isSurrogate = true ∨ Broken t := by
  simp [Broken]

theorem broken_flatMap (f : CodePoint → Text) :
    Broken (t.flatMap f) ↔ ∃ c ∈ t, Broken (f c) := by
  simp only [Broken, List.mem_flatMap]
  constructor
  · rintro ⟨d, ⟨c, member, inside⟩, half⟩
    exact ⟨c, member, d, inside, half⟩
  · rintro ⟨c, member, d, inside, half⟩
    exact ⟨d, ⟨c, member, inside⟩, half⟩

theorem not_broken_of_ascii (ascii : ∀ c ∈ t, c.isAscii = true) : ¬Broken t := by
  rintro ⟨c, member, half⟩
  rw [CodePoint.isSurrogate_of_isAscii (ascii c member)] at half
  cases half

/-- Written as it is, a code point is half of a pair in its text if it was one before. -/
theorem broken_escape : Broken (escape false c) ↔ c.isSurrogate = true := by
  rcases escape_cases false c with ⟨d, shape, _, short⟩ | ⟨shape, _, control⟩ | ⟨other, _⟩ |
    ⟨shape, _⟩
  · obtain ⟨ascii, ascii'⟩ := shortEscape?_ascii short
    have backslash : (CodePoint.ofChar '\\').isSurrogate = false := by decide
    rw [shape]
    simp [backslash, CodePoint.isSurrogate_of_isAscii ascii,
      CodePoint.isSurrogate_of_isAscii ascii']
  · have small := control rfl
    have ascii : c.isAscii = true := by
      simp only [CodePoint.isAscii, decide_eq_true_eq]
      omega
    have lead : ¬Broken (Text.ofString "\\u") := not_broken_of_ascii (by decide)
    rw [shape, escapeUnit]
    simp [lead, not_broken_of_ascii (ofHex_ascii 4 c.val), CodePoint.isSurrogate_of_isAscii ascii]
  · cases other
  · simp [shape]

theorem broken_quoted : Broken (quoted false t) ↔ Broken t := by
  have quote : (CodePoint.ofChar '"').isSurrogate = false := by decide
  rw [quoted_eq]
  simp [quote, broken_flatMap, broken_escape]
  rfl

theorem Graphic.not_broken (graphic : Graphic t) : ¬Broken t :=
  not_broken_of_ascii fun c member => (graphic c member).2

end Texts

section Values

variable {layout : JsonLayout} {depth : Nat}

private theorem not_broken_lineBreak (layout : JsonLayout) (depth : Nat) :
    ¬Broken (lineBreak layout depth) := by
  refine not_broken_of_ascii fun c member => ?_
  rw [lineBreak] at member
  split at member
  · cases member
  · rcases List.mem_cons.mp member with rfl | blank
    · rfl
    · rw [List.eq_of_mem_replicate blank]
      rfl

private theorem not_broken_nameEnd (layout : JsonLayout) : ¬Broken (nameEnd layout) := by
  rw [nameEnd]
  split
  · exact not_broken_of_ascii (by decide)
  · exact not_broken_of_ascii (by decide)

private theorem broken_items {items : List Json}
    (each : ∀ item ∈ items, ∀ depth, Broken (item.write layout depth) ↔ HoldsBroken item) :
    Broken (writeItems layout depth items) ↔ ∃ item ∈ items, HoldsBroken item := by
  have comma : ¬Broken (Text.ofString ",") := not_broken_of_ascii (by decide)
  induction items with
  | nil => simp [writeItems]
  | cons item rest ih =>
    have first := each item List.mem_cons_self depth
    have others := ih fun x member => each x (List.mem_cons_of_mem _ member)
    rw [writeItems]
    simp [comma, not_broken_lineBreak, first, others]

private theorem broken_members (asIs : layout.asciiOnly = false) {ms : Members}
    (each : ∀ m ∈ ms, ∀ depth, Broken (m.2.write layout depth) ↔ HoldsBroken m.2) :
    Broken (writeMembers layout depth ms) ↔ ∃ m ∈ ms, Broken m.1 ∨ HoldsBroken m.2 := by
  have comma : ¬Broken (Text.ofString ",") := not_broken_of_ascii (by decide)
  induction ms with
  | nil => simp [writeMembers]
  | cons m rest ih =>
    obtain ⟨key, v⟩ := m
    have first := each (key, v) List.mem_cons_self depth
    have others := ih fun x member => each x (List.mem_cons_of_mem _ member)
    rw [writeMembers, asIs]
    simp only [broken_append, comma, not_broken_lineBreak, not_broken_nameEnd, broken_quoted, first,
      others, false_or, or_false]
    simp [or_assoc]

theorem holdsBroken_array {items : List Json} :
    HoldsBroken (array items) ↔ ∃ item ∈ items, HoldsBroken item := by
  constructor
  · intro holds
    cases holds with
    | item member broken => exact ⟨_, member, broken⟩
  · rintro ⟨item, member, broken⟩
    exact .item member broken

theorem holdsBroken_object {ms : Members} :
    HoldsBroken (object ms) ↔ ∃ m ∈ ms, Broken m.1 ∨ HoldsBroken m.2 := by
  constructor
  · intro holds
    cases holds with
    | name member broken => exact ⟨_, member, .inl broken⟩
    | value member broken => exact ⟨_, member, .inr broken⟩
  · rintro ⟨m, member, broken | broken⟩
    · exact .name member broken
    · exact .value member broken

private theorem write_array (layout : JsonLayout) (depth : Nat) (items : List Json) :
    Broken ((array items).write layout depth) ↔
      Broken (writeItems layout (depth + 1) items) := by
  have comma : ¬Broken (Text.ofString ",") := not_broken_of_ascii (by decide)
  have left : ¬Broken (Text.ofString "[") := not_broken_of_ascii (by decide)
  have right : ¬Broken (Text.ofString "]") := not_broken_of_ascii (by decide)
  have both : ¬Broken (Text.ofString "[]") := not_broken_of_ascii (by decide)
  cases items with
  | nil => simp [write, writeItems, both]
  | cons item rest =>
    rw [write, writeItems]
    simp [comma, left, right, not_broken_lineBreak]

private theorem write_object (layout : JsonLayout) (depth : Nat) (ms : Members) :
    Broken ((object ms).write layout depth) ↔ Broken (writeMembers layout (depth + 1) ms) := by
  have comma : ¬Broken (Text.ofString ",") := not_broken_of_ascii (by decide)
  have left : ¬Broken (Text.ofString "\x7b") := not_broken_of_ascii (by decide)
  have right : ¬Broken (Text.ofString "\x7d") := not_broken_of_ascii (by decide)
  have both : ¬Broken (Text.ofString "\x7b\x7d") := not_broken_of_ascii (by decide)
  cases ms with
  | nil => simp [write, writeMembers, both]
  | cons m rest =>
    obtain ⟨key, v⟩ := m
    rw [write, writeMembers]
    simp [comma, left, right, not_broken_lineBreak]

/-- The text of a value is broken exactly when a string or a name in it is, unless the layout has
escapes for them. -/
theorem broken_layout (asIs : layout.asciiOnly = false) (depth : Nat) (v : Json) :
    Broken (v.write layout depth) ↔ HoldsBroken v := by
  induction v using inside generalizing depth with
  | null =>
    have word : ¬Broken (Text.ofString "null") := not_broken_of_ascii (by decide)
    exact iff_of_false word nofun
  | bool b =>
    have no : ¬Broken (Text.ofString "false") := not_broken_of_ascii (by decide)
    have yes : ¬Broken (Text.ofString "true") := not_broken_of_ascii (by decide)
    cases b with
    | false => exact iff_of_false no nofun
    | true => exact iff_of_false yes nofun
  | int i => exact iff_of_false (graphic_ofInt i).not_broken nofun
  | float x => exact iff_of_false (graphic_floatText x).not_broken nofun
  | text t =>
    rw [write, asIs, broken_quoted, holdsBroken_text]
  | array items ih =>
    rw [write_array, broken_items fun item member depth => ih item member depth, holdsBroken_array]
  | object ms ih =>
    rw [write_object, broken_members asIs fun m member depth => ih m member depth,
      holdsBroken_object]

theorem broken_write (depth : Nat) (v : Json) :
    Broken (v.write .literal depth) ↔ HoldsBroken v := broken_layout rfl depth v

instance (v : Json) : Decidable (HoldsBroken v) := decidable_of_iff _ (broken_write 0 v)

private theorem AlikeItems.broken {items items' : List Json} (alike : AlikeItems items items')
    (each : ∀ item ∈ items, ∀ w, Alike item w → HoldsBroken item → HoldsBroken w)
    (some : ∃ item ∈ items, HoldsBroken item) : ∃ item ∈ items', HoldsBroken item := by
  induction items generalizing items' with
  | nil =>
    obtain ⟨item, member, _⟩ := some
    cases member
  | cons item rest ih =>
    cases alike with
    | cons first others =>
      obtain ⟨x, member, broken⟩ := some
      rcases List.mem_cons.mp member with rfl | later
      · exact ⟨_, List.mem_cons_self, each _ List.mem_cons_self _ first broken⟩
      · obtain ⟨y, inside, broken'⟩ := ih others
          (fun z member => each z (List.mem_cons_of_mem _ member)) ⟨x, later, broken⟩
        exact ⟨y, List.mem_cons_of_mem _ inside, broken'⟩

private theorem AlikeMembers.broken {ms ms' : Members} (alike : AlikeMembers ms ms')
    (each : ∀ m ∈ ms, ∀ w, Alike m.2 w → HoldsBroken m.2 → HoldsBroken w)
    (some : ∃ m ∈ ms, Broken m.1 ∨ HoldsBroken m.2) :
    ∃ m ∈ ms', Broken m.1 ∨ HoldsBroken m.2 := by
  induction ms generalizing ms' with
  | nil =>
    obtain ⟨m, member, _⟩ := some
    cases member
  | cons m rest ih =>
    cases alike with
    | cons key first others =>
      obtain ⟨x, member, broken⟩ := some
      rcases List.mem_cons.mp member with rfl | later
      · exact ⟨_, List.mem_cons_self, broken.imp_right (each _ List.mem_cons_self _ first)⟩
      · obtain ⟨y, inside, broken'⟩ := ih others
          (fun z member => each z (List.mem_cons_of_mem _ member)) ⟨x, later, broken⟩
        exact ⟨y, List.mem_cons_of_mem _ inside, broken'⟩

theorem Alike.holdsBroken {v w : Json} (alike : Alike v w) (holds : HoldsBroken v) :
    HoldsBroken w := by
  induction v using inside generalizing w with
  | null => cases holds
  | bool b => cases holds
  | int i => cases holds
  | float x => cases holds
  | text t =>
    cases alike
    exact holds
  | array items ih =>
    cases alike with
    | array alike =>
      rw [holdsBroken_array] at holds ⊢
      exact alike.broken (fun item member w alike => ih item member alike) holds
  | object ms ih =>
    cases alike with
    | object left alike right =>
      rw [holdsBroken_object] at holds ⊢
      obtain ⟨m, member, broken⟩ := holds
      obtain ⟨m', inside, broken'⟩ := alike.broken
        (fun m member w alike => ih m (left.mem_iff.mpr member) alike)
        ⟨m, left.mem_iff.mp member, broken⟩
      exact ⟨m', right.mem_iff.mp inside, broken'⟩

end Values

end LinkedProof.Json
