import LinkedProof.Proofs.Json.Alike
import LinkedProof.Proofs.Json.Quoted
import LinkedProof.Proofs.Json.Scalar

/-! Reading the text of a value gives the value back, in every layout: its strings with the halves
of pairs joined where they were written as escapes, and its members united by their names. -/
namespace LinkedProof.Json

mutual

def readBack (asciiOnly : Bool) : Json → Json
  | text t => text (asRead asciiOnly t)
  | array items => array (itemsBack asciiOnly items)
  | object ms => object (uniteMembers (membersBack asciiOnly ms))
  | value => value.oneNaN

def itemsBack (asciiOnly : Bool) : List Json → List Json
  | [] => []
  | item :: rest => item.readBack asciiOnly :: itemsBack asciiOnly rest

def membersBack (asciiOnly : Bool) : List (Text × Json) → Members
  | [] => []
  | (key, value) :: rest =>
    (asRead asciiOnly key, value.readBack asciiOnly) :: membersBack asciiOnly rest

end

/-- A value that the reader takes with so much room: containers no deeper than that, and integers of
so many digits as it allows. -/
inductive Fits : Nat → Json → Prop
  | null {room : Nat} : Fits room null
  | bool {room : Nat} (b : Bool) : Fits room (bool b)
  | int {room : Nat} {i : Int} (short : i.natAbs < leastLong) : Fits room (int i)
  | float {room : Nat} (x : Binary64) : Fits room (float x)
  | text {room : Nat} (t : Text) : Fits room (text t)
  | array {room : Nat} {items : List Json} (each : ∀ item ∈ items, Fits room item) :
    Fits (room + 1) (array items)
  | object {room : Nat} {ms : Members} (each : ∀ m ∈ ms, Fits room m.2) :
    Fits (room + 1) (object ms)

section Room

mutual

def fits : Json → Nat → Bool
  | int i, _ => i.natAbs < leastLong
  | array _, 0 => false
  | array items, room + 1 => itemsFit items room
  | object _, 0 => false
  | object ms, room + 1 => membersFit ms room
  | _, _ => true

def itemsFit : List Json → Nat → Bool
  | [], _ => true
  | item :: rest, room => fits item room && itemsFit rest room

def membersFit : List (Text × Json) → Nat → Bool
  | [], _ => true
  | (_, value) :: rest, room => fits value room && membersFit rest room

end

private theorem itemsFit_iff {items : List Json} {room : Nat} :
    itemsFit items room = true ↔ ∀ item ∈ items, fits item room = true := by
  induction items with
  | nil => exact iff_of_true rfl nofun
  | cons item rest ih => rw [itemsFit, Bool.and_eq_true, ih, List.forall_mem_cons]

private theorem membersFit_iff {ms : List (Text × Json)} {room : Nat} :
    membersFit ms room = true ↔ ∀ m ∈ ms, fits m.2 room = true := by
  induction ms with
  | nil => exact iff_of_true rfl nofun
  | cons m rest ih => rw [membersFit, Bool.and_eq_true, ih, List.forall_mem_cons]

theorem fits_iff {v : Json} {room : Nat} : fits v room = true ↔ Fits room v := by
  induction v using inside generalizing room with
  | null => exact iff_of_true rfl .null
  | bool b => exact iff_of_true rfl (.bool b)
  | int i =>
    rw [fits, decide_eq_true_eq]
    exact ⟨.int, fun | .int short => short⟩
  | float x => exact iff_of_true rfl (.float x)
  | text t => exact iff_of_true rfl (.text t)
  | array items ih =>
    cases room with
    | zero => exact iff_of_false nofun nofun
    | succ room =>
      rw [fits, itemsFit_iff, forall₂_congr fun item member => ih item member]
      exact ⟨.array, fun | .array each => each⟩
  | object ms ih =>
    cases room with
    | zero => exact iff_of_false nofun nofun
    | succ room =>
      rw [fits, membersFit_iff, forall₂_congr fun m member => ih m member]
      exact ⟨.object, fun | .object each => each⟩

instance (room : Nat) (v : Json) : Decidable (Fits room v) := decidable_of_iff _ fits_iff

end Room

section Blanks

variable {c : CodePoint} {gap : Text}

private theorem skipBlanks_gap (blank : ∀ c ∈ gap, isBlank c = true) (t : Text) :
    skipBlanks (gap ++ t) = skipBlanks t :=
  List.dropWhile_append_of_pos blank

theorem skipBlanks_cons (filled : isBlank c = false) (t : Text) :
    skipBlanks (c :: t) = c :: t := by
  simp [skipBlanks, filled]

private theorem lineBreak_blank (layout : JsonLayout) (depth : Nat) :
    ∀ c ∈ lineBreak layout depth, isBlank c = true := by
  unfold lineBreak
  split
  · exact fun c member => nomatch member
  · intro c member
    rcases List.mem_cons.mp member with rfl | spaces
    · rfl
    · rw [List.eq_of_mem_replicate spaces]
      rfl

private theorem blank_cases (blank : isBlank c = true) : c = CodePoint.ofChar ' ' ∨
    c = CodePoint.ofChar '\t' ∨ c = CodePoint.ofChar '\n' ∨ c = CodePoint.ofChar '\r' := by
  have points (d : CodePoint) : c = d ↔ c.val = d.val := by
    cases c
    cases d
    simp
  simp only [isBlank, Bool.or_eq_true, decide_eq_true_eq, or_assoc] at blank
  rw [points, points, points, points]
  exact blank

end Blanks

section Heads

variable {c : CodePoint} {t rest : Text} {v : Json}

private theorem scalar?_outside (outside : isBlank c = true ∨ c = CodePoint.ofChar ']') :
    scalar? (c :: t) = none := by
  rcases outside with blank | rfl
  · rcases blank_cases blank with rfl | rfl | rfl | rfl <;> rfl
  · rfl

theorem write_head (layout : JsonLayout) (depth : Nat) (v : Json) :
    ∃ c tail, v.write layout depth = c :: tail ∧ isBlank c = false ∧ c ≠ CodePoint.ofChar ']' := by
  cases scalar : v.isScalar with
  | true =>
    have read : scalar? (v.write layout depth ++ []) = _ := scalar?_write layout depth scalar nofun
    cases shape : v.write layout depth with
    | nil =>
      rw [shape] at read
      cases read
    | cons c tail =>
      rw [shape, List.cons_append] at read
      refine ⟨c, tail, rfl, ?_, ?_⟩
      · by_contra blank
        rw [scalar?_outside (.inl (by simpa using blank))] at read
        cases read
      · rintro rfl
        rw [scalar?_outside (.inr rfl)] at read
        cases read
  | false =>
    cases v with
    | text t => exact ⟨_, _, rfl, by decide, by decide⟩
    | array items => cases items <;> exact ⟨_, _, rfl, by decide, by decide⟩
    | object ms => cases ms <;> exact ⟨_, _, rfl, by decide, by decide⟩
    | _ => cases scalar

private theorem value_scalar (room fuel : Nat) (found : scalar? t = some (v, rest))
    (short : ∀ i, v = int i → i.natAbs < leastLong) :
    value room (fuel + 1) t = .ok (v, rest) := by
  cases t with
  | nil => cases found
  | cons c t =>
    have other : ¬(c = CodePoint.ofChar '"' ∨ c = CodePoint.ofChar '[' ∨
        c = CodePoint.ofChar '\x7b') := fun begins => by
      rw [scalar?_other t begins] at found
      cases found
    rw [not_or, not_or] at other
    rw [value, if_neg other.1, if_neg other.2.1, if_neg other.2.2]
    rw [scalar?, Option.or_eq_some_iff] at found
    rcases found with word | ⟨word, number⟩
    · rw [word]
    · rw [word, number]
      cases v with
      | int i => simp [checkDigits, Nat.not_le.mpr (short i rfl)]
      | _ => rfl

end Heads

section Containers

variable {layout : JsonLayout} {room : Nat}

private def Reads (layout : JsonLayout) (room : Nat) (v : Json) : Prop :=
  ∀ (depth fuel : Nat) (r : Text), 2 * (v.write layout depth).length ≤ fuel + 1 →
    ApartFromNumber r →
    value room fuel (v.write layout depth ++ r) = .ok (v.readBack layout.asciiOnly, r)

private theorem apart_of_gap {gap : Text} {c : CodePoint} (blank : ∀ c ∈ gap, isBlank c = true)
    (other : continuesNumber c = false) (r : Text) : ApartFromNumber (gap ++ c :: r) := by
  intro d member
  cases gap with
  | nil =>
    obtain rfl := Option.some.inj member
    exact other
  | cons b gap =>
    obtain rfl := Option.some.inj member
    rcases blank_cases (blank b List.mem_cons_self) with rfl | rfl | rfl | rfl <;> rfl

/-- What follows a value among others: the next of them, or the end of the container. -/
private theorem next_or_end {gap rest : Text} {close : CodePoint}
    (next : ∀ c ∈ rest.head?, c = CodePoint.ofChar ',') (blank : ∀ c ∈ gap, isBlank c = true)
    (other : continuesNumber close = false) (r : Text) :
    ApartFromNumber (rest ++ (gap ++ close :: r)) := by
  cases rest with
  | nil => exact apart_of_gap blank other r
  | cons c rest =>
    intro d member
    obtain rfl := Option.some.inj member
    rw [next c rfl]
    rfl

private theorem writeItems_next (layout : JsonLayout) (depth : Nat) (items : List Json) :
    ∀ c ∈ (writeItems layout depth items).head?, c = CodePoint.ofChar ',' := by
  cases items with
  | nil => exact fun c member => nomatch member
  | cons item rest => exact fun c member => (Option.some.inj member).symm

private theorem writeMembers_next (layout : JsonLayout) (depth : Nat) (ms : Members) :
    ∀ c ∈ (writeMembers layout depth ms).head?, c = CodePoint.ofChar ',' := by
  cases ms with
  | nil => exact fun c member => nomatch member
  | cons m rest => exact fun c member => (Option.some.inj member).symm

private theorem close_reached {gap : Text} {close : CodePoint} (blank : ∀ c ∈ gap, isBlank c = true)
    (filled : isBlank close = false) (r : Text) : skipBlanks (gap ++ close :: r) = close :: r :=
  (skipBlanks_gap blank _).trans (skipBlanks_cons filled _)

private theorem value_reached {gap : Text} (blank : ∀ c ∈ gap, isBlank c = true) (depth : Nat)
    (v : Json) (r : Text) :
    skipBlanks (gap ++ (v.write layout depth ++ r)) = v.write layout depth ++ r := by
  obtain ⟨c, tail, shape, filled, _⟩ := write_head layout depth v
  rw [skipBlanks_gap blank, shape]
  exact skipBlanks_cons filled _

private theorem name_reached {gap : Text} (blank : ∀ c ∈ gap, isBlank c = true) (key r : Text) :
    skipBlanks (gap ++ (quoted layout.asciiOnly key ++ r)) = quoted layout.asciiOnly key ++ r :=
  (skipBlanks_gap blank _).trans (skipBlanks_cons (by decide) _)

/-- Behind a name stands the colon, with what a layout puts in front of the value. -/
private theorem colon_reached (layout : JsonLayout) (r : Text) :
    ∃ blanks, (∀ c ∈ blanks, isBlank c = true) ∧
      skipBlanks (nameEnd layout ++ r) = CodePoint.ofChar ':' :: (blanks ++ r) := by
  unfold nameEnd
  split
  · exact ⟨[CodePoint.ofChar ' '], by decide, skipBlanks_cons (by decide) _⟩
  · exact ⟨[], by decide, skipBlanks_cons (by decide) _⟩

private theorem write_filled (depth : Nat) (v : Json) : 0 < (v.write layout depth).length := by
  obtain ⟨c, tail, shape, _⟩ := write_head layout depth v
  rw [shape]
  exact Nat.succ_pos _

/-- The items of an array from the first one on, up to the end of the array. -/
private theorem elements_write {depth fuel : Nat} {item : Json} {rest : List Json} {gap r : Text}
    (each : ∀ x ∈ item :: rest, Reads layout room x) (blank : ∀ c ∈ gap, isBlank c = true)
    (enough : 2 * ((item.write layout depth).length + (writeItems layout depth rest).length + 1) ≤
      fuel) :
    elements room fuel (item.write layout depth ++
      (writeItems layout depth rest ++ (gap ++ CodePoint.ofChar ']' :: r))) =
      .ok (itemsBack layout.asciiOnly (item :: rest), r) := by
  have bracket : continuesNumber (CodePoint.ofChar ']') = false := by decide
  -- Each item takes one unit of the fuel and at least one code point, which pays for two.
  induction rest generalizing item fuel with
  | nil =>
    obtain ⟨fuel, rfl⟩ := Nat.exists_eq_add_one.mpr (show 0 < fuel by omega)
    have read := each item List.mem_cons_self depth fuel _ (by omega)
      (next_or_end (writeItems_next layout depth []) blank bracket r)
    have last : skipBlanks (gap ++ CodePoint.ofChar ']' :: r) = CodePoint.ofChar ']' :: r :=
      close_reached blank (by decide) r
    rw [elements, read]
    simp only [writeItems, List.nil_append, bind, Except.bind, last, if_true]
    rfl
  | cons second rest ih =>
    obtain ⟨fuel, rfl⟩ := Nat.exists_eq_add_one.mpr (show 0 < fuel by omega)
    have read := each item List.mem_cons_self depth fuel _ (by omega)
      (next_or_end (writeItems_next layout depth (second :: rest)) blank bracket r)
    have filled : 0 < (item.write layout depth).length := write_filled depth item
    have others := @ih fuel second (fun x member => each x (List.mem_cons_of_mem _ member)) (by
      simp only [writeItems, List.length_append] at enough
      omega)
    have next : skipBlanks (writeItems layout depth (second :: rest) ++
        (gap ++ CodePoint.ofChar ']' :: r)) = CodePoint.ofChar ',' ::
          (lineBreak layout depth ++ (second.write layout depth ++
            (writeItems layout depth rest ++ (gap ++ CodePoint.ofChar ']' :: r)))) := by
      rw [writeItems]
      simp only [List.append_assoc]
      exact skipBlanks_cons (by decide) _
    have comma : CodePoint.ofChar ',' ≠ CodePoint.ofChar ']' := by decide
    rw [elements, read]
    simp only [bind, Except.bind, next, if_neg comma, if_true,
      value_reached (lineBreak_blank layout depth), others]
    rfl

/-- The members of an object from the first one on, up to the end of the object. -/
private theorem members_write {depth fuel : Nat} {key : Text} {v : Json} {rest : Members}
    {gap r : Text} (each : ∀ m ∈ (key, v) :: rest, Reads layout room m.2)
    (blank : ∀ c ∈ gap, isBlank c = true)
    (enough : 2 * ((quoted layout.asciiOnly key).length + (nameEnd layout).length +
      (v.write layout depth).length + (writeMembers layout depth rest).length + 1) ≤ fuel) :
    members room fuel (quoted layout.asciiOnly key ++ (nameEnd layout ++ (v.write layout depth ++
      (writeMembers layout depth rest ++ (gap ++ CodePoint.ofChar '\x7d' :: r))))) =
      .ok (membersBack layout.asciiOnly ((key, v) :: rest), r) := by
  have brace : continuesNumber (CodePoint.ofChar '\x7d') = false := by decide
  have quote : ¬CodePoint.ofChar '"' ≠ CodePoint.ofChar '"' := fun other => other rfl
  have named (key t : Text) : string (key.flatMap (escape layout.asciiOnly) ++
      ([CodePoint.ofChar '"'] ++ t)) = .ok (asRead layout.asciiOnly key, t) :=
    string_quoted layout.asciiOnly key t
  have mark : ¬CodePoint.ofChar ':' ≠ CodePoint.ofChar ':' := fun other => other rfl
  induction rest generalizing key v fuel with
  | nil =>
    obtain ⟨fuel, rfl⟩ := Nat.exists_eq_add_one.mpr (show 0 < fuel by omega)
    have first : Reads layout room v := each (key, v) List.mem_cons_self
    have read := first depth fuel _ (by omega)
      (next_or_end (writeMembers_next layout depth []) blank brace r)
    obtain ⟨blanks, between, reached⟩ := colon_reached layout (v.write layout depth ++
      (writeMembers layout depth [] ++ (gap ++ CodePoint.ofChar '\x7d' :: r)))
    have last : skipBlanks (gap ++ CodePoint.ofChar '\x7d' :: r) = CodePoint.ofChar '\x7d' :: r :=
      close_reached blank (by decide) r
    rw [quoted_eq, List.cons_append, List.append_assoc, members, if_neg quote]
    simp only [named, bind, Except.bind, reached, if_neg mark, value_reached between, read]
    simp only [writeMembers, List.nil_append, last, if_true]
    rfl
  | cons second rest ih =>
    obtain ⟨fuel, rfl⟩ := Nat.exists_eq_add_one.mpr (show 0 < fuel by omega)
    obtain ⟨key', v'⟩ := second
    have first : Reads layout room v := each (key, v) List.mem_cons_self
    have read := first depth fuel _ (by omega)
      (next_or_end (writeMembers_next layout depth ((key', v') :: rest)) blank brace r)
    have filled : 0 < (v.write layout depth).length := write_filled depth v
    have others := @ih fuel key' v' (fun x member => each x (List.mem_cons_of_mem _ member)) (by
      simp only [writeMembers, List.length_append] at enough
      omega)
    obtain ⟨blanks, between, reached⟩ := colon_reached layout (v.write layout depth ++
      (writeMembers layout depth ((key', v') :: rest) ++ (gap ++ CodePoint.ofChar '\x7d' :: r)))
    have next : skipBlanks (writeMembers layout depth ((key', v') :: rest) ++
        (gap ++ CodePoint.ofChar '\x7d' :: r)) = CodePoint.ofChar ',' ::
          (lineBreak layout depth ++ (quoted layout.asciiOnly key' ++ (nameEnd layout ++
            (v'.write layout depth ++ (writeMembers layout depth rest ++
              (gap ++ CodePoint.ofChar '\x7d' :: r)))))) := by
      rw [writeMembers]
      simp only [List.append_assoc]
      exact skipBlanks_cons (by decide) _
    have comma : CodePoint.ofChar ',' ≠ CodePoint.ofChar '\x7d' := by decide
    rw [quoted_eq, List.cons_append, List.append_assoc, members, if_neg quote]
    simp only [named, bind, Except.bind, reached, if_neg mark, value_reached between, read, next,
      if_neg comma, if_true, name_reached (lineBreak_blank layout depth), others]
    rfl

private theorem reads_scalar {v : Json} (scalar : v.isScalar = true)
    (back : v.readBack layout.asciiOnly = v.oneNaN)
    (short : ∀ i, v.oneNaN = int i → i.natAbs < leastLong) : Reads layout room v := by
  intro depth fuel r enough apart
  have started : 0 < (v.write layout depth).length := write_filled depth v
  obtain ⟨fuel, rfl⟩ := Nat.exists_eq_add_one.mpr (show 0 < fuel by omega)
  rw [back]
  exact value_scalar room fuel (scalar?_write layout depth scalar apart) short

private theorem reads_text (t : Text) : Reads layout room (text t) := by
  intro depth fuel r enough apart
  have started : 0 < ((text t).write layout depth).length := write_filled depth (text t)
  obtain ⟨fuel, rfl⟩ := Nat.exists_eq_add_one.mpr (show 0 < fuel by omega)
  rw [write, quoted_eq, List.cons_append, List.append_assoc, value, if_pos rfl,
    List.singleton_append, string_quoted]
  rfl

private theorem reads_array {items : List Json} (each : ∀ item ∈ items, Reads layout room item) :
    Reads layout (room + 1) (array items) := by
  intro depth fuel r enough apart
  have started : 0 < ((array items).write layout depth).length := write_filled depth (array items)
  obtain ⟨fuel, rfl⟩ := Nat.exists_eq_add_one.mpr (show 0 < fuel by omega)
  have quote : CodePoint.ofChar '[' ≠ CodePoint.ofChar '"' := by decide
  have deep : ¬room + 1 = 0 := by omega
  cases items with
  | nil =>
    change value (room + 1) (fuel + 1) (CodePoint.ofChar '[' :: CodePoint.ofChar ']' :: r) = _
    rw [value, if_neg quote, if_pos rfl, if_neg deep, skipBlanks_cons (by decide)]
    rfl
  | cons item rest =>
    have read := @elements_write layout room (depth + 1) fuel item rest (lineBreak layout depth) r
      each (lineBreak_blank layout depth) (by
        simp only [write, List.length_append] at enough
        have bracket : (Text.ofString "[").length = 1 := rfl
        have bracket' : (Text.ofString "]").length = 1 := rfl
        omega)
    have shape : (array (item :: rest)).write layout depth ++ r = CodePoint.ofChar '[' ::
        (lineBreak layout (depth + 1) ++ (item.write layout (depth + 1) ++
          (writeItems layout (depth + 1) rest ++
            (lineBreak layout depth ++ CodePoint.ofChar ']' :: r)))) := by
      rw [write]
      simp only [List.append_assoc]
      rfl
    obtain ⟨c, tail, head, _, open'⟩ := write_head layout (depth + 1) item
    rw [shape, value, if_neg quote, if_pos rfl, if_neg deep,
      value_reached (lineBreak_blank layout (depth + 1))]
    rw [head, List.cons_append] at read ⊢
    simp only [if_neg open', Nat.add_sub_cancel, read]
    rfl

private theorem reads_object {ms : Members} (each : ∀ m ∈ ms, Reads layout room m.2) :
    Reads layout (room + 1) (object ms) := by
  intro depth fuel r enough apart
  have started : 0 < ((object ms).write layout depth).length := write_filled depth (object ms)
  obtain ⟨fuel, rfl⟩ := Nat.exists_eq_add_one.mpr (show 0 < fuel by omega)
  have quote : CodePoint.ofChar '\x7b' ≠ CodePoint.ofChar '"' := by decide
  have bracket : CodePoint.ofChar '\x7b' ≠ CodePoint.ofChar '[' := by decide
  have deep : ¬room + 1 = 0 := by omega
  cases ms with
  | nil =>
    change value (room + 1) (fuel + 1) (CodePoint.ofChar '\x7b' :: CodePoint.ofChar '\x7d' :: r) = _
    rw [value, if_neg quote, if_neg bracket, if_pos rfl, if_neg deep, skipBlanks_cons (by decide)]
    rfl
  | cons m rest =>
    obtain ⟨key, v⟩ := m
    have read := @members_write layout room (depth + 1) fuel key v rest (lineBreak layout depth) r
      each (lineBreak_blank layout depth) (by
        simp only [write, List.length_append] at enough
        have brace : (Text.ofString "\x7b").length = 1 := rfl
        have brace' : (Text.ofString "\x7d").length = 1 := rfl
        omega)
    have shape : (object ((key, v) :: rest)).write layout depth ++ r = CodePoint.ofChar '\x7b' ::
        (lineBreak layout (depth + 1) ++ (quoted layout.asciiOnly key ++ (nameEnd layout ++
          (v.write layout (depth + 1) ++ (writeMembers layout (depth + 1) rest ++
            (lineBreak layout depth ++ CodePoint.ofChar '\x7d' :: r)))))) := by
      rw [write]
      simp only [List.append_assoc]
      rfl
    have open' : CodePoint.ofChar '"' ≠ CodePoint.ofChar '\x7d' := by decide
    rw [shape, value, if_neg quote, if_neg bracket, if_pos rfl, if_neg deep,
      name_reached (lineBreak_blank layout (depth + 1))]
    rw [quoted_eq, List.cons_append] at read ⊢
    simp only [if_neg open', Nat.add_sub_cancel, read]
    rfl

private theorem reads_of_fits (layout : JsonLayout) {v : Json} (fits : Fits room v) :
    Reads layout room v := by
  induction fits with
  | null => exact reads_scalar rfl rfl nofun
  | bool b => exact reads_scalar rfl rfl nofun
  | int short => exact reads_scalar rfl rfl fun j same => by cases same; exact short
  | float x => exact reads_scalar rfl rfl nofun
  | text t => exact reads_text t
  | array _ each => exact reads_array each
  | object _ each => exact reads_object each

theorem value_write (layout : JsonLayout) {v : Json} (fits : Fits room v) {depth fuel : Nat}
    {r : Text} (enough : 2 * (v.write layout depth).length ≤ fuel + 1) (apart : ApartFromNumber r) :
    value room fuel (v.write layout depth ++ r) = .ok (v.readBack layout.asciiOnly, r) :=
  reads_of_fits layout fits depth fuel r enough apart

end Containers

/-- Reading what was written gives the value back, whatever blanks stand behind it. -/
theorem document_render_blank (layout : JsonLayout) {room : Nat} {v : Json} (fits : Fits room v)
    {gap : Text} (blank : ∀ c ∈ gap, isBlank c = true) :
    document room (v.render layout ++ gap) = .ok (v.readBack layout.asciiOnly) := by
  have body : skipBlanks (v.render layout ++ gap) = v.render layout ++ gap := by
    obtain ⟨c, tail, shape, filled, _⟩ := write_head layout 0 v
    rw [render, shape]
    exact skipBlanks_cons filled _
  have apart : ApartFromNumber gap := by
    intro c member
    have first := blank c (List.mem_of_mem_head? member)
    rcases blank_cases first with rfl | rfl | rfl | rfl <;> rfl
  have read := @value_write room layout v fits 0 (2 * (v.render layout ++ gap).length + 1) gap
    (by simp only [render, List.length_append]; omega) apart
  have done : skipBlanks gap = [] := by
    have skipped := skipBlanks_gap blank []
    rwa [List.append_nil] at skipped
  simp only [document, body, bind, Except.bind]
  rw [render] at read ⊢
  rw [read]
  simp only [done]
  rfl

/-- Reading what was written gives the value back. -/
theorem document_render (layout : JsonLayout) {room : Nat} {v : Json} (fits : Fits room v) :
    document room (v.render layout) = .ok (v.readBack layout.asciiOnly) := by
  have read := @document_render_blank layout room v fits [] nofun
  rwa [List.append_nil] at read

end LinkedProof.Json
