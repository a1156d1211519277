import LinkedProof.Proofs.Json.Alike
import LinkedProof.Proofs.Json.Quoted
import LinkedProof.Proofs.Json.Scalar

/-! One text, one value: where the texts of two values begin alike and what follows cannot belong to
them, the values are alike and what follows is the same. -/
namespace LinkedProof.Json

private def opening : Json → CodePoint
  | text _ => '"'
  | array _ => '['
  | _ => '\x7b'

private theorem opening_other (v : Json) : opening v = CodePoint.ofChar '"' ∨
    opening v = CodePoint.ofChar '[' ∨ opening v = CodePoint.ofChar '\x7b' := by
  cases v <;> simp [opening]

private theorem write_opening (layout : JsonLayout) (depth : Nat) {v : Json}
    (other : v.isScalar = false) : ∃ tail, v.write layout depth = opening v :: tail := by
  cases v with
  | null => cases other
  | bool b => cases other
  | int i => cases other
  | float x => cases other
  | text t => exact ⟨_, rfl⟩
  | array items => cases items <;> exact ⟨_, rfl⟩
  | object ms => cases ms <;> exact ⟨_, rfl⟩

/-- Two texts that begin alike begin both with a scalar or both with the same opening. -/
private theorem same_kind {layout : JsonLayout} {depth : Nat} {v w : Json} {r r' : Text}
    (apart : ApartFromNumber r) (apart' : ApartFromNumber r')
    (same : v.write layout depth ++ r = w.write layout depth ++ r') :
    (v.isScalar = true ∧ w.isScalar = true ∧ v.oneNaN = w.oneNaN ∧ r = r') ∨
      (v.isScalar = false ∧ w.isScalar = false ∧ opening v = opening w) := by
  have scalarOf {u : Json} {s : Text} (scalar : u.isScalar = false) :
      scalar? (u.write layout depth ++ s) = none := by
    obtain ⟨tail, shape⟩ := write_opening layout depth scalar
    rw [shape]
    exact scalar?_other _ (opening_other u)
  cases first : v.isScalar with
  | true =>
    have read := scalar?_write layout depth first apart
    cases second : w.isScalar with
    | true =>
      rw [same, scalar?_write layout depth second apart'] at read
      obtain ⟨value, rest⟩ := Prod.mk.inj (Option.some.inj read)
      exact .inl ⟨rfl, rfl, value.symm, rest.symm⟩
    | false =>
      rw [same, scalarOf second] at read
      cases read
  | false =>
    cases second : w.isScalar with
    | true =>
      have read := scalar?_write layout depth second apart'
      rw [← same, scalarOf first] at read
      cases read
    | false =>
      obtain ⟨tail, shape⟩ := write_opening layout depth first
      obtain ⟨tail', shape'⟩ := write_opening layout depth second
      rw [shape, shape'] at same
      exact .inr ⟨rfl, rfl, (List.cons.inj same).1⟩

theorem oneNaN_alike (v : Json) : Alike v v.oneNaN := by
  cases v with
  | float x =>
    rw [oneNaN]
    split
    · rename_i none
      exact .float (.inr ⟨none, by decide⟩)
    · exact Alike.refl _
  | _ => exact Alike.refl _

section Containers

variable {depth : Nat}

private def Unique (v : Json) : Prop := ∀ (depth : Nat) (w : Json) (r r' : Text),
  ApartFromNumber r → ApartFromNumber r' →
  v.write .literal depth ++ r = w.write .literal depth ++ r' → Alike v w ∧ r = r'

private theorem string_same {t u r r' : Text}
    (same : t.flatMap (escape false) ++ CodePoint.ofChar '"' :: r =
      u.flatMap (escape false) ++ CodePoint.ofChar '"' :: r') : t = u ∧ r = r' := by
  have read := string_quoted false t r
  rw [same, string_quoted false u r'] at read
  obtain ⟨text, rest⟩ := Prod.mk.inj (Except.ok.inj read)
  exact ⟨text.symm, rest.symm⟩

private theorem apart_cons {c : CodePoint} (other : continuesNumber c = false) (rest : Text) :
    ApartFromNumber (c :: rest) := by
  intro d member
  rw [List.head?_cons] at member
  rwa [← Option.some.inj member]

private def restOfItems (depth : Nat) (items : List Json) (r : Text) : Text :=
  writeItems .literal depth items ++ CodePoint.ofChar ']' :: r

private theorem restOfItems_cons (item : Json) (items : List Json) (r : Text) :
    restOfItems depth (item :: items) r =
      CodePoint.ofChar ',' :: (item.write .literal depth ++ restOfItems depth items r) := by
  simp [restOfItems, writeItems, lineBreak, JsonLayout.literal]
  rfl

private theorem restOfItems_apart (items : List Json) (r : Text) :
    ApartFromNumber (restOfItems depth items r) := by
  cases items with
  | nil => exact apart_cons (by decide) _
  | cons item items =>
    rw [restOfItems_cons]
    exact apart_cons (by decide) _

private theorem items_same {items items' : List Json} {r r' : Text}
    (each : ∀ item ∈ items, Unique item)
    (same : restOfItems depth items r = restOfItems depth items' r') :
    AlikeItems items items' ∧ r = r' := by
  induction items generalizing items' with
  | nil =>
    cases items' with
    | nil => exact ⟨.nil, (List.cons.inj same).2⟩
    | cons item' items' =>
      rw [restOfItems_cons] at same
      exact absurd (List.cons.inj same).1 (by decide)
  | cons item items ih =>
    cases items' with
    | nil =>
      rw [restOfItems_cons] at same
      exact absurd (List.cons.inj same).1 (by decide)
    | cons item' items' =>
      rw [restOfItems_cons, restOfItems_cons] at same
      obtain ⟨first, rest⟩ := each item List.mem_cons_self depth item' _ _
        (restOfItems_apart items r) (restOfItems_apart items' r') (List.cons.inj same).2
      obtain ⟨others, tail⟩ := ih (fun x member => each x (List.mem_cons_of_mem _ member)) rest
      exact ⟨.cons first others, tail⟩

private def restOfMembers (depth : Nat) (ms : Members) (r : Text) : Text :=
  writeMembers .literal depth ms ++ CodePoint.ofChar '\x7d' :: r

private def memberThen (depth : Nat) (m : Text × Json) (rest : Text) : Text :=
  m.1.flatMap (escape false) ++ CodePoint.ofChar '"' ::
    CodePoint.ofChar ':' :: (m.2.write .literal depth ++ rest)

private theorem restOfMembers_cons (m : Text × Json) (ms : Members) (r : Text) :
    restOfMembers depth (m :: ms) r =
      CodePoint.ofChar ',' :: CodePoint.ofChar '"' ::
        memberThen depth m (restOfMembers depth ms r) := by
  obtain ⟨key, v⟩ := m
  simp [restOfMembers, writeMembers, memberThen, lineBreak, nameEnd, quoted_eq, JsonLayout.literal]
  rfl

private theorem restOfMembers_apart (ms : Members) (r : Text) :
    ApartFromNumber (restOfMembers depth ms r) := by
  cases ms with
  | nil => exact apart_cons (by decide) _
  | cons m ms =>
    rw [restOfMembers_cons]
    exact apart_cons (by decide) _

private theorem member_same {m m' : Text × Json} {r r' : Text} (unique : Unique m.2)
    (apart : ApartFromNumber r) (apart' : ApartFromNumber r')
    (same : memberThen depth m r = memberThen depth m' r') :
    m.1 = m'.1 ∧ Alike m.2 m'.2 ∧ r = r' := by
  obtain ⟨key, rest⟩ := string_same same
  obtain ⟨value, tail⟩ := unique depth m'.2 r r' apart apart' (List.cons.inj rest).2
  exact ⟨key, value, tail⟩

private theorem members_same {ms ms' : Members} {r r' : Text}
    (each : ∀ m ∈ ms, Unique m.2)
    (same : restOfMembers depth ms r = restOfMembers depth ms' r') :
    AlikeMembers ms ms' ∧ r = r' := by
  induction ms generalizing ms' with
  | nil =>
    cases ms' with
    | nil => exact ⟨.nil, (List.cons.inj same).2⟩
    | cons m' ms' =>
      rw [restOfMembers_cons] at same
      exact absurd (List.cons.inj same).1 (by decide)
  | cons m ms ih =>
    cases ms' with
    | nil =>
      rw [restOfMembers_cons] at same
      exact absurd (List.cons.inj same).1 (by decide)
    | cons m' ms' =>
      rw [restOfMembers_cons, restOfMembers_cons] at same
      obtain ⟨key, value, rest⟩ := member_same (each m List.mem_cons_self)
        (restOfMembers_apart ms r) (restOfMembers_apart ms' r')
        (List.cons.inj (List.cons.inj same).2).2
      obtain ⟨others, tail⟩ := ih (fun x member => each x (List.mem_cons_of_mem _ member)) rest
      obtain ⟨name, v⟩ := m
      obtain ⟨name', v'⟩ := m'
      obtain rfl : name = name' := key
      exact ⟨.cons name value others, tail⟩

private theorem write_array_cons (item : Json) (items : List Json) (r : Text) :
    (array (item :: items)).write .literal depth ++ r = CodePoint.ofChar '[' ::
      (item.write .literal (depth + 1) ++ restOfItems (depth + 1) items r) := by
  simp [write, restOfItems, lineBreak, JsonLayout.literal]
  rfl

private theorem write_object_cons (m : Text × Json) (ms : Members) (r : Text) :
    (object (m :: ms)).write .literal depth ++ r = CodePoint.ofChar '\x7b' ::
      CodePoint.ofChar '"' :: memberThen (depth + 1) m (restOfMembers (depth + 1) ms r) := by
  obtain ⟨key, v⟩ := m
  simp [write, restOfMembers, memberThen, lineBreak, nameEnd, quoted_eq, JsonLayout.literal]
  rfl

private theorem write_not_closing (v : Json) (r r' : Text) (apart : ApartFromNumber r) :
    v.write .literal depth ++ r ≠ CodePoint.ofChar ']' :: r' := by
  intro same
  cases scalar : v.isScalar with
  | true =>
    have read := scalar?_write .literal depth scalar apart
    rw [same] at read
    cases read
  | false =>
    obtain ⟨tail, shape⟩ := write_opening .literal depth scalar
    rw [shape] at same
    have closing : opening v = CodePoint.ofChar ']' := (List.cons.inj same).1
    rcases opening_other v with is | is | is <;>
      rw [is] at closing <;> exact absurd closing (by decide)

private theorem scalar_unique {v : Json} (scalar : v.isScalar = true) : Unique v := by
  intro depth w r r' apart apart' same
  rcases same_kind apart apart' same with ⟨_, _, value, rest⟩ | ⟨other, _⟩
  · have alike := oneNaN_alike v
    rw [value] at alike
    exact ⟨alike.trans (oneNaN_alike w).symm, rest⟩
  · rw [scalar] at other
    cases other

private theorem text_unique (t : Text) : Unique (text t) := by
  intro depth w r r' apart apart' same
  rcases same_kind apart apart' same with ⟨scalar, _⟩ | ⟨_, _, kind⟩
  · cases scalar
  cases w with
  | text u =>
    simp only [write, quoted_eq, JsonLayout.literal, List.cons_append, List.append_assoc] at same
    obtain ⟨rfl, rest⟩ := string_same (List.cons.inj same).2
    exact ⟨.text t, rest⟩
  | _ => exact absurd kind (by simp only [opening]; decide)

private theorem array_unique {items : List Json} (each : ∀ item ∈ items, Unique item) :
    Unique (array items) := by
  intro depth w r r' apart apart' same
  rcases same_kind apart apart' same with ⟨scalar, _⟩ | ⟨_, _, kind⟩
  · cases scalar
  cases w with
  | array items' =>
    cases items with
    | nil =>
      cases items' with
      | nil => exact ⟨.array .nil, List.append_cancel_left same⟩
      | cons item' items' =>
        rw [write_array_cons] at same
        exact absurd (List.cons.inj same).2.symm
          (write_not_closing item' _ _ (restOfItems_apart items' r'))
    | cons item items =>
      rw [write_array_cons] at same
      cases items' with
      | nil =>
        exact absurd (List.cons.inj same).2
          (write_not_closing item _ _ (restOfItems_apart items r))
      | cons item' items' =>
        rw [write_array_cons] at same
        obtain ⟨first, rest⟩ := each item List.mem_cons_self (depth + 1) item' _ _
          (restOfItems_apart items r) (restOfItems_apart items' r') (List.cons.inj same).2
        obtain ⟨others, tail⟩ :=
          items_same (fun x member => each x (List.mem_cons_of_mem _ member)) rest
        exact ⟨.array (.cons first others), tail⟩
  | _ => exact absurd kind (by simp only [opening]; decide)

private theorem object_unique {ms : Members} (each : ∀ m ∈ ms, Unique m.2) :
    Unique (object ms) := by
  intro depth w r r' apart apart' same
  rcases same_kind apart apart' same with ⟨scalar, _⟩ | ⟨_, other, kind⟩
  · cases scalar
  cases w with
  | object ms' =>
    cases ms with
    | nil =>
      cases ms' with
      | nil => exact ⟨.object (.refl _) .nil (.refl _), List.append_cancel_left same⟩
      | cons m' ms' =>
        rw [write_object_cons] at same
        exact absurd (List.cons.inj (List.cons.inj same).2).1 (by decide)
    | cons m ms =>
      rw [write_object_cons] at same
      cases ms' with
      | nil => exact absurd (List.cons.inj (List.cons.inj same).2).1 (by decide)
      | cons m' ms' =>
        rw [write_object_cons] at same
        -- Behind the brace and the quote both texts go on with a name, so the members agree one
        -- by one.
        obtain ⟨key, value, rest⟩ := member_same (each m List.mem_cons_self)
          (restOfMembers_apart ms r) (restOfMembers_apart ms' r')
          (List.cons.inj (List.cons.inj same).2).2
        obtain ⟨others, tail⟩ :=
          members_same (fun x member => each x (List.mem_cons_of_mem _ member)) rest
        obtain ⟨name, v⟩ := m
        obtain ⟨name', v'⟩ := m'
        obtain rfl : name = name' := key
        exact ⟨.object (.refl _) (.cons name value others) (.refl _), tail⟩
  | text t => exact absurd kind (by simp only [opening]; decide)
  | array items => exact absurd kind (by simp only [opening]; decide)
  | null => cases other
  | bool b => cases other
  | int i => cases other
  | float x => cases other

private theorem each_unique (v : Json) : Unique v := by
  induction v using inside with
  | null => exact scalar_unique rfl
  | bool b => exact scalar_unique rfl
  | int i => exact scalar_unique rfl
  | float x => exact scalar_unique rfl
  | text t => exact text_unique t
  | array items ih => exact array_unique ih
  | object ms ih => exact object_unique ih

end Containers

/-- The text of a value is the text of no value that is not like it. -/
theorem render_alike {v w : Json} (same : v.render .literal = w.render .literal) : Alike v w := by
  refine (each_unique v 0 w [] [] ?_ ?_ (by simpa [render] using same)).1
  · exact fun c member => nomatch member
  · exact fun c member => nomatch member

/-- Values with the same text in sorted order are alike. -/
theorem sorted_alike {v w : Json}
    (same : v.sortKeys.render .literal = w.sortKeys.render .literal) : Alike v w :=
  ((sortKeys_alike v).trans (render_alike same)).trans (sortKeys_alike w).symm

end LinkedProof.Json
