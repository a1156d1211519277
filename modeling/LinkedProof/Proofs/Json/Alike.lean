import LinkedProof.Json.Basic

/-! Values that differ in nothing but the order of members. Putting the members in order leads to
such a value, and so the text that is signed stands for all of them. -/
namespace LinkedProof.Json

/-- Induction over a value by the values inside of it. -/
@[elab_as_elim]
theorem inside {motive : Json → Prop} (null : motive null) (bool : ∀ b, motive (bool b))
    (int : ∀ i, motive (int i)) (float : ∀ x, motive (float x)) (text : ∀ t, motive (text t))
    (array : ∀ items, (∀ item ∈ items, motive item) → motive (array items))
    (object : ∀ ms, (∀ m ∈ ms, motive m.2) → motive (object ms)) (v : Json) : motive v := by
  refine @Json.rec motive (fun items => ∀ item ∈ items, motive item)
    (fun ms => ∀ m ∈ ms, motive m.2) (fun m => motive m.2) null bool int float text array object
    ?_ ?_ ?_ ?_ ?_ v
  · exact fun item member => nomatch member
  · intro first rest held others item member
    rcases List.mem_cons.mp member with rfl | later
    · exact held
    · exact others item later
  · exact fun m member => nomatch member
  · intro first rest held others m member
    rcases List.mem_cons.mp member with rfl | later
    · exact held
    · exact others m later
  · exact fun key v held => held

mutual

/-- Two values are alike if they are equal up to the order of the members of objects, at every
depth. What is no number is like anything else that is none. -/
inductive Alike : Json → Json → Prop
  | null : Alike null null
  | bool (b : Bool) : Alike (bool b) (bool b)
  | int (i : Int) : Alike (int i) (int i)
  | float {x y : Binary64} (same : x = y ∨ x.isNaN = true ∧ y.isNaN = true) :
    Alike (float x) (float y)
  | text (t : Text) : Alike (text t) (text t)
  | array {items items' : List Json} (alike : AlikeItems items items') :
    Alike (array items) (array items')
  | object {ms ordered ordered' ms' : Members} (left : ms.Perm ordered)
    (alike : AlikeMembers ordered ordered') (right : ordered'.Perm ms') :
    Alike (object ms) (object ms')

inductive AlikeItems : List Json → List Json → Prop
  | nil : AlikeItems [] []
  | cons {item item' : Json} {rest rest' : List Json} (first : Alike item item')
    (others : AlikeItems rest rest') : AlikeItems (item :: rest) (item' :: rest')

inductive AlikeMembers : Members → Members → Prop
  | nil : AlikeMembers [] []
  | cons (key : Text) {v v' : Json} {rest rest' : Members} (first : Alike v v')
    (others : AlikeMembers rest rest') : AlikeMembers ((key, v) :: rest) ((key, v') :: rest')

end

section Equivalence

theorem AlikeItems.refl {items : List Json} (each : ∀ item ∈ items, Alike item item) :
    AlikeItems items items := by
  induction items with
  | nil => exact .nil
  | cons item rest ih =>
    exact .cons (each item List.mem_cons_self) (ih fun x member =>
      each x (List.mem_cons_of_mem _ member))

theorem AlikeMembers.refl {ms : Members} (each : ∀ m ∈ ms, Alike m.2 m.2) :
    AlikeMembers ms ms := by
  induction ms with
  | nil => exact .nil
  | cons m rest ih =>
    exact .cons m.1 (each m List.mem_cons_self) (ih fun x member =>
      each x (List.mem_cons_of_mem _ member))

theorem Alike.refl (v : Json) : Alike v v := by
  induction v using inside with
  | null => exact .null
  | bool b => exact .bool b
  | int i => exact .int i
  | float x => exact .float (.inl rfl)
  | text t => exact .text t
  | array items ih => exact .array (AlikeItems.refl ih)
  | object ms ih => exact .object (.refl ms) (AlikeMembers.refl ih) (.refl ms)

theorem AlikeItems.symm {items items' : List Json} (alike : AlikeItems items items')
    (each : ∀ item ∈ items, ∀ w, Alike item w → Alike w item) : AlikeItems items' items := by
  induction items generalizing items' with
  | nil =>
    cases alike
    exact .nil
  | cons item rest ih =>
    cases alike with
    | cons first others =>
      exact .cons (each item List.mem_cons_self _ first)
        (ih others fun x member => each x (List.mem_cons_of_mem _ member))

theorem AlikeMembers.symm {ms ms' : Members} (alike : AlikeMembers ms ms')
    (each : ∀ m ∈ ms, ∀ w, Alike m.2 w → Alike w m.2) : AlikeMembers ms' ms := by
  induction ms generalizing ms' with
  | nil =>
    cases alike
    exact .nil
  | cons m rest ih =>
    cases alike with
    | cons key first others =>
      exact .cons key (each _ List.mem_cons_self _ first)
        (ih others fun x member => each x (List.mem_cons_of_mem _ member))

theorem Alike.symm {v w : Json} (alike : Alike v w) : Alike w v := by
  induction v using inside generalizing w with
  | null =>
    cases alike
    exact .null
  | bool b =>
    cases alike
    exact .bool b
  | int i =>
    cases alike
    exact .int i
  | float x =>
    cases alike with
    | float same => exact .float (same.imp Eq.symm And.symm)
  | text t =>
    cases alike
    exact .text t
  | array items ih =>
    cases alike with
    | array alike => exact .array (alike.symm fun item member w => ih item member)
  | object ms ih =>
    cases alike with
    | object left alike right =>
      refine .object right.symm (alike.symm fun m member w => ?_) left.symm
      exact ih m (left.mem_iff.mpr member)

theorem AlikeMembers.length_eq {ms ms' : Members} (alike : AlikeMembers ms ms') :
    ms.length = ms'.length := by
  induction ms generalizing ms' with
  | nil =>
    cases alike
    rfl
  | cons m rest ih =>
    cases alike with
    | cons key first others => rw [List.length_cons, List.length_cons, ih others]

/-- Like members can be put in an order together. -/
theorem AlikeMembers.reorder {ms ns ns' : Members} (order : ns.Perm ns')
    (alike : AlikeMembers ms ns) : ∃ ms', ms.Perm ms' ∧ AlikeMembers ms' ns' := by
  induction order generalizing ms with
  | nil =>
    cases alike
    exact ⟨[], .refl [], .nil⟩
  | cons n order ih =>
    cases alike with
    | cons key first others =>
      obtain ⟨ms', perm, alike'⟩ := ih others
      exact ⟨_, perm.cons _, .cons key first alike'⟩
  | swap n n' rest =>
    cases alike with
    | cons key first others =>
      cases others with
      | cons key' first' others =>
        exact ⟨_, .swap _ _ _, .cons key' first' (.cons key first others)⟩
  | trans _ _ ih ih' =>
    obtain ⟨middle, perm, alike'⟩ := ih alike
    obtain ⟨ms', perm', alike''⟩ := ih' alike'
    exact ⟨ms', perm.trans perm', alike''⟩

theorem AlikeItems.trans {xs ys zs : List Json} (first : AlikeItems xs ys)
    (second : AlikeItems ys zs) (each : ∀ x ∈ xs, ∀ y z, Alike x y → Alike y z → Alike x z) :
    AlikeItems xs zs := by
  induction xs generalizing ys zs with
  | nil =>
    cases first
    cases second
    exact .nil
  | cons x xs ih =>
    cases first with
    | cons head tail =>
      cases second with
      | cons head' tail' =>
        exact .cons (each x List.mem_cons_self _ _ head head')
          (ih tail tail' fun x member => each x (List.mem_cons_of_mem _ member))

theorem AlikeMembers.trans {ms ns ps : Members} (first : AlikeMembers ms ns)
    (second : AlikeMembers ns ps) (each : ∀ m ∈ ms, ∀ y z, Alike m.2 y → Alike y z → Alike m.2 z) :
    AlikeMembers ms ps := by
  induction ms generalizing ns ps with
  | nil =>
    cases first
    cases second
    exact .nil
  | cons m ms ih =>
    cases first with
    | cons key head tail =>
      cases second with
      | cons _ head' tail' =>
        exact .cons key (each _ List.mem_cons_self _ _ head head')
          (ih tail tail' fun x member => each x (List.mem_cons_of_mem _ member))

theorem Alike.trans {u v w : Json} (first : Alike u v) (second : Alike v w) : Alike u w := by
  induction u using inside generalizing v w with
  | null =>
    cases first
    exact second
  | bool b =>
    cases first
    exact second
  | int i =>
    cases first
    exact second
  | float x =>
    cases first with
    | float same =>
      cases second with
      | float same' =>
        rcases same with rfl | ⟨left, middle⟩
        · exact .float same'
        · rcases same' with rfl | ⟨_, right⟩
          · exact .float (.inr ⟨left, middle⟩)
          · exact .float (.inr ⟨left, right⟩)
  | text t =>
    cases first
    exact second
  | array items ih =>
    cases first with
    | array alike =>
      cases second with
      | array alike' => exact .array (alike.trans alike' fun x member _ _ => ih x member)
  | object ms ih =>
    cases first with
    | object left alike right =>
      cases second with
      | object left' alike' right' =>
        -- The two orders in between need not agree, so the first pairing is carried over to the
        -- second of them.
        obtain ⟨middle, perm, alike''⟩ := alike.reorder (right.trans left')
        refine .object (left.trans perm) (alike''.trans alike' fun m member _ _ => ?_) right'
        exact ih m ((left.trans perm).mem_iff.mpr member)

end Equivalence

section Sorting

theorem insertSorted_perm (m : Text × Json) (ms : Members) :
    (Members.insertSorted m ms).Perm (m :: ms) := by
  induction ms with
  | nil => exact .refl _
  | cons other rest ih =>
    rw [Members.insertSorted]
    split
    · exact .refl _
    · exact (ih.cons other).trans (.swap _ _ _)

theorem sort_perm (ms : Members) : (Members.sort ms).Perm ms := by
  have inserted (sorted : Members) :
      (ms.foldl (fun sorted m => Members.insertSorted m sorted) sorted).Perm (ms ++ sorted) := by
    induction ms generalizing sorted with
    | nil => exact .refl _
    | cons m rest ih =>
      rw [List.foldl_cons]
      exact ((ih _).trans ((insertSorted_perm m sorted).append_left rest)).trans
        List.perm_middle
  have all := inserted []
  rwa [List.append_nil] at all

theorem sortItems_alike {items : List Json} (each : ∀ item ∈ items, Alike item item.sortKeys) :
    AlikeItems items (sortItems items) := by
  induction items with
  | nil => exact .nil
  | cons item rest ih =>
    exact .cons (each item List.mem_cons_self) (ih fun x member =>
      each x (List.mem_cons_of_mem _ member))

theorem sortMembers_alike {ms : Members} (each : ∀ m ∈ ms, Alike m.2 m.2.sortKeys) :
    AlikeMembers ms (sortMembers ms) := by
  induction ms with
  | nil => exact .nil
  | cons m rest ih =>
    exact .cons m.1 (each m List.mem_cons_self) (ih fun x member =>
      each x (List.mem_cons_of_mem _ member))

theorem sortKeys_alike (v : Json) : Alike v v.sortKeys := by
  induction v using inside with
  | null => exact .null
  | bool b => exact .bool b
  | int i => exact .int i
  | float x => exact .float (.inl rfl)
  | text t => exact .text t
  | array items ih => exact .array (sortItems_alike ih)
  | object ms ih =>
    exact .object (.refl ms) (sortMembers_alike ih) (sort_perm _).symm

end Sorting

end LinkedProof.Json
