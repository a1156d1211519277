import LinkedProof.Json.Writer
import LinkedProof.Proofs.Json.Alike
import LinkedProof.Proofs.Text

/-! Distinct names and ascending names, at every depth of a value. Sorting leads from the first to
the second, and values that are alike and in ascending order have one text in every layout. -/
namespace LinkedProof

namespace Members

variable {ms ns : Members}

def Distinct (ms : Members) : Prop := ms.keys.Nodup

def Ascending (ms : Members) : Prop := ms.keys.Pairwise fun s t => Text.lt s t = true

instance : DecidablePred Distinct := fun ms => inferInstanceAs (Decidable ms.keys.Nodup)

theorem Ascending.distinct (ascending : ms.Ascending) : ms.Distinct := by
  refine List.Pairwise.imp ?_ ascending
  intro s t before same
  rw [same, Text.lt_irrefl] at before
  cases before

theorem Ascending.eq_of_perm (ascending : ms.Ascending) (ascending' : ns.Ascending)
    (perm : ms.Perm ns) : ms = ns := by
  have left : ms.Pairwise fun m n => Text.lt m.1 n.1 = true := List.pairwise_map.mp ascending
  have right : ns.Pairwise fun m n => Text.lt m.1 n.1 = true := List.pairwise_map.mp ascending'
  apply List.Perm.eq_of_pairwise _ left right perm
  intro m n _ _ before behind
  rw [Text.lt_asymm before] at behind
  cases behind

theorem Distinct.perm (distinct : ms.Distinct) (perm : ms.Perm ns) : ns.Distinct :=
  (perm.map _).nodup_iff.mp distinct

theorem Distinct.sublist (distinct : ms.Distinct) (part : ns.Sublist ms) : ns.Distinct :=
  List.Nodup.sublist (part.map _) distinct

private theorem insertSorted_ascending {m : Text × Json} (ascending : ms.Ascending)
    (fresh : m.1 ∉ ms.keys) : (insertSorted m ms).Ascending := by
  induction ms with
  | nil => exact List.pairwise_singleton _ _
  | cons other rest ih =>
    obtain ⟨before, others⟩ := List.pairwise_cons.mp ascending
    obtain ⟨differ, fresh⟩ := not_or.mp (fun member => fresh (List.mem_cons.mpr member))
    rw [insertSorted]
    split
    · rename_i first
      refine List.pairwise_cons.mpr ⟨?_, ascending⟩
      intro name member
      rcases List.mem_cons.mp member with rfl | later
      · exact first
      · exact Text.lt_trans first (before name later)
    · rename_i notFirst
      have behind : Text.lt other.1 m.1 = true := (Text.lt_total differ).resolve_left notFirst
      refine List.pairwise_cons.mpr ⟨?_, ih others fresh⟩
      intro name member
      have inside : name ∈ keys (m :: rest) :=
        ((Json.insertSorted_perm m rest).map _).mem_iff.mp member
      rcases List.mem_cons.mp inside with rfl | later
      · exact behind
      · exact before name later

theorem sort_ascending (distinct : ms.Distinct) : (sort ms).Ascending := by
  -- Each member that is put in has a name of its own among those that are in order already.
  have inserted (sorted : Members) (ascending : sorted.Ascending)
      (apart : (ms ++ sorted).Distinct) :
      (ms.foldl (fun sorted m => insertSorted m sorted) sorted).Ascending := by
    clear distinct
    induction ms generalizing sorted with
    | nil => exact ascending
    | cons m rest ih =>
      have next : Members.Distinct (m :: (rest ++ sorted)) := apart
      have fresh : m.1 ∉ keys (rest ++ sorted) := (List.nodup_cons.mp next).1
      have order : (m :: (rest ++ sorted)).Perm (rest ++ insertSorted m sorted) :=
        List.perm_middle.symm.trans ((Json.insertSorted_perm m sorted).symm.append_left rest)
      refine ih _ (insertSorted_ascending ascending ?_) (next.perm order)
      intro member
      apply fresh
      rw [keys, List.map_append]
      exact List.mem_append_right _ member
  exact inserted [] List.Pairwise.nil (by simpa using distinct)

end Members

namespace Json

inductive Everywhere (p : Members → Prop) : Json → Prop
  | null : Everywhere p null
  | bool (b : Bool) : Everywhere p (bool b)
  | int (i : Int) : Everywhere p (int i)
  | float (x : Binary64) : Everywhere p (float x)
  | text (t : Text) : Everywhere p (text t)
  | array {items : List Json} (each : ∀ item ∈ items, Everywhere p item) :
    Everywhere p (array items)
  | object {ms : Members} (here : p ms) (each : ∀ m ∈ ms, Everywhere p m.2) :
    Everywhere p (object ms)

abbrev Distinct (v : Json) : Prop := Everywhere Members.Distinct v

abbrev Ascending (v : Json) : Prop := Everywhere Members.Ascending v

section Everywhere

variable {p q : Members → Prop} {v : Json} {items : List Json} {ms : Members}

@[simp] theorem everywhere_array :
    Everywhere p (array items) ↔ ∀ item ∈ items, Everywhere p item := by
  constructor
  · intro holds
    cases holds with
    | array each => exact each
  · exact .array

@[simp] theorem everywhere_object :
    Everywhere p (object ms) ↔ p ms ∧ ∀ m ∈ ms, Everywhere p m.2 := by
  constructor
  · intro holds
    cases holds with
    | object here each => exact ⟨here, each⟩
  · rintro ⟨here, each⟩
    exact .object here each

theorem Everywhere.imp (holds : Everywhere p v) (weaker : ∀ ms, p ms → q ms) : Everywhere q v := by
  induction holds with
  | null => exact .null
  | bool b => exact .bool b
  | int i => exact .int i
  | float x => exact .float x
  | text t => exact .text t
  | array _ each => exact .array each
  | object here _ each => exact .object (weaker _ here) each

theorem Ascending.distinct (ascending : v.Ascending) : v.Distinct :=
  ascending.imp fun _ here => here.distinct

end Everywhere

section Deciding

variable {p : Members → Prop} [DecidablePred p]

mutual

private def checks (p : Members → Prop) [DecidablePred p] : Json → Bool
  | array items => checksItems p items
  | object ms => decide (p ms) && checksMembers p ms
  | _ => true

private def checksItems (p : Members → Prop) [DecidablePred p] : List Json → Bool
  | [] => true
  | item :: rest => checks p item && checksItems p rest

private def checksMembers (p : Members → Prop) [DecidablePred p] : List (Text × Json) → Bool
  | [] => true
  | (_, value) :: rest => checks p value && checksMembers p rest

end

private theorem checksItems_eq_all (items : List Json) :
    checksItems p items = items.all (checks p) := by
  induction items with
  | nil => rfl
  | cons item rest ih => rw [checksItems, ih, List.all_cons]

private theorem checksMembers_eq_all (ms : Members) :
    checksMembers p ms = ms.all fun m => checks p m.2 := by
  induction ms with
  | nil => rfl
  | cons m rest ih => rw [checksMembers, ih, List.all_cons]

private theorem checks_iff (v : Json) : checks p v = true ↔ Everywhere p v := by
  induction v using inside with
  | null => exact iff_of_true rfl .null
  | bool b => exact iff_of_true rfl (.bool b)
  | int i => exact iff_of_true rfl (.int i)
  | float x => exact iff_of_true rfl (.float x)
  | text t => exact iff_of_true rfl (.text t)
  | array items ih =>
    rw [checks, checksItems_eq_all, List.all_eq_true, everywhere_array]
    exact forall₂_congr ih
  | object ms ih =>
    rw [checks, checksMembers_eq_all, Bool.and_eq_true, decide_eq_true_eq, List.all_eq_true,
      everywhere_object]
    exact and_congr_right fun _ => forall₂_congr ih

instance (v : Json) : Decidable (Everywhere p v) := decidable_of_iff _ (checks_iff v)

end Deciding

section Sorting

theorem sortItems_eq_map (items : List Json) : sortItems items = items.map sortKeys := by
  induction items with
  | nil => rfl
  | cons item rest ih => rw [sortItems, ih, List.map_cons]

theorem sortMembers_eq_map (ms : Members) :
    sortMembers ms = ms.map fun m => (m.1, m.2.sortKeys) := by
  induction ms with
  | nil => rfl
  | cons m rest ih => rw [sortMembers, ih, List.map_cons]

private theorem keys_sortMembers (ms : Members) : Members.keys (sortMembers ms) = ms.keys := by
  rw [sortMembers_eq_map, Members.keys, List.map_map]
  rfl

theorem forall_mem_sort {p : Json → Prop} {ms : Members} (each : ∀ m ∈ ms, p m.2.sortKeys) :
    ∀ m ∈ Members.sort (sortMembers ms), p m.2 := by
  intro m member
  have inside : m ∈ sortMembers ms := (sort_perm _).mem_iff.mp member
  rw [sortMembers_eq_map] at inside
  obtain ⟨m', listed, rfl⟩ := List.mem_map.mp inside
  exact each m' listed

theorem sortKeys_ascending {v : Json} (distinct : v.Distinct) : v.sortKeys.Ascending := by
  induction distinct with
  | null => exact .null
  | bool b => exact .bool b
  | int i => exact .int i
  | float x => exact .float x
  | text t => exact .text t
  | array _ each =>
    rw [sortKeys, sortItems_eq_map]
    exact .array (List.forall_mem_map.mpr each)
  | @object ms here _ each =>
    have names : Members.Distinct (sortMembers ms) := by
      rw [Members.Distinct, keys_sortMembers]
      exact here
    rw [sortKeys]
    exact .object (Members.sort_ascending names) (forall_mem_sort each)

end Sorting

section Texts

theorem AlikeMembers.keys_eq {ms ns : Members} (alike : AlikeMembers ms ns) :
    ms.keys = ns.keys := by
  induction ms generalizing ns with
  | nil =>
    cases alike
    rfl
  | cons m rest ih =>
    cases alike with
    | cons key _ others => exact congrArg (key :: ·) (ih others)

/-- Objects that are alike and in order agree member by member. -/
theorem Alike.members {ms ns : Members} (alike : Alike (.object ms) (.object ns))
    (ascending : ms.Ascending) (ascending' : ns.Ascending) : AlikeMembers ms ns := by
  cases alike with
  | object left alike right =>
    obtain ⟨ms', perm, alike'⟩ := alike.reorder right
    have ordered : Members.Ascending ms' := by
      rw [Members.Ascending, alike'.keys_eq]
      exact ascending'
    rwa [ascending.eq_of_perm ordered (left.trans perm)]

private theorem floatText_alike {x y : Binary64} (same : x = y ∨ x.isNaN = true ∧ y.isNaN = true) :
    FloatLayout.json.text x = FloatLayout.json.text y := by
  rcases same with rfl | ⟨left, right⟩
  · rfl
  · rw [FloatLayout.text, FloatLayout.text, if_pos left, if_pos right]

private theorem writeItems_congr (layout : JsonLayout) (depth : Nat)
    {items items' : List Json} (alike : AlikeItems items items')
    (each : ∀ item ∈ items, ∀ item' ∈ items', Alike item item' →
      item.write layout depth = item'.write layout depth) :
    writeItems layout depth items = writeItems layout depth items' := by
  induction items generalizing items' with
  | nil =>
    cases alike
    rfl
  | cons item rest ih =>
    cases alike with
    | cons first others =>
      have head := each _ List.mem_cons_self _ List.mem_cons_self first
      have tail := ih others fun x member y member' =>
        each x (List.mem_cons_of_mem _ member) y (List.mem_cons_of_mem _ member')
      rw [writeItems, writeItems, head, tail]

private theorem writeMembers_congr (layout : JsonLayout) (depth : Nat)
    {ms ms' : Members} (alike : AlikeMembers ms ms')
    (each : ∀ m ∈ ms, ∀ m' ∈ ms', Alike m.2 m'.2 →
      m.2.write layout depth = m'.2.write layout depth) :
    writeMembers layout depth ms = writeMembers layout depth ms' := by
  induction ms generalizing ms' with
  | nil =>
    cases alike
    rfl
  | cons m rest ih =>
    cases alike with
    | cons key first others =>
      have head := each _ List.mem_cons_self _ List.mem_cons_self first
      have tail := ih others fun x member y member' =>
        each x (List.mem_cons_of_mem _ member) y (List.mem_cons_of_mem _ member')
      rw [writeMembers, writeMembers, head, tail]

/-- In ascending order values that are alike have the same text. -/
theorem write_alike (layout : JsonLayout) (depth : Nat) {v w : Json} (alike : Alike v w)
    (ascending : v.Ascending) (ascending' : w.Ascending) :
    v.write layout depth = w.write layout depth := by
  induction v using inside generalizing w depth with
  | null =>
    cases alike
    rfl
  | bool b =>
    cases alike
    rfl
  | int i =>
    cases alike
    rfl
  | float x =>
    cases alike with
    | float same => exact floatText_alike same
  | text t =>
    cases alike
    rfl
  | array items ih =>
    cases alike with
    | array alike =>
      have each := everywhere_array.mp ascending
      have each' := everywhere_array.mp ascending'
      cases alike with
      | nil => rfl
      | cons first others =>
        have head := ih _ List.mem_cons_self (depth + 1) first
          (each _ List.mem_cons_self) (each' _ List.mem_cons_self)
        have tail := writeItems_congr layout (depth + 1) others
          fun x member y member' alike => ih x (List.mem_cons_of_mem _ member) (depth + 1) alike
            (each x (List.mem_cons_of_mem _ member)) (each' y (List.mem_cons_of_mem _ member'))
        rw [write, write, head, tail]
  | object ms ih =>
    cases w with
    | object ms' =>
      obtain ⟨here, each⟩ := everywhere_object.mp ascending
      obtain ⟨here', each'⟩ := everywhere_object.mp ascending'
      cases alike.members here here' with
      | nil => rfl
      | cons key first others =>
        have head := ih _ List.mem_cons_self (depth + 1) first
          (each _ List.mem_cons_self) (each' _ List.mem_cons_self)
        have tail := writeMembers_congr layout (depth + 1) others
          fun x member y member' alike => ih x (List.mem_cons_of_mem _ member) (depth + 1) alike
            (each x (List.mem_cons_of_mem _ member)) (each' y (List.mem_cons_of_mem _ member'))
        rw [write, write, head, tail]
    | _ => cases alike

end Texts

end Json

end LinkedProof
