import LinkedProof.Proofs.Json.Alike

/-! How deep the containers of a value lie. The order of members does not matter for that. -/
namespace LinkedProof.Json

variable {items : List Json} {ms ns : Members} {v w : Json} {n : Nat}

section Bounds

theorem depthItems_le : depthItems items ≤ n ↔ ∀ item ∈ items, item.depth ≤ n := by
  induction items with
  | nil => simp [depthItems]
  | cons item rest ih => rw [depthItems, Nat.max_le, ih, List.forall_mem_cons]

theorem depthMembers_le : depthMembers ms ≤ n ↔ ∀ m ∈ ms, m.2.depth ≤ n := by
  induction ms with
  | nil => simp [depthMembers]
  | cons m rest ih => rw [depthMembers, Nat.max_le, ih, List.forall_mem_cons]

theorem depth_array_le : (array items).depth ≤ n + 1 ↔ ∀ item ∈ items, item.depth ≤ n := by
  rw [depth, Nat.add_le_add_iff_right, depthItems_le]

theorem depth_object_le : (object ms).depth ≤ n + 1 ↔ ∀ m ∈ ms, m.2.depth ≤ n := by
  rw [depth, Nat.add_le_add_iff_right, depthMembers_le]

theorem depth_item_lt {item : Json} (inside : item ∈ items) : item.depth < (array items).depth :=
  Nat.lt_succ_of_le (depthItems_le.mp (Nat.le_refl _) item inside)

theorem depth_member_lt {m : Text × Json} (inside : m ∈ ms) : m.2.depth < (object ms).depth :=
  Nat.lt_succ_of_le (depthMembers_le.mp (Nat.le_refl _) m inside)

theorem depth_items_subset {items' : List Json} (inside : items ⊆ items') :
    (array items).depth ≤ (array items').depth := by
  rw [depth, depth, Nat.add_le_add_iff_right, depthItems_le]
  exact fun item member => depthItems_le.mp (Nat.le_refl _) item (inside member)

theorem depth_members_subset (inside : ms ⊆ ns) : (object ms).depth ≤ (object ns).depth := by
  rw [depth, depth, Nat.add_le_add_iff_right, depthMembers_le]
  exact fun m member => depthMembers_le.mp (Nat.le_refl _) m (inside member)

end Bounds

section Order

theorem AlikeItems.depth_eq {items' : List Json} (alike : AlikeItems items items')
    (each : ∀ item ∈ items, ∀ w, Alike item w → item.depth = w.depth) :
    depthItems items = depthItems items' := by
  induction items generalizing items' with
  | nil => cases alike; rfl
  | cons item rest ih =>
    cases alike with
    | cons first others =>
      have tail := ih others fun x member => each x (List.mem_cons_of_mem _ member)
      rw [depthItems, depthItems, each item List.mem_cons_self _ first, tail]

theorem AlikeMembers.depth_eq (alike : AlikeMembers ms ns)
    (each : ∀ m ∈ ms, ∀ w, Alike m.2 w → m.2.depth = w.depth) :
    depthMembers ms = depthMembers ns := by
  induction ms generalizing ns with
  | nil => cases alike; rfl
  | cons m rest ih =>
    cases alike with
    | cons key first others =>
      have tail := ih others fun x member => each x (List.mem_cons_of_mem _ member)
      rw [depthMembers, depthMembers, each _ List.mem_cons_self _ first, tail]

theorem depthMembers_perm (order : ms.Perm ns) : depthMembers ms = depthMembers ns := by
  refine Nat.le_antisymm (depthMembers_le.mpr fun m member => ?_)
    (depthMembers_le.mpr fun m member => ?_)
  · exact depthMembers_le.mp (Nat.le_refl _) m (order.mem_iff.mp member)
  · exact depthMembers_le.mp (Nat.le_refl _) m (order.mem_iff.mpr member)

/-- Values that are alike are equally deep. -/
theorem Alike.depth_eq (alike : Alike v w) : v.depth = w.depth := by
  induction v using inside generalizing w with
  | null => cases alike; rfl
  | bool b => cases alike; rfl
  | int i => cases alike; rfl
  | float x => cases alike; rfl
  | text t => cases alike; rfl
  | array items ih =>
    cases alike with
    | array alike => rw [depth, depth, alike.depth_eq fun item member w => ih item member]
  | object ms ih =>
    cases alike with
    | object left alike right =>
      have each := fun m member w => @ih m (left.mem_iff.mpr member) w
      rw [depth, depth, depthMembers_perm left, alike.depth_eq each, depthMembers_perm right]

end Order

end LinkedProof.Json
