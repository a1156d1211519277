import LinkedProof.Json.Basic

/-! Members by name: what replacing a member changes and what it leaves as it was. -/
namespace LinkedProof

theorem Json.isText_iff {t : Text} {v : Json} : v.isText t = true ↔ v = .text t := by
  cases v <;> simp [Json.isText]

namespace Members

variable {ms : Members} {key name : Text} {value : Json}

theorem get?_set_self (ms : Members) (key : Text) (value : Json) :
    (ms.set key value).get? key = some value := by
  induction ms with
  | nil => simp [set, get?]
  | cons m rest ih =>
    obtain ⟨k, v⟩ := m
    by_cases same : k = key
    · simp [set, get?, same]
    · simpa [set, get?, same] using ih

theorem get?_set_other (ms : Members) (value : Json) (other : name ≠ key) :
    (ms.set key value).get? name = ms.get? name := by
  induction ms with
  | nil => simp [set, get?, Ne.symm other]
  | cons m rest ih =>
    obtain ⟨k, v⟩ := m
    by_cases same : k = key
    · subst same
      simp [set, get?, Ne.symm other]
    · simp only [set, same, if_false, get?]
      split
      · rfl
      · exact ih

/-- Members that are told apart by other names stay as they are. -/
theorem filter_set (p : Text → Bool) (out : p key = false) (ms : Members) (value : Json) :
    (ms.set key value).filter (p ·.1) = ms.filter (p ·.1) := by
  induction ms with
  | nil => simp [set, out]
  | cons m rest ih =>
    obtain ⟨k, v⟩ := m
    by_cases same : k = key
    · simp [set, same, out]
    · rw [set, if_neg same, List.filter_cons, List.filter_cons, ih]

theorem erase_set (ms : Members) (key : Text) (value : Json) :
    (ms.set key value).erase key = ms.erase key :=
  filter_set (fun name => decide (name ≠ key)) (by simp) ms value

theorem subset_set (missing : ms.get? key = none) (value : Json) : ms ⊆ ms.set key value := by
  induction ms with
  | nil => exact List.nil_subset _
  | cons m rest ih =>
    obtain ⟨k, v⟩ := m
    by_cases same : k = key
    · simp [get?, same] at missing
    · rw [set, if_neg same]
      exact List.cons_subset_cons _ (ih (by simpa [get?, same] using missing))

/-- What is left behind without the members of a name. -/
theorem mem_erase {m : Text × Json} : m ∈ ms.erase key ↔ m ∈ ms ∧ m.1 ≠ key := by
  simp [erase, List.mem_filter]

theorem erase_subset (ms : Members) (key : Text) : ms.erase key ⊆ ms :=
  fun _ member => (mem_erase.mp member).1

/-- Behind members of other names a member is found as if they were not there. -/
theorem get?_erase_append (ms ns : Members) (key : Text) :
    Members.get? key (ms.erase key ++ ns) = ns.get? key := by
  induction ms with
  | nil => rfl
  | cons m rest ih =>
    obtain ⟨k, v⟩ := m
    by_cases same : k = key
    · simpa [erase, same] using ih
    · simpa [erase, get?, same] using ih

theorem mem_of_get? (found : ms.get? key = some value) : (key, value) ∈ ms := by
  induction ms with
  | nil => cases found
  | cons m rest ih =>
    obtain ⟨k, v⟩ := m
    by_cases same : k = key
    · obtain rfl : v = value := by simpa [get?, same] using found
      rw [same]
      exact List.mem_cons_self
    · exact List.mem_cons_of_mem _ (ih (by simpa [get?, same] using found))

end Members

end LinkedProof
