import Mathlib.Data.List.TakeWhile
import LinkedProof.Text.CodePoint

/-! Cutting a text at a mark: the parts hold no mark, and with the mark between them they are the
text again. Texts are in order by their code points. -/
namespace LinkedProof.Text

theorem cut?_eq_some {mark : CodePoint} {t a b : Text} :
    cut? mark t = some (a, b) ↔ t = a ++ mark :: b ∧ mark ∉ a := by
  induction t generalizing a with
  | nil => simp [cut?]
  | cons c rest ih =>
    by_cases same : c = mark
    · subst same
      cases a with
      | nil => simp [cut?, eq_comm]
      | cons x a =>
        simp only [cut?, if_true, Option.some.injEq, Prod.mk.injEq, List.cons_append,
          List.cons.injEq, List.mem_cons, not_or]
        constructor
        · rintro ⟨empty, _⟩
          cases empty
        · rintro ⟨⟨first, _⟩, other, _⟩
          exact absurd first other
    · cases a with
      | nil =>
        simp only [cut?, same, if_false, List.nil_append, List.cons.injEq, false_and, iff_false]
        intro found
        obtain ⟨_, _, equal⟩ := Option.map_eq_some_iff.mp found
        cases congrArg Prod.fst equal
      | cons x a =>
        simp only [cut?, same, if_false, Option.map_eq_some_iff, Prod.exists, Prod.mk.injEq,
          List.cons.injEq, List.cons_append, List.mem_cons, not_or]
        constructor
        · rintro ⟨a', b', found, ⟨rfl, rfl⟩, rfl⟩
          obtain ⟨rfl, clear⟩ := ih.mp found
          exact ⟨⟨rfl, rfl⟩, fun equal => same equal.symm, clear⟩
        · rintro ⟨⟨rfl, rfl⟩, _, clear⟩
          exact ⟨a, b, ih.mpr ⟨rfl, clear⟩, ⟨rfl, rfl⟩, rfl⟩

theorem cut?_eq_none {mark : CodePoint} {t : Text} : cut? mark t = none ↔ mark ∉ t := by
  induction t with
  | nil => simp [cut?]
  | cons c rest ih =>
    by_cases same : c = mark
    · simp [cut?, same]
    · simp [cut?, same, ih, Ne.symm same]

/-- What stands before a mark does not depend on what stands behind it. -/
theorem before_append {mark : CodePoint} {part : Text} (clear : mark ∉ part) (rest : Text) :
    before mark (part ++ mark :: rest) = part := by
  induction part with
  | nil => simp [before]
  | cons c part ih =>
    obtain ⟨other, clear⟩ := not_or.mp (fun member => clear (List.mem_cons.mpr member))
    rw [List.cons_append, before, List.takeWhile_cons_of_pos (by simpa using Ne.symm other)]
    exact congrArg _ (ih clear)

theorem before_clear {mark : CodePoint} {t : Text} (clear : mark ∉ t) : before mark t = t := by
  rw [before, List.takeWhile_eq_self_iff]
  intro c member
  rw [decide_eq_true_eq]
  rintro rfl
  exact clear member

theorem before_append_of_mem {mark : CodePoint} {t : Text} (found : mark ∈ t) (rest : Text) :
    before mark (t ++ rest) = before mark t := by
  induction t with
  | nil => cases found
  | cons c t ih =>
    by_cases same : c = mark
    · simp [before, same]
    · have later : mark ∈ t := (List.mem_cons.mp found).resolve_left (Ne.symm same)
      simpa [before, same] using ih later

theorem not_mem_before (mark : CodePoint) (t : Text) : mark ∉ before mark t := fun member => by
  simpa using List.mem_takeWhile_imp member

/-- What stands before a mark is the whole text, or the mark stands behind it. -/
theorem before_spec (mark : CodePoint) (t : Text) :
    ∃ rest, t = before mark t ++ rest ∧ (rest = [] ∨ ∃ behind, rest = mark :: behind) := by
  induction t with
  | nil => exact ⟨[], rfl, .inl rfl⟩
  | cons c t ih =>
    by_cases same : c = mark
    · subst same
      exact ⟨c :: t, by simp [before], .inr ⟨t, rfl⟩⟩
    · obtain ⟨rest, whole, shape⟩ := ih
      refine ⟨rest, ?_, shape⟩
      rw [before, List.takeWhile_cons_of_pos (by simpa using same), List.cons_append]
      exact congrArg _ whole

theorem split_ne_nil (mark : CodePoint) (t : Text) : split mark t ≠ [] := by
  cases t with
  | nil => simp [split]
  | cons c rest =>
    rw [split]
    split
    · simp
    · split <;> simp

/-- A part without the mark is the first part of the text that goes on behind it with a mark. -/
theorem split_append (mark : CodePoint) (part rest : Text) (clear : mark ∉ part) :
    split mark (part ++ mark :: rest) = part :: split mark rest := by
  induction part with
  | nil => simp [split]
  | cons c part ih =>
    obtain ⟨other, clear⟩ := not_or.mp (fun member => clear (List.mem_cons.mpr member))
    rw [List.cons_append, split, if_neg (fun same => other same.symm), ih clear]

theorem split_clear (mark : CodePoint) (part : Text) (clear : mark ∉ part) :
    split mark part = [part] := by
  induction part with
  | nil => rfl
  | cons c part ih =>
    obtain ⟨other, clear⟩ := not_or.mp (fun member => clear (List.mem_cons.mpr member))
    rw [split, if_neg (fun same => other same.symm), ih clear]

theorem join_split (mark : CodePoint) (t : Text) : join [mark] (split mark t) = t := by
  induction t with
  | nil => rfl
  | cons c rest ih =>
    have filled := split_ne_nil mark rest
    rw [split]
    cases parts : split mark rest with
    | nil => exact absurd parts filled
    | cons part others =>
      rw [parts] at ih
      by_cases same : c = mark
      · subst same
        simp [join, ih]
      · cases others with
        | nil => simpa [same, join] using ih
        | cons other others => simpa [same, join] using ih

/-- Parts without the mark are the parts of what they make up. -/
theorem split_join {mark : CodePoint} {part : Text} {parts : List Text}
    (clear : ∀ p ∈ part :: parts, mark ∉ p) :
    split mark (join [mark] (part :: parts)) = part :: parts := by
  induction parts generalizing part with
  | nil => exact split_clear mark part (clear part List.mem_cons_self)
  | cons next parts ih =>
    obtain ⟨first, others⟩ := List.forall_mem_cons.mp clear
    rw [join, List.append_assoc, List.singleton_append, split_append mark part _ first, ih others]
    nofun

theorem join_concat (separator last : Text) {parts : List Text} (filled : parts ≠ []) :
    join separator (parts ++ [last]) = join separator parts ++ separator ++ last := by
  induction parts with
  | nil => exact absurd rfl filled
  | cons part rest ih =>
    cases rest with
    | nil => rfl
    | cons next rest =>
      simp only [List.cons_append, join, List.append_assoc] at ih ⊢
      rw [ih (List.cons_ne_nil _ _)]

theorem mem_join {c : CodePoint} {separator : Text} {parts : List Text}
    (member : c ∈ join separator parts) : c ∈ separator ∨ ∃ part ∈ parts, c ∈ part := by
  induction parts with
  | nil => cases member
  | cons part rest ih =>
    cases rest with
    | nil => exact .inr ⟨part, List.mem_cons_self, member⟩
    | cons next rest =>
      rw [join, List.mem_append, List.mem_append] at member
      · rcases member with (inside | between) | later
        · exact .inr ⟨part, List.mem_cons_self, inside⟩
        · exact .inl between
        · rcases ih later with between | ⟨p, later, inside⟩
          · exact .inl between
          · exact .inr ⟨p, List.mem_cons_of_mem _ later, inside⟩
      · nofun

theorem mem_join_of_mem {c : CodePoint} {separator part : Text} {parts : List Text}
    (listed : part ∈ parts) (inside : c ∈ part) : c ∈ join separator parts := by
  induction parts with
  | nil => cases listed
  | cons first rest ih =>
    cases rest with
    | nil =>
      obtain rfl := List.mem_singleton.mp listed
      exact inside
    | cons next rest =>
      rw [join, List.mem_append, List.mem_append]
      · rcases List.mem_cons.mp listed with rfl | later
        · exact .inl (.inl inside)
        · exact .inr (ih later)
      · nofun

theorem clear_of_mem_split {mark : CodePoint} {t part : Text} (member : part ∈ split mark t) :
    mark ∉ part := by
  induction t generalizing part with
  | nil =>
    obtain rfl := List.mem_singleton.mp member
    exact List.not_mem_nil
  | cons c rest ih =>
    rw [split] at member
    cases parts : split mark rest with
    | nil => exact absurd parts (split_ne_nil mark rest)
    | cons first others =>
      rw [parts] at ih member
      by_cases same : c = mark
      · rw [if_pos same] at member
        rcases List.mem_cons.mp member with rfl | later
        · exact List.not_mem_nil
        · exact ih later
      · rw [if_neg same] at member
        rcases List.mem_cons.mp member with rfl | later
        · have clear := ih List.mem_cons_self
          simp [clear, Ne.symm same]
        · exact ih (List.mem_cons_of_mem _ later)

/-- A text in three parts of which the middle one is empty. -/
theorem split_eq_outer {mark : CodePoint} {t a b : Text} :
    split mark t = [a, [], b] ↔ t = a ++ mark :: mark :: b ∧ mark ∉ a ∧ mark ∉ b := by
  constructor
  · intro parts
    have joined := join_split mark t
    rw [parts] at joined
    refine ⟨by simpa [join] using joined.symm, ?_, ?_⟩
    · exact clear_of_mem_split (t := t) (by simp [parts])
    · exact clear_of_mem_split (t := t) (by simp [parts])
  · rintro ⟨rfl, first, last⟩
    have middle : split mark (mark :: b) = [] :: split mark b := by simp [split]
    rw [split_append mark a _ first, middle, split_clear mark b last]

theorem holds_iff {part t : Text} : holds part t = true ↔ part <:+: t := by
  induction t with
  | nil => simp [holds]
  | cons c rest ih =>
    rw [holds, Bool.or_eq_true, List.isPrefixOf_iff_prefix, ih, List.infix_cons_iff]

section Order

variable {s t u : Text}

@[simp] theorem lt_irrefl (t : Text) : lt t t = false := by
  induction t with
  | nil => rfl
  | cons c rest ih => simp [lt, ih]

theorem lt_trans (first : lt s t = true) (second : lt t u = true) : lt s u = true := by
  induction s generalizing t u with
  | nil =>
    cases u with
    | nil => cases t <;> cases second
    | cons c u => rfl
  | cons a s ih =>
    cases t with
    | nil => cases first
    | cons b t =>
      cases u with
      | nil => cases second
      | cons c u =>
        rw [lt] at first second ⊢
        by_cases same : a = b
        · subst same
          rw [if_pos rfl] at first
          by_cases same : a = c
          · rw [if_pos same] at second ⊢
            exact ih first second
          · rwa [if_neg same] at second ⊢
        · have before : a.val < b.val := by simpa [same] using first
          have behind : b.val ≤ c.val := by
            by_cases next : b = c
            · exact Nat.le_of_eq (congrArg CodePoint.val next)
            · have later : b.val < c.val := by simpa [next] using second
              exact Nat.le_of_lt later
          have other : a ≠ c := by
            rintro rfl
            omega
          rw [if_neg other, decide_eq_true_eq]
          omega

theorem lt_asymm (first : lt s t = true) : lt t s = false := by
  cases second : lt t s with
  | false => rfl
  | true =>
    have both : lt s s = true := lt_trans first second
    rw [lt_irrefl] at both
    cases both

/-- Of two texts that differ one is in front of the other. -/
theorem lt_total (differ : s ≠ t) : lt s t = true ∨ lt t s = true := by
  induction s generalizing t with
  | nil =>
    cases t with
    | nil => exact absurd rfl differ
    | cons c t => exact .inl rfl
  | cons a s ih =>
    cases t with
    | nil => exact .inr rfl
    | cons b t =>
      by_cases same : a = b
      · subst same
        have rest : s ≠ t := by
          rintro rfl
          exact differ rfl
        simpa [lt] using ih rest
      · have apart : a.val ≠ b.val := by
          cases a
          cases b
          simpa using same
        simp only [lt, if_neg same, if_neg (Ne.symm same), decide_eq_true_eq]
        omega

end Order

end LinkedProof.Text
