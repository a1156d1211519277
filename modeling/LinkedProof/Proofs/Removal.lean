import LinkedProof.Proofs.Holding

/-! What a removal leaves of the entries under `proof`. The proof at the index goes, and so does
every entry that is no object: a removal takes away one entry and nothing else exactly where all
entries are objects, as an attachment asks for. -/
namespace LinkedProof

def Json.isObject (v : Json) : Bool := v.object?.isSome

namespace Document

variable {d d' : Document}

def Whole (d : Document) : Prop := ∀ entry ∈ d.entries, entry.isObject = true

theorem filterMap_object (entries : List Json) :
    (entries.filterMap Json.object?).map Json.object = entries.filter Json.isObject := by
  induction entries with
  | nil => rfl
  | cons entry rest ih =>
    cases entry with
    | object proof => exact congrArg (Json.object proof :: ·) ih
    | _ => exact ih

theorem length_proofs (d : Document) :
    d.proofs.length = (d.entries.filter Json.isObject).length := by
  rw [proofs_eq_filterMap, ← filterMap_object, List.length_map]

theorem whole_iff : d.Whole ↔ d.proofs.length = d.entryCount := by
  rw [length_proofs, ← length_entries, List.length_filter_eq_length_iff]
  rfl

structure Around (d : Document) (index : Nat) (before : List Json) (proof : Members)
    (after : List Json) : Prop where
  entries : d.entries = before ++ .object proof :: after
  place : (before.filterMap Json.object?).length = index

theorem around {i : Nat} (inside : i < d.proofs.length) :
    ∃ before proof after, d.Around i before proof after := by
  have parted : d.entries.filterMap Json.object? =
      d.proofs.take i ++ d.proofs[i] :: d.proofs.drop (i + 1) := by
    rw [← proofs_eq_filterMap, List.cons_getElem_drop_succ, List.take_append_drop]
  obtain ⟨front, back, whole, first, rest⟩ := List.filterMap_eq_append_iff.mp parted
  obtain ⟨others, entry, after, rfl, skipped, hit, _⟩ := List.filterMap_eq_cons_iff.mp rest
  have shape : entry = .object d.proofs[i] := by
    cases entry with
    | object proof => exact congrArg Json.object (Option.some.inj hit)
    | _ => cases hit
  refine ⟨front ++ others, d.proofs[i], after, ?_, ?_⟩
  · rw [whole, shape, List.append_assoc]
  · rw [List.filterMap_append, first, List.filterMap_eq_nil_iff.mpr skipped, List.append_nil,
      List.length_take]
    omega

theorem Around.eraseIdx {i : Nat} {before after : List Json} {proof : Members}
    (around : d.Around i before proof after) :
    (d.proofs.eraseIdx i).map .object = (before ++ after).filter Json.isObject := by
  have found : Json.object? (.object proof) = some proof := rfl
  rw [proofs_eq_filterMap, around.entries, List.filterMap_append, List.filterMap_cons_some found,
    ← around.place, List.eraseIdx_append_of_length_le (Nat.le_refl _), Nat.sub_self,
    List.eraseIdx_cons_zero, ← List.filterMap_append, filterMap_object]

theorem Around.whole_iff {i : Nat} {before after : List Json} {proof : Members}
    (around : d.Around i before proof after) :
    d.Whole ↔ ∀ entry ∈ before ++ after, entry.isObject = true := by
  rw [Whole, around.entries, List.forall_mem_append, List.forall_mem_append, List.forall_mem_cons]
  have proofIs : (Json.object proof).isObject = true := rfl
  rw [and_iff_right proofIs]

/-- An attachment asks for a document whose entries are all objects, and leaves one. -/
theorem attach_whole {σ : Type} {now : Timestamp} {r : ProofRequest σ} {s t : σ}
    (attached : (attach now r (.object d)).Ends s (.ok d') t) : d.Whole ∧ d'.Whole := by
  obtain ⟨e, options, payload, value, prepared, _, rfl⟩ := ProofRequest.attach_ok.mp attached
  obtain ⟨_, _, _, shape, whole, _⟩ := ProofRequest.prepare_ok.mp prepared
  obtain rfl := Json.object.inj shape
  exact ⟨whole_iff.mpr whole, whole_iff.mpr (entryCount_addProof d _).symm⟩

/-- A removal succeeds exactly at the index of a proof. It takes this proof away and keeps all other
members of the document; of the other entries the objects stay, in their order. So one entry and
nothing else is gone exactly if every entry is an object. -/
theorem removal_exact (d : Document) (index : Int) :
    ((∃ d', d.removeProof index = .ok d') ↔ 0 ≤ index ∧ index < d.proofs.length) ∧
    ∀ d', d.removeProof index = .ok d' → ∃ before proof after,
      d.Around index.toNat before proof after ∧ d'.erase proofKey = d.erase proofKey ∧
      d'.entries = (before ++ after).filter Json.isObject ∧
      (d'.entries = before ++ after ↔ d.Whole) ∧
      (d'.entryCount + 1 = d.entryCount ↔ d.Whole) := by
  constructor
  · constructor
    · intro ⟨d', removed⟩
      obtain ⟨i, rfl, inside, _⟩ := removeProof_ok.mp removed
      exact ⟨Int.natCast_nonneg i, Int.ofNat_lt.mpr inside⟩
    · intro ⟨low, high⟩
      obtain ⟨i, rfl⟩ := Int.eq_ofNat_of_zero_le low
      exact ⟨_, removeProof_ok.mpr ⟨i, rfl, Int.ofNat_lt.mp high, rfl⟩⟩
  · intro d' removed
    obtain ⟨i, rfl, inside, rfl⟩ := removeProof_ok.mp removed
    obtain ⟨before, proof, after, around⟩ := d.around inside
    have carries := d.withProofs_carries (d.proofs.eraseIdx i)
    have left := (entries_of_stores carries.stores).trans around.eraseIdx
    have count := congrArg List.length around.entries
    rw [List.length_append, List.length_cons, length_entries] at count
    refine ⟨before, proof, after, around, carries.others, left, ?_, ?_⟩
    · rw [left, List.filter_eq_self, around.whole_iff]
    · rw [← length_entries, left, around.whole_iff, ← List.length_filter_eq_length_iff,
        List.length_append]
      omega

def mixed : Document :=
  [("id", .text "urn:1"), ("proof", .array [.object [("type", .text "a")], .text "legacy",
    .object [("type", .text "b")]])]

theorem mixed_not_whole : ¬mixed.Whole := by
  intro whole
  cases whole (.text "legacy") (.tail _ (.head _))

/-- Without its first proof the document has lost the entry behind it, too. -/
theorem removal_exact_mixed : ∃ d', mixed.removeProof 0 = .ok d' ∧
    d'.entries = [.object [("type", .text "b")]] ∧ d'.entryCount + 1 ≠ mixed.entryCount := by
  obtain ⟨accepted, each⟩ := removal_exact mixed 0
  obtain ⟨d', removed⟩ := accepted.mpr (by decide)
  obtain ⟨before, proof, after, around, _, left, _, count⟩ := each d' removed
  refine ⟨d', removed, ?_, ?_⟩
  · rw [left, ← around.eraseIdx]
    rfl
  · intro fewer
    exact mixed_not_whole (count.mp fewer)

/-- A removal can take away more than the entry of its proof. -/
theorem removal_inexact : ¬∀ (d d' : Document) (index : Int), d.removeProof index = .ok d' →
    ∃ before proof after, d.Around index.toNat before proof after ∧
      d'.entries = before ++ after ∧ d'.entryCount + 1 = d.entryCount := by
  intro always
  obtain ⟨_, _, _, _, _, count⟩ := always mixed _ 0 rfl
  cases count

end Document

end LinkedProof
