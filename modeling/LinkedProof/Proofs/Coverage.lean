import LinkedProof.Proofs.Attachment
import LinkedProof.Proofs.NormalForm

/-! What the bytes of a document cover when a proof signs it: the members other than the proofs, and
in a chain the proofs in front of its place. How the proofs are stored plays no part. -/
namespace LinkedProof

namespace Json

theorem AlikeItems.length_eq {items items' : List Json} (alike : AlikeItems items items') :
    items.length = items'.length := by
  induction items generalizing items' with
  | nil =>
    cases alike
    rfl
  | cons item rest ih =>
    cases alike with
    | cons first others => rw [List.length_cons, List.length_cons, ih others]

theorem Alike.length_eq {ms ns : Members} (alike : Alike (.object ms) (.object ns)) :
    ms.length = ns.length := by
  cases alike with
  | object left alike right =>
    exact left.length_eq.trans (alike.length_eq.trans right.length_eq)

theorem alike_single {key : Text} {v w : Json} :
    Alike (.object [(key, v)]) (.object [(key, w)]) ↔ Alike v w := by
  constructor
  · intro alike
    cases alike with
    | object left alike right =>
      obtain rfl := left.singleton_eq
      obtain rfl := right.eq_singleton
      cases alike with
      | cons _ first _ => exact first
  · intro alike
    exact .object (.refl _) (.cons key alike .nil) (.refl _)

end Json

open Json (Alike AlikeItems HoldsBroken)

namespace Document

section Stored

private def stored (proofs : List Json) : Members :=
  match proofValue? proofs with
  | some value => [(proofKey, value)]
  | none => []

private theorem withProofs_stored (d : Document) (proofs : List Json) :
    (d.withProofs proofs).filter (·.1 = proofKey) = stored proofs := by
  have others : (d.erase proofKey).filter (·.1 = proofKey) = [] := by simp [Members.erase]
  rw [withProofs, List.filter_append, others, List.nil_append, stored]
  cases proofValue? proofs <;> simp

-- Nothing, one object and an array of several: three forms that no two lists of proofs share unless
-- they are alike.
private theorem stored_alike (ps qs : List Members) :
    Alike (.object (stored (ps.map .object))) (.object (stored (qs.map .object))) ↔
      AlikeItems (ps.map .object) (qs.map .object) := by
  constructor
  · intro alike
    have many := alike.length_eq
    match ps, qs with
    | [], [] => exact .nil
    | [], [_] => cases many
    | [], _ :: _ :: _ => cases many
    | [_], [] => cases many
    | [_], [_] => exact .cons (Json.alike_single.mp alike) .nil
    | [_], _ :: _ :: _ => cases Json.alike_single.mp alike
    | _ :: _ :: _, [] => cases many
    | _ :: _ :: _, [_] => cases Json.alike_single.mp alike
    | _ :: _ :: _, _ :: _ :: _ =>
      cases Json.alike_single.mp alike with
      | array alike => exact alike
  · intro alike
    generalize ps.map Json.object = values at alike
    generalize qs.map Json.object = values' at alike
    cases alike with
    | nil => exact Alike.refl _
    | cons first others =>
      cases others with
      | nil => exact Json.alike_single.mpr first
      | cons second others =>
        exact Json.alike_single.mpr (.array (.cons first (.cons second others)))

end Stored

section Signed

variable {d d' : Document} {chain : Bool} {i j : Nat}

theorem signed_chain (d : Document) (i : Nat) :
    d.signed true (some i) = d.withProofs ((d.proofs.take i).map .object) := by
  rw [← leading_ofNat]
  rfl

private theorem proof_distinct {proof : Members} (distinct : Json.Distinct (.object d))
    (member : proof ∈ d.proofs) : Json.Distinct (.object proof) := by
  have each := (Json.everywhere_object.mp distinct).2
  obtain ⟨value, stands, rfl | ⟨items, rfl, inside⟩⟩ := proofs_stored member
  · exact each _ stands
  · exact Json.everywhere_array.mp (each _ stands) _ inside

private theorem proofValue_distinct {values : List Json} {value : Json}
    (distinct : ∀ v ∈ values, v.Distinct) (holds : proofValue? values = some value) :
    value.Distinct := by
  unfold proofValue? at holds
  split at holds
  · cases holds
  · obtain rfl := Option.some.inj holds
    exact distinct _ List.mem_cons_self
  · obtain rfl := Option.some.inj holds
    exact .array distinct

theorem withProofs_distinct {values : List Json} (distinct : Json.Distinct (.object d))
    (each : ∀ v ∈ values, v.Distinct) : Json.Distinct (.object (d.withProofs values)) := by
  obtain ⟨names, members⟩ := Json.everywhere_object.mp distinct
  have names' : Members.Distinct (d.erase proofKey) := names.sublist List.filter_sublist
  have members' : ∀ m ∈ d.erase proofKey, m.2.Distinct := fun m member =>
    members m (List.mem_of_mem_filter member)
  rw [withProofs]
  cases holds : proofValue? values with
  | none =>
    rw [List.append_nil]
    exact .object names' members'
  | some value =>
    have fresh : proofKey ∉ Members.keys (d.erase proofKey) := by simp [Members.keys, Members.erase]
    have names'' : Members.Distinct ((proofKey, value) :: d.erase proofKey) :=
      List.nodup_cons.mpr ⟨fresh, names'⟩
    apply Json.Everywhere.object (names''.perm (List.perm_append_singleton _ _).symm)
    intro m member
    rcases List.mem_append.mp member with old | new
    · exact members' m old
    · rw [List.mem_singleton.mp new]
      exact proofValue_distinct each holds

theorem signed_distinct (chain : Bool) (exclude : Option Int)
    (distinct : Json.Distinct (.object d)) : Json.Distinct (.object (d.signed chain exclude)) := by
  obtain ⟨proofs, inside, shape⟩ := signed_kept chain d exclude
  rw [shape]
  apply withProofs_distinct distinct
  intro v member
  obtain ⟨proof, listed, rfl⟩ := List.mem_map.mp member
  exact proof_distinct distinct (inside.subset listed)

theorem signed_set_alike (exclude exclude' : Option Int) :
    Alike (.object (d.signed false exclude)) (.object (d'.signed false exclude')) ↔
      Alike (.object (d.erase proofKey)) (.object (d'.erase proofKey)) := by
  rw [signed_set, signed_set]

/-- What is signed in a chain agrees if the earlier proofs agree, too. -/
theorem signed_chain_alike :
    Alike (.object (d.signed true (some i))) (.object (d'.signed true (some j))) ↔
      Alike (.object (d.erase proofKey)) (.object (d'.erase proofKey)) ∧
        AlikeItems ((d.proofs.take i).map .object) ((d'.proofs.take j).map .object) := by
  rw [alike_iff proofKey, signed_erase, signed_erase, signed_chain, signed_chain,
    withProofs_stored, withProofs_stored, stored_alike]

end Signed

section Covered

variable {d d' : Document} {i j : Nat}

/-- Documents that agree in what a proof signs have the same bytes for it, or none of them has
any. -/
theorem canonicalize_eq_of_alike {c : Canonicalizer} (distinct : Json.Distinct (.object d))
    (distinct' : Json.Distinct (.object d'))
    (others : Alike (.object (d.erase proofKey)) (.object (d'.erase proofKey)))
    (earlier : c.chain = true →
      AlikeItems ((d.proofs.take i).map .object) ((d'.proofs.take j).map .object)) :
    d.canonicalize c (some i) = d'.canonicalize c (some j) := by
  obtain ⟨chain, room⟩ := c
  have alike : Alike (.object (d.signed chain (some i))) (.object (d'.signed chain (some j))) := by
    cases chain with
    | false => exact (signed_set_alike _ _).mpr others
    | true => exact signed_chain_alike.mpr ⟨others, earlier rfl⟩
  exact serialize_eq_of_alike (signed_distinct _ _ distinct) (signed_distinct _ _ distinct') alike

private theorem canonicalize_written {c : Canonicalizer} (clear : ¬Unwritable c.room (.object d))
    (exclude : Option Int) : ∃ bytes, d.canonicalize c exclude = .ok bytes :=
  serialize_written.mpr fun stuck => clear (signed_unwritable stuck)

private theorem canonicalize_eq_iff {c : Canonicalizer} (distinct : Json.Distinct (.object d))
    (distinct' : Json.Distinct (.object d')) (clear : ¬Unwritable c.room (.object d)) :
    d.canonicalize c (some i) = d'.canonicalize c (some j) ↔
      Alike (.object (d.signed c.chain (some i))) (.object (d'.signed c.chain (some j))) := by
  obtain ⟨bytes, written⟩ := canonicalize_written clear (some i)
  exact serialize_eq_iff (signed_distinct _ _ distinct) (signed_distinct _ _ distinct') written

/-- The bytes of a set cover the members other than the proofs, up to their order, and those of a
chain the proofs in front of the place as well, all in their order. They do not depend on how the
proofs are stored, and a proof that is attached leaves the bytes that it signed as they were. -/
theorem canonicalize_covers {room : Json.Room} (distinct : Json.Distinct (.object d))
    (distinct' : Json.Distinct (.object d')) (clear : ¬HoldsBroken (.object d))
    (clear' : ¬HoldsBroken (.object d')) (enough : (Json.object d).depth ≤ room)
    (enough' : (Json.object d').depth ≤ room) (inside : i ≤ d.proofs.length)
    (inside' : j ≤ d'.proofs.length) :
    (∀ chain, ∃ x y, d.canonicalize ⟨chain, room⟩ (some i) = .ok x ∧
      d'.canonicalize ⟨chain, room⟩ (some j) = .ok y) ∧
    (d.canonicalize ⟨false, room⟩ (some i) = d'.canonicalize ⟨false, room⟩ (some j) ↔
      Alike (.object (d.erase proofKey)) (.object (d'.erase proofKey))) ∧
    (d.canonicalize ⟨true, room⟩ (some i) = d'.canonicalize ⟨true, room⟩ (some j) ↔
      Alike (.object (d.erase proofKey)) (.object (d'.erase proofKey)) ∧ i = j ∧
        AlikeItems ((d.proofs.take i).map .object) ((d'.proofs.take j).map .object)) ∧
    (∀ value, Document.proofs (d.set proofKey value) = d.proofs → ∀ c,
      Document.canonicalize c (d.set proofKey value) (some i) = d.canonicalize c (some i)) ∧
    ∀ proof c, (d.addProof proof).canonicalize c (some d.proofs.length) =
      d.canonicalize c (some d.proofs.length) := by
  have written := not_unwritable.mpr ⟨clear, enough⟩
  have written' := not_unwritable.mpr ⟨clear', enough'⟩
  refine ⟨?_, ?_, ?_, ?_, ?_⟩
  · intro chain
    obtain ⟨x, bytes⟩ := canonicalize_written (c := ⟨chain, room⟩) written (some i)
    obtain ⟨y, bytes'⟩ := canonicalize_written (c := ⟨chain, room⟩) written' (some j)
    exact ⟨x, y, bytes, bytes'⟩
  · rw [canonicalize_eq_iff distinct distinct' written, signed_set_alike]
  · rw [canonicalize_eq_iff distinct distinct' written, signed_chain_alike]
    constructor
    · rintro ⟨others, earlier⟩
      have count := earlier.length_eq
      rw [List.length_map, List.length_map, List.length_take, List.length_take] at count
      exact ⟨others, by omega, earlier⟩
    · rintro ⟨others, _, earlier⟩
      exact ⟨others, earlier⟩
  · intro value same c
    have others : Members.erase proofKey (d.set proofKey value) = d.erase proofKey :=
      Members.erase_set d proofKey value
    rw [canonicalize, canonicalize, signed_congr others (by rw [same])]
  · intro proof c
    have earlier : (d.addProof proof).proofs.take d.proofs.length =
        d.proofs.take d.proofs.length := by
      rw [proofs_addProof, List.take_left, List.take_length]
    rw [canonicalize, canonicalize, signed_congr (addProof_erase d proof) earlier]

def storedAlone : Document :=
  [(proofKey, .object [("type", .text "T"), ("jws", .text "a")]), ("id", .text "urn:1")]

def storedListed : Document :=
  [("id", .text "urn:1"), (proofKey, .array [.object [("type", .text "T"), ("jws", .text "a")],
    .int 7, .object [("type", .text "T")]])]

theorem canonicalize_covers_stored :
    Json.Distinct (.object storedListed) ∧ Json.Distinct (.object storedAlone) ∧
    ¬HoldsBroken (.object storedListed) ∧ ¬HoldsBroken (.object storedAlone) ∧
    (Json.object storedListed).depth ≤ Json.usualRoom ∧
    (Json.object storedAlone).depth ≤ Json.usualRoom ∧
    2 ≤ storedListed.proofs.length ∧ 1 ≤ storedAlone.proofs.length ∧
    storedListed.canonicalize ⟨true, Json.usualRoom⟩ (some 1) =
      storedAlone.canonicalize ⟨true, Json.usualRoom⟩ (some 1) ∧
    storedListed.canonicalize ⟨true, Json.usualRoom⟩ (some 2) ≠
      storedAlone.canonicalize ⟨true, Json.usualRoom⟩ (some 1) ∧
    storedListed.canonicalize ⟨false, Json.usualRoom⟩ (some 2) =
      storedAlone.canonicalize ⟨false, Json.usualRoom⟩ (some 1) := by
  have listed : Json.Distinct (.object storedListed) := by decide
  have alone : Json.Distinct (.object storedAlone) := by decide
  have clear : ¬HoldsBroken (.object storedListed) := by decide
  have clear' : ¬HoldsBroken (.object storedAlone) := by decide
  have enough : (Json.object storedListed).depth ≤ Json.usualRoom := by decide
  have enough' : (Json.object storedAlone).depth ≤ Json.usualRoom := by decide
  have members : Alike (.object (storedListed.erase proofKey))
      (.object (storedAlone.erase proofKey)) := Alike.refl _
  have first := (canonicalize_covers listed alone clear clear' enough enough' (i := 1) (j := 1)
    (by decide) (by decide)).2.2.1
  have second := canonicalize_covers listed alone clear clear' enough enough' (i := 2) (j := 1)
    (by decide) (by decide)
  refine ⟨listed, alone, clear, clear', enough, enough', by decide, by decide, ?_, ?_, ?_⟩
  · exact first.mpr ⟨members, rfl, .cons (Alike.refl _) .nil⟩
  · intro same
    have count := (second.2.2.1.mp same).2.1
    cases count
  · exact second.2.1.mpr members

end Covered

end Document

end LinkedProof
