import LinkedProof.Document
import LinkedProof.Proofs.Action
import LinkedProof.Proofs.Json.Depth
import LinkedProof.Proofs.Json.Members
import LinkedProof.Proofs.Json.Surrogate
import LinkedProof.Proofs.Json.Unambiguous
import LinkedProof.Proofs.Utf8

/-! The bytes that a value signs: there are some unless half of a surrogate pair stands in the
value or its containers lie too deep in one another, and values with the same bytes are alike. -/
namespace LinkedProof

open Json (Alike AlikeMembers HoldsBroken)

namespace Document

section Bytes

variable {room room' : Nat} {v w : Json} {bytes : Bytes}

/-- A value that there are no bytes for: half of a surrogate pair stands in it, or its containers
lie too deep in one another. -/
def Unwritable (room : Nat) (v : Json) : Prop := HoldsBroken v ∨ room < v.depth

def IsUnwritten (failure : Failure) : Prop :=
  failure = .unwritable ∨ ∃ fault, failure = .unfit (.encoding fault)

theorem not_unwritable : ¬Unwritable room v ↔ ¬HoldsBroken v ∧ v.depth ≤ room := by
  rw [Unwritable, not_or, Nat.not_lt]

private theorem sorted_broken (v : Json) :
    Json.Broken (v.sortKeys.render .literal) ↔ HoldsBroken v := by
  have alike := Json.sortKeys_alike v
  rw [Json.render, Json.broken_write]
  exact ⟨alike.symm.holdsBroken, alike.holdsBroken⟩

private theorem serialize_room (enough : v.depth ≤ room) : serialize room v =
    (Utf8.encode (v.sortKeys.render .literal)).mapError fun fault => .unfit (.encoding fault) :=
  if_neg (Nat.not_lt.mpr enough)

theorem serialize_deep (deep : room < v.depth) : serialize room v = .error .unwritable :=
  if_pos deep

theorem serialize_ok : serialize room v = .ok bytes ↔ (¬HoldsBroken v ∧ v.depth ≤ room) ∧
    (v.sortKeys.render .literal).flatMap Utf8.encodePoint = bytes := by
  by_cases deep : room < v.depth
  · rw [serialize_deep deep]
    exact iff_of_false nofun fun ⟨⟨_, enough⟩, _⟩ => absurd deep (Nat.not_lt.mpr enough)
  · have enough := Nat.not_lt.mp deep
    rw [serialize_room enough, Outcome.mapError_ok, Utf8.encode_ok, ← sorted_broken]
    simp [Json.Broken, enough]

theorem serialize_error {failure : Failure} (stopped : serialize room v = .error failure) :
    Unwritable room v ∧ IsUnwritten failure := by
  by_cases deep : room < v.depth
  · rw [serialize_deep deep] at stopped
    exact ⟨.inr deep, .inl (Except.error.inj stopped).symm⟩
  · rw [serialize_room (Nat.not_lt.mp deep)] at stopped
    by_cases broken : HoldsBroken v
    · obtain ⟨fault, _, rfl⟩ := mapError_error.mp stopped
      exact ⟨.inl broken, .inr ⟨fault, rfl⟩⟩
    · have written := serialize_ok.mpr ⟨⟨broken, Nat.not_lt.mp deep⟩, rfl⟩
      rw [serialize_room (Nat.not_lt.mp deep), stopped] at written
      cases written

/-- There are bytes just for the values that are not unwritable. -/
theorem serialize_written : (∃ bytes, serialize room v = .ok bytes) ↔ ¬Unwritable room v := by
  rw [not_unwritable]
  exact ⟨fun ⟨_, written⟩ => (serialize_ok.mp written).1,
    fun clear => ⟨_, serialize_ok.mpr ⟨clear, rfl⟩⟩⟩

/-- The bytes of a value do not depend on the room that there is for them. -/
theorem serialize_within (written : serialize room v = .ok bytes) (enough : v.depth ≤ room') :
    serialize room' v = .ok bytes := by
  obtain ⟨⟨clear, _⟩, text⟩ := serialize_ok.mp written
  exact serialize_ok.mpr ⟨⟨clear, enough⟩, text⟩

theorem serialize_alike (first : serialize room v = .ok bytes)
    (second : serialize room' w = .ok bytes) : Alike v w := by
  rw [serialize_room (serialize_ok.mp first).1.2, Outcome.mapError_ok] at first
  rw [serialize_room (serialize_ok.mp second).1.2, Outcome.mapError_ok] at second
  exact Json.sorted_alike (Utf8.encode_inj first second)

end Bytes

section Members

variable {ms ns : Members} {key : Text}

private theorem AlikeMembers.filter (p : Text → Bool) (alike : AlikeMembers ms ns) :
    AlikeMembers (ms.filter (p ·.1)) (ns.filter (p ·.1)) := by
  induction ms generalizing ns with
  | nil =>
    cases alike
    exact .nil
  | cons m ms ih =>
    cases alike with
    | cons name first others =>
      by_cases kept : p name = true
      · simpa [kept] using AlikeMembers.cons name first (ih others)
      · simpa [kept] using ih others

private theorem AlikeMembers.append {ms' ns' : Members} (alike : AlikeMembers ms ns)
    (alike' : AlikeMembers ms' ns') : AlikeMembers (ms ++ ms') (ns ++ ns') := by
  induction ms generalizing ns with
  | nil =>
    cases alike
    exact alike'
  | cons m ms ih =>
    cases alike with
    | cons name first others => exact .cons name first (ih others)

/-- Objects that are alike stay so without the members of some names. -/
theorem alike_filter (p : Text → Bool) (alike : Alike (.object ms) (.object ns)) :
    Alike (.object (ms.filter (p ·.1))) (.object (ns.filter (p ·.1))) := by
  cases alike with
  | object left alike right =>
    exact .object (left.filter _) (AlikeMembers.filter p alike) (right.filter _)

/-- Objects are alike if they are so in the members of one name and in the other members. -/
theorem alike_iff (key : Text) : Alike (.object ms) (.object ns) ↔
    Alike (.object (ms.erase key)) (.object (ns.erase key)) ∧
      Alike (.object (ms.filter (·.1 = key))) (.object (ns.filter (·.1 = key))) := by
  constructor
  · intro alike
    have others := alike_filter (fun name => decide (name ≠ key)) alike
    have named := alike_filter (fun name => decide (name = key)) alike
    exact ⟨others, named⟩
  · rintro ⟨others, named⟩
    have parts (ms : Members) : (ms.filter (·.1 = key) ++ ms.erase key).Perm ms := by
      have split := List.filter_append_perm (fun m : Text × Json => decide (m.1 = key)) ms
      simpa [Members.erase] using split
    cases others with
    | object left alike right =>
      cases named with
      | object left' alike' right' =>
        exact .object ((parts ms).symm.trans (left'.append left)) (AlikeMembers.append alike' alike)
          ((right'.append right).trans (parts ns))

end Members

section Signed

theorem withProofs_erase (d : Document) (proofs : List Json) :
    (d.withProofs proofs).erase proofKey = d.erase proofKey := by
  rw [withProofs]
  cases proofValue? proofs <;> simp [Members.erase]

theorem get?_withProofs (d : Document) (proofs : List Json) :
    (d.withProofs proofs).get? proofKey = proofValue? proofs := by
  rw [withProofs, Members.get?_erase_append]
  cases proofValue? proofs with
  | none => rfl
  | some value => exact if_pos rfl

theorem signed_erase (chain : Bool) (d : Document) (exclude : Option Int) :
    (d.signed chain exclude).erase proofKey = d.erase proofKey := withProofs_erase d _

theorem signed_none (chain : Bool) (d : Document) : d.signed chain none = d.erase proofKey := by
  simp [signed, withProofs, proofValue?]

/-- In a set no proof signs another one. -/
theorem signed_set (d : Document) (exclude : Option Int) :
    d.signed false exclude = d.erase proofKey := by
  cases exclude <;> simp [signed, withProofs, proofValue?]

/-- A canonicalizer with no less room gives the same bytes. -/
theorem canonicalize_within {c c' : Canonicalizer} {d : Document} {exclude : Option Int}
    {bytes : Bytes} (chain : c'.chain = c.chain) (room : c.room ≤ c'.room)
    (written : d.canonicalize c exclude = .ok bytes) : d.canonicalize c' exclude = .ok bytes := by
  rw [canonicalize, chain]
  exact serialize_within written (Nat.le_trans (serialize_ok.mp written).1.2 room)

variable {d : Document} {proof : Members}

/-- A proof is stored alone or as an item of an array. -/
theorem proofs_stored (member : proof ∈ d.proofs) : ∃ value, (proofKey, value) ∈ d ∧
    (value = .object proof ∨ ∃ items, value = .array items ∧ .object proof ∈ items) := by
  unfold proofs Members.get at member
  cases found : d.get? proofKey with
  | none =>
    rw [found] at member
    cases member
  | some v =>
    rw [found, Option.getD_some] at member
    refine ⟨v, Members.mem_of_get? found, ?_⟩
    cases v with
    | array items =>
      obtain ⟨item, inside, object⟩ := List.mem_filterMap.mp member
      cases item with
      | object proof' =>
        obtain rfl := Option.some.inj object
        exact .inr ⟨items, rfl, inside⟩
      | _ => cases object
    | object proof' =>
      obtain rfl := List.mem_singleton.mp member
      exact .inl rfl
    | _ => cases member

/-- A proof stands in its document, so what it holds the document holds. -/
theorem proof_inside (member : proof ∈ d.proofs) (holds : HoldsBroken (.object proof)) :
    HoldsBroken (.object d) := by
  obtain ⟨value, stands, rfl | ⟨items, rfl, inside⟩⟩ := proofs_stored member
  · exact .value stands holds
  · exact .value stands (.item inside holds)

theorem leading_ofNat {α : Type} (count : Nat) (xs : List α) :
    leading (count : Int) xs = xs.take count := by
  rw [leading, if_neg (by omega), Int.toNat_natCast]

private theorem leading_sublist {α : Type} (count : Int) (xs : List α) :
    (leading count xs).Sublist xs := by
  unfold leading
  split
  · exact List.take_sublist _ _
  · exact List.take_sublist _ _

theorem signed_kept (chain : Bool) (d : Document) (exclude : Option Int) :
    ∃ proofs : List Members, proofs.Sublist d.proofs ∧
      d.signed chain exclude = d.withProofs (proofs.map .object) := by
  cases exclude with
  | none => exact ⟨[], List.nil_sublist _, rfl⟩
  | some index =>
    cases chain with
    | false => exact ⟨[], List.nil_sublist _, rfl⟩
    | true => exact ⟨_, leading_sublist index d.proofs, rfl⟩

private theorem proofValue_inside {values : List Json} {v : Json}
    (stored : proofValue? values = some v) (broken : HoldsBroken v) :
    ∃ w ∈ values, HoldsBroken w := by
  unfold proofValue? at stored
  split at stored
  · cases stored
  · obtain rfl := Option.some.inj stored
    exact ⟨_, List.mem_cons_self, broken⟩
  · obtain rfl := Option.some.inj stored
    cases broken with
    | item listed broken => exact ⟨_, listed, broken⟩

private theorem withProofs_inside {values : List Json}
    (holds : HoldsBroken (.object (d.withProofs values))) :
    HoldsBroken (.object d) ∨ ∃ w ∈ values, HoldsBroken w := by
  have others := Members.erase_subset d proofKey
  rw [withProofs] at holds
  cases stored : proofValue? values with
  | none =>
    rw [stored, List.append_nil] at holds
    exact .inl (holds.subset others)
  | some v =>
    rw [stored] at holds
    have plain : ¬Json.Broken proofKey := Json.not_broken_of_ascii (by decide)
    cases holds with
    | name member broken =>
      rcases List.mem_append.mp member with old | new
      · exact .inl (.name (others old) broken)
      · rw [List.mem_singleton.mp new] at broken
        exact absurd broken plain
    | value member broken =>
      rcases List.mem_append.mp member with old | new
      · exact .inl (.value (others old) broken)
      · rw [List.mem_singleton.mp new] at broken
        exact .inr (proofValue_inside stored broken)

/-- Signing a document takes no half of a pair from anywhere else. -/
theorem signed_inside {chain : Bool} {exclude : Option Int}
    (holds : HoldsBroken (.object (d.signed chain exclude))) : HoldsBroken (.object d) := by
  obtain ⟨proofs, inside, shape⟩ := signed_kept chain d exclude
  rw [shape] at holds
  rcases withProofs_inside holds with whole | ⟨w, listed, broken⟩
  · exact whole
  · obtain ⟨proof, member, rfl⟩ := List.mem_map.mp listed
    exact proof_inside (inside.subset member) broken

private theorem proofs_depth (member : proof ∈ d.proofs) :
    (Json.object proof).depth < (Json.object d).depth := by
  obtain ⟨value, stands, rfl | ⟨items, rfl, inside⟩⟩ := proofs_stored member
  · exact Json.depth_member_lt stands
  · exact Nat.lt_trans (Json.depth_item_lt inside) (Json.depth_member_lt stands)

private theorem several_stored (several : 2 ≤ d.proofs.length) :
    ∃ items, (proofKey, .array items) ∈ d ∧ d.proofs = items.filterMap Json.object? := by
  have listed : ∃ items, d.get? proofKey = some (.array items) := by
    unfold proofs Members.get at several
    split at several
    · rename_i items found
      cases stored : d.get? proofKey with
      | none =>
        rw [stored] at found
        cases found
      | some v =>
        rw [stored, Option.getD_some] at found
        exact ⟨items, by rw [found]⟩
    · rw [List.length_singleton] at several
      omega
    · rw [List.length_nil] at several
      omega
  obtain ⟨items, found⟩ := listed
  exact ⟨items, Members.mem_of_get? found, by rw [proofs, Members.get, found]; rfl⟩

-- One proof may stand in its document alone. Several stand in an array there, and so no array of
-- them is deeper.
private theorem kept_depth {kept : List Members} (part : kept.Sublist d.proofs) {v : Json}
    (stored : proofValue? (kept.map .object) = some v) : v.depth < (Json.object d).depth := by
  match kept with
  | [] => cases stored
  | [proof] =>
    obtain rfl := Option.some.inj stored
    exact proofs_depth (part.subset List.mem_cons_self)
  | first :: second :: rest =>
    obtain rfl := Option.some.inj stored
    have count := part.length_le
    rw [List.length_cons, List.length_cons] at count
    obtain ⟨items, stands, listed⟩ := several_stored (d := d) (by omega)
    refine Nat.lt_of_le_of_lt (Json.depth_items_subset fun item member => ?_)
      (Json.depth_member_lt stands)
    have member : item ∈ (first :: second :: rest).map Json.object := member
    obtain ⟨proof, among, rfl⟩ := List.mem_map.mp member
    have stands := part.subset among
    rw [listed] at stands
    obtain ⟨item, inside, object⟩ := List.mem_filterMap.mp stands
    cases item <;> cases object
    exact inside

theorem depth_withProofs_le {n : Nat} {values : List Json}
    (others : (Json.object (d.erase proofKey)).depth ≤ n)
    (stored : ∀ v, proofValue? values = some v → v.depth < n) :
    (Json.object (d.withProofs values)).depth ≤ n := by
  rw [withProofs]
  cases held : proofValue? values with
  | none => rwa [List.append_nil]
  | some v =>
    obtain ⟨n, rfl⟩ := Nat.exists_eq_add_one.mpr (Nat.zero_lt_of_lt (stored v held))
    refine Json.depth_object_le.mpr fun m member => ?_
    rcases List.mem_append.mp member with old | new
    · exact Json.depth_object_le.mp others m old
    · rw [List.mem_singleton.mp new]
      exact Nat.le_of_lt_succ (stored v held)

/-- What a proof signs of a document lies no deeper than the document. -/
theorem depth_signed_le (chain : Bool) (d : Document) (exclude : Option Int) :
    (Json.object (d.signed chain exclude)).depth ≤ (Json.object d).depth := by
  obtain ⟨kept, part, shape⟩ := signed_kept chain d exclude
  rw [shape]
  have others := Json.depth_members_subset (Members.erase_subset d proofKey)
  exact depth_withProofs_le others fun v => kept_depth part

/-- A canonicalizer with room for the whole document gives the same bytes. -/
theorem canonicalize_roomy {c c' : Canonicalizer} {exclude : Option Int} {bytes : Bytes}
    (chain : c'.chain = c.chain) (enough : (Json.object d).depth ≤ c'.room)
    (written : d.canonicalize c exclude = .ok bytes) : d.canonicalize c' exclude = .ok bytes := by
  rw [canonicalize, chain]
  exact serialize_within written (Nat.le_trans (depth_signed_le c.chain d exclude) enough)

theorem proof_unwritable {room : Nat} {part : Members} (member : proof ∈ d.proofs)
    (inside : part ⊆ proof) (stuck : Unwritable room (.object part)) :
    Unwritable room (.object d) := by
  refine stuck.imp (fun holds => proof_inside member (holds.subset inside)) fun deep => ?_
  have shallow := Json.depth_members_subset inside
  have below := proofs_depth member
  omega

theorem signed_unwritable {room : Nat} {chain : Bool} {exclude : Option Int}
    (stuck : Unwritable room (.object (d.signed chain exclude))) : Unwritable room (.object d) :=
  stuck.imp signed_inside fun deep => Nat.lt_of_lt_of_le deep (depth_signed_le chain d exclude)

end Signed

end Document

end LinkedProof
