import LinkedProof.Proofs.Did.Address
import LinkedProof.Proofs.Did.Entries

/-! Reading a value as the document of a DID. It ends with a document or with a refusal of its own,
the document holds what it says it holds whatever shape the value has, and ids that are given by
their fragments are read as if they had been spelled out. -/
namespace LinkedProof.Did

def IsUnresolved (failure : Failure) : Prop :=
  ∃ cause, failure = .proof cause ∧ cause.family = .didResolution

theorem isUnresolved_did (fault : DidFault) : IsUnresolved (.proof (.did fault)) := ⟨_, rfl, rfl⟩

def IsAbsolute (id : Text) : Prop := ∃ c rest, id = c :: rest ∧ c ≠ '#'

/-- A DID with an address is no fragment. -/
theorem IsAbsolute.of_url {did u : Text} (accepted : Web.url did = .ok u) : IsAbsolute did := by
  obtain ⟨name, segments, names⟩ := Web.names_of_url accepted
  obtain ⟨fragment, rfl, _⟩ := names.spelled
  exact ⟨_, _, rfl, by decide⟩

theorem IsAbsolute.append {did : Text} (absolute : IsAbsolute did) (t : Text) :
    IsAbsolute (did ++ t) := by
  obtain ⟨c, rest, rfl, other⟩ := absolute
  exact ⟨c, rest ++ t, rfl, other⟩

theorem IsAbsolute.ne_nil {id : Text} (absolute : IsAbsolute id) : id ≠ [] := by
  obtain ⟨_, _, rfl, _⟩ := absolute
  exact List.cons_ne_nil _ _

theorem IsAbsolute.of_absoluteId {did id : Text} {item : Json} (absolute : IsAbsolute did)
    (known : absoluteId did item = some id) : IsAbsolute id := by
  cases item with
  | text t =>
    cases t with
    | nil => cases known
    | cons c rest =>
      obtain rfl := Option.some.inj known
      by_cases mark : c = '#'
      · rw [if_pos mark]
        exact absolute.append _
      · rw [if_neg mark]
        exact ⟨c, rest, rfl, mark⟩
  | _ => cases known

theorem IsAbsolute.of_entryId {did id : Text} {item : Json} (absolute : IsAbsolute did)
    (known : entryId did item = some id) : IsAbsolute id := by
  cases item with
  | object entry => exact absolute.of_absoluteId known
  | text t => exact absolute.of_absoluteId ((entryId_text did t).symm.trans known)
  | _ => cases known

/-- A step that fails with nothing but refusals of the resolution. -/
def Resolving {α : Type} (o : Outcome α) : Prop :=
  ∀ failure, o = .error failure → IsUnresolved failure

namespace Resolving

variable {α β : Type}

theorem ok (value : α) : Resolving (.ok value : Outcome α) := nofun

theorem refused (fault : DidFault) : Resolving (.error (.proof (.did fault)) : Outcome α) := by
  rintro failure ⟨⟩
  exact isUnresolved_did fault

theorem bind {o : Outcome α} {f : α → Outcome β} (first : Resolving o)
    (next : ∀ value, Resolving (f value)) : Resolving (o >>= f) := by
  intro failure stopped
  rcases Outcome.bind_error.mp stopped with stopped | ⟨value, _, stopped⟩
  · exact first failure stopped
  · exact next value failure stopped

theorem guard {c : Prop} [Decidable c] (fault : DidFault) {next : Outcome α}
    (resolving : Resolving next) :
    Resolving (if c then (throw (.proof (.did fault)) : Outcome PUnit) >>= fun _ => next
      else next) := by
  split
  · exact .refused _
  · exact resolving

end Resolving

namespace Document

section Refusals

variable (d : Document) (data entry : Members)

theorem readId_resolving (item : Json) : Resolving (d.readId item) := by
  cases item with
  | text t =>
    cases t with
    | nil => exact .refused _
    | cons c rest => exact .ok _
  | _ => exact .refused _

theorem readMethod_resolving : Resolving (d.readMethod entry) :=
  (readId_resolving d _).bind fun _ => .ok _

theorem readMethods_resolving (items : List Json) : Resolving (d.readMethods items) := by
  induction items generalizing d with
  | nil => exact .ok _
  | cons item rest ih =>
    cases item with
    | object entry => exact (readMethod_resolving d entry).bind fun m => ih (d.register m)
    | _ => exact .refused _

theorem readReferences_resolving (relationship : Text) (items : List Json) :
    Resolving (readReferences relationship d items) := by
  induction items generalizing d with
  | nil => exact .ok _
  | cons item rest ih =>
    cases item with
    | text t => exact (readId_resolving d _).bind fun _ => (ih d).bind fun _ => .ok _
    | object entry =>
      exact (readMethod_resolving d entry).bind fun m => (ih (d.register m)).bind fun _ => .ok _
    | _ => exact .refused _

theorem entries_resolving (id name : Text) : Resolving (entries id data name) := by
  rw [entries]
  split
  · exact .ok _
  · exact .refused _

theorem readRelationships_resolving (names : List Text) :
    Resolving (readRelationships data d names) := by
  induction names generalizing d with
  | nil => exact .ok _
  | cons name rest ih =>
    exact (entries_resolving data d.id name).bind fun _ =>
      (readReferences_resolving d name _).bind fun _ => ih _

theorem ofValue_resolving (did : Text) (value : Json) : Resolving (ofValue did value) := by
  cases value with
  | object data =>
    refine .guard _ ?_
    exact (entries_resolving data did _).bind fun _ =>
      (readMethods_resolving _ _).bind fun _ => readRelationships_resolving _ data _
  | _ => exact .refused _

end Refusals

section Registered

structure Registered (d : Document) : Prop where
  keys : (d.methods.map Prod.fst).Nodup
  own : ∀ p ∈ d.methods, p.2.id = p.1
  absolute : ∀ p ∈ d.methods, IsAbsolute p.1

private theorem mem_store {m : VerificationMethod} {methods : List (Text × VerificationMethod)}
    {p : Text × VerificationMethod} (member : p ∈ store m methods) :
    p = (m.id, m) ∨ p ∈ methods := by
  induction methods with
  | nil => exact .inl (List.mem_singleton.mp member)
  | cons first rest ih =>
    rw [store] at member
    split at member
    · rename_i same
      rcases List.mem_cons.mp member with rfl | later
      · exact .inl (by rw [same])
      · exact .inr (List.mem_cons_of_mem _ later)
    · rcases List.mem_cons.mp member with rfl | later
      · exact .inr List.mem_cons_self
      · exact (ih later).imp_right (List.mem_cons_of_mem _)

private theorem keys_store {m : VerificationMethod} {methods : List (Text × VerificationMethod)}
    (keys : (methods.map Prod.fst).Nodup) : ((store m methods).map Prod.fst).Nodup := by
  induction methods with
  | nil => simp [store]
  | cons first rest ih =>
    obtain ⟨fresh, keys⟩ := List.nodup_cons.mp keys
    rw [store]
    split
    · exact List.nodup_cons.mpr ⟨fresh, keys⟩
    · rename_i other
      refine List.nodup_cons.mpr ⟨fun member => ?_, ih keys⟩
      obtain ⟨p, stored, same⟩ := List.mem_map.mp member
      rcases mem_store stored with rfl | stays
      · exact other same.symm
      · exact fresh (List.mem_map.mpr ⟨p, stays, same⟩)

variable {d : Document} {items : List Json}

theorem Registered.put (registered : d.Registered) (absolute : IsAbsolute d.id) {item : Json}
    {id : Text} (known : entryId d.id item = some id) : (d.put item).Registered := by
  cases item with
  | object entry =>
    have named : (methodOf d.id entry).id = id := methodOf_id known
    refine ⟨keys_store registered.keys, fun p member => ?_, fun p member => ?_⟩
    · rcases mem_store member with rfl | stays
      · rfl
      · exact registered.own p stays
    · rcases mem_store member with rfl | stays
      · rw [named]
        exact absolute.of_entryId known
      · exact registered.absolute p stays
  | _ => exact registered

theorem Registered.puts (registered : d.Registered) (absolute : IsAbsolute d.id)
    (known : ∀ item ∈ items, ∃ id, entryId d.id item = some id) :
    (items.foldl Document.put d).Registered := by
  induction items generalizing d with
  | nil => exact registered
  | cons item rest ih =>
    obtain ⟨⟨id, first⟩, others⟩ := List.forall_mem_cons.mp known
    refine ih (registered.put absolute first) ?_ ?_
    · rwa [put_id]
    · rwa [put_id]

end Registered

/-- What the document of a DID holds: the ids under each relationship, the methods under their ids,
and nothing under an id that would mean another one elsewhere. -/
structure Sound (did : Text) (data : Members) (d : Document) : Prop where
  own : d.id = did
  listed : d.relationships = relationshipNames.map
    fun name => (name, (entriesOf data name).filterMap (entryId did))
  references : ∀ p ∈ d.relationships, ∀ id ∈ p.2, IsAbsolute id
  registered : d.Registered
  embedded : ∀ name ∈ relationshipNames, ∀ entry, .object entry ∈ entriesOf data name →
    ∃ id last, entryId did (.object entry) = some id ∧ d.authorizes id name = true ∧
      entry ∈ stated did id data ∧ (stated did id data).getLast? = some last ∧
      d.method? id = some (methodOf did last)
  fragments : ∀ keyId relationship : Text, keyId.head? = some '#' →
    d.method? keyId = d.method? (did ++ keyId) ∧
      d.authorizes keyId relationship = d.authorizes (did ++ keyId) relationship

section Soundness

variable {did id : Text} {data : Members} {d : Document}

theorem absolute_of_isAbsolute (absolute : IsAbsolute id) : d.absolute id = id := by
  obtain ⟨c, rest, rfl, other⟩ := absolute
  exact if_neg fun same => other (Option.some.inj same)

private theorem registered_ofEntries (absolute : IsAbsolute did) (formed : WellFormed did data) :
    (ofEntries did data).Registered := by
  have none : Registered ⟨did, [], []⟩ := ⟨List.nodup_nil, nofun, nofun⟩
  have known : ∀ item ∈ memberNames.flatMap (entriesOf data),
      ∃ id, entryId did item = some id := by
    intro item member
    obtain ⟨name, listed, inside⟩ := List.mem_flatMap.mp member
    exact formed.ids name listed item inside
  obtain ⟨keys, own, absolute⟩ := none.puts absolute known
  rw [← ofEntries_methods] at keys own absolute
  exact ⟨keys, own, absolute⟩

private theorem embedded_ofEntries {name : Text} {entry : Members} (absolute : IsAbsolute id)
    (known : entryId did (.object entry) = some id) (relationship : name ∈ relationshipNames)
    (member : .object entry ∈ entriesOf data name) :
    (ofEntries did data).authorizes id name = true ∧ entry ∈ stated did id data ∧
      ∃ last, (stated did id data).getLast? = some last ∧
        (ofEntries did data).method? id = some (methodOf did last) := by
  have stays := absolute_of_isAbsolute (d := ofEntries did data) absolute
  have found : .object entry ∈ about did id data name := by simp [about, member, known]
  have states : entry ∈ stated did id data := by
    refine List.mem_filterMap.mpr ⟨.object entry, List.mem_flatMap.mpr ⟨name, ?_, found⟩, rfl⟩
    exact List.mem_cons_of_mem _ relationship
  refine ⟨(authorizes_ofEntries stays).mpr ⟨relationship, _, found⟩, states, ?_⟩
  obtain ⟨last, final⟩ := Option.isSome_iff_exists.mp
    (List.getLast?_isSome.mpr (List.ne_nil_of_mem states))
  refine ⟨last, final, ?_⟩
  rw [method?_ofEntries absolute.ne_nil stays, final, Option.map_some]

private theorem fragments_ofEntries (absolute : IsAbsolute did) {keyId : Text}
    (marked : keyId.head? = some '#') (relationship : Text) :
    (ofEntries did data).method? keyId = (ofEntries did data).method? (did ++ keyId) ∧
      (ofEntries did data).authorizes keyId relationship =
        (ofEntries did data).authorizes (did ++ keyId) relationship := by
  have stays := absolute_of_isAbsolute (d := ofEntries did data) (absolute.append keyId)
  have spelled : (ofEntries did data).absolute keyId = did ++ keyId := by
    rw [Document.absolute, if_pos marked, ofEntries_id]
  constructor
  · rw [method?, method?, stays, spelled]
  · rw [authorizes, authorizes, stays, spelled]

theorem sound_ofEntries (absolute : IsAbsolute did) (formed : WellFormed did data) :
    Sound did data (ofEntries did data) where
  own := ofEntries_id did data
  listed := ofEntries_relationships did data
  references p member id inside := by
    rw [ofEntries_relationships] at member
    obtain ⟨name, _, rfl⟩ := List.mem_map.mp member
    obtain ⟨item, _, known⟩ := List.mem_filterMap.mp inside
    exact absolute.of_entryId known
  registered := registered_ofEntries absolute formed
  embedded name relationship entry member := by
    obtain ⟨id, known⟩ := formed.ids name (List.mem_cons_of_mem _ relationship) _ member
    obtain ⟨authorized, states, last, final, found⟩ :=
      embedded_ofEntries (absolute.of_entryId known) known relationship member
    exact ⟨id, last, known, authorized, states, final, found⟩
  fragments _ relationship marked := fragments_ofEntries absolute marked relationship

end Soundness

end Document

/-- An entry, and the same one with an id that is given by its fragment spelled out. -/
inductive Spelled (did : Text) : Json → Json → Prop
  | kept (item : Json) : Spelled did item item
  | reference {id : Text} (relative : id.head? = some '#') :
    Spelled did (.text id) (.text (did ++ id))
  | method {entry entry' : Members} {id : Text} (relative : id.head? = some '#')
    (given : entry.get? "id" = some (.text id))
    (whole : entry'.get? "id" = some (.text (did ++ id)))
    (others : ∀ name ≠ Text.ofString "id", entry'.get? name = entry.get? name) :
    Spelled did (.object entry) (.object entry')

/-- Members, and the same ones with some of the relative ids and references spelled out. -/
structure Respelled (did : Text) (data data' : Members) : Prop where
  others : ∀ name ∉ memberNames, data'.get? name = data.get? name
  members : ∀ name ∈ memberNames, data'.get? name = data.get? name ∨ ∃ items items',
    data.get? name = some (.array items) ∧ data'.get? name = some (.array items') ∧
      List.Forall₂ (Spelled did) items items'

namespace Document

section Spelling

variable {d : Document} {did : Text} {items items' : List Json} {data data' entry entry' : Members}

private theorem readId_filled {t : Text} (filled : t ≠ []) :
    d.readId (.text t) = .ok (d.absolute t) := by
  cases t with
  | nil => exact absurd rfl filled
  | cons c rest => rfl

/-- A relative id is read as the absolute one that it stands for. -/
private theorem readId_relative (absolute : IsAbsolute d.id) {id : Text}
    (relative : id.head? = some '#') : d.readId (.text (d.id ++ id)) = d.readId (.text id) := by
  have whole := absolute.append id
  have filled : id ≠ [] := by
    rintro rfl
    cases relative
  rw [readId_filled whole.ne_nil, readId_filled filled, absolute_of_isAbsolute whole,
    Document.absolute, if_pos relative]

private theorem readMethod_spelled (absolute : IsAbsolute d.id) {id : Text}
    (relative : id.head? = some '#') (given : entry.get? "id" = some (.text id))
    (whole : entry'.get? "id" = some (.text (d.id ++ id)))
    (others : ∀ name ≠ Text.ofString "id", entry'.get? name = entry.get? name) :
    d.readMethod entry' = d.readMethod entry := by
  have named : d.readId (entry'.get "id") = d.readId (entry.get "id") := by
    rw [Members.get, Members.get, given, whole]
    exact readId_relative absolute relative
  have same {name : Text} (other : name ≠ Text.ofString "id") :
      entry'.get name = entry.get name := by
    rw [Members.get, Members.get, others name other]
  rw [readMethod, readMethod, named, same (by decide), same (by decide), same (by decide)]

variable (absolute : IsAbsolute did) (own : d.id = did)
include absolute own

private theorem readMethods_spelled (spelled : List.Forall₂ (Spelled did) items items') :
    d.readMethods items' = d.readMethods items := by
  induction spelled generalizing d with
  | nil => rfl
  | @cons item _ _ _ first _ ih =>
    -- Whatever method comes first, the others are read with it registered.
    have later (m : VerificationMethod) := ih (d := d.register m) own
    cases first with
    | kept =>
      cases item with
      | object entry => simp only [readMethods, later]
      | _ => rfl
    | reference _ => rfl
    | method relative given whole others =>
      subst own
      simp only [readMethods, readMethod_spelled absolute relative given whole others, later]

private theorem readReferences_spelled (relationship : Text)
    (spelled : List.Forall₂ (Spelled did) items items') :
    readReferences relationship d items' = readReferences relationship d items := by
  induction spelled generalizing d with
  | nil => rfl
  | @cons item _ _ _ first _ ih =>
    have later (m : VerificationMethod) := ih (d := d.register m) own
    cases first with
    | kept =>
      cases item with
      | object entry => simp only [readReferences, later]
      | text id => simp only [readReferences, ih own]
      | _ => rfl
    | reference relative =>
      subst own
      simp only [readReferences, readId_relative absolute relative, ih rfl]
    | method relative given whole others =>
      subst own
      simp only [readReferences, readMethod_spelled absolute relative given whole others, later]

omit absolute own in
/-- What is done with the entries of a member may depend on what they stand for only. -/
private theorem entries_spelled {α : Type} {f f' : List Json → Outcome α} {id name : Text}
    (respelled : Respelled did data data') (counted : name ∈ memberNames)
    (same : ∀ items items', List.Forall₂ (Spelled did) items items' → f' items' = f items) :
    (entries id data' name >>= f') = (entries id data name >>= f) := by
  rcases respelled.members name counted with kept | ⟨items, items', given, given', spelled⟩
  · have unchanged : entries id data' name = entries id data name := by
      rw [entries, entries, kept]
    rw [unchanged]
    cases entries id data name with
    | error failure => rfl
    | ok items => exact same items items (List.forall₂_same.mpr fun item _ => .kept item)
  · have first : entries id data name = .ok items := by rw [entries, given]; rfl
    have second : entries id data' name = .ok items' := by rw [entries, given']; rfl
    rw [first, second]
    exact same items items' spelled

private theorem readRelationships_spelled {names : List Text} (counted : names ⊆ memberNames)
    (respelled : Respelled did data data') :
    readRelationships data' d names = readRelationships data d names := by
  induction names generalizing d with
  | nil => rfl
  | cons name rest ih =>
    obtain ⟨first, others⟩ := List.cons_subset.mp counted
    refine entries_spelled respelled first fun items items' spelled => ?_
    rw [readReferences_spelled absolute own name spelled]
    cases read : readReferences name d items with
    | error failure => rfl
    | ok found =>
      obtain ⟨d', ids⟩ := found
      obtain ⟨_, rfl, _⟩ := readReferences_ok.mp read
      exact ih ((puts_id d items).trans own) others

omit own in
/-- Spelling ids out makes no difference to what a value is read as, nor to why it is refused. -/
private theorem ofValue_respelled (respelled : Respelled did data data') :
    ofValue did (.object data') = ofValue did (.object data) := by
  have named : Members.get? "id" data' = data.get? "id" := respelled.others _ (by decide)
  simp only [ofValue, named]
  split
  · rfl
  · refine entries_spelled respelled List.mem_cons_self fun items items' spelled => ?_
    rw [readMethods_spelled absolute rfl spelled]
    cases read : readMethods ⟨did, [], []⟩ items with
    | error failure => rfl
    | ok d =>
      obtain ⟨_, rfl⟩ := readMethods_ok.mp read
      exact readRelationships_spelled absolute (puts_id _ items) (List.subset_cons_self _ _)
        respelled

end Spelling

/-- Reading a value as the document of a DID with an address: it gives a document that holds what it
should, or is refused, and it makes no difference whether ids are given by their fragments. -/
theorem ofValue_settled {did u : Text} (accepted : Web.url did = .ok u) :
    (∀ value, (∃ data d, value = .object data ∧ ofValue did value = .ok d ∧ Sound did data d) ∨
      ∃ failure, ofValue did value = .error failure ∧ IsUnresolved failure) ∧
    ∀ data data', Respelled did data data' →
      ofValue did (.object data') = ofValue did (.object data) := by
  have absolute := IsAbsolute.of_url accepted
  refine ⟨fun value => ?_, fun data data' respelled => ofValue_respelled absolute respelled⟩
  cases read : ofValue did value with
  | error failure => exact .inr ⟨failure, rfl, ofValue_resolving did value failure read⟩
  | ok d =>
    cases value with
    | object data =>
      obtain ⟨formed, rfl⟩ := ofValue_ok.mp read
      exact .inl ⟨data, _, rfl, rfl, sound_ofEntries absolute formed⟩
    | _ => cases read

def briefly (reference : Text) : Members :=
  [("id", .text "did:web:a"), ("authentication", .array [.text reference]),
    ("assertionMethod", .array [.object [("id", .text "#k"), ("type", .text "T")]])]

theorem ofValue_settled_brief : Web.url "did:web:a" = .ok "https://a/.well-known/did.json" ∧
    Respelled "did:web:a" (briefly "#k") (briefly "did:web:a#k") ∧
    ∃ d, ofValue "did:web:a" (.object (briefly "#k")) = .ok d ∧
      ofValue "did:web:a" (.object (briefly "did:web:a#k")) = .ok d ∧
      Sound "did:web:a" (briefly "#k") d := by
  have accepted : Web.url "did:web:a" = .ok "https://a/.well-known/did.json" := by rfl
  have apart {name : Text} (other : name ≠ Text.ofString "authentication") :
      (briefly "did:web:a#k").get? name = (briefly "#k").get? name := by
    simp only [briefly, Members.get?, Ne.symm other, if_false]
  have spelled : Spelled "did:web:a" (.text "#k") (.text "did:web:a#k") := .reference rfl
  have respelled : Respelled "did:web:a" (briefly "#k") (briefly "did:web:a#k") := by
    refine ⟨fun name out => apart ?_, fun name _ => ?_⟩
    · rintro rfl
      exact out (by decide)
    · by_cases referring : name = Text.ofString "authentication"
      · subst referring
        exact .inr ⟨_, _, rfl, rfl, .cons spelled .nil⟩
      · exact .inl (apart referring)
  obtain ⟨settled, same⟩ := ofValue_settled accepted
  refine ⟨accepted, respelled, ?_⟩
  rcases settled (.object (briefly "#k")) with ⟨data, d, ⟨⟩, read, sound⟩ | ⟨failure, stopped, _⟩
  · exact ⟨d, read, (same _ _ respelled).trans read, sound⟩
  · cases stopped

end Document

end LinkedProof.Did
