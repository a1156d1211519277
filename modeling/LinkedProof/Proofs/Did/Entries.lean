import LinkedProof.Did.Document
import LinkedProof.Proofs.Action
import LinkedProof.Proofs.Json.Members

/-! What a DID document states, entry by entry. A value is read as the document of a DID exactly
when it names this DID and each of its entries has an id, and what was read last under an id is what
the document says about it. -/
namespace LinkedProof.Did

/-- The id that a value stands for in the document of a DID; a fragment belongs to the document. -/
def absoluteId (did : Text) : Json → Option Text
  | .text (c :: rest) => some (if c = '#' then did ++ c :: rest else c :: rest)
  | _ => none

/-- The id that an entry is about: a reference by itself, a method by its member. -/
def entryId (did : Text) : Json → Option Text
  | .object entry => absoluteId did (Members.get "id" entry)
  | reference => absoluteId did reference

theorem entryId_object (did : Text) (entry : Members) :
    entryId did (.object entry) = absoluteId did (entry.get "id") := rfl

theorem entryId_text (did t : Text) : entryId did (.text t) = absoluteId did (.text t) := rfl

def methodsName : Text := "verificationMethod"

def memberNames : List Text := methodsName :: Document.relationshipNames

def entriesOf (data : Members) (name : Text) : List Json :=
  (((data.get? name).getD (.array [])).array?).getD []

def about (did id : Text) (data : Members) (name : Text) : List Json :=
  (entriesOf data name).filter fun item => entryId did item = some id

/-- The methods that are stated under an id, in the list of methods or embedded under a
relationship. -/
def stated (did id : Text) (data : Members) : List Members :=
  (memberNames.flatMap (about did id data)).filterMap Json.object?

/-- What the document of a DID has to be: it names the DID, and its members are arrays of entries
with ids, the list of methods one of objects. -/
structure WellFormed (did : Text) (data : Members) : Prop where
  named : (data.get? "id").getD (.text []) = .text did
  arrays : ∀ name ∈ memberNames, ∃ items, (data.get? name).getD (.array []) = .array items
  methods : ∀ item ∈ entriesOf data methodsName, ∃ entry, item = .object entry
  ids : ∀ name ∈ memberNames, ∀ item ∈ entriesOf data name, ∃ id, entryId did item = some id

theorem WellFormed.own {did : Text} {data : Members} (formed : WellFormed did data)
    (filled : did ≠ []) : data.get? "id" = some (.text did) := by
  have named := formed.named
  cases found : data.get? "id" with
  | none =>
    rw [found] at named
    exact absurd (Json.text.inj named).symm filled
  | some v =>
    rw [found] at named
    exact congrArg some named

def methodOf (did : Text) (entry : Members) : VerificationMethod where
  id := (absoluteId did (entry.get "id")).getD []
  type := ((entry.get "type").text?).getD []
  controller := ((entry.get "controller").text?).getD did
  key := ((entry.get "publicKeyJwk").object?).map Jwk.ofMembers

theorem methodOf_id {did id : Text} {entry : Members}
    (known : absoluteId did (entry.get "id") = some id) : (methodOf did entry).id = id := by
  rw [methodOf, known, Option.getD_some]

theorem entryId_of_methodOf {did id : Text} {entry : Members} (filled : id ≠ [])
    (same : (methodOf did entry).id = id) : entryId did (.object entry) = some id := by
  rw [entryId_object]
  cases known : absoluteId did (entry.get "id") with
  | none =>
    rw [methodOf, known] at same
    exact absurd same.symm filled
  | some other => rw [← same, methodOf_id known]

namespace Document

variable {d d' : Document} {item : Json} {items : List Json} {id did keyId : Text} {ids : List Text}
  {entry data : Members} {m : VerificationMethod}

section Reading

theorem readId_ok : d.readId item = .ok id ↔ absoluteId d.id item = some id := by
  cases item with
  | text t => cases t <;> simp [readId, absolute, absoluteId]
  | _ => simp [readId, absoluteId]

theorem readMethod_ok : d.readMethod entry = .ok m ↔
    (∃ id, absoluteId d.id (entry.get "id") = some id) ∧ m = methodOf d.id entry := by
  simp only [readMethod, Outcome.bind_ok, Outcome.pure_ok, readId_ok]
  constructor
  · rintro ⟨id, found, rfl⟩
    exact ⟨⟨id, found⟩, by rw [methodOf, found, Option.getD_some]⟩
  · rintro ⟨⟨id, found⟩, rfl⟩
    exact ⟨id, found, by rw [methodOf, found, Option.getD_some]⟩

def put (d : Document) : Json → Document
  | .object entry => d.register (methodOf d.id entry)
  | _ => d

@[simp] theorem put_id (d : Document) (item : Json) : (d.put item).id = d.id := by
  cases item <;> rfl

@[simp] theorem put_relationships (d : Document) (item : Json) :
    (d.put item).relationships = d.relationships := by
  cases item <;> rfl

@[simp] theorem puts_id (d : Document) (items : List Json) : (items.foldl put d).id = d.id := by
  induction items generalizing d with
  | nil => rfl
  | cons item rest ih => rw [List.foldl_cons, ih, put_id]

@[simp] theorem puts_relationships (d : Document) (items : List Json) :
    (items.foldl put d).relationships = d.relationships := by
  induction items generalizing d with
  | nil => rfl
  | cons item rest ih => rw [List.foldl_cons, ih, put_relationships]

theorem readMethods_ok : d.readMethods items = .ok d' ↔
    (∀ item ∈ items, (∃ entry, item = .object entry) ∧ ∃ id, entryId d.id item = some id) ∧
      d' = items.foldl put d := by
  induction items generalizing d with
  | nil => simp [readMethods, eq_comm]
  | cons item rest ih =>
    cases item with
    | object entry =>
      simp only [readMethods, Outcome.bind_ok, readMethod_ok, ih, List.mem_cons, forall_eq_or_imp,
        List.foldl_cons, entryId_object]
      constructor
      · rintro ⟨_, ⟨known, rfl⟩, others, rfl⟩
        exact ⟨⟨⟨⟨entry, rfl⟩, known⟩, others⟩, rfl⟩
      · rintro ⟨⟨⟨_, known⟩, others⟩, rfl⟩
        exact ⟨_, ⟨known, rfl⟩, others, rfl⟩
    | _ =>
      refine iff_of_false ?_ ?_
      · intro read
        cases read
      · intro both
        obtain ⟨⟨_, other⟩, _⟩ := both.1 _ List.mem_cons_self
        cases other

theorem readReferences_ok {relationship : Text} :
    readReferences relationship d items = .ok (d', ids) ↔
      (∀ item ∈ items, ∃ id, entryId d.id item = some id) ∧ d' = items.foldl put d ∧
        ids = items.filterMap (entryId d.id) := by
  induction items generalizing d d' ids with
  | nil => simp [readReferences, eq_comm]
  | cons item rest ih =>
    cases item with
    | text t =>
      simp only [readReferences, Outcome.bind_ok, Outcome.pure_ok, readId_ok, Prod.exists, ih,
        List.mem_cons, forall_eq_or_imp, List.foldl_cons, List.filterMap_cons, Prod.mk.injEq,
        entryId_text]
      constructor
      · rintro ⟨id, known, _, _, ⟨others, rfl, rfl⟩, rfl, rfl⟩
        exact ⟨⟨⟨id, known⟩, others⟩, rfl, by rw [known]⟩
      · rintro ⟨⟨⟨id, known⟩, others⟩, rfl, rfl⟩
        exact ⟨id, known, _, _, ⟨others, rfl, rfl⟩, rfl, by rw [known]⟩
    | object entry =>
      simp only [readReferences, Outcome.bind_ok, Outcome.pure_ok, readMethod_ok, Prod.exists, ih,
        List.mem_cons, forall_eq_or_imp, List.foldl_cons, List.filterMap_cons, Prod.mk.injEq,
        entryId_object]
      constructor
      · rintro ⟨_, ⟨⟨id, known⟩, rfl⟩, _, _, ⟨others, rfl, rfl⟩, rfl, rfl⟩
        exact ⟨⟨⟨id, known⟩, others⟩, rfl, by rw [known, methodOf_id known]; rfl⟩
      · rintro ⟨⟨⟨id, known⟩, others⟩, rfl, rfl⟩
        exact ⟨_, ⟨⟨id, known⟩, rfl⟩, _, _, ⟨others, rfl, rfl⟩, rfl,
          by rw [known, methodOf_id known]; rfl⟩
    | _ =>
      refine iff_of_false ?_ ?_
      · intro read
        cases read
      · intro both
        obtain ⟨_, other⟩ := both.1 _ List.mem_cons_self
        cases other

theorem entriesOf_array {name : Text}
    (stands : (data.get? name).getD (.array []) = .array items) : entriesOf data name = items := by
  rw [entriesOf, stands]
  rfl

theorem entries_ok {name : Text} : entries did data name = .ok items ↔
    (data.get? name).getD (.array []) = .array items := by
  unfold entries
  split
  · rename_i found stands
    rw [stands, Except.ok.injEq, Json.array.injEq]
  · rename_i other
    exact iff_of_false nofun (other items)

def withRelationships (data : Members) (d : Document) (names : List Text) : Document :=
  { (names.flatMap (entriesOf data)).foldl put d with
    relationships := d.relationships ++
      names.map fun name => (name, (entriesOf data name).filterMap (entryId d.id)) }

/-- Methods are registered whatever the relationships are. -/
private theorem puts_methods {e : Document} (items : List Json) (id : d.id = e.id)
    (methods : d.methods = e.methods) :
    (items.foldl put d).methods = (items.foldl put e).methods := by
  induction items generalizing d e with
  | nil => exact methods
  | cons item rest ih =>
    refine ih (by rw [put_id, put_id, id]) ?_
    cases item with
    | object entry => rw [put, put, register, register, methods, id]
    | _ => exact methods

private theorem withRelationships_cons (d : Document) (name : Text) (rest : List Text) :
    withRelationships data { (entriesOf data name).foldl put d with
      relationships := ((entriesOf data name).foldl put d).relationships ++
        [(name, (entriesOf data name).filterMap (entryId d.id))] } rest =
      withRelationships data d (name :: rest) := by
  simp only [withRelationships, puts_id, puts_relationships, List.flatMap_cons,
    List.foldl_append, List.map_cons, List.append_assoc, List.cons_append, List.nil_append,
    Document.mk.injEq, true_and, and_true]
  exact puts_methods _ (puts_id d _).symm rfl

theorem readRelationships_ok {names : List Text} :
    readRelationships data d names = .ok d' ↔
      (∀ name ∈ names, (∃ items, (data.get? name).getD (.array []) = .array items) ∧
        ∀ item ∈ entriesOf data name, ∃ id, entryId d.id item = some id) ∧
      d' = withRelationships data d names := by
  induction names generalizing d with
  | nil => simp [readRelationships, withRelationships, eq_comm]
  | cons name rest ih =>
    simp only [readRelationships, Outcome.bind_ok, entries_ok, Prod.exists, readReferences_ok, ih,
      List.mem_cons, forall_eq_or_imp]
    constructor
    · rintro ⟨items, stands, _, _, ⟨known, rfl, rfl⟩, others, rfl⟩
      obtain rfl := entriesOf_array stands
      simp only [puts_id] at others
      exact ⟨⟨⟨⟨_, stands⟩, known⟩, others⟩, withRelationships_cons d name rest⟩
    · rintro ⟨⟨⟨⟨items, stands⟩, known⟩, others⟩, rfl⟩
      obtain rfl := entriesOf_array stands
      refine ⟨_, stands, _, _, ⟨known, rfl, rfl⟩, ?_, (withRelationships_cons d name rest).symm⟩
      simpa only [puts_id] using others

def ofEntries (did : Text) (data : Members) : Document :=
  withRelationships data ((entriesOf data methodsName).foldl put ⟨did, [], []⟩) relationshipNames

@[simp] theorem ofEntries_id (did : Text) (data : Members) : (ofEntries did data).id = did := by
  simp only [ofEntries, withRelationships, puts_id]

/-- The methods of all members are registered together, in the order of the members. -/
theorem ofEntries_methods (did : Text) (data : Members) : (ofEntries did data).methods =
    ((memberNames.flatMap (entriesOf data)).foldl put ⟨did, [], []⟩).methods := by
  rw [memberNames, List.flatMap_cons, List.foldl_append]
  rfl

theorem ofEntries_relationships (did : Text) (data : Members) :
    (ofEntries did data).relationships = relationshipNames.map
      fun name => (name, (entriesOf data name).filterMap (entryId did)) := by
  simp only [ofEntries, withRelationships, puts_relationships, puts_id, List.nil_append]

/-- A value is the document of a DID exactly when it is a well-formed object. -/
theorem ofValue_ok : ofValue did (.object data) = .ok d ↔
    WellFormed did data ∧ d = ofEntries did data := by
  simp only [ofValue, Outcome.guard_ok, Bool.not_eq_true', Bool.not_eq_false, Json.isText_iff,
    Outcome.bind_ok, entries_ok, readMethods_ok, readRelationships_ok]
  constructor
  · rintro ⟨named, items, stands, _, ⟨methods, rfl⟩, others, rfl⟩
    obtain rfl := entriesOf_array stands
    simp only [puts_id] at others
    refine ⟨⟨named, ?_, fun item member => (methods item member).1, ?_⟩, rfl⟩
    · rintro name (_ | ⟨_, member⟩)
      · exact ⟨_, stands⟩
      · exact (others name member).1
    · rintro name (_ | ⟨_, member⟩)
      · exact fun item inside => (methods item inside).2
      · exact (others name member).2
  · rintro ⟨formed, rfl⟩
    obtain ⟨items, stands⟩ := formed.arrays methodsName List.mem_cons_self
    obtain rfl := entriesOf_array stands
    refine ⟨formed.named, _, stands, _, ⟨fun item member => ?_, rfl⟩, fun name member => ?_, rfl⟩
    · exact ⟨formed.methods item member, formed.ids methodsName List.mem_cons_self item member⟩
    · have listed : name ∈ memberNames := List.mem_cons_of_mem _ member
      simp only [puts_id]
      exact ⟨formed.arrays name listed, formed.ids name listed⟩

end Reading

section Lookups

/-- Of the methods with one id the last one counts. -/
private theorem find?_store (m : VerificationMethod) (methods : List (Text × VerificationMethod))
    (id : Text) : (store m methods).find? (·.1 = id) =
      if m.id = id then some (id, m) else methods.find? (·.1 = id) := by
  induction methods with
  | nil =>
    by_cases own : m.id = id
    · simp [store, own]
    · simp [store, own]
  | cons stored rest ih =>
    obtain ⟨k, other⟩ := stored
    by_cases same : k = m.id
    · by_cases own : m.id = id
      · simp [store, same, own]
      · simp [store, same, own]
    · by_cases here : k = id
      · subst here
        simp [store, same, Ne.symm same]
      · simp only [store, same, if_false, List.find?_cons, here, decide_false]
        exact ih

/-- What was put last under an id is found under it, in front of what was there. -/
private theorem find?_puts (items : List Json) (filled : id ≠ []) :
    (items.foldl put d).methods.find? (·.1 = id) =
      (((items.filter fun item => entryId d.id item = some id).filterMap Json.object?).getLast?.map
        fun entry => (id, methodOf d.id entry)).or (d.methods.find? (·.1 = id)) := by
  induction items generalizing d with
  | nil => rfl
  | cons item rest ih =>
    rw [List.foldl_cons, ih, put_id]
    by_cases own : entryId d.id item = some id
    · rw [List.filter_cons_of_pos (by simpa using own)]
      cases item with
      | object entry =>
        have kept : (put d (.object entry)).methods = store (methodOf d.id entry) d.methods := rfl
        have found (entries : List Json) : (Json.object entry :: entries).filterMap Json.object? =
            entry :: entries.filterMap Json.object? := rfl
        rw [kept, find?_store, if_pos (methodOf_id own), found, List.getLast?_cons]
        cases ((rest.filter fun item => entryId d.id item = some id).filterMap
          Json.object?).getLast? <;> rfl
      | _ => rfl
    · rw [List.filter_cons_of_neg (by simpa using own)]
      cases item with
      | object entry =>
        have kept : (put d (.object entry)).methods = store (methodOf d.id entry) d.methods := rfl
        rw [kept, find?_store, if_neg fun same => own (entryId_of_methodOf filled same)]
      | _ => rfl

/-- The method of a document under an id is the one that it states last. -/
theorem method?_ofEntries (filled : id ≠ []) (absolute : (ofEntries did data).absolute keyId = id) :
    (ofEntries did data).method? keyId =
      (stated did id data).getLast?.map (methodOf did) := by
  have sorted : (memberNames.flatMap (entriesOf data)).filter
      (fun item => entryId did item = some id) = memberNames.flatMap (about did id data) := by
    rw [List.filter_flatMap]
    rfl
  rw [method?, absolute, ofEntries_methods, find?_puts _ filled, sorted, stated]
  cases ((memberNames.flatMap (about did id data)).filterMap Json.object?).getLast? <;> rfl

private theorem find?_named {α : Type} (f : Text → α) (names : List Text) (name : Text) :
    (names.map fun other => (other, f other)).find? (·.1 = name) =
      if name ∈ names then some (name, f name) else none := by
  induction names with
  | nil => rfl
  | cons first rest ih =>
    by_cases same : first = name
    · simp [same]
    · simp [same, Ne.symm same, ih]

/-- A document authorizes an id under the relationships that have an entry about it. -/
theorem authorizes_ofEntries {relationship : Text}
    (absolute : (ofEntries did data).absolute keyId = id) :
    (ofEntries did data).authorizes keyId relationship = true ↔
      relationship ∈ relationshipNames ∧ ∃ item, item ∈ about did id data relationship := by
  rw [authorizes, absolute, ofEntries_relationships, find?_named]
  by_cases known : relationship ∈ relationshipNames
  · simp [known, about]
  · simp [known]

end Lookups

end Document

end LinkedProof.Did
