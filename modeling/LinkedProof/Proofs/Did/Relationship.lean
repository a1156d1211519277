import LinkedProof.Proofs.Did.Cache
import LinkedProof.Proofs.Did.OwnKey

/-! Keys that have to be listed under a relationship. What is listed is the id of a method, and its
key is the last one that the document states under this id. So the key stands where it is listed, or
among the methods, unless another relationship embeds a method under the same id. -/
namespace LinkedProof.Did

def embedded (did id : Text) (data : Members) (name : Text) : List Members :=
  (about did id data name).filterMap Json.object?

/-- A relationship other than the required one is the last member that states a method under an
id. -/
def Overridden (did id : Text) (data : Members) (required : Text) : Prop :=
  ∃ before other after, Document.relationshipNames = before ++ other :: after ∧ other ≠ required ∧
    embedded did id data other ≠ [] ∧ ∀ later ∈ after, embedded did id data later = []

def Shows (entry : Members) (key : PublicKey) : Prop :=
  ∃ jwk, entry.get "publicKeyJwk" = .object jwk ∧
    key = .jwk (Jwk.ofMembers jwk) (announcedType entry)

section Members

variable {did id required : Text} {data entry : Members}

/-- The last of all methods under an id is the last one of the last member that has any. -/
theorem stated_getLast? : (stated did id data).getLast? = some entry ↔
    ∃ before name after, memberNames = before ++ name :: after ∧
      (embedded did id data name).getLast? = some entry ∧
        ∀ later ∈ after, embedded did id data later = [] := by
  have parts : stated did id data = memberNames.flatMap (embedded did id data) :=
    List.filterMap_flatMap
  rw [parts, List.getLast?_flatMap, List.findSome?_eq_some_iff]
  constructor
  · rintro ⟨after, name, before, shape, last, none⟩
    refine ⟨before.reverse, name, after.reverse, ?_, last, fun later member => ?_⟩
    · rw [← List.reverse_reverse memberNames, shape]
      simp
    · exact List.getLast?_eq_none_iff.mp (none later (List.mem_reverse.mp member))
  · rintro ⟨before, name, after, shape, last, none⟩
    refine ⟨after.reverse, name, before.reverse, ?_, last, fun later member => ?_⟩
    · rw [shape]
      simp
    · exact List.getLast?_eq_none_iff.mpr (none later (List.mem_reverse.mp member))

theorem own_of_not_overridden (last : (stated did id data).getLast? = some entry)
    (free : ¬Overridden did id data required) :
    ∃ name, (name = methodsName ∨ name = required) ∧ entry ∈ embedded did id data name := by
  obtain ⟨before, name, after, shape, final, none⟩ := stated_getLast?.mp last
  refine ⟨name, ?_, List.mem_of_getLast? final⟩
  cases before with
  | nil => exact .inl (List.cons.inj shape).1.symm
  | cons first before =>
    refine .inr (by_contra fun other => free ?_)
    refine ⟨before, name, after, (List.cons.inj shape).2, other, fun empty => ?_, none⟩
    rw [empty] at final
    cases final

theorem other_of_overridden (last : (stated did id data).getLast? = some entry)
    (overridden : Overridden did id data required) :
    ∃ other ∈ Document.relationshipNames, other ≠ required ∧
      entry ∈ embedded did id data other := by
  obtain ⟨before, other, after, shape, apart, filled, none⟩ := overridden
  obtain ⟨entry', final⟩ := Option.isSome_iff_exists.mp (List.getLast?_isSome.mpr filled)
  have last' : (stated did id data).getLast? = some entry' :=
    stated_getLast?.mpr ⟨methodsName :: before, other, after, congrArg _ shape, final, none⟩
  obtain rfl := Option.some.inj (last.symm.trans last')
  refine ⟨other, ?_, apart, List.mem_of_getLast? final⟩
  rw [shape]
  exact List.mem_append_right _ List.mem_cons_self

end Members

namespace Resolver

variable {σ : Type} {r : Resolver} {client : Http.Client σ} {method : Method} {table : CurveTable}
  {cache : Cache} {s s₀ : σ} {events : List Event} {required : Text} {key : PublicKey}
  {exchanges : List Http.Exchange} {found : Outcome Document} {after : Cache × σ}

/-- Where a key comes from that is listed under a relationship: from the last document that was
fetched for the issuer, where it stands in the list of methods or is embedded under the relationship
itself, unless another relationship overrides it with its own key of the same id. -/
structure Traced (r : Resolver) (table : CurveTable) (method : Method) (required : Text)
    (list : List Fetch) (key : PublicKey) (f : Fetch) (data : Members) : Prop where
  latest : Latest method.issuer list f
  sound : f.Sound r
  said : f.reply.value r.room = .ok (.ok (.object data))
  gives : Gives r table method data key
  listed : ∃ item, item ∈ about method.issuer method.text data required
  own : ¬Overridden method.issuer method.text data required →
    ∃ name entry, (name = methodsName ∨ name = required) ∧
      entry ∈ embedded method.issuer method.text data name ∧ Shows entry key
  other : Overridden method.issuer method.text data required →
    ∃ other entry, other ∈ Document.relationshipNames ∧ other ≠ required ∧
      entry ∈ embedded method.issuer method.text data other ∧ Shows entry key

/-- A key that has to be listed under a relationship is listed there, and only a method of the same
id under another relationship can stand in for it. -/
theorem key_isolated (whole : CodePoint.ofChar '#' ∉ method.issuer)
    (known : required ∈ Document.relationshipNames) (demands : r.relationship = some required)
    (run : Run (Performs r client table) ([], s₀) events (cache, s))
    (performs : Performs r client table (cache, s)
      (.keyed ⟨method.issuer, true, exchanges, found⟩ method.keyId (.ok key)) after) :
    ∃ f data, Traced r table method required (fetches (events ++
      [.keyed ⟨method.issuer, true, exchanges, found⟩ method.keyId (.ok key)])) key f data := by
  obtain ⟨d, rfl, selected⟩ := Outcome.bind_ok.mp performs.selected.symm
  obtain ⟨f, latest, sound, rfl⟩ :=
    (Tracks.of_run run).latest performs rfl rfl (Web.withoutFragment_of_notMem whole) rfl
  have named : f.did = method.issuer := latest.1
  obtain ⟨data, value, formed, same⟩ := documentOf_object.mp sound.said
  rw [named] at formed same
  rw [same] at selected
  obtain ⟨held, listed⟩ := select_ofEntries.mp selected
  have filled : method.issuer ≠ [] := by
    intro empty
    obtain ⟨_, address, _⟩ := sound.address
    rw [named, empty] at address
    cases address
  have gives : Gives r table method data key := ⟨formed, formed.own filled, held, listed⟩
  obtain ⟨entry, jwk, last, stated, _, shown⟩ := held
  refine ⟨f, data, latest, sound, value, gives, ?_, fun free => ?_, fun overridden => ?_⟩
  · cases required with
    | nil => exact absurd known (by decide)
    | cons c rest => exact (listed c rest demands).2
  · obtain ⟨name, own, member⟩ := own_of_not_overridden last free
    exact ⟨name, entry, own, member, jwk, stated, shown⟩
  · obtain ⟨other, listed, apart, member⟩ := other_of_overridden last overridden
    exact ⟨other, entry, listed, apart, member, jwk, stated, shown⟩

def otherResidues : Members :=
  [("kty", .text "EC"), ("crv", .text "P-256"), ("x", .text "AA"), ("y", .text "Ag")]

def embeddedMethod (jwk : Members) : Members := [("id", .text "#k"), ("publicKeyJwk", .object jwk)]

def crossed : Members :=
  [("id", .text "did:web:a"), ("assertionMethod", .array [.object (embeddedMethod residues)]),
    ("capabilityInvocation", .array [.object (embeddedMethod otherResidues)])]

/-- Both relationships list the id, and the key is the second one for each of them. -/
private theorem crossed_selected (demands : r.relationship = some required)
    (either : required = "assertionMethod" ∨ required = "capabilityInvocation") :
    r.select .initial (Document.ofEntries "did:web:a" crossed) "did:web:a" "#k" =
      .ok (.jwk (Jwk.ofMembers otherResidues) PublicKey.defaultType) := by
  refine (@select_ofEntries _ ⟨"did:web:a", "k"⟩ _ _ _).mpr
    ⟨⟨_, otherResidues, rfl, rfl, ?_, rfl⟩, fun c rest listed => ?_⟩
  · exact ⟨rfl, ⟨"P-256", CurveTable.p256, rfl, by decide, rfl⟩, ⟨"AA", rfl, by decide⟩,
      ⟨"Ag", rfl, by decide⟩⟩
  · rw [demands] at listed
    obtain rfl := Option.some.inj listed
    rcases either with same | same
    · rw [same]
      exact ⟨by decide, _, List.mem_cons_self⟩
    · rw [same]
      exact ⟨by decide, _, List.mem_cons_self⟩

/-- The document is found at the address of its issuer, and held. -/
theorem crossed_resolves (positive : 0 < r.cacheSize)
    (fits : Json.Fits r.room (.object crossed)) :
    Resolves r (serving crossed).recorded "did:web:a" true ([], ([], ()))
      (.ok (.ofEntries "did:web:a" crossed))
      ([("did:web:a", .ofEntries "did:web:a" crossed)],
        ([(r.request "https://a/.well-known/did.json", .ofJson (.object crossed))], ())) := by
  have said : r.documentOf "did:web:a" (.ofJson (.object crossed)) =
      .ok (.ofEntries "did:web:a" crossed) :=
    documentOf_ofJson fits (by decide +kernel) rfl (Document.ofValue_ok.mp rfl).1
  have fetched : (r.fetch (serving crossed).recorded "did:web:a").Ends ([], ())
      (.ok (.ofEntries "did:web:a" crossed))
      ([(r.request "https://a/.well-known/did.json", .ofJson (.object crossed))], ()) :=
    ends_fetch.mpr (.inr ⟨_, _, rfl, rfl, said⟩)
  have stored := @Resolves.stored _ r _ _ _ [] _ _ _ rfl rfl fetched
  rw [Cache.insert, if_pos positive, List.drop_nil] at stored
  exact stored

/-- Under the relationship that overrides the other one its own key is given. -/
theorem key_isolated_crossed :
    let r : Resolver := { standard Json.usualRoom with relationship := some "capabilityInvocation" }
    let d := Document.ofEntries "did:web:a" crossed
    let key : PublicKey := .jwk (Jwk.ofMembers otherResidues) PublicKey.defaultType
    let event : Event := .keyed ⟨"did:web:a", true,
      [(r.request "https://a/.well-known/did.json", .ofJson (.object crossed))], .ok d⟩ "#k"
      (.ok key)
    Performs r (serving crossed) .initial ([], ()) event ([("did:web:a", d)], ()) ∧
      ∃ f data, Traced r .initial ⟨"did:web:a", "k"⟩ "capabilityInvocation" (fetches [event]) key
        f data := by
  intro r d key event
  have resolves := crossed_resolves (r := r) (by decide) (by decide)
  have selected : r.select .initial d "did:web:a" "#k" = .ok key := crossed_selected rfl (.inr rfl)
  have performs : Performs r (serving crossed) .initial ([], ()) event ([("did:web:a", d)], ()) :=
    .keyed rfl (ends_resolve.mpr resolves) (ends_key.mpr ⟨_, resolves, selected.symm⟩)
  refine ⟨performs, ?_⟩
  exact @key_isolated _ r _ ⟨"did:web:a", "k"⟩ _ _ _ _ _ _ _ _ _ _ (by decide) (by decide) rfl .nil
    performs

/-- A key can be given that is embedded under another relationship alone than the required one. -/
theorem key_not_isolated : ¬∀ (r : Resolver) (client : Http.Client Unit) (method : Method)
    (required : Text) (data : Members) (key : PublicKey) (after : Cache × Unit),
    CodePoint.ofChar '#' ∉ method.issuer → required ∈ Document.relationshipNames →
    r.relationship = some required → Answered r client method.issuer () (.object data) () →
    (r.key client .initial method.issuer method.keyId).Ends ([], ()) (.ok key) after →
    (∃ item, item ∈ about method.issuer method.text data required) ∧
      ∃ name entry, (name = methodsName ∨ name = required) ∧
        entry ∈ embedded method.issuer method.text data name ∧ Shows entry key := by
  intro isolated
  have value : Json.parseBytes asserting.room
      (((Json.object crossed).render .literal).flatMap Utf8.encodePoint) = .ok (.object crossed) :=
    Json.parseBytes_render (by decide) (by decide +kernel)
  have answered : Answered asserting (serving crossed) "did:web:a" () (.object crossed) () :=
    ⟨_, _, _, rfl, rfl, rfl, value⟩
  have selected := crossed_selected (r := asserting) rfl (.inl rfl)
  have read : Document.ofValue "did:web:a" (.object crossed) =
      .ok (.ofEntries "did:web:a" crossed) :=
    Document.ofValue_ok.mpr ⟨(Document.ofValue_ok.mp rfl).1, rfl⟩
  have found : ∃ after, (asserting.key (serving crossed) .initial "did:web:a" "#k").Ends ([], ())
      (.ok (.jwk (Jwk.ofMembers otherResidues) PublicKey.defaultType)) after :=
    (key_ok (by decide) rfl).mpr ⟨_, (), _, answered, read, selected⟩
  obtain ⟨after, given⟩ := found
  obtain ⟨_, name, entry, own, member, jwk, stated, shown⟩ := isolated asserting (serving crossed)
    ⟨"did:web:a", "k"⟩ "assertionMethod" crossed _ after (by decide) (by decide) rfl answered given
  rcases own with rfl | rfl
  · cases member
  · obtain rfl : entry = embeddedMethod residues := List.mem_singleton.mp member
    obtain rfl : residues = jwk := Json.object.inj stated
    have same : (Jwk.ofMembers otherResidues).y = (Jwk.ofMembers residues).y :=
      congrArg Jwk.y (PublicKey.jwk.inj shown).1
    exact absurd (Json.text.inj same) (by decide)

end Resolver

end LinkedProof.Did
