import LinkedProof.Proofs.Did.Resolution
import LinkedProof.Proofs.Json.FromBytes
import LinkedProof.Proofs.KeyForms

/-! The key that a resolver gives for a method is the one that the document of the issuer states for
it: the document names the issuer, the entry is the last one under the id of the method, and what
the document states under other ids is of no account. -/
namespace LinkedProof.Did

/-- The members of a key on a curve of a table, its coordinates as texts. -/
structure Usable (table : CurveTable) (jwk : Members) : Prop where
  kind : jwk.get? "kty" = some (.text "EC")
  curve : ∃ name e, jwk.get? "crv" = some (.text name) ∧ name ≠ [] ∧ table.ofName name = .ok e
  x : ∃ t, jwk.get? "x" = some (.text t) ∧ t ≠ []
  y : ∃ t, jwk.get? "y" = some (.text t) ∧ t ≠ []

def announcedType (entry : Members) : Text :=
  match entry.get "type" with
  | .text (c :: rest) => c :: rest
  | _ => PublicKey.defaultType

/-- What a value gives as the document of an issuer: the key of the last entry under the id of a
method, if the method is listed as required. -/
structure Gives (r : Resolver) (table : CurveTable) (method : Method) (data : Members)
    (key : PublicKey) : Prop where
  formed : WellFormed method.issuer data
  own : data.get? "id" = some (.text method.issuer)
  held : ∃ entry jwk, (stated method.issuer method.text data).getLast? = some entry ∧
    entry.get "publicKeyJwk" = .object jwk ∧ Usable table jwk ∧
    key = .jwk (Jwk.ofMembers jwk) (announcedType entry)
  listed : ∀ c rest, r.relationship = some (c :: rest) →
    c :: rest ∈ Document.relationshipNames ∧
      ∃ item, item ∈ about method.issuer method.text data (c :: rest)

section Keys

variable {table : CurveTable} {jwk entry data : Members} {did : Text}

private theorem filled_iff {found : Option Json} :
    (match found.getD (.text []) with
      | .text t => !List.isEmpty t
      | _ => false) = true ↔ ∃ t, found = some (.text t) ∧ t ≠ [] := by
  rcases found with _ | v
  · simp
  · cases v <;> simp

theorem isValid_ofMembers : (Jwk.ofMembers jwk).isValid table = true ↔ Usable table jwk := by
  have kind : (Jwk.ofMembers jwk).isCurveKey = true ↔ jwk.get? "kty" = some (.text "EC") := by
    rw [Jwk.isCurveKey, Json.isText_iff, Jwk.ofMembers]
    cases jwk.get? "kty" with
    | none => exact iff_of_false nofun nofun
    | some v => rw [Option.getD_some, Option.some.injEq]
  rw [Jwk.isValid, Bool.and_eq_true, Bool.and_eq_true, Bool.and_eq_true, Bool.and_eq_true, kind]
  have x := @filled_iff (jwk.get? "x")
  have y := @filled_iff (jwk.get? "y")
  have crv := @filled_iff (jwk.get? "crv")
  constructor
  · rintro ⟨⟨⟨⟨kind, named⟩, first⟩, second⟩, listed⟩
    obtain ⟨name, found, filled⟩ := crv.mp named
    have stands : (Jwk.ofMembers jwk).crv = .text name := by
      rw [Jwk.ofMembers, found, Option.getD_some]
    rw [stands, CurveTable.ofValue] at listed
    cases entry : table.ofName name with
    | error failure => rw [entry] at listed; cases listed
    | ok e => exact ⟨kind, ⟨name, e, found, filled, entry⟩, x.mp first, y.mp second⟩
  · rintro ⟨kind, ⟨name, e, found, filled, entry⟩, first, second⟩
    have stands : (Jwk.ofMembers jwk).crv = .text name := by
      rw [Jwk.ofMembers, found, Option.getD_some]
    refine ⟨⟨⟨⟨kind, crv.mpr ⟨name, found, filled⟩⟩, x.mpr first⟩, y.mpr second⟩, ?_⟩
    rw [stands, CurveTable.ofValue, entry]
    rfl

theorem methodOf_type : (if (methodOf did entry).type.isEmpty then PublicKey.defaultType
    else (methodOf did entry).type) = announcedType entry := by
  rw [methodOf, announcedType]
  rcases entry.get "type" with _ | _ | _ | _ | ⟨_ | _⟩ | _ | _ <;> rfl

theorem methodOf_key {k : Jwk} : (methodOf did entry).key = some k ↔
    ∃ jwk, entry.get "publicKeyJwk" = .object jwk ∧ Jwk.ofMembers jwk = k := by
  rw [methodOf]
  cases entry.get "publicKeyJwk" <;> simp [Json.object?]

/-- A usable key has a point, or it is refused as a key that is of no use. -/
theorem point_of_usable (available : ∀ e ∈ table.entries, ∃ c, e.curve.curve = .ok c)
    (usable : Usable table jwk) (type : Text) :
    (∃ q, (PublicKey.jwk (Jwk.ofMembers jwk) type).point table = .ok q) ∨
      ∃ cause, (PublicKey.jwk (Jwk.ofMembers jwk) type).point table = .error (.proof cause) ∧
        cause.family = .verification := by
  obtain ⟨kind, ⟨name, e, crv, _, named⟩, ⟨first, x, _⟩, ⟨second, y, _⟩⟩ := usable
  obtain ⟨c, arithmetic⟩ := available e (CurveTable.ofName_mem named)
  have isCurveKey : (Jwk.ofMembers jwk).isCurveKey = true := by
    rw [Jwk.isCurveKey, Jwk.ofMembers, kind]
    exact Json.isText_iff.mpr rfl
  have entry : table.ofValue (Jwk.ofMembers jwk).crv = .ok e := by
    rw [Jwk.ofMembers, crv]
    exact named
  have coordinate (name value : Text) (stands : jwk.get? name = some (.text value)) :
      Base64.decodeValue ((jwk.get? name).getD (.text [])) =
        (Base64.decode value).mapError fun fault => .unfit (.base64 fault) := by
    rw [stands]
    rfl
  have unfit (fault : Unfit) (failed : (Jwk.ofMembers jwk).point table = .error (.unfit fault)) :
      ∃ cause, (PublicKey.jwk (Jwk.ofMembers jwk) type).point table = .error (.proof cause) ∧
        cause.family = .verification := by
    refine ⟨.unusableKey fault.message, ?_, rfl⟩
    rw [PublicKey.point, failed]
    rfl
  have across : Base64.decodeValue (Jwk.ofMembers jwk).x =
    (Base64.decode first).mapError fun fault => .unfit (.base64 fault) := coordinate "x" first x
  have up : Base64.decodeValue (Jwk.ofMembers jwk).y =
    (Base64.decode second).mapError fun fault => .unfit (.base64 fault) := coordinate "y" second y
  cases left : Base64.decode first with
  | error fault =>
    refine .inr (unfit (.base64 fault) ?_)
    simp only [Jwk.point, isCurveKey, entry, across, left, error_mapError, bind, Except.bind]
    rfl
  | ok a =>
    cases right : Base64.decode second with
    | error fault =>
      refine .inr (unfit (.base64 fault) ?_)
      simp only [Jwk.point, isCurveKey, entry, across, left, up, right, ok_mapError,
        error_mapError, bind, Except.bind]
      rfl
    | ok b =>
      cases point : CurvePoint.ofResidues? c (Bytes.toNat a) (Bytes.toNat b) with
      | none =>
        refine .inr (unfit .point ?_)
        simp only [Jwk.point, isCurveKey, entry, across, left, up, right, arithmetic, ok_mapError,
          bind, Except.bind, point]
        rfl
      | some q =>
        refine .inl ⟨q, ?_⟩
        simp only [PublicKey.point, Jwk.point, isCurveKey, entry, across, left, up, right,
          arithmetic, ok_mapError, bind, Except.bind, point]
        rfl

end Keys

namespace Resolver

variable {σ : Type} {r : Resolver} {client : Http.Client σ} {method : Method} {table : CurveTable}
  {cache : Cache} {s : σ}

private theorem text_ne_nil : method.text ≠ [] :=
  List.append_ne_nil_of_right_ne_nil _ (List.cons_ne_nil _ _)

private theorem absolute_keyId (data : Members) :
    (Document.ofEntries method.issuer data).absolute method.keyId = method.text := by
  have marked : (Document.ofEntries method.issuer data).absolute method.keyId =
    (Document.ofEntries method.issuer data).id ++ method.keyId := if_pos rfl
  rw [marked, Document.ofEntries_id, Method.text]

/-- What is selected from the document of an issuer is what its entries give. -/
theorem select_ofEntries {data : Members} {key : PublicKey} :
    r.select table (Document.ofEntries method.issuer data) method.issuer method.keyId = .ok key ↔
      (∃ entry jwk, (stated method.issuer method.text data).getLast? = some entry ∧
        entry.get "publicKeyJwk" = .object jwk ∧ Usable table jwk ∧
        key = .jwk (Jwk.ofMembers jwk) (announcedType entry)) ∧
      ∀ c rest, r.relationship = some (c :: rest) → c :: rest ∈ Document.relationshipNames ∧
        ∃ item, item ∈ about method.issuer method.text data (c :: rest) := by
  simp only [select_ok, Document.method?_ofEntries text_ne_nil (absolute_keyId data),
    Document.authorizes_ofEntries (absolute_keyId data), Option.map_eq_some_iff]
  constructor
  · rintro ⟨_, k, ⟨entry, last, rfl⟩, listed, held, valid, rfl⟩
    obtain ⟨jwk, found, rfl⟩ := methodOf_key.mp held
    rw [methodOf_type]
    exact ⟨⟨entry, jwk, last, found, isValid_ofMembers.mp valid, rfl⟩, listed⟩
  · rintro ⟨⟨entry, jwk, last, found, usable, rfl⟩, listed⟩
    refine ⟨_, _, ⟨entry, last, rfl⟩, listed, methodOf_key.mpr ⟨jwk, found, rfl⟩,
      isValid_ofMembers.mpr usable, ?_⟩
    rw [methodOf_type]

/-- Documents that state the same about a method give the same for it. -/
private theorem select_congr {data data' : Members} (same : ∀ name ∈ memberNames,
    about method.issuer method.text data name = about method.issuer method.text data' name) :
    r.select table (Document.ofEntries method.issuer data) method.issuer method.keyId =
      r.select table (Document.ofEntries method.issuer data') method.issuer method.keyId := by
  have told : stated method.issuer method.text data = stated method.issuer method.text data' := by
    rw [stated, stated, List.flatMap_def, List.flatMap_def, List.map_congr_left same]
  have methods : (Document.ofEntries method.issuer data).method? method.keyId =
      (Document.ofEntries method.issuer data').method? method.keyId := by
    rw [Document.method?_ofEntries text_ne_nil (absolute_keyId data),
      Document.method?_ofEntries text_ne_nil (absolute_keyId data'), told]
  have listed (name : Text) : (Document.ofEntries method.issuer data).authorizes method.keyId name =
      (Document.ofEntries method.issuer data').authorizes method.keyId name := by
    rw [Bool.eq_iff_iff, Document.authorizes_ofEntries (absolute_keyId data),
      Document.authorizes_ofEntries (absolute_keyId data')]
    refine and_congr_right fun known => ?_
    rw [same name (List.mem_cons_of_mem _ known)]
  simp only [select, methods, listed]

private theorem ends_formed {data : Members} {t : σ} (whole : CodePoint.ofChar '#' ∉ method.issuer)
    (fresh : cache.get? method.issuer = none)
    (answered : Answered r client method.issuer s (.object data) t)
    (formed : WellFormed method.issuer data) :
    ∃ u, (r.key client table method.issuer method.keyId).Ends (cache, s)
      (r.select table (Document.ofEntries method.issuer data) method.issuer method.keyId) u := by
  have ended : ∃ u, (r.key client table method.issuer method.keyId).Ends (cache, s) _ u :=
    ends_key_answered whole fresh answered
  rw [Document.ofValue_ok.mpr ⟨formed, rfl⟩] at ended
  exact ended

/-- An issuer whose document can be asked for is not empty. -/
private theorem issuer_filled {issuer : Text} {data : Json} {t : σ}
    (answered : Answered r client issuer s data t) : issuer ≠ [] := by
  rintro rfl
  obtain ⟨_, _, _, address, _⟩ := answered
  cases address

/-- A resolver that holds no document of an issuer gives the key that the document which is fetched
states last under the method, listed as required and with texts for its coordinates on a curve of
the table, and no other key. The key has a point or is refused in verification. What documents state
under other ids makes no difference. -/
theorem key_own (whole : CodePoint.ofChar '#' ∉ method.issuer)
    (fresh : cache.get? method.issuer = none) :
    (∀ key, (∃ u, (r.key client table method.issuer method.keyId).Ends (cache, s) (.ok key) u) ↔
      ∃ data t, Answered r client method.issuer s (.object data) t ∧
        Gives r table method data key) ∧
    (∀ key data, Gives r table method data key →
      (∀ e ∈ table.entries, ∃ c, e.curve.curve = .ok c) →
      (∃ q, key.point table = .ok q) ∨
        ∃ cause, key.point table = .error (.proof cause) ∧ cause.family = .verification) ∧
    ∀ (client' : Http.Client σ) s' t t' data data',
      Answered r client method.issuer s (.object data) t →
      Answered r client' method.issuer s' (.object data') t' →
      WellFormed method.issuer data → WellFormed method.issuer data' →
      (∀ name ∈ memberNames, about method.issuer method.text data name =
        about method.issuer method.text data' name) →
      ∃ o, (∃ u, (r.key client table method.issuer method.keyId).Ends (cache, s) o u) ∧
        ∃ u, (r.key client' table method.issuer method.keyId).Ends (cache, s') o u := by
  refine ⟨fun key => ?_, fun key data gives available => ?_, ?_⟩
  · simp only [key_ok whole fresh]
    constructor
    · rintro ⟨value, t, d, answered, read, selected⟩
      cases value with
      | object data =>
        obtain ⟨formed, rfl⟩ := Document.ofValue_ok.mp read
        obtain ⟨held, listed⟩ := select_ofEntries.mp selected
        exact ⟨data, t, answered, formed, formed.own (issuer_filled answered), held, listed⟩
      | _ => cases read
    · rintro ⟨data, t, answered, gives⟩
      exact ⟨_, t, _, answered, Document.ofValue_ok.mpr ⟨gives.formed, rfl⟩,
        select_ofEntries.mpr ⟨gives.held, gives.listed⟩⟩
  · obtain ⟨entry, jwk, _, _, usable, rfl⟩ := gives.held
    exact point_of_usable available usable _
  · intro client' s' t t' data data' answered answered' formed formed' same
    refine ⟨_, ends_formed whole fresh answered formed, ?_⟩
    rw [select_congr same]
    exact ends_formed whole fresh answered' formed'

def serving (data : Members) : Http.Client Unit := fun _ s =>
  (.response 200 (((Json.object data).render .literal).flatMap Utf8.encodePoint), s)

def residues : Members :=
  [("kty", .text "EC"), ("crv", .text "P-256"), ("x", .text "AA"), ("y", .text "AQ")]

def published (others : List Text) : Members :=
  [("id", .text "did:web:a"),
    ("verificationMethod", .array (others.map fun id => .object [("id", .text id)])),
    ("assertionMethod", .array [.object [("id", .text "#k"), ("publicKeyJwk", .object residues)]])]

def asserting : Resolver := { standard Json.usualRoom with relationship := some "assertionMethod" }

private theorem published_fits (others : List Text) :
    Json.Fits asserting.room (.object (published others)) := by
  refine .object fun m member => ?_
  simp only [published, List.mem_cons, List.not_mem_nil, or_false] at member
  rcases member with rfl | rfl | rfl
  · exact .text _
  · refine .array fun item member => ?_
    obtain ⟨id, _, rfl⟩ := List.mem_map.mp member
    exact .object fun m member => by obtain rfl := List.mem_singleton.mp member; exact .text _
  · refine .array fun item member => ?_
    obtain rfl := List.mem_singleton.mp member
    refine .object fun m member => ?_
    simp only [residues, List.mem_cons, List.not_mem_nil, or_false] at member
    rcases member with rfl | rfl
    · exact .text _
    · refine .object fun m member => ?_
      simp only [List.mem_cons, List.not_mem_nil, or_false] at member
      rcases member with rfl | rfl | rfl | rfl <;> exact .text _

private theorem serving_answered {others : List Text}
    (clear : ¬Json.Broken ((Json.object (published others)).render .literal))
    (back : (Json.object (published others)).readBack false = .object (published others)) :
    Answered asserting (serving (published others)) "did:web:a" ()
      (.object (published others)) () := by
  refine ⟨_, _, _, rfl, rfl, rfl, ?_⟩
  rw [Json.parseBytes_render (published_fits others) clear, back]

/-- The key of the one method, whatever a method of another issuer stands in front of it. -/
theorem key_own_published : CodePoint.ofChar '#' ∉ Text.ofString "did:web:a" ∧
    Cache.get? "did:web:a" [] = none ∧
    (∃ u, (asserting.key (serving (published [])) .initial "did:web:a" "#k").Ends ([], ())
      (.ok (.jwk (Jwk.ofMembers residues) PublicKey.defaultType)) u) ∧
    ((∃ q, (PublicKey.jwk (Jwk.ofMembers residues) PublicKey.defaultType).point .initial = .ok q) ∨
      ∃ cause, (PublicKey.jwk (Jwk.ofMembers residues) PublicKey.defaultType).point .initial =
        .error (.proof cause) ∧ cause.family = .verification) ∧
    ∃ o, (∃ u, (asserting.key (serving (published [])) .initial "did:web:a" "#k").Ends ([], ())
        o u) ∧
      ∃ u, (asserting.key (serving (published ["did:web:b#k"])) .initial "did:web:a" "#k").Ends
        ([], ()) o u := by
  have whole : CodePoint.ofChar '#' ∉ Text.ofString "did:web:a" := by decide
  have answered := @serving_answered [] (by decide +kernel) rfl
  have answered' := @serving_answered ["did:web:b#k"] (by decide +kernel) rfl
  have formed : WellFormed "did:web:a" (published []) := (Document.ofValue_ok.mp rfl).1
  have formed' : WellFormed "did:web:a" (published ["did:web:b#k"]) :=
    (Document.ofValue_ok.mp rfl).1
  have usable : Usable .initial residues :=
    ⟨rfl, ⟨"P-256", CurveTable.p256, rfl, by decide, rfl⟩, ⟨"AA", rfl, by decide⟩,
      ⟨"AQ", rfl, by decide⟩⟩
  have gives : Gives asserting .initial ⟨"did:web:a", "k"⟩ (published [])
      (.jwk (Jwk.ofMembers residues) PublicKey.defaultType) := by
    refine ⟨formed, rfl, ⟨_, residues, rfl, rfl, usable, rfl⟩, ?_⟩
    rintro c rest ⟨⟩
    exact ⟨by decide, _, List.mem_cons_self⟩
  have available : ∀ e ∈ CurveTable.initial.entries, ∃ c, e.curve.curve = .ok c := by
    intro e member
    simp only [CurveTable.initial, List.mem_cons, List.not_mem_nil, or_false] at member
    rcases member with rfl | rfl | rfl | rfl <;> exact ⟨_, rfl⟩
  have same : ∀ name ∈ memberNames, about "did:web:a" "did:web:a#k" (published []) name =
      about "did:web:a" "did:web:a#k" (published ["did:web:b#k"]) name := by
    intro name member
    simp only [memberNames, Document.relationshipNames, List.mem_cons, List.not_mem_nil,
      or_false] at member
    rcases member with rfl | rfl | rfl | rfl <;> rfl
  have own := @key_own Unit asserting (serving (published [])) ⟨"did:web:a", "k"⟩ .initial [] ()
    whole rfl
  exact ⟨whole, rfl, (own.1 _).mpr ⟨_, (), answered, gives⟩, own.2.1 _ _ gives available,
    own.2.2 _ () () () _ _ answered answered' formed formed' same⟩

end Resolver

end LinkedProof.Did
