import LinkedProof.Proofs.Action
import LinkedProof.Proofs.Did.Escapes
import LinkedProof.Proofs.Text

/-! The parts of the address of a `did:web` identifier. The path has a segment for each component of
the identifier behind the first one, and whatever the components hold, it has no other. The first
component stands in the address as it is, so the authority is this component only as long as it
holds no mark that ends an authority. -/
namespace LinkedProof.Did

structure Address where
  authority : Text
  path : Text
  query : Option Text
  fragment : Option Text
  deriving DecidableEq

namespace Address

def scheme : Text := "https://"

/-- The parts of an address with the one scheme that is used. A fragment begins at the first mark
of its kind, in front of it a query, and in front of that a path. -/
def ofText? (t : Text) : Option Address :=
  if scheme.isPrefixOf t then
    let whole := t.drop scheme.length
    let asked := Text.before '#' whole
    let place := Text.before '?' asked
    let authority := Text.before '/' place
    some {
      authority
      path := place.drop authority.length
      query := (Text.cut? '?' asked).map (·.2)
      fragment := (Text.cut? '#' whole).map (·.2) }
  else none

section Read

variable {host path rest : Text}

private theorem ofText?_scheme (whole : CodePoint.ofChar '#' ∉ host ++ path) :
    ofText? (scheme ++ (host ++ path)) = some {
      authority := Text.before '/' (Text.before '?' (host ++ path))
      path := (Text.before '?' (host ++ path)).drop
        (Text.before '/' (Text.before '?' (host ++ path))).length
      query := (Text.cut? '?' (host ++ path)).map (·.2)
      fragment := none } := by
  have starts : scheme.isPrefixOf (scheme ++ (host ++ path)) = true :=
    List.isPrefixOf_iff_prefix.mpr (List.prefix_append _ _)
  simp only [ofText?, if_pos starts, List.drop_left, Text.before_clear whole,
    Text.cut?_eq_none.mpr whole, Option.map_none]

/-- What is put in front of a path is the authority as far as it holds no mark that ends one. -/
theorem authority_ofText? (whole : CodePoint.ofChar '#' ∉ host ++ path)
    (clear : CodePoint.ofChar '?' ∉ path) (starts : path = CodePoint.ofChar '/' :: rest) :
    ∃ a, ofText? (scheme ++ (host ++ path)) = some a ∧
      a.authority = Text.before '/' (Text.before '?' host) ∧ a.fragment = none := by
  refine ⟨_, ofText?_scheme whole, ?_, rfl⟩
  by_cases question : CodePoint.ofChar '?' ∈ host
  · rw [Text.before_append_of_mem question]
  · have unasked : CodePoint.ofChar '?' ∉ host ++ path := fun member =>
      (List.mem_append.mp member).elim question clear
    rw [Text.before_clear unasked, Text.before_clear question]
    by_cases slash : CodePoint.ofChar '/' ∈ host
    · exact Text.before_append_of_mem slash path
    · rw [starts, Text.before_append slash, Text.before_clear slash]

/-- What is put in front of a path is the whole authority exactly if it holds no such mark. -/
theorem ofText?_eq_iff (whole : CodePoint.ofChar '#' ∉ host ++ path)
    (clear : CodePoint.ofChar '?' ∉ path) (starts : path = CodePoint.ofChar '/' :: rest) :
    ofText? (scheme ++ (host ++ path)) = some ⟨host, path, none, none⟩ ↔
      CodePoint.ofChar '/' ∉ host ∧ CodePoint.ofChar '?' ∉ host := by
  rw [ofText?_scheme whole, Option.some.injEq, Address.mk.injEq]
  constructor
  · rintro ⟨authority, _, unasked, _⟩
    refine ⟨?_, fun member => ?_⟩
    · rw [← authority]
      exact Text.not_mem_before '/' _
    · have none := Text.cut?_eq_none.mp (Option.map_eq_none_iff.mp unasked)
      exact none (List.mem_append_left _ member)
  · rintro ⟨slash, question⟩
    have unasked : CodePoint.ofChar '?' ∉ host ++ path := fun member =>
      (List.mem_append.mp member).elim question clear
    have authority : Text.before '/' (host ++ path) = host := by
      rw [starts]
      exact Text.before_append slash rest
    rw [Text.before_clear unasked, authority, List.drop_left, Text.cut?_eq_none.mpr unasked]
    exact ⟨rfl, rfl, rfl, rfl⟩

end Read

end Address

namespace Web

structure Names (did name : Text) (segments : List Text) : Prop where
  spelled : ∃ fragment, did = namePrefix ++ Text.join ":" (name :: segments) ++ fragment ∧
    (fragment = [] ∨ ∃ rest, fragment = CodePoint.ofChar '#' :: rest)
  apart : ∀ part ∈ name :: segments, CodePoint.ofChar ':' ∉ part ∧ CodePoint.ofChar '#' ∉ part

def maskedColon : Text := "%3A"

/-- A text with every escaped colon read as a colon. -/
inductive Unmasked : Text → Text → Prop
  | nil : Unmasked [] []
  | colon {t u : Text} (rest : Unmasked t u) : Unmasked (maskedColon ++ t) (":" ++ u)
  | plain {c : CodePoint} {t u : Text} (other : ¬maskedColon <+: c :: t) (rest : Unmasked t u) :
    Unmasked (c :: t) (c :: u)

/-- A segment of a path that stands for a component, and is a name if the component is. -/
structure Spells (part component : Text) : Prop where
  read : segmentText? part = some component
  dots : IsDots part ↔ IsDots component

/-- A path that leads to the document of the components behind a host: the well-known one, or a
segment for each of them and one for the document. -/
inductive Leads : List Text → Text → Prop
  | root : Leads [] "/.well-known/did.json"
  | named {segments parts : List Text} {path : Text} (filled : segments ≠ [])
    (split : Text.split '/' path = [] :: (parts ++ [Text.ofString "did.json"]))
    (spelled : List.Forall₂ Spells parts segments) : Leads segments path

section Names

variable {did name : Text} {segments : List Text}

theorem names_iff : Names did name segments ↔ namePrefix.isPrefixOf did = true ∧
    Text.split ':' (withoutFragment (did.drop namePrefix.length)) = name :: segments := by
  constructor
  · rintro ⟨⟨fragment, rfl, shape⟩, apart⟩
    have clear : CodePoint.ofChar '#' ∉ Text.join ":" (name :: segments) := by
      intro member
      rcases Text.mem_join member with colon | ⟨part, listed, inside⟩
      · exact absurd colon (by decide)
      · exact (apart part listed).2 inside
    refine ⟨?_, ?_⟩
    · rw [List.append_assoc]
      exact List.isPrefixOf_iff_prefix.mpr (List.prefix_append _ _)
    · have before : withoutFragment (Text.join ":" (name :: segments) ++ fragment) =
          Text.join ":" (name :: segments) := by
        rcases shape with rfl | ⟨rest, rfl⟩
        · rw [List.append_nil]
          exact Text.before_clear clear
        · exact Text.before_append clear rest
      rw [List.append_assoc, List.drop_left, before]
      exact Text.split_join fun part listed => (apart part listed).1
  · rintro ⟨starts, parts⟩
    obtain ⟨rest, rfl⟩ := List.isPrefixOf_iff_prefix.mp starts
    rw [List.drop_left] at parts
    obtain ⟨fragment, whole, shape⟩ := Text.before_spec '#' rest
    have joined : Text.join ":" (name :: segments) = withoutFragment rest := by
      rw [← parts]
      exact Text.join_split ':' _
    refine ⟨⟨fragment, ?_, shape⟩, fun part listed => ⟨?_, fun member => ?_⟩⟩
    · rw [List.append_assoc, joined]
      exact congrArg _ whole
    · exact Text.clear_of_mem_split (parts ▸ listed)
    · have inside : CodePoint.ofChar '#' ∈ withoutFragment rest := by
        rw [← joined]
        exact Text.mem_join_of_mem listed member
      exact Text.not_mem_before '#' rest inside

theorem Names.unique {name' : Text} {segments' : List Text} (names : Names did name segments)
    (names' : Names did name' segments') : name = name' ∧ segments = segments' :=
  List.cons.inj ((names_iff.mp names).2.symm.trans (names_iff.mp names').2)

end Names

section Masks

variable {t u : Text}

private theorem replace_masked (t : Text) : Text.replace maskedColon ":" (maskedColon ++ t) =
    ":" ++ Text.replace maskedColon ":" t := by
  simp [Text.replace, maskedColon, Text.ofString, Text.replaceFrom]

private theorem replace_plain {c : CodePoint} (other : ¬maskedColon <+: c :: t) :
    Text.replace maskedColon ":" (c :: t) = c :: Text.replace maskedColon ":" t := by
  rw [Text.replace, Text.replaceFrom,
    if_neg fun starts => other (List.isPrefixOf_iff_prefix.mp starts)]
  rfl

private theorem unmasked_replace : ∀ t, Unmasked t (Text.replace maskedColon ":" t)
  | [] => .nil
  | c :: rest => by
    by_cases masked : maskedColon <+: c :: rest
    -- An escaped colon is three code points, so this is no structural recursion.
    · obtain ⟨t, whole⟩ := masked
      rw [← whole, replace_masked]
      exact .colon (unmasked_replace t)
    · rw [replace_plain masked]
      exact .plain masked (unmasked_replace rest)
termination_by t => t.length
decreasing_by
  · rw [← whole, List.length_append]
    exact Nat.lt_add_of_pos_left (by decide)
  · exact Nat.lt_succ_self _

theorem unmasked_iff : Unmasked t u ↔ u = Text.replace maskedColon ":" t := by
  constructor
  · intro unmasked
    induction unmasked with
    | nil => rfl
    | colon _ ih => rw [replace_masked, ih]
    | plain other _ ih => rw [replace_plain other, ih]
  · rintro rfl
    exact unmasked_replace t

/-- Only what an escaped colon is made of comes and goes. -/
theorem Unmasked.mem_iff {c : CodePoint} (unmasked : Unmasked t u) (colon : c ∉ (":" : Text))
    (masked : c ∉ maskedColon) : c ∈ u ↔ c ∈ t := by
  induction unmasked with
  | nil => rfl
  | colon _ ih => rw [List.mem_append, List.mem_append, or_iff_right colon, or_iff_right masked, ih]
  | plain _ _ ih => rw [List.mem_cons, List.mem_cons, ih]

end Masks

section Paths

variable {did host path u : Text} {segments parts : List Text}

theorem components_ok : components did = .ok (host, segments) ↔
    host ≠ [] ∧ ∃ name, Names did name segments ∧ Unmasked name host := by
  simp only [names_iff, unmasked_iff]
  rw [components]
  by_cases starts : namePrefix.isPrefixOf did = true
  · rw [if_pos starts]
    cases parts : Text.split ':' (withoutFragment (did.drop namePrefix.length)) with
    | nil => exact absurd parts (Text.split_ne_nil _ _)
    | cons name rest =>
      simp only [List.isEmpty_iff, starts, true_and, List.cons.injEq]
      constructor
      · intro named
        split at named
        · cases named
        · rename_i filled
          obtain ⟨rfl, rfl⟩ := Prod.mk.inj (Except.ok.inj named)
          exact ⟨filled, name, ⟨rfl, rfl⟩, rfl⟩
      · rintro ⟨filled, _, ⟨rfl, rfl⟩, rfl⟩
        exact if_neg filled
  · simp [starts]

private inductive Written : List Text → Text → Prop
  | root : Written [] "/.well-known/did.json"
  | named {segments parts : List Text} (filled : parts ≠ [])
    (escaped : List.Forall₂ (fun segment part => escapeSegment segment = .ok part) segments parts) :
    Written segments ("/" ++ Text.join "/" (parts ++ [Text.ofString "did.json"]))

private theorem url_ok (accepted : url did = .ok u) : ∃ host segments path,
    components did = .ok (host, segments) ∧ Written segments path ∧
      u = Address.scheme ++ (host ++ path) := by
  obtain ⟨⟨host, segments⟩, named, written⟩ := Outcome.bind_ok.mp accepted
  refine ⟨host, segments, ?_⟩
  cases segments with
  | nil =>
    obtain rfl := Outcome.pure_ok.mp written
    exact ⟨_, named, .root, rfl⟩
  | cons segment rest =>
    obtain ⟨parts, escaped, joined⟩ := Outcome.bind_ok.mp written
    obtain rfl := Outcome.pure_ok.mp joined
    have each := mapM_ok.mp escaped
    have filled : parts ≠ [] := by
      rintro rfl
      cases each
    refine ⟨_, named, .named filled each, ?_⟩
    rw [Text.join_concat _ _ filled]
    simp [Text.concat, Address.scheme, Text.ofString]

theorem names_of_url (accepted : url did = .ok u) : ∃ name segments, Names did name segments := by
  obtain ⟨_, segments, _, named, _⟩ := url_ok accepted
  obtain ⟨_, name, names, _⟩ := components_ok.mp named
  exact ⟨name, segments, names⟩

section Escaped

variable
  (escaped : List.Forall₂ (fun segment part => escapeSegment segment = .ok part) segments parts)
include escaped

private theorem escaped_spells : List.Forall₂ Spells parts segments := by
  refine List.Forall₂.flip (escaped.imp fun segment part written => ?_)
  exact ⟨segmentText?_of_escapeSegment written, isDots_of_escapeSegment written⟩

/-- A mark that is always escaped ends no segment early. -/
private theorem escaped_clear {mark : CodePoint} (marked : isUnreserved mark = false)
    (other : mark ≠ '%') : ∀ part ∈ parts ++ [Text.ofString "did.json"], mark ∉ part := by
  have clear : ∀ part ∈ parts, mark ∉ part := by
    induction escaped with
    | nil => exact nofun
    | cons written _ ih =>
      refine List.forall_mem_cons.mpr ⟨fun member => ?_, ih⟩
      rcases escapeSegment_clear written member with plain | percent
      · cases marked.symm.trans plain
      · exact other percent
  have last : ∀ c ∈ Text.ofString "did.json", isUnreserved c = true := by decide
  rintro part listed member
  rcases List.mem_append.mp listed with inside | final
  · exact clear part inside member
  · obtain rfl := List.mem_singleton.mp final
    cases marked.symm.trans (last mark member)

private theorem escaped_path {mark : CodePoint} (marked : isUnreserved mark = false)
    (other : mark ≠ '%') (slash : mark ≠ '/') :
    mark ∉ "/" ++ Text.join "/" (parts ++ [Text.ofString "did.json"]) := by
  have apart : mark ∉ Text.ofString "/" := fun member => slash (List.mem_singleton.mp member)
  intro member
  rcases List.mem_append.mp member with first | later
  · exact apart first
  · rcases Text.mem_join later with between | ⟨part, listed, inside⟩
    · exact apart between
    · exact escaped_clear escaped marked other part listed inside

end Escaped

private theorem Written.leads (written : Written segments path) : Leads segments path := by
  cases written with
  | root => exact .root
  | named filled escaped =>
    rename_i parts
    have clear : ∀ part ∈ parts ++ [Text.ofString "did.json"], CodePoint.ofChar '/' ∉ part :=
      escaped_clear escaped (by decide) (by decide)
    have parted : Text.split '/' ("/" ++ Text.join "/" (parts ++ [Text.ofString "did.json"])) =
        [] :: (parts ++ [Text.ofString "did.json"]) := by
      obtain ⟨first, others, shape⟩ := List.exists_cons_of_ne_nil
        (List.append_ne_nil_of_right_ne_nil parts (List.cons_ne_nil (Text.ofString "did.json") []))
      rw [shape] at clear ⊢
      exact (Text.split_append '/' [] _ List.not_mem_nil).trans (congrArg _ (Text.split_join clear))
    refine .named ?_ parted (escaped_spells escaped)
    rintro rfl
    cases escaped
    exact filled rfl

private theorem Written.clear (written : Written segments path) :
    CodePoint.ofChar '?' ∉ path ∧ CodePoint.ofChar '#' ∉ path := by
  cases written with
  | root => exact ⟨by decide, by decide⟩
  | named _ escaped =>
    exact ⟨escaped_path escaped (by decide) (by decide) (by decide),
      escaped_path escaped (by decide) (by decide) (by decide)⟩

private theorem Written.starts (written : Written segments path) :
    ∃ rest, path = CodePoint.ofChar '/' :: rest := by
  cases written with
  | root => exact ⟨_, rfl⟩
  | named _ _ => exact ⟨_, rfl⟩

end Paths

/-- The address of an identifier, whatever its components hold. The path stands for the components
behind the first one and for nothing else. The authority is the first component up to a mark that
ends an authority, and the address has these two parts alone exactly if there is no such mark. -/
theorem url_structured {did u : Text} (accepted : url did = .ok u) :
    ∃ name host segments path, Names did name segments ∧ Unmasked name host ∧ host ≠ [] ∧
      Leads segments path ∧ CodePoint.ofChar '?' ∉ path ∧ CodePoint.ofChar '#' ∉ path ∧
      u = Address.scheme ++ (host ++ path) ∧
      (∃ a, Address.ofText? u = some a ∧
        a.authority = Text.before '/' (Text.before '?' host) ∧ a.fragment = none) ∧
      (Address.ofText? u = some ⟨host, path, none, none⟩ ↔
        CodePoint.ofChar '/' ∉ name ∧ CodePoint.ofChar '?' ∉ name) := by
  obtain ⟨host, segments, path, named, written, rfl⟩ := url_ok accepted
  obtain ⟨filled, name, names, unmasked⟩ := components_ok.mp named
  obtain ⟨clear, whole⟩ := written.clear
  obtain ⟨rest, starts⟩ := written.starts
  have kept {c : CodePoint} (colon : c ∉ Text.ofString ":") (masked : c ∉ maskedColon) :=
    unmasked.mem_iff colon masked
  have hostWhole : CodePoint.ofChar '#' ∉ host := by
    rw [kept (by decide) (by decide)]
    exact (names.apart name List.mem_cons_self).2
  have joined : CodePoint.ofChar '#' ∉ host ++ path := fun member =>
    (List.mem_append.mp member).elim hostWhole whole
  refine ⟨name, host, segments, path, names, unmasked, filled, written.leads, clear, whole, rfl,
    Address.authority_ofText? joined clear starts, ?_⟩
  rw [Address.ofText?_eq_iff joined clear starts, kept (by decide) (by decide),
    kept (by decide) (by decide)]

/-- An escaped port, a component with a slash, one of dots and a fragment. -/
theorem url_structured_port : url "did:web:a%3A80:b/c:..#k" = .ok "https://a:80/b%2Fc/../did.json" ∧
    ∃ path, Address.ofText? "https://a:80/b%2Fc/../did.json" = some ⟨"a:80", path, none, none⟩ ∧
      Leads ["b/c", ".."] path := by
  have accepted : url "did:web:a%3A80:b/c:..#k" = .ok "https://a:80/b%2Fc/../did.json" := by rfl
  obtain ⟨name, host, segments, path, names, unmasked, _, leads, _, _, _, _, whole⟩ :=
    url_structured accepted
  have known : Names "did:web:a%3A80:b/c:..#k" "a%3A80" ["b/c", ".."] :=
    names_iff.mpr ⟨by decide, by decide⟩
  obtain ⟨rfl, rfl⟩ := names.unique known
  obtain rfl : host = "a:80" := unmasked_iff.mp unmasked
  exact ⟨accepted, path, whole.mpr ⟨by decide, by decide⟩, leads⟩

/-- The first component can end the authority early, and then the address has other parts. -/
theorem url_not_structured : ¬∀ (did u name host : Text) (segments : List Text),
    url did = .ok u → Names did name segments → Unmasked name host →
      ∃ path, Address.ofText? u = some ⟨host, path, none, none⟩ ∧ Leads segments path := by
  intro structured
  have names : Names "did:web:example.com/evil?x=1" "example.com/evil?x=1" [] :=
    names_iff.mpr ⟨by decide, by decide⟩
  have unmasked : Unmasked "example.com/evil?x=1" "example.com/evil?x=1" :=
    unmasked_iff.mpr (by decide)
  obtain ⟨path, read, _⟩ := structured _ _ _ _ _ rfl names unmasked
  have asked : (Address.ofText? "https://example.com/evil?x=1/.well-known/did.json").bind
      Address.query ≠ none := by decide
  exact asked (congrArg (Option.bind · Address.query) read)

end Web

end LinkedProof.Did
