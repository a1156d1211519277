import LinkedProof.Method
import LinkedProof.Proofs.Action
import LinkedProof.Proofs.Text

/-! Keys by verification method. A text names a method by what stands in front of its first mark and
behind it. A table has for the method the key that was stored last under the whole text, or failing
that the one stored last under the fragment, and nothing else that was ever stored counts. -/
namespace LinkedProof

namespace Method

variable {t : Text} {m : Method} {failure : Failure}

theorem ofText_ok : ofText t = .ok m ↔
    t = m.text ∧ CodePoint.ofChar '#' ∉ m.issuer ∧ m.issuer ≠ [] ∧ m.fragment ≠ [] := by
  have parts (issuer fragment : Text) := @Text.cut?_eq_some (CodePoint.ofChar '#') t issuer fragment
  unfold ofText
  constructor
  · intro ok
    split at ok
    · rename_i issuer fragment cut
      obtain ⟨shape, clear⟩ := (parts _ _).mp cut
      split at ok
      · cases ok
      · rename_i filled
        obtain rfl := Except.ok.inj ok
        simp only [Bool.or_eq_true, List.isEmpty_iff, not_or] at filled
        exact ⟨shape, clear, filled⟩
    · cases ok
  · rintro ⟨rfl, clear, issuer, fragment⟩
    have cut := (parts m.issuer m.fragment).mpr ⟨rfl, clear⟩
    rw [cut]
    simp [issuer, fragment]

theorem ofText_error (stopped : ofText t = .error failure) :
    failure = .proof (.methodWithoutFragment t) := by
  unfold ofText at stopped
  split at stopped
  · split at stopped
    · exact (Except.error.inj stopped).symm
    · cases stopped
  · exact (Except.error.inj stopped).symm

theorem keyId_ne_text (named : ofText t = .ok m) : m.keyId ≠ m.text := by
  obtain ⟨_, _, filled, _⟩ := ofText_ok.mp named
  simpa [text] using filled

/-- With another issuer the fragment makes another method, and still no fragment alone. -/
theorem append_keyId_ne (named : ofText t = .ok m) {issuer : Text} (filled : issuer ≠ [])
    (other : issuer ≠ m.issuer) : issuer ++ m.keyId ≠ t ∧ issuer ++ m.keyId ≠ m.keyId := by
  obtain ⟨rfl, _⟩ := ofText_ok.mp named
  exact ⟨fun same => other (List.append_cancel_right same), by simpa using filled⟩

end Method

def PublicKey.IsKey : PublicKey → Prop
  | .other _ => False
  | _ => True

theorem PublicKey.IsKey.filled {key : PublicKey} (proper : key.IsKey) :
    key.isEmpty = false ∧ key.isNull = false := by
  cases key with
  | other => exact proper.elim
  | jwk => exact ⟨rfl, rfl⟩
  | encoded => exact ⟨rfl, rfl⟩
  | bound => exact ⟨rfl, rfl⟩

namespace KeyTable

variable {t : KeyTable} {history history' : List (Text × PublicKey)} {id : Text} {key : PublicKey}

def addEach (t : KeyTable) (adds : List (Text × PublicKey)) : KeyTable :=
  adds.foldl (fun t entry => t.add entry.1 entry.2) t

theorem get?_add (t : KeyTable) (id other : Text) (key : PublicKey) :
    (t.add id key).get? other = if id = other then some key else t.get? other := by
  induction t with
  | nil => rfl
  | cons first rest ih =>
    obtain ⟨k, held⟩ := first
    by_cases same : k = id
    · subst same
      by_cases wanted : k = other
      · simp [add, get?, wanted]
      · simp [add, get?, wanted]
    · by_cases wanted : k = other
      · subst wanted
        simp [add, get?, same, Ne.symm same]
      · simp [add, get?, same, wanted, ih]

/-- Of the entries stored one after another the last one under an id has this key. -/
def LastStored (history : List (Text × PublicKey)) (id : Text) (key : PublicKey) : Prop :=
  ∃ before after, history = before ++ (id, key) :: after ∧ ∀ entry ∈ after, entry.1 ≠ id

def last? (id : Text) (history : List (Text × PublicKey)) : Option PublicKey :=
  (history.reverse.find? (·.1 = id)).map (·.2)

theorem last?_eq_some : last? id history = some key ↔ LastStored history id key := by
  rw [last?, Option.map_eq_some_iff]
  simp only [List.find?_eq_some_iff_append]
  constructor
  · rintro ⟨⟨_, _⟩, ⟨same, after, before, parted, others⟩, rfl⟩
    obtain rfl := of_decide_eq_true same
    refine ⟨before.reverse, after.reverse, ?_, fun entry member => ?_⟩
    · rw [← List.reverse_reverse history, parted]
      simp
    · simpa using others entry (List.mem_reverse.mp member)
  · rintro ⟨before, after, rfl, others⟩
    refine ⟨(id, key), ⟨by simp, after.reverse, before.reverse, by simp, ?_⟩, rfl⟩
    intro entry member
    simpa using others entry (List.mem_reverse.mp member)

theorem last?_eq_none : last? id history = none ↔ ∀ entry ∈ history, entry.1 ≠ id := by
  simp [last?]

theorem last?_append (id : Text) (history adds : List (Text × PublicKey)) :
    last? id (history ++ adds) = (last? id adds).or (last? id history) := by
  simp [last?, List.find?_append, Option.map_or]

theorem last?_singleton (id : Text) (entry : Text × PublicKey) :
    last? id [entry] = if entry.1 = id then some entry.2 else none := by
  by_cases same : entry.1 = id <;> simp [last?, same]

theorem last?_filter (id : Text) (history : List (Text × PublicKey)) :
    last? id (history.filter (·.1 = id)) = last? id history := by
  simp [last?, ← List.filter_reverse, List.find?_filter]

/-- A table that has under each id what was stored last under it. -/
def Tracks (t : KeyTable) (history : List (Text × PublicKey)) : Prop :=
  ∀ id, t.get? id = last? id history

theorem Tracks.add (tracks : Tracks t history) (entry : Text × PublicKey) :
    Tracks (t.add entry.1 entry.2) (history ++ [entry]) := by
  intro id
  rw [get?_add, last?_append, last?_singleton, tracks]
  split <;> rfl

theorem Tracks.addEach (tracks : Tracks t history) (adds : List (Text × PublicKey)) :
    Tracks (t.addEach adds) (history ++ adds) := by
  induction adds generalizing t history with
  | nil => rwa [List.append_nil]
  | cons entry adds ih =>
    have followed := ih (tracks.add entry)
    rwa [List.append_assoc, List.singleton_append] at followed

/-- The entries of a mapping might have been stored in their order. -/
theorem tracks_self (distinct : (t.map Prod.fst).Nodup) : Tracks t t := by
  induction t with
  | nil => exact fun id => rfl
  | cons first rest ih =>
    rw [List.map_cons, List.nodup_cons] at distinct
    obtain ⟨fresh, distinct⟩ := distinct
    intro id
    rw [← List.singleton_append, last?_append, last?_singleton, List.singleton_append, get?]
    by_cases same : first.1 = id
    · have unstored : last? id rest = none := by
        rw [last?_eq_none]
        rintro entry member rfl
        exact fresh (same ▸ List.mem_map_of_mem member)
      rw [if_pos same, if_pos same, unstored, Option.none_or]
    · rw [if_neg same, if_neg same, ih distinct, Option.or_none]

/-- What a table with this history has for a method: the key stored last under the whole method, or
failing that the one stored last under its fragment. -/
inductive Answers (history : List (Text × PublicKey)) (m : Method) : Outcome PublicKey → Prop
  | whole {key : PublicKey} (stored : LastStored history m.text key) : Answers history m (.ok key)
  | fragment {key : PublicKey} (unstored : ∀ entry ∈ history, entry.1 ≠ m.text)
    (stored : LastStored history m.keyId key) : Answers history m (.ok key)
  | unknown (unstored : ∀ entry ∈ history, entry.1 ≠ m.text ∧ entry.1 ≠ m.keyId) :
    Answers history m (.error (.proof (.unknownMethod m.text)))

theorem resolve_eq (keys : ∀ id key, t.get? id = some key → key.IsKey) (m : Method) :
    t.resolve m.issuer m.keyId = match (t.get? m.text).or (t.get? m.keyId) with
      | some key => .ok key
      | none => .error (.proof (.unknownMethod m.text)) := by
  have parts : m.issuer ++ m.keyId = m.text := rfl
  rw [resolve, parts]
  cases whole : t.get? m.text with
  | some key =>
    rw [Option.filter_some_pos (by simp [(keys _ _ whole).filled])]
    rfl
  | none =>
    cases fragment : t.get? m.keyId with
    | some key =>
      rw [Option.filter_some_pos (by simp [(keys _ _ fragment).filled])]
      rfl
    | none => rfl

theorem Tracks.resolve_iff (tracks : Tracks t history)
    (keys : ∀ entry ∈ history, entry.2.IsKey) {m : Method} {outcome : Outcome PublicKey} :
    t.resolve m.issuer m.keyId = outcome ↔ Answers history m outcome := by
  have found (id : Text) (key : PublicKey) (got : t.get? id = some key) : key.IsKey := by
    obtain ⟨before, after, rfl, _⟩ := last?_eq_some.mp ((tracks id).symm.trans got)
    exact keys (id, key) (by simp)
  rw [resolve_eq found, tracks, tracks]
  constructor
  · rintro rfl
    cases whole : last? m.text history with
    | some key => exact .whole (last?_eq_some.mp whole)
    | none =>
      have unstored := last?_eq_none.mp whole
      cases fragment : last? m.keyId history with
      | some key => exact .fragment unstored (last?_eq_some.mp fragment)
      | none =>
        have unstored' := last?_eq_none.mp fragment
        exact .unknown fun entry member => ⟨unstored entry member, unstored' entry member⟩
  · rintro (stored | ⟨unstored, stored⟩ | unstored)
    · rw [last?_eq_some.mpr stored, Option.some_or]
    · rw [last?_eq_none.mpr unstored, last?_eq_some.mpr stored, Option.none_or]
    · rw [last?_eq_none.mpr fun entry member => (unstored entry member).1,
        last?_eq_none.mpr fun entry member => (unstored entry member).2, Option.none_or]

/-- Tables with the same history under a method and under its fragment agree about it. -/
theorem Tracks.resolve_congr {t' : KeyTable} (tracks : Tracks t history)
    (tracks' : Tracks t' history') {m : Method}
    (agree : ∀ id, id = m.text ∨ id = m.keyId →
      history'.filter (·.1 = id) = history.filter (·.1 = id)) :
    t'.resolve m.issuer m.keyId = t.resolve m.issuer m.keyId := by
  have same (id : Text) (concerned : id = m.text ∨ id = m.keyId) : t'.get? id = t.get? id := by
    rw [tracks, tracks', ← last?_filter id history', agree id concerned, last?_filter]
  have whole : t'.get? (m.issuer ++ m.keyId) = t.get? (m.issuer ++ m.keyId) := same _ (.inl rfl)
  rw [resolve, resolve, whole, same m.keyId (.inr rfl)]

/-- Keys by verification methods. A text is split exactly if something stands on both sides of its
first mark, and into parts that make it up again. For these parts a table that began with any
mapping and had any keys added to it gives the key that was stored last under the whole text, or
failing that the one stored last under the fragment, or else the failure to know the method. What is
stored under any other id, such as another issuer with the same fragment, makes no difference. -/
theorem methods_resolved (initial : KeyTable) (adds : List (Text × PublicKey))
    (distinct : (initial.map Prod.fst).Nodup)
    (keys : ∀ entry ∈ initial ++ adds, entry.2.IsKey) (t : Text) :
    ((∃ m, Method.ofValue (.text t) = .ok m) ↔ ∃ issuer fragment,
      t = issuer ++ CodePoint.ofChar '#' :: fragment ∧ CodePoint.ofChar '#' ∉ issuer ∧
        issuer ≠ [] ∧ fragment ≠ []) ∧
    ((¬∃ m, Method.ofValue (.text t) = .ok m) →
      Method.ofValue (.text t) = .error (.proof (.methodWithoutFragment t))) ∧
    ∀ m, Method.ofValue (.text t) = .ok m →
      (m.issuer ++ m.keyId = t ∧ CodePoint.ofChar '#' ∉ m.issuer) ∧
      (∀ (σ : Type) (s s' : σ) (outcome : Outcome PublicKey),
        ((initial.addEach adds).fetcher m.issuer m.keyId).Ends s outcome s' ↔
          Answers (initial ++ adds) m outcome ∧ s = s') ∧
      (∀ issuer, issuer ≠ [] → issuer ≠ m.issuer →
        issuer ++ m.keyId ≠ t ∧ issuer ++ m.keyId ≠ m.keyId) ∧
      ∀ (initial' : KeyTable) (adds' : List (Text × PublicKey)),
        (initial'.map Prod.fst).Nodup →
        (∀ id, id = t ∨ id = m.keyId →
          (initial' ++ adds').filter (·.1 = id) = (initial ++ adds).filter (·.1 = id)) →
        (initial'.addEach adds').resolve m.issuer m.keyId =
          (initial.addEach adds).resolve m.issuer m.keyId := by
  have tracks := (tracks_self distinct).addEach adds
  refine ⟨⟨?_, ?_⟩, fun unnamed => ?_, fun m named => ?_⟩
  · rintro ⟨m, named⟩
    exact ⟨m.issuer, m.fragment, Method.ofText_ok.mp named⟩
  · rintro ⟨issuer, fragment, parts⟩
    exact ⟨⟨issuer, fragment⟩, Method.ofText_ok.mpr parts⟩
  · cases split : Method.ofValue (.text t) with
    | ok m => exact absurd ⟨m, split⟩ unnamed
    | error failure => rw [Method.ofText_error split]
  · obtain ⟨whole, clear, _⟩ := Method.ofText_ok.mp named
    refine ⟨⟨whole.symm, clear⟩, fun σ s s' outcome => ?_,
      fun issuer => Method.append_keyId_ne named, fun initial' adds' distinct' agree => ?_⟩
    · rw [fetcher, Action.ends_ofOutcome, tracks.resolve_iff keys]
    · rw [whole] at agree
      exact tracks.resolve_congr ((tracks_self distinct').addEach adds') agree

section Shared

def keyNamed (kid : Text) : PublicKey :=
  .jwk (Jwk.ofMembers [("kid", .text kid)]) PublicKey.defaultType

def shared : KeyTable := [("#k", keyNamed "any"), ("did:a#k", keyNamed "old")]

def renewed : List (Text × PublicKey) := [("did:a#k", keyNamed "new"), ("did:b#k", keyNamed "b")]

theorem methods_resolved_shared : (shared.map Prod.fst).Nodup ∧
    (∀ entry ∈ shared ++ renewed, entry.2.IsKey) ∧
    ((shared.addEach renewed).fetcher "did:a" "#k").Ends () (.ok (keyNamed "new")) () ∧
    ((shared.addEach renewed).fetcher "did:c" "#k").Ends () (.ok (keyNamed "any")) () ∧
    ((shared.addEach renewed).fetcher "did:a" "#x#k").Ends ()
      (.error (.proof (.unknownMethod "did:a#x#k"))) () := by
  have distinct : (shared.map Prod.fst).Nodup := by decide
  have keys : ∀ entry ∈ shared ++ renewed, entry.2.IsKey := by
    simp [shared, renewed, keyNamed, PublicKey.IsKey]
  refine ⟨distinct, keys, ?_, ?_, ?_⟩
  · obtain ⟨_, _, resolved⟩ := methods_resolved shared renewed distinct keys "did:a#k"
    obtain ⟨_, answers, _⟩ := resolved ⟨"did:a", "k"⟩ rfl
    have stored : LastStored (shared ++ renewed) "did:a#k" (keyNamed "new") :=
      ⟨shared, renewed.tail, rfl, by decide⟩
    exact (answers _ _ _ _).mpr ⟨.whole stored, rfl⟩
  · obtain ⟨_, _, resolved⟩ := methods_resolved shared renewed distinct keys "did:c#k"
    obtain ⟨_, answers, _⟩ := resolved ⟨"did:c", "k"⟩ rfl
    have stored : LastStored (shared ++ renewed) "#k" (keyNamed "any") :=
      ⟨[], shared.tail ++ renewed, rfl, by decide⟩
    exact (answers _ _ _ _).mpr ⟨.fragment (by decide) stored, rfl⟩
  · obtain ⟨_, _, resolved⟩ := methods_resolved shared renewed distinct keys "did:a#x#k"
    obtain ⟨_, answers, _⟩ := resolved ⟨"did:a", "x#k"⟩ rfl
    exact (answers _ _ _ _).mpr ⟨.unknown (by decide), rfl⟩

end Shared

end KeyTable

end LinkedProof
