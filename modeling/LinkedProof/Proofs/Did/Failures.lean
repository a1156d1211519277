import LinkedProof.Proofs.Did.Parsing
import LinkedProof.Proofs.Did.Resolution
import LinkedProof.Proofs.Json.Surrogate

/-! How a search for a key fails. It ends with a key or with a failure to resolve the DID, except
where the address cannot be written or the reply cannot be read: there what went wrong is passed on
as it is. -/
namespace LinkedProof.Did

namespace Web

/-- An identifier with a component that has no bytes for the path; the fault is that of the first
such component. -/
inductive Unwritable (did : Text) : EncodeFault → Prop
  | component {name segment : Text} {before after : List Text} {fault : EncodeFault}
    (names : Names did name (before ++ segment :: after)) (filled : name ≠ [])
    (whole : ∀ earlier ∈ before, ¬Json.Broken earlier)
    (broken : Utf8.encode segment = .error fault) : Unwritable did fault

variable {did : Text} {failure : Failure} {fault : EncodeFault}

private theorem components_error (stopped : components did = .error failure) :
    failure = .proof (.did (.identifier did)) := by
  rw [components] at stopped
  split at stopped
  · split at stopped
    · dsimp only at stopped
      split at stopped
      · exact (Except.error.inj stopped).symm
      · cases stopped
    · exact (Except.error.inj stopped).symm
  · exact (Except.error.inj stopped).symm

private theorem Unmasked.nil_iff {name host : Text} (unmasked : Unmasked name host) :
    host = [] ↔ name = [] := by
  cases unmasked with
  | nil => exact Iff.rfl
  | colon _ => exact iff_of_false (List.cons_ne_nil _ _) (List.cons_ne_nil _ _)
  | plain _ _ => exact iff_of_false (List.cons_ne_nil _ _) (List.cons_ne_nil _ _)

private theorem escapeSegment_some {segment : Text} :
    (∃ part, escapeSegment segment = .ok part) ↔ ¬Json.Broken segment := by
  simp only [escapeSegment_ok, exists_and_left, exists_eq, and_true, Json.Broken, not_exists,
    not_and, Bool.not_eq_true]

/-- An identifier has no address because it is none, or because its path cannot be written. -/
theorem url_error (stopped : url did = .error failure) :
    failure = .proof (.did (.identifier did)) ∨
      ∃ fault, Unwritable did fault ∧ failure = .unfit (.encoding fault) := by
  rcases Outcome.bind_error.mp stopped with unnamed | ⟨⟨host, segments⟩, named, unwritten⟩
  · exact .inl (components_error unnamed)
  · obtain ⟨filled, name, names, unmasked⟩ := components_ok.mp named
    cases segments with
    | nil => cases unwritten
    | cons segment rest =>
      rcases Outcome.bind_error.mp unwritten with escaping | ⟨_, _, done⟩
      · obtain ⟨before, part, after, shape, earlier, refused⟩ := mapM_error.mp escaping
        obtain ⟨fault, broken, rfl⟩ := escapeSegment_error.mp refused
        rw [shape] at names
        refine .inr ⟨fault, .component names (mt unmasked.nil_iff.mpr filled) ?_ broken, rfl⟩
        exact fun p member => escapeSegment_some.mp (earlier p member)
      · cases done

theorem Unwritable.url_error (unwritable : Unwritable did fault) :
    url did = .error (.unfit (.encoding fault)) := by
  cases unwritable with
  | @component name segment before after _ names filled whole broken =>
    have unmasked : Unmasked name (Text.replace maskedColon ":" name) := unmasked_iff.mpr rfl
    have named := components_ok.mpr ⟨mt unmasked.nil_iff.mp filled, name, names, unmasked⟩
    have refused := escapeSegment_error.mpr ⟨fault, broken, rfl⟩
    have escaping : (before ++ segment :: after).mapM escapeSegment =
        .error (.unfit (.encoding fault)) := by
      refine mapM_error.mpr ⟨before, segment, after, rfl, fun p member => ?_, refused⟩
      exact escapeSegment_some.mpr (whole p member)
    refine Outcome.bind_error.mpr (.inr ⟨_, named, ?_⟩)
    cases shape : before ++ segment :: after with
    | nil => cases before <;> cases shape
    | cons first rest =>
      rw [shape] at escaping
      exact Outcome.bind_error.mpr (.inl escaping)

end Web

namespace Resolver

variable {σ : Type}

/-- What a search for a key fails with that is no failure to resolve the DID. The document is not
held, and its address cannot be written, or what was replied stays a failure of another kind. -/
inductive Strays (r : Resolver) (client : Http.Client σ) (cache : Cache) (s : σ) (did : Text) :
    Failure → Prop
  | address {fault : EncodeFault} (fresh : cache.get? did = none)
    (unwritable : Web.Unwritable did fault) : Strays r client cache s did (.unfit (.encoding fault))
  | reply {url : Text} {failure : Failure} (fresh : cache.get? did = none)
    (address : Web.url did = .ok url)
    (escapes : (client (r.request url) s).1.Escapes r.room failure)
    (foreign : ¬IsUnresolved failure) : Strays r client cache s did failure

variable {r : Resolver} {client : Http.Client σ} {table : CurveTable} {issuer keyId did : Text}
  {cache : Cache} {s t : σ} {failure : Failure}

theorem select_resolving (r : Resolver) (table : CurveTable) (d : Document) (issuer keyId : Text) :
    Resolving (r.select table d issuer keyId) := by
  unfold select
  cases d.method? keyId with
  | none => exact .refused _
  | some m =>
    dsimp only
    cases m.key with
    | none =>
      rcases r.relationship with _ | _ | ⟨c, rest⟩
      · exact .refused _
      · exact .refused _
      · exact .guard _ (.refused _)
    | some key =>
      have held (type : Text) (fault : DidFault) : Resolving (if key.isValid table then
          pure (.jwk key type) else throw (.proof (.did fault)) : Outcome PublicKey) := by
        split
        · exact .ok _
        · exact .refused _
      rcases r.relationship with _ | _ | ⟨c, rest⟩
      · exact held _ _
      · exact held _ _
      · exact .guard _ (held _ _)

private theorem documentOf_error {reply : Http.Reply}
    (stopped : r.documentOf did reply = .error failure) :
    IsUnresolved failure ∨ reply.Escapes r.room failure := by
  rcases Outcome.bind_error.mp stopped with unread | ⟨fault | data, _, refused⟩
  · exact .inr (Http.Reply.value_error_iff.mp unread)
  · obtain rfl := Except.error.inj refused
    exact .inl (isUnresolved_did _)
  · exact .inl (Document.ofValue_resolving did data failure refused)

private theorem fetch_error (stopped : (r.fetch client did).Ends s (.error failure) t)
    (fresh : cache.get? did = none) :
    IsUnresolved failure ∨ Strays r client cache s did failure := by
  by_cases unresolved : IsUnresolved failure
  · exact .inl unresolved
  refine .inr ?_
  rcases ends_fetch.mp stopped with ⟨_, unaddressed, ⟨⟩, _⟩ | ⟨url, reply, address, replied, said⟩
  · rcases Web.url_error unaddressed with rfl | ⟨fault, unwritable, rfl⟩
    · exact absurd (isUnresolved_did _) unresolved
    · exact .address fresh unwritable
  · rcases documentOf_error said with refused | escapes
    · exact absurd refused unresolved
    · refine .reply fresh address ?_ unresolved
      rw [replied]
      exact escapes

theorem Strays.fetch_error (strays : Strays r client cache s did failure) :
    cache.get? did = none ∧ ∃ t, (r.fetch client did).Ends s (.error failure) t := by
  cases strays with
  | address fresh unwritable =>
    exact ⟨fresh, s, ends_fetch.mpr (.inl ⟨_, unwritable.url_error, rfl, rfl⟩)⟩
  | reply fresh address escapes _ =>
    refine ⟨fresh, _, ends_fetch.mpr (.inr ⟨_, _, address, rfl, ?_⟩)⟩
    exact Outcome.bind_error.mpr (.inl (Http.Reply.value_error_iff.mpr escapes))

/-- Nothing takes hold of what strays: the search ends with it. -/
theorem Strays.ends (strays : Strays r client cache s (Web.withoutFragment issuer) failure)
    (table : CurveTable) (keyId : Text) : ∃ u, (r.key client table issuer keyId).Ends (cache, s)
      (.error failure) u := by
  obtain ⟨fresh, t, stopped⟩ := strays.fetch_error
  exact ⟨_, ends_key.mpr ⟨_, .failed (fun _ => fresh) stopped, rfl⟩⟩

theorem Strays.not_isUnresolved (strays : Strays r client cache s did failure) :
    ¬IsUnresolved failure := by
  cases strays with
  | address _ _ => rintro ⟨_, ⟨⟩, _⟩
  | reply _ _ _ foreign => exact foreign

/-- Every search for a key ends, with a key that has its members, with a failure to resolve the
DID, or with what strays; and what strays is passed on. -/
theorem key_settled (r : Resolver) (client : Http.Client σ) (table : CurveTable)
    (issuer keyId : Text) (cache : Cache) (s : σ) :
    ∃ o u, (r.key client table issuer keyId).Ends (cache, s) o u ∧
      (∀ key, o = .ok key → ∃ jwk type, key = .jwk jwk type) ∧
      ∀ failure, o = .error failure ∧ ¬IsUnresolved failure ↔
        Strays r client cache s (Web.withoutFragment issuer) failure := by
  obtain ⟨o, u, ended⟩ := Action.ends_some (r.key client table issuer keyId) (cache, s)
  refine ⟨o, u, ended, ?_, fun failure => ⟨?_, fun strays => ?_⟩⟩
  · rintro key rfl
    obtain ⟨found, _, selected⟩ := ends_key.mp ended
    obtain ⟨d, _, selected⟩ := Outcome.bind_ok.mp selected.symm
    obtain ⟨_, jwk, _, _, _, _, rfl⟩ := select_ok.mp selected
    exact ⟨jwk, _, rfl⟩
  · rintro ⟨rfl, foreign⟩
    obtain ⟨found, resolves, selected⟩ := ends_key.mp ended
    rcases Outcome.bind_error.mp selected.symm with rfl | ⟨d, _, refused⟩
    · cases resolves with
      | failed fresh stopped => exact (fetch_error stopped (fresh rfl)).resolve_left foreign
    · exact absurd (select_resolving r table d issuer keyId failure refused) foreign
  · obtain ⟨u', ended'⟩ := strays.ends table keyId
    exact ⟨(ended.unique ended').1, strays.not_isUnresolved⟩

def refusing : Http.Client Unit := fun _ s => (.failed (.external .invalidUrl "Invalid port"), s)

def half : CodePoint := CodePoint.ofNat 0xD800

def halved : Text := Text.ofString "did:web:a:" ++ [half]

theorem halved_unwritable : Web.Unwritable (Web.withoutFragment halved) ⟨0, 1, half⟩ := by
  have names : Web.Names (Web.withoutFragment halved) "a" ([] ++ [half] :: []) :=
    Web.names_iff.mpr ⟨by decide, by decide⟩
  exact .component names (List.cons_ne_nil _ _) nofun rfl

theorem refusing_strays :
    Strays (standard Json.usualRoom) refusing [] () (Web.withoutFragment "did:web:a%3Aport")
      (.external .invalidUrl "Invalid port") :=
  .reply rfl (show Web.url _ = .ok "https://a:port/.well-known/did.json" from rfl)
    (.foreign rfl rfl) (by rintro ⟨_, ⟨⟩, _⟩)

/-- Two ways to stray: a component that cannot be written, and an address that is refused. -/
theorem key_settled_strays :
    (∃ u, ((standard Json.usualRoom).key refusing .initial halved "#k").Ends ([], ())
      (.error (.unfit (.encoding ⟨0, 1, half⟩))) u) ∧
    ∃ u, ((standard Json.usualRoom).key refusing .initial "did:web:a%3Aport" "#k").Ends ([], ())
      (.error (.external .invalidUrl "Invalid port")) u := by
  obtain ⟨o, u, ended, _, strays⟩ :=
    key_settled (standard Json.usualRoom) refusing .initial halved "#k" [] ()
  obtain ⟨o', u', ended', _, strays'⟩ :=
    key_settled (standard Json.usualRoom) refusing .initial "did:web:a%3Aport" "#k" [] ()
  obtain ⟨rfl, _⟩ := (strays _).mpr (.address rfl halved_unwritable)
  obtain ⟨rfl, _⟩ := (strays' _).mpr refusing_strays
  exact ⟨⟨u, ended⟩, u', ended'⟩

/-- A search can fail with what is no failure to resolve the DID, before a request is sent and
behind it. -/
theorem key_not_settled :
    (¬∀ (client : Http.Client Unit) (issuer : Text) (failure : Failure) (u : Cache × Unit),
      ((standard Json.usualRoom).key client .initial issuer "#k").Ends ([], ()) (.error failure) u →
      IsUnresolved failure) ∧
    ¬∀ (client : Http.Client Unit) (issuer : Text) (failure : Failure) (u : Cache × Unit),
      (∃ url, Web.url (Web.withoutFragment issuer) = .ok url) →
      ((standard Json.usualRoom).key client .initial issuer "#k").Ends ([], ()) (.error failure) u →
      IsUnresolved failure := by
  constructor
  · intro settled
    have strays : Strays (standard Json.usualRoom) refusing [] () (Web.withoutFragment halved) _ :=
      .address rfl halved_unwritable
    obtain ⟨u, ended⟩ := strays.ends .initial "#k"
    exact strays.not_isUnresolved (settled _ _ _ _ ended)
  · intro settled
    obtain ⟨u, ended⟩ := refusing_strays.ends .initial "#k"
    exact refusing_strays.not_isUnresolved (settled _ _ _ _ ⟨_, rfl⟩ ended)

end Resolver

end LinkedProof.Did
