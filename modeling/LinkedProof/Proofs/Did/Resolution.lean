import LinkedProof.Did.Resolver
import LinkedProof.Proofs.Did.Entries
import LinkedProof.Proofs.Http
import LinkedProof.Proofs.Text

/-! A run of the resolver for an issuer whose document is not held: the document is asked for, read
and searched for the key. What the run ends with is what the answer says. -/
namespace LinkedProof.Did

theorem Web.withoutFragment_of_notMem {did : Text} (whole : CodePoint.ofChar '#' ∉ did) :
    Web.withoutFragment did = did := Text.before_clear whole

namespace Resolver

variable {σ : Type}

def Answered (r : Resolver) (client : Http.Client σ) (did : Text) (s : σ) (data : Json) (t : σ) :
    Prop :=
  ∃ url status body, Web.url did = .ok url ∧
    client (r.request url) s = (.response status body, t) ∧ Http.isSuccess status = true ∧
      Json.parseBytes r.room body = .ok data

variable {r : Resolver} {client : Http.Client σ} {did issuer keyId : Text} {s t : σ} {data : Json}
  {d : Document} {table : CurveTable} {key : PublicKey} {cache : Cache}

def documentOf (r : Resolver) (did : Text) (reply : Http.Reply) : Outcome Document :=
  reply.value r.room >>= fun
    | .error fault => throw (.proof (.did (.exchange did fault)))
    | .ok value => Document.ofValue did value

theorem documentOf_ok {reply : Http.Reply} : r.documentOf did reply = .ok d ↔
    ∃ data, reply.value r.room = .ok (.ok data) ∧ Document.ofValue did data = .ok d := by
  rw [documentOf, Outcome.bind_ok]
  constructor
  · rintro ⟨fault | data, value, read⟩
    · cases read
    · exact ⟨data, value, read⟩
  · rintro ⟨data, value, read⟩
    exact ⟨.ok data, value, read⟩

theorem documentOf_object {reply : Http.Reply} : r.documentOf did reply = .ok d ↔
    ∃ data, reply.value r.room = .ok (.ok (.object data)) ∧ WellFormed did data ∧
      d = Document.ofEntries did data := by
  rw [documentOf_ok]
  constructor
  · rintro ⟨data, value, read⟩
    cases data with
    | object ms =>
      obtain ⟨formed, rfl⟩ := Document.ofValue_ok.mp read
      exact ⟨ms, value, formed, rfl⟩
    | _ => cases read
  · rintro ⟨ms, value, formed, rfl⟩
    exact ⟨_, value, Document.ofValue_ok.mpr ⟨formed, rfl⟩⟩

/-- A DID without an address has no request sent for it, and every other one has a single one. -/
theorem ends_fetch {o : Outcome Document} : (r.fetch client did).Ends s o t ↔
    (∃ failure, Web.url did = .error failure ∧ o = .error failure ∧ t = s) ∨
      ∃ url reply, Web.url did = .ok url ∧ client (r.request url) s = (reply, t) ∧
        r.documentOf did reply = o := by
  rw [fetch, Action.ends_bind]
  constructor
  · rintro (⟨url, _, opened, sent⟩ | ⟨failure, opened, rfl⟩)
    · obtain ⟨address, rfl⟩ := Action.ends_ofOutcome.mp opened
      refine .inr ⟨url, (client (r.request url) s).1, address, ?_⟩
      rcases Action.ends_bind.mp sent with ⟨fault | data, _, exchanged, read⟩ |
        ⟨failure, exchanged, rfl⟩
      · obtain ⟨value, rfl⟩ := Http.ends_exchange.mp exchanged
        obtain ⟨rfl, rfl⟩ := Action.ends_throw.mp read
        exact ⟨rfl, by rw [documentOf, value]; rfl⟩
      · obtain ⟨value, rfl⟩ := Http.ends_exchange.mp exchanged
        obtain ⟨rfl, rfl⟩ := Action.ends_ofOutcome.mp read
        exact ⟨rfl, by rw [documentOf, value]; rfl⟩
      · obtain ⟨value, rfl⟩ := Http.ends_exchange.mp exchanged
        exact ⟨rfl, by rw [documentOf, value]; rfl⟩
    · obtain ⟨address, rfl⟩ := Action.ends_ofOutcome.mp opened
      exact .inl ⟨failure, address, rfl, rfl⟩
  · rintro (⟨failure, address, rfl, rfl⟩ | ⟨url, reply, address, replied, rfl⟩)
    · exact .inr ⟨failure, Action.ends_ofOutcome.mpr ⟨address, rfl⟩, rfl⟩
    · refine .inl ⟨url, s, Action.ends_ofOutcome.mpr ⟨address, rfl⟩, Action.ends_bind.mpr ?_⟩
      have exchanged {value : Outcome (Except ExchangeFault Json)}
          (said : reply.value r.room = value) :
          (Http.exchange r.room client (r.request url)).Ends s value t := by
        rw [Http.ends_exchange, replied]
        exact ⟨said, rfl⟩
      cases value : reply.value r.room with
      | error failure =>
        exact .inr ⟨failure, exchanged value, by rw [documentOf, value]; rfl⟩
      | ok said =>
        refine .inl ⟨said, t, exchanged value, ?_⟩
        rw [documentOf, value]
        cases said with
        | error fault => exact Action.ends_throw.mpr ⟨rfl, rfl⟩
        | ok data => exact Action.ends_ofOutcome.mpr ⟨rfl, rfl⟩

theorem fetch_answered (answered : Answered r client did s data t) :
    (r.fetch client did).Ends s (Document.ofValue did data) t := by
  obtain ⟨url, status, body, address, replied, success, read⟩ := answered
  refine ends_fetch.mpr (.inr ⟨url, _, address, replied, ?_⟩)
  rw [documentOf, Http.Reply.value_ok.mpr ⟨status, body, rfl, success, read⟩]
  rfl

/-- A document comes from an answer only. -/
theorem answered_of_fetch (fetched : (r.fetch client did).Ends s (.ok d) t) :
    ∃ data, Answered r client did s data t ∧ Document.ofValue did data = .ok d := by
  rcases ends_fetch.mp fetched with ⟨_, _, stopped, _⟩ | ⟨url, reply, address, replied, said⟩
  · cases stopped
  · obtain ⟨data, value, read⟩ := documentOf_ok.mp said
    obtain ⟨status, body, rfl, success, parsed⟩ := Http.Reply.value_ok.mp value
    exact ⟨data, ⟨url, status, body, address, replied, success, parsed⟩, read⟩

theorem select_ok : r.select table d issuer keyId = .ok key ↔
    ∃ m jwk, d.method? keyId = some m ∧
      (∀ c rest, r.relationship = some (c :: rest) → d.authorizes keyId (c :: rest) = true) ∧
      m.key = some jwk ∧ jwk.isValid table = true ∧
      key = .jwk jwk (if m.type.isEmpty then PublicKey.defaultType else m.type) := by
  unfold select
  cases d.method? keyId with
  | none => simp
  | some m =>
    cases held : m.key with
    | none => rcases r.relationship with _ | _ | ⟨c, rest⟩ <;> simp [Outcome.guard_ok, held]
    | some jwk =>
      by_cases valid : jwk.isValid table = true
      · rcases r.relationship with _ | _ | ⟨c, rest⟩
        · simp [held, valid, @eq_comm _ _ key]
        · simp [held, valid, @eq_comm _ _ key]
        · simp only [Outcome.guard_ok]
          simp [held, valid, @eq_comm _ _ key]
      · rcases r.relationship with _ | _ | ⟨c, rest⟩
        · simp [held, valid]
        · simp [held, valid]
        · simp only [Outcome.guard_ok]
          simp [held, valid]

section Steps

variable {useCache : Bool}

/-- How the document of a DID is found: held, or fetched and then stored if the cache may be used. A
failure stores nothing. -/
inductive Resolves (r : Resolver) (client : Http.Client σ) (did : Text) (useCache : Bool) :
    Cache × σ → Outcome Document → Cache × σ → Prop
  | held {cache : Cache} {s : σ} {d : Document} (asked : useCache = true)
    (held : cache.get? did = some d) : Resolves r client did useCache (cache, s) (.ok d) (cache, s)
  | stored {cache : Cache} {s t : σ} {d : Document} (asked : useCache = true)
    (fresh : cache.get? did = none) (fetched : (r.fetch client did).Ends s (.ok d) t) :
    Resolves r client did useCache (cache, s) (.ok d) (cache.insert r.cacheSize did d, t)
  | passed {cache : Cache} {s t : σ} {d : Document} (unasked : useCache = false)
    (fetched : (r.fetch client did).Ends s (.ok d) t) :
    Resolves r client did useCache (cache, s) (.ok d) (cache, t)
  | failed {cache : Cache} {s t : σ} {failure : Failure}
    (fresh : useCache = true → cache.get? did = none)
    (stopped : (r.fetch client did).Ends s (.error failure) t) :
    Resolves r client did useCache (cache, s) (.error failure) (cache, t)

private def rest (r : Resolver) (client : Http.Client σ) (did : Text) (useCache : Bool) :
    Action (Cache × σ) Document := do
  let d ← (r.fetch client did).onSecond
  if useCache then modify fun (cache, s) => (cache.insert r.cacheSize did d, s)
  return d

private theorem ends_rest {o : Outcome Document} {cache cache' : Cache} :
    (rest r client did useCache).Ends (cache, s) o (cache', t) ↔ (r.fetch client did).Ends s o t ∧
      cache' = match o with
        | .ok d => if useCache then cache.insert r.cacheSize did d else cache
        | .error _ => cache := by
  rw [rest, Action.ends_bind]
  constructor
  · rintro (⟨d, ⟨_, _⟩, fetched, ended⟩ | ⟨failure, stopped, rfl⟩)
    · obtain ⟨fetched, rfl⟩ := Action.ends_onSecond.mp fetched
      cases useCache with
      | true =>
        obtain ⟨_, _, stored, ended⟩ | ⟨_, stored, _⟩ := Action.ends_bind.mp ended
        · obtain ⟨_, rfl⟩ := Action.ends_modify.mp stored
          obtain ⟨rfl, same⟩ := Action.ends_pure.mp ended
          obtain ⟨rfl, rfl⟩ := Prod.ext_iff.mp same
          exact ⟨fetched, rfl⟩
        · cases (Action.ends_modify.mp stored).1
      | false =>
        obtain ⟨rfl, same⟩ := Action.ends_pure.mp ended
        obtain ⟨rfl, rfl⟩ := Prod.ext_iff.mp same
        exact ⟨fetched, rfl⟩
    · obtain ⟨stopped, rfl⟩ := Action.ends_onSecond.mp stopped
      exact ⟨stopped, rfl⟩
  · rintro ⟨fetched, rfl⟩
    have second {o : Outcome Document} (fetched : (r.fetch client did).Ends s o t) :
        ((r.fetch client did).onSecond : Action (Cache × σ) Document).Ends (cache, s) o
          (cache, t) := Action.ends_onSecond.mpr ⟨fetched, rfl⟩
    cases o with
    | error failure => exact .inr ⟨failure, second fetched, rfl⟩
    | ok d =>
      refine .inl ⟨d, _, second fetched, ?_⟩
      cases useCache with
      | true =>
        refine Action.ends_bind.mpr (.inl ⟨⟨⟩, _, Action.ends_modify.mpr ⟨rfl, rfl⟩, ?_⟩)
        exact Action.ends_pure.mpr ⟨rfl, rfl⟩
      | false => exact Action.ends_pure.mpr ⟨rfl, rfl⟩

private theorem ends_opened {o : Outcome Document} {cache : Cache} {u : Cache × σ} :
    (r.resolve client did useCache).Ends (cache, s) o u ↔
      (match if useCache then cache.get? (Web.withoutFragment did) else none with
        | some d => pure d
        | none => rest r client (Web.withoutFragment did) useCache :
          Action (Cache × σ) Document).Ends (cache, s) o u := Iff.rfl

theorem ends_resolve {o : Outcome Document} {before after : Cache × σ} :
    (r.resolve client did useCache).Ends before o after ↔
      Resolves r client (Web.withoutFragment did) useCache before o after := by
  obtain ⟨cache, s⟩ := before
  obtain ⟨cache', t⟩ := after
  rw [ends_opened]
  cases useCache with
  | false =>
    rw [if_neg Bool.false_ne_true, ends_rest]
    constructor
    · rintro ⟨fetched, rfl⟩
      cases o with
      | ok d => exact .passed rfl fetched
      | error failure => exact .failed nofun fetched
    · intro resolves
      cases resolves with
      | held asked => cases asked
      | stored asked => cases asked
      | passed _ fetched => exact ⟨fetched, rfl⟩
      | failed _ stopped => exact ⟨stopped, rfl⟩
  | true =>
    rw [if_pos rfl]
    cases found : cache.get? (Web.withoutFragment did) with
    | some d =>
      rw [Action.ends_pure]
      constructor
      · rintro ⟨rfl, same⟩
        obtain ⟨rfl, rfl⟩ := Prod.ext_iff.mp same
        exact .held rfl found
      · intro resolves
        cases resolves with
        | held _ held => exact ⟨congrArg Except.ok (Option.some.inj (found.symm.trans held)), rfl⟩
        | stored _ fresh => cases found.symm.trans fresh
        | passed unasked => cases unasked
        | failed fresh => cases found.symm.trans (fresh rfl)
    | none =>
      rw [ends_rest]
      constructor
      · rintro ⟨fetched, rfl⟩
        cases o with
        | ok d => exact .stored rfl found fetched
        | error failure => exact .failed (fun _ => found) fetched
      · intro resolves
        cases resolves with
        | held _ held => cases found.symm.trans held
        | stored _ _ fetched => exact ⟨fetched, rfl⟩
        | passed unasked => cases unasked
        | failed _ stopped => exact ⟨stopped, rfl⟩

/-- A key is selected from the document that is found, without another look at the state. -/
theorem ends_key {o : Outcome PublicKey} {before after : Cache × σ} :
    (r.key client table issuer keyId).Ends before o after ↔
      ∃ found, Resolves r client (Web.withoutFragment issuer) true before found after ∧
        o = found >>= fun d => r.select table d issuer keyId := by
  rw [key, Action.ends_bind]
  constructor
  · rintro (⟨d, _, resolved, selected⟩ | ⟨failure, stopped, rfl⟩)
    · obtain ⟨rfl, rfl⟩ := Action.ends_ofOutcome.mp selected
      exact ⟨_, ends_resolve.mp resolved, rfl⟩
    · exact ⟨_, ends_resolve.mp stopped, rfl⟩
  · rintro ⟨found, resolves, rfl⟩
    cases found with
    | ok d => exact .inl ⟨d, _, ends_resolve.mpr resolves, Action.ends_ofOutcome.mpr ⟨rfl, rfl⟩⟩
    | error failure => exact .inr ⟨failure, ends_resolve.mpr resolves, rfl⟩

end Steps

section Uncached

variable (whole : CodePoint.ofChar '#' ∉ issuer) (fresh : cache.get? issuer = none)
include whole fresh

/-- A run for an issuer whose document is not held ends with what the fetched document gives. -/
private theorem ends_key_fetched {fetched : Outcome Document}
    (ended : (r.fetch client issuer).Ends s fetched t) :
    ∃ u, (r.key client table issuer keyId).Ends (cache, s)
      (fetched >>= fun d => r.select table d issuer keyId) u := by
  have resolves : ∃ u, Resolves r client issuer true (cache, s) fetched u := by
    cases fetched with
    | ok d => exact ⟨_, .stored rfl fresh ended⟩
    | error failure => exact ⟨_, .failed (fun _ => fresh) ended⟩
  obtain ⟨u, resolves⟩ := resolves
  rw [← Web.withoutFragment_of_notMem whole] at resolves
  exact ⟨u, ends_key.mpr ⟨fetched, resolves, rfl⟩⟩

/-- What a run of the resolver ends with is what the answer says. -/
theorem ends_key_answered (answered : Answered r client issuer s data t) :
    ∃ u, (r.key client table issuer keyId).Ends (cache, s)
      (Document.ofValue issuer data >>= fun d => r.select table d issuer keyId) u :=
  ends_key_fetched whole fresh (fetch_answered answered)

/-- A key comes from an answer only. -/
theorem key_ok : (∃ u, (r.key client table issuer keyId).Ends (cache, s) (.ok key) u) ↔
    ∃ data t d, Answered r client issuer s data t ∧ Document.ofValue issuer data = .ok d ∧
      r.select table d issuer keyId = .ok key := by
  constructor
  · rintro ⟨u, found⟩
    obtain ⟨fetched, t, ended⟩ := Action.ends_some (r.fetch client issuer) s
    obtain ⟨u', ended'⟩ := ends_key_fetched whole fresh ended
    obtain ⟨d, rfl, selected⟩ := Outcome.bind_ok.mp (ended'.unique found).1
    obtain ⟨data, answered, read⟩ := answered_of_fetch ended
    exact ⟨data, t, d, answered, read, selected⟩
  · rintro ⟨data, t, d, answered, read, selected⟩
    have ended : ∃ u, (r.key client table issuer keyId).Ends (cache, s) _ u :=
      ends_key_answered whole fresh answered
    rwa [Outcome.bind_ok.mpr ⟨d, read, selected⟩] at ended

end Uncached

end Resolver

end LinkedProof.Did
