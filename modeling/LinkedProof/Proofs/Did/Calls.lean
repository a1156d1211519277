import LinkedProof.Proofs.Did.Resolution
import LinkedProof.Proofs.Run

/-! Calls on a resolver, each of them on the cache that the one before it left. A call for a document
is told with the requests that it sent, the replies to them and what it found. -/
namespace LinkedProof

namespace Http

abbrev Exchange := Request × Reply

def Client.recorded {σ : Type} (client : Client σ) : Client (List Exchange × σ) :=
  fun request (past, s) =>
    let (reply, s) := client request s
    (reply, (past ++ [(request, reply)], s))

end Http

namespace Did.Resolver

variable {σ : Type} {r : Resolver} {client : Http.Client σ} {table : CurveTable}
  {cache cache' : Cache} {s s' : σ}

inductive Call
  | resolve (did : Text) (useCache : Bool)
  | key (issuer keyId : Text)
  | clear

structure Lookup where
  did : Text
  useCache : Bool
  exchanges : List Http.Exchange
  found : Outcome Document

/-- A call with what came of it. A key is looked for in the document of its issuer. -/
inductive Event
  | resolved (lookup : Lookup)
  | keyed (lookup : Lookup) (keyId : Text) (key : Outcome PublicKey)
  | cleared

namespace Event

def call : Event → Call
  | resolved l => .resolve l.did l.useCache
  | keyed l keyId _ => .key l.did keyId
  | cleared => .clear

def lookup? : Event → Option Lookup
  | resolved l => some l
  | keyed l _ _ => some l
  | cleared => none

end Event

def Lookup.Ends (r : Resolver) (client : Http.Client σ) (before : Cache × σ) (l : Lookup)
    (after : Cache × σ) : Prop :=
  (r.resolve client.recorded l.did l.useCache).Ends (before.1, ([], before.2)) l.found
    (after.1, (l.exchanges, after.2))

inductive Performs (r : Resolver) (client : Http.Client σ) (table : CurveTable) :
    Cache × σ → Event → Cache × σ → Prop
  | resolved {before after : Cache × σ} {l : Lookup} (ended : l.Ends r client before after) :
    Performs r client table before (.resolved l) after
  | keyed {before after : Cache × σ} {l : Lookup} {keyId : Text} {key : Outcome PublicKey}
    (cached : l.useCache = true) (opened : l.Ends r client before after)
    (ended : (r.key client.recorded table l.did keyId).Ends (before.1, ([], before.2)) key
      (after.1, (l.exchanges, after.2))) :
    Performs r client table before (.keyed l keyId key) after
  | cleared {before after : Cache × σ} (ended : (clear : Action (Cache × σ) Unit).Ends before
      (.ok ()) after) :
    Performs r client table before .cleared after

inductive Lookup.Leaves (r : Resolver) : Cache → Lookup → Cache → Prop
  | held {cache : Cache} {did : Text} {d : Document}
    (held : cache.get? (Web.withoutFragment did) = some d) :
    Leaves r cache ⟨did, true, [], .ok d⟩ cache
  | stored {cache : Cache} {did url : Text} {reply : Http.Reply} {d : Document}
    (fresh : cache.get? (Web.withoutFragment did) = none)
    (address : Web.url (Web.withoutFragment did) = .ok url)
    (said : r.documentOf (Web.withoutFragment did) reply = .ok d) :
    Leaves r cache ⟨did, true, [(r.request url, reply)], .ok d⟩
      (cache.insert r.cacheSize (Web.withoutFragment did) d)
  | passed {cache : Cache} {did url : Text} {reply : Http.Reply} {d : Document}
    (address : Web.url (Web.withoutFragment did) = .ok url)
    (said : r.documentOf (Web.withoutFragment did) reply = .ok d) :
    Leaves r cache ⟨did, false, [(r.request url, reply)], .ok d⟩ cache
  | failed {cache : Cache} {did : Text} {useCache : Bool} {exchanges : List Http.Exchange}
    {failure : Failure} (fresh : useCache = true → cache.get? (Web.withoutFragment did) = none)
    (single : exchanges.length ≤ 1) :
    Leaves r cache ⟨did, useCache, exchanges, .error failure⟩ cache

section Lookups

variable {l : Lookup} {did : Text} {exchanges : List Http.Exchange} {o : Outcome Document}

/-- A document that is fetched comes with the single reply that gave it. -/
private theorem fetched_recorded (fetched : (r.fetch client.recorded did).Ends ([], s) o
    (exchanges, s')) :
    exchanges.length ≤ 1 ∧ ∀ d, o = .ok d → ∃ url reply, exchanges = [(r.request url, reply)] ∧
      Web.url did = .ok url ∧ r.documentOf did reply = .ok d := by
  rcases ends_fetch.mp fetched with ⟨failure, _, rfl, same⟩ | ⟨url, reply, address, replied, rfl⟩
  · obtain ⟨rfl, rfl⟩ := Prod.mk.inj same
    exact ⟨Nat.zero_le 1, nofun⟩
  · obtain ⟨rfl, same⟩ := Prod.mk.inj replied
    obtain ⟨rfl, rfl⟩ := Prod.mk.inj same
    exact ⟨Nat.le_refl 1, fun d said => ⟨_, _, rfl, address, said⟩⟩

/-- Keeping the exchanges makes no difference to a fetch. -/
private theorem fetch_unrecorded {past : List Http.Exchange}
    (fetched : (r.fetch client.recorded did).Ends (past, s) o (exchanges, s')) :
    (r.fetch client did).Ends s o s' := by
  rcases ends_fetch.mp fetched with ⟨failure, address, rfl, same⟩ | ⟨url, _, address, replied, rfl⟩
  · obtain ⟨_, rfl⟩ := Prod.mk.inj same
    exact ends_fetch.mpr (.inl ⟨failure, address, rfl, rfl⟩)
  · obtain ⟨rfl, same⟩ := Prod.mk.inj replied
    obtain ⟨_, rfl⟩ := Prod.mk.inj same
    exact ends_fetch.mpr (.inr ⟨url, _, address, rfl, rfl⟩)

theorem Lookup.resolves (ended : l.Ends r client (cache, s) (cache', s')) :
    Resolves r client (Web.withoutFragment l.did) l.useCache (cache, s) l.found (cache', s') := by
  obtain ⟨did, useCache, exchanges, found⟩ := l
  have resolves := ends_resolve.mp ended
  dsimp only at resolves ⊢
  cases resolves with
  | held asked held => exact .held asked held
  | stored asked fresh fetched => exact .stored asked fresh (fetch_unrecorded fetched)
  | passed unasked fetched => exact .passed unasked (fetch_unrecorded fetched)
  | failed fresh stopped => exact .failed fresh (fetch_unrecorded stopped)

theorem Lookup.leaves_of_ends (ended : l.Ends r client (cache, s) (cache', s')) :
    l.Leaves r cache cache' := by
  obtain ⟨did, useCache, exchanges, found⟩ := l
  have resolves := ends_resolve.mp ended
  dsimp only at resolves
  cases resolves with
  | held asked held =>
    subst asked
    exact .held held
  | stored asked fresh fetched =>
    subst asked
    obtain ⟨url, reply, rfl, address, said⟩ := (fetched_recorded fetched).2 _ rfl
    exact .stored fresh address said
  | passed unasked fetched =>
    subst unasked
    obtain ⟨url, reply, rfl, address, said⟩ := (fetched_recorded fetched).2 _ rfl
    exact .passed address said
  | failed fresh stopped => exact .failed fresh (fetched_recorded stopped).1

end Lookups

/-- A search that may not use the cache is the same with every other one. -/
theorem Lookup.ends_uncached {l : Lookup} (unasked : l.useCache = false)
    (ended : l.Ends r client (cache, s) (cache', s')) (other : Cache) :
    l.Ends r client (other, s) (other, s') := by
  obtain ⟨did, useCache, exchanges, found⟩ := l
  have resolves := ends_resolve.mp ended
  refine ends_resolve.mpr ?_
  dsimp only at unasked resolves ⊢
  cases resolves with
  | held asked => cases unasked.symm.trans asked
  | stored asked => cases unasked.symm.trans asked
  | passed _ fetched => exact .passed unasked fetched
  | failed _ stopped => exact .failed (fun asked => nomatch unasked.symm.trans asked) stopped

/-- A key is what is selected from the document that was found. -/
theorem Performs.selected {before after : Cache × σ} {l : Lookup} {keyId : Text}
    {key : Outcome PublicKey} (performs : Performs r client table before (.keyed l keyId key) after) :
    key = l.found >>= fun d => r.select table d l.did keyId := by
  cases performs with
  | keyed cached opened ended =>
    rw [Lookup.Ends, cached] at opened
    obtain ⟨found, resolves, rfl⟩ := ends_key.mp ended
    rw [(Action.Ends.unique opened (ends_resolve.mpr resolves)).1]

/-- Every call ends, on every cache and whatever the server replies. -/
theorem performs_some (r : Resolver) (client : Http.Client σ) (table : CurveTable)
    (before : Cache × σ) (call : Call) :
    ∃ event after, event.call = call ∧ Performs r client table before event after := by
  have search (did : Text) (useCache : Bool) : ∃ exchanges found after,
      Lookup.Ends r client before ⟨did, useCache, exchanges, found⟩ after := by
    obtain ⟨found, ⟨cache, exchanges, t⟩, ended⟩ :=
      Action.ends_some (r.resolve client.recorded did useCache) (before.1, ([], before.2))
    exact ⟨exchanges, found, (cache, t), ended⟩
  cases call with
  | resolve did useCache =>
    obtain ⟨exchanges, found, after, ended⟩ := search did useCache
    exact ⟨_, after, rfl, .resolved ended⟩
  | key issuer keyId =>
    obtain ⟨exchanges, found, after, opened⟩ := search issuer true
    refine ⟨.keyed ⟨issuer, true, exchanges, found⟩ keyId
      (found >>= fun d => r.select table d issuer keyId), after, rfl, ?_⟩
    exact .keyed rfl opened (ends_key.mpr ⟨found, ends_resolve.mp opened, rfl⟩)
  | clear => exact ⟨.cleared, ([], before.2), rfl, .cleared (Action.ends_modify.mpr ⟨rfl, rfl⟩)⟩

/-- A document that is sent as it is written is the document that is found. -/
theorem documentOf_ofJson {r : Resolver} {did : Text} {data : Members}
    (fits : Json.Fits r.room (.object data))
    (clear : ¬Json.Broken ((Json.object data).render .literal))
    (back : (Json.object data).readBack false = .object data) (formed : WellFormed did data) :
    r.documentOf did (.ofJson (.object data)) = .ok (.ofEntries did data) := by
  refine documentOf_object.mpr ⟨data, ?_, formed, rfl⟩
  rw [Http.Reply.ofJson_value fits clear, back]

end Did.Resolver

end LinkedProof
