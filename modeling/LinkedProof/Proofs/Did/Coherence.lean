import LinkedProof.Proofs.Determinacy
import LinkedProof.Proofs.Did.Relationship

/-! Keys from a server that does not change its replies. What a resolver holds is then what it would
fetch, so neither the documents that it holds nor their number nor the order in which it is asked
make a difference to its keys, and none to the verdicts that rest on them. -/
namespace LinkedProof.Did

theorem Cache.mem_put {did did' : Text} {d d' : Document} {cache : Cache}
    (member : (did', d') ∈ cache.put did d) : (did', d') = (did, d) ∨ (did', d') ∈ cache := by
  induction cache with
  | nil => exact .inl (List.mem_singleton.mp member)
  | cons entry rest ih =>
    rw [put] at member
    split at member
    · rcases List.mem_cons.mp member with same | later
      · exact .inl same
      · exact .inr (List.mem_cons_of_mem _ later)
    · rcases List.mem_cons.mp member with same | later
      · exact .inr (List.mem_cons.mpr (.inl same))
      · exact (ih later).imp_right (List.mem_cons_of_mem _)

theorem Cache.mem_insert {did did' : Text} {d d' : Document} {cache : Cache} {size : Int}
    (member : (did', d') ∈ cache.insert size did d) :
    (did', d') = (did, d) ∨ (did', d') ∈ cache := by
  rw [insert] at member
  split at member
  · exact (mem_put member).imp_right List.mem_of_mem_drop
  · exact .inr member

namespace Resolver

variable {σ : Type} {r : Resolver} {client : Http.Client σ} {table : CurveTable} {did : Text}
  {before after : Cache × σ} {event : Event}

/-- A server whose replies depend on nothing but the address. -/
def Unchanging (client : Http.Client σ) : Prop :=
  ∃ replies : Text → Http.Reply, ∀ request s, (client request s).1 = replies request.url

/-- Each document that is held is what a fetch gives at all times. -/
def Coherent (r : Resolver) (client : Http.Client σ) (state : Cache × σ) : Prop :=
  ∀ did d, (did, d) ∈ state.1 → ∀ s, ∃ t, (r.fetch client did).Ends s (.ok d) t

theorem fetch_steady (unchanging : Unchanging client) (r : Resolver) (did : Text) :
    (r.fetch client did).Steady := by
  obtain ⟨replies, same⟩ := unchanging
  cases address : Web.url did with
  | error failure =>
    exact ⟨.error failure, fun s => ⟨s, ends_fetch.mpr (.inl ⟨failure, address, rfl, rfl⟩)⟩⟩
  | ok url =>
    refine ⟨r.documentOf did (replies url), fun s => ⟨(client (r.request url) s).2, ?_⟩⟩
    exact ends_fetch.mpr (.inr ⟨url, _, address, Prod.ext (same (r.request url) s) rfl, rfl⟩)

/-- Whether it is held or not, what is found is what a fetch gives, and so is what is stored. -/
theorem Resolves.coherent {useCache : Bool} {found : Outcome Document}
    (unchanging : Unchanging client) (coherent : Coherent r client before)
    (resolves : Resolves r client did useCache before found after) :
    Coherent r client after ∧ ∀ s, ∃ t, (r.fetch client did).Ends s found t := by
  have always {o : Outcome Document} {s t : σ} (fetched : (r.fetch client did).Ends s o t) :
      ∀ s, ∃ t, (r.fetch client did).Ends s o t := by
    obtain ⟨o', ends⟩ := fetch_steady unchanging r did
    obtain ⟨_, ended⟩ := ends s
    rwa [(fetched.unique ended).1]
  cases resolves with
  | held _ held => exact ⟨coherent, coherent did _ (Cache.mem_of_get? held)⟩
  | stored _ _ fetched =>
    refine ⟨fun did' d' member => ?_, always fetched⟩
    rcases Cache.mem_insert member with same | old
    · obtain ⟨rfl, rfl⟩ := Prod.mk.inj same
      exact always fetched
    · exact coherent did' d' old
  | passed _ fetched => exact ⟨coherent, always fetched⟩
  | failed _ stopped => exact ⟨coherent, always stopped⟩

theorem Performs.coherent (unchanging : Unchanging client) (coherent : Coherent r client before)
    (performs : Performs r client table before event after) : Coherent r client after := by
  cases performs with
  | resolved ended => exact (Resolves.coherent unchanging coherent (Lookup.resolves ended)).1
  | keyed _ opened _ => exact (Resolves.coherent unchanging coherent (Lookup.resolves opened)).1
  | cleared ended =>
    obtain ⟨_, rfl⟩ := Action.ends_modify.mp ended
    exact fun did d member => absurd member List.not_mem_nil

/-- Resolvers give the same keys, whatever the sizes of their caches are. -/
theorem key_agree (unchanging : Unchanging client) (r : Resolver) (table : CurveTable)
    (issuer keyId : Text) : Action.Agree (fun (_ : Int) => Coherent r client)
      fun size => ({ r with cacheSize := size }).key client table issuer keyId := by
  obtain ⟨o, always⟩ := fetch_steady unchanging r (Web.withoutFragment issuer)
  refine ⟨o >>= fun d => r.select table d issuer keyId, fun size before coherent => ?_⟩
  obtain ⟨o', after, ended⟩ :=
    Action.ends_some (({ r with cacheSize := size }).key client table issuer keyId) before
  obtain ⟨found, resolves, rfl⟩ := ends_key.mp ended
  obtain ⟨coherent', fetches⟩ :=
    Resolves.coherent (r := { r with cacheSize := size }) unchanging coherent resolves
  obtain ⟨_, fetched⟩ := fetches before.2
  obtain ⟨_, fetched'⟩ := always before.2
  obtain rfl : found = o := (fetched.unique fetched').1
  exact ⟨after, ended, coherent'⟩

open Verification in
/-- With a server that does not change its replies and with verifiers that take no account of
anything but the signature, the verdicts on a document are those of one worker without a cache: for
every number of workers and every order of their steps, for every size of the cache and whatever it
holds from earlier calls. -/
theorem verdicts_coherent {s₀ s : σ} {suites : SuiteTable (Cache × σ)} {events : List Event}
    {cache : Cache} (unchanging : Unchanging client)
    (inert : ∀ type suite, suites.get? type = some suite → ∀ key message signature,
      (suite.verifier key message signature).Inert)
    (earlier : Run (Performs r client table) ([], s₀) events (cache, s))
    (d : LinkedProof.Document) : ∃ result,
    (∀ s', ∃ t, (run table ({ r with cacheSize := 0 }.key client table) suites (.object d)).Ends
      ([], s') result t) ∧
    (∃ t, (run table (r.key client table) suites (.object d)).Ends (cache, s) result t) ∧
    (∀ schedule, (∀ i < d.proofs.length, 2 ≤ schedule.count i) →
      Called table (r.key client table) suites d (cache, s) schedule result) ∧
    ∀ schedule result', Called table (r.key client table) suites d (cache, s) schedule result' →
      result' = result := by
  have agreeing : Agreeing (fun size => ({ r with cacheSize := size }).key client table) suites
      fun (_ : Int) => Coherent r client :=
    ⟨key_agree unchanging r table,
      fun type suite listed key message signature => (inert type suite listed _ _ _).agree⟩
  have empty (s : σ) : Coherent r client ([], s) :=
    fun _ _ member => absurd member List.not_mem_nil
  have coherent : Coherent r client (cache, s) :=
    Run.keeps (fun _ => Coherent r client)
      (fun _ _ _ _ coherent performs => performs.coherent unchanging coherent) [] (empty s₀) earlier
  obtain ⟨result, t, alone⟩ :=
    Action.ends_some (run table (r.key client table) suites (.object d)) (cache, s)
  have unique {size : Int} {state : Cache × σ} {schedule : List Nat}
      {result' : Outcome (List Verdict)} (start : Coherent r client state)
      (called : Called table (({ r with cacheSize := size }).key client table) suites d state
        schedule result') : result' = result :=
    agreeing.unique (a := size) (b := r.cacheSize) start coherent called (.alone alone)
  refine ⟨result, fun s' => ?_, ⟨t, alone⟩, fun schedule complete => ?_,
    fun schedule result' called => unique coherent called⟩
  · obtain ⟨result', t', ended⟩ := Action.ends_some
      (run table ({ r with cacheSize := 0 }.key client table) suites (.object d)) ([], s')
    rw [unique (empty s') (.alone ended)] at ended
    exact ⟨t', ended⟩
  · have shared : ∃ result',
        (pooled table (r.key client table) suites d (cache, s) schedule).result? = some result' :=
      pooled_some (cache, s) complete
    obtain ⟨result', ended⟩ := shared
    rw [unique coherent (.shared ended)] at ended
    exact .shared ended

def byTwoIssuers : LinkedProof.Document := [("proof", .array [
  .object [("type", .text "JsonWebSignature2020"), ("verificationMethod", .text "did:web:a#k"),
    ("proofValue", .text "AA")],
  .object [("type", .text "JsonWebSignature2020"), ("verificationMethod", .text "did:web:b#k"),
    ("proofValue", .text "AA")]])]

def acceptingTable : SuiteTable (Cache × Unit) :=
  [(Suite.defaultType, {
    type := Suite.defaultType
    signer := none
    verifier := fun _ _ _ => pure ()
    canonicalizer := ⟨false, Json.usualRoom⟩
    headerRoom := Json.usualRoom
    digest := Digest.sha256 })]

open Verification in
/-- Two workers, with room for one document and the first of the two held. -/
theorem verdicts_coherent_held :
    let r : Resolver := { standard Json.usualRoom with cacheSize := 1 }
    let client := serving crossed
    let d := Document.ofEntries "did:web:a" crossed
    let held := ([(Text.ofString "did:web:a", d)], ())
    let event : Event := .resolved ⟨"did:web:a", true,
      [(r.request "https://a/.well-known/did.json", .ofJson (.object crossed))], .ok d⟩
    Unchanging client ∧ Run (Performs r client .initial) ([], ()) [event] held ∧ ∃ result,
      Called .initial (r.key client .initial) acceptingTable byTwoIssuers held [1, 0, 0, 1]
        result ∧
      ∃ t, (run .initial ({ r with cacheSize := 0 }.key client .initial) acceptingTable
        (.object byTwoIssuers)).Ends ([], ()) result t := by
  intro r client d held event
  have unchanging : Unchanging client := ⟨fun _ => .ofJson (.object crossed), fun _ _ => rfl⟩
  have earlier : Run (Performs r client .initial) ([], ()) [event] held :=
    .cons (.resolved (ends_resolve.mpr (crossed_resolves (by decide) (by decide)))) .nil
  have inert (type : Text) (suite : Suite (Cache × Unit))
      (listed : acceptingTable.get? type = some suite) (key : PublicKey)
      (message signature : Bytes) : (suite.verifier key message signature).Inert := by
    obtain ⟨entry, found, rfl⟩ := Option.map_eq_some_iff.mp listed
    rw [List.mem_singleton.mp (List.mem_of_find?_eq_some found)]
    exact ⟨.ok (), fun s => Action.ends_pure.mpr ⟨rfl, rfl⟩⟩
  obtain ⟨result, uncached, _, shared, _⟩ :=
    verdicts_coherent unchanging inert earlier byTwoIssuers
  exact ⟨unchanging, earlier, result, shared _ (by decide), uncached ()⟩

end Resolver

end LinkedProof.Did
