import Mathlib.Data.List.DropRight
import LinkedProof.Proofs.Did.Calls

/-! What a resolver holds: since it was last cleared, the documents of the last fetches that it was
to keep, each as the reply to the fetch gave it. -/
namespace LinkedProof.Did

theorem Web.mark_notMem_withoutFragment (did : Text) :
    CodePoint.ofChar '#' ∉ withoutFragment did := by
  intro member
  have unlike := List.mem_takeWhile_imp member
  exact of_decide_eq_true unlike rfl

namespace Cache

variable {cache : Cache} {did : Text} {d : Document} {size : Int}

theorem get?_eq_none : cache.get? did = none ↔ did ∉ cache.map Prod.fst := by
  induction cache with
  | nil => exact iff_of_true rfl List.not_mem_nil
  | cons entry rest ih =>
    rw [get?, List.map_cons, List.mem_cons, not_or, ← ih]
    by_cases same : entry.1 = did
    · rw [if_pos same]
      exact iff_of_false nofun fun apart => apart.1 same.symm
    · rw [if_neg same]
      exact (and_iff_right (Ne.symm same)).symm

theorem get?_of_mem (distinct : (cache.map Prod.fst).Nodup) (member : (did, d) ∈ cache) :
    cache.get? did = some d := by
  induction cache with
  | nil => cases member
  | cons entry rest ih =>
    obtain ⟨apart, distinct⟩ := List.nodup_cons.mp distinct
    rw [get?]
    rcases List.mem_cons.mp member with rfl | later
    · exact if_pos rfl
    · have other : entry.1 ≠ did := by
        rintro rfl
        exact apart (List.mem_map.mpr ⟨_, later, rfl⟩)
      rw [if_neg other]
      exact ih distinct later

theorem mem_of_get? (found : cache.get? did = some d) : (did, d) ∈ cache := by
  induction cache with
  | nil => cases found
  | cons entry rest ih =>
    rw [get?] at found
    by_cases same : entry.1 = did
    · rw [if_pos same] at found
      obtain rfl := Option.some.inj found
      rw [← same]
      exact List.mem_cons_self
    · rw [if_neg same] at found
      exact List.mem_cons_of_mem _ (ih found)

private theorem put_fresh (fresh : did ∉ cache.map Prod.fst) :
    cache.put did d = cache ++ [(did, d)] := by
  induction cache with
  | nil => rfl
  | cons entry rest ih =>
    rw [List.map_cons, List.mem_cons, not_or] at fresh
    rw [put, if_neg (Ne.symm fresh.1), ih fresh.2, List.cons_append]

/-- A new document comes last, and of more than fit the last ones stay. -/
theorem insert_fresh (fresh : did ∉ cache.map Prod.fst) (bounded : cache.length ≤ size.toNat) :
    cache.insert size did d = (cache ++ [(did, d)]).rtake size.toNat := by
  rw [insert]
  by_cases positive : 0 < size
  · have left : did ∉ (cache.drop (cache.length + 1 - size.toNat)).map Prod.fst :=
      fun member => fresh (((List.drop_sublist _ cache).map Prod.fst).subset member)
    rw [if_pos positive, put_fresh left, List.rtake, List.length_append, List.length_singleton,
      List.drop_append_of_le_length (by omega)]
  · have none : size.toNat = 0 := by omega
    rw [if_neg positive, none, List.rtake_zero]
    exact List.length_eq_zero_iff.mp (by omega)

end Cache

namespace Resolver

structure Fetch where
  did : Text
  request : Http.Request
  reply : Http.Reply
  document : Document

def Fetch.entry (f : Fetch) : Text × Document := (f.did, f.document)

structure Fetch.Sound (r : Resolver) (f : Fetch) : Prop where
  whole : CodePoint.ofChar '#' ∉ f.did
  address : ∃ url, Web.url f.did = .ok url ∧ f.request = r.request url
  said : r.documentOf f.did f.reply = .ok f.document

def Lookup.fetch? : Lookup → Option Fetch
  | ⟨did, true, (request, reply) :: _, .ok d⟩ =>
    some ⟨Web.withoutFragment did, request, reply, d⟩
  | _ => none

def Event.fetch? (event : Event) : Option Fetch := event.lookup?.bind Lookup.fetch?

def Event.isClear : Event → Bool
  | cleared => true
  | _ => false

def fetches (events : List Event) : List Fetch := events.filterMap Event.fetch?

def sinceClear (events : List Event) : List Event := events.rtakeWhile fun event => !event.isClear

def Latest (did : Text) (list : List Fetch) (f : Fetch) : Prop :=
  f.did = did ∧ ∃ before after, list = before ++ f :: after ∧ ∀ g ∈ after, g.did ≠ did

structure Tracks (r : Resolver) (events : List Event) (cache : Cache) : Prop where
  bounded : (cache.length : Int) ≤ max r.cacheSize 0
  recent : cache =
    ((fetches (sinceClear events)).map Fetch.entry).rtake (max r.cacheSize 0).toNat
  distinct : (cache.map Prod.fst).Nodup
  each : ∀ did d, (did, d) ∈ cache → CodePoint.ofChar '#' ∉ did ∧ d.id = did ∧
    ∃ f, Latest did (fetches events) f ∧ f.Sound r ∧ f.document = d

variable {σ : Type} {r : Resolver} {client : Http.Client σ} {table : CurveTable}
  {cache cache' : Cache} {s s' : σ} {events : List Event} {event : Event} {l : Lookup}

structure Serves (r : Resolver) (client : Http.Client σ) (table : CurveTable) (cache : Cache) (s : σ)
    (event : Event) (cache' : Cache) (s' : σ) : Prop where
  single : ∀ l, event.lookup? = some l → l.exchanges.length ≤ 1
  held : ∀ l d, event.lookup? = some l → l.useCache = true →
    (Web.withoutFragment l.did, d) ∈ cache → l.found = .ok d ∧ l.exchanges = [] ∧ cache' = cache
  uncached : ∀ l, event = .resolved l → l.useCache = false → cache' = cache ∧
    ∀ other, Performs r client table (other, s) event (other, s')
  failed : ∀ l failure, event.lookup? = some l → l.found = .error failure → cache' = cache
  key : ∀ l keyId key, event = .keyed l keyId key →
    key = l.found >>= fun d => r.select table d l.did keyId

section Histories

theorem sinceClear_cleared (events : List Event) : sinceClear (events ++ [.cleared]) = [] :=
  List.rtakeWhile_concat_neg _ _ _ Bool.false_ne_true

theorem sinceClear_lookup (looked : event.lookup? = some l) :
    fetches (sinceClear (events ++ [event])) =
      fetches (sinceClear events) ++ l.fetch?.toList := by
  have lasting : sinceClear (events ++ [event]) = sinceClear events ++ [event] := by
    refine List.rtakeWhile_concat_pos _ _ _ ?_
    cases event with
    | cleared => cases looked
    | _ => rfl
  have fetched : event.fetch? = l.fetch? := by rw [Event.fetch?, looked, Option.bind_some]
  rw [lasting, fetches, List.filterMap_append, List.filterMap_cons, fetched]
  cases l.fetch? <;> rfl

theorem fetches_sinceClear (events : List Event) :
    fetches (sinceClear events) <:+ fetches events := by
  obtain ⟨before, parts⟩ := List.rtakeWhile_suffix (fun event : Event => !event.isClear) events
  refine ⟨fetches before, ?_⟩
  rw [fetches, fetches, fetches, ← List.filterMap_append]
  exact congrArg _ parts

private theorem latest_of_suffix {did : Text} {list tail : List Fetch} {f : Fetch}
    (part : tail <:+ list) (latest : Latest did tail f) : Latest did list f := by
  obtain ⟨front, rfl⟩ := part
  obtain ⟨same, before, after, rfl, apart⟩ := latest
  exact ⟨same, front ++ before, after, by rw [List.append_assoc], apart⟩

/-- Where no two entries have one DID, each of them is the last one of its DID. -/
private theorem latest_of_mem {list : List Fetch} {f : Fetch} (member : f ∈ list)
    (distinct : ((list.map Fetch.entry).map Prod.fst).Nodup) : Latest f.did list f := by
  obtain ⟨before, after, rfl⟩ := List.append_of_mem member
  refine ⟨rfl, before, after, rfl, fun g later same => ?_⟩
  rw [List.map_append, List.map_append, List.map_cons, List.map_cons] at distinct
  refine (List.nodup_cons.mp (List.Nodup.of_append_right distinct)).1 ?_
  rw [List.map_map]
  exact List.mem_map.mpr ⟨g, later, same⟩

end Histories

section Steps

private structure Holds (r : Resolver) (events : List Event) (cache : Cache) : Prop where
  recent : cache = ((fetches (sinceClear events)).map Fetch.entry).rtake r.cacheSize.toNat
  distinct : (cache.map Prod.fst).Nodup
  sound : ∀ f ∈ fetches (sinceClear events), f.Sound r

private theorem rtake_rtake_concat {α : Type} (xs : List α) (x : α) (n : Nat) :
    (xs.rtake n ++ [x]).rtake n = (xs ++ [x]).rtake n := by
  cases n with
  | zero => rw [List.rtake_zero, List.rtake_zero]
  | succ n =>
    rw [List.rtake_concat_succ, List.rtake_concat_succ, List.rtake, List.rtake, List.rtake,
      List.drop_drop, List.length_drop]
    congr 2
    omega

private theorem Holds.bounded (holds : Holds r events cache) :
    cache.length ≤ r.cacheSize.toNat := by
  rw [holds.recent, List.rtake, List.length_drop]
  omega

private theorem holds_stored {did url : Text} {reply : Http.Reply} {d : Document}
    (holds : Holds r events cache)
    (looked : event.lookup? = some ⟨did, true, [(r.request url, reply)], .ok d⟩)
    (fresh : cache.get? (Web.withoutFragment did) = none)
    (address : Web.url (Web.withoutFragment did) = .ok url)
    (said : r.documentOf (Web.withoutFragment did) reply = .ok d) :
    Holds r (events ++ [event]) (cache.insert r.cacheSize (Web.withoutFragment did) d) := by
  have unknown := Cache.get?_eq_none.mp fresh
  have later : fetches (sinceClear (events ++ [event])) = fetches (sinceClear events) ++
      [⟨Web.withoutFragment did, r.request url, reply, d⟩] := sinceClear_lookup looked
  rw [Cache.insert_fresh unknown holds.bounded]
  refine ⟨?_, ?_, ?_⟩
  · have last := rtake_rtake_concat ((fetches (sinceClear events)).map Fetch.entry)
      (Web.withoutFragment did, d) r.cacheSize.toNat
    rw [← holds.recent] at last
    rw [later, List.map_append, last]
    rfl
  · have parts : ((cache ++ [(Web.withoutFragment did, d)]).map Prod.fst).Nodup := by
      rw [List.map_append, List.map_singleton, ← List.concat_eq_append]
      exact holds.distinct.concat unknown
    exact parts.sublist ((List.drop_sublist _ _).map Prod.fst)
  · rw [later]
    refine List.forall_mem_append.mpr ⟨holds.sound, fun f member => ?_⟩
    obtain rfl := List.mem_singleton.mp member
    exact ⟨Web.mark_notMem_withoutFragment did, ⟨url, address, rfl⟩, said⟩

private theorem holds_unfetched (holds : Holds r events cache) (looked : event.lookup? = some l)
    (unfetched : l.fetch? = none) : Holds r (events ++ [event]) cache := by
  have same : fetches (sinceClear (events ++ [event])) = fetches (sinceClear events) := by
    rw [sinceClear_lookup looked, unfetched]
    exact List.append_nil _
  exact ⟨by rw [same, ← holds.recent], holds.distinct, by rw [same]; exact holds.sound⟩

private theorem holds_lookup (holds : Holds r events cache) (looked : event.lookup? = some l)
    (leaves : l.Leaves r cache cache') : Holds r (events ++ [event]) cache' := by
  cases leaves with
  | held => exact holds_unfetched holds looked rfl
  | stored fresh address said => exact holds_stored holds looked fresh address said
  | passed => exact holds_unfetched holds looked rfl
  | @failed _ useCache exchanges =>
    refine holds_unfetched holds looked ?_
    cases useCache <;> cases exchanges <;> rfl

private theorem holds_step (holds : Holds r events cache)
    (performs : Performs r client table (cache, s) event (cache', s')) :
    Holds r (events ++ [event]) cache' := by
  cases performs with
  | resolved ended => exact holds_lookup holds rfl (Lookup.leaves_of_ends ended)
  | keyed _ opened _ => exact holds_lookup holds rfl (Lookup.leaves_of_ends opened)
  | cleared ended =>
    obtain ⟨_, same⟩ := Action.ends_modify.mp ended
    obtain ⟨rfl, _⟩ := Prod.mk.inj same
    refine ⟨?_, List.nodup_nil, ?_⟩
    · rw [sinceClear_cleared]
      exact (List.rtake_nil _).symm
    · rw [sinceClear_cleared]
      exact List.forall_mem_nil _

private theorem Holds.tracks (holds : Holds r events cache) : Tracks r events cache := by
  have size : (max r.cacheSize 0).toNat = r.cacheSize.toNat := by omega
  refine ⟨?_, by rw [size]; exact holds.recent, holds.distinct, fun did d member => ?_⟩
  · have bounded := holds.bounded
    omega
  · have part : (fetches (sinceClear events)).rtake r.cacheSize.toNat <:+
        fetches (sinceClear events) := List.drop_suffix _ _
    have listed : cache =
        ((fetches (sinceClear events)).rtake r.cacheSize.toNat).map Fetch.entry := by
      rw [holds.recent, List.rtake, List.rtake, List.length_map, List.map_drop]
    rw [listed] at member
    obtain ⟨f, kept, same⟩ := List.mem_map.mp member
    obtain ⟨rfl, rfl⟩ := Prod.mk.inj same
    have sound := holds.sound f (part.subset kept)
    have latest : Latest f.did (fetches (sinceClear events)) f :=
      latest_of_suffix part (latest_of_mem kept (by rw [← listed]; exact holds.distinct))
    refine ⟨sound.whole, ?_, f, latest_of_suffix (fetches_sinceClear events) latest, sound, rfl⟩
    obtain ⟨data, _, _, same⟩ := documentOf_object.mp sound.said
    rw [same, Document.ofEntries_id]

theorem Performs.leaves (performs : Performs r client table (cache, s) event (cache', s'))
    (looked : event.lookup? = some l) : l.Leaves r cache cache' := by
  cases performs with
  | resolved ended =>
    obtain rfl := Option.some.inj looked
    exact Lookup.leaves_of_ends ended
  | keyed _ opened _ =>
    obtain rfl := Option.some.inj looked
    exact Lookup.leaves_of_ends opened
  | cleared => cases looked

private theorem serves_of_performs (distinct : (cache.map Prod.fst).Nodup)
    (performs : Performs r client table (cache, s) event (cache', s')) :
    Serves r client table cache s event cache' s' := by
  refine ⟨fun l looked => ?_, fun l d looked asked member => ?_, fun l same unasked => ?_,
    fun l failure looked stopped => ?_, fun l keyId key same => ?_⟩
  · have leaves := performs.leaves looked
    cases leaves with
    | failed _ single => exact single
    | _ => simp
  · have leaves := performs.leaves looked
    have found := Cache.get?_of_mem distinct member
    cases leaves with
    | held held =>
      obtain rfl := Option.some.inj (held.symm.trans found)
      exact ⟨rfl, rfl, rfl⟩
    | stored fresh => cases fresh.symm.trans found
    | passed => cases asked
    | failed fresh => cases (fresh asked).symm.trans found
  · subst same
    cases performs with
    | resolved ended =>
      have leaves := Lookup.leaves_of_ends ended
      have kept : cache' = cache := by
        cases leaves with
        | stored => cases unasked
        | _ => rfl
      subst kept
      exact ⟨rfl, fun other => .resolved (Lookup.ends_uncached unasked ended other)⟩
  · have leaves := performs.leaves looked
    cases leaves with
    | failed => rfl
    | _ => cases stopped
  · subst same
    exact performs.selected

/-- What each call keeps holds behind every run of calls on an empty cache. -/
theorem Tracks.of_run {s₀ : σ} (run : Run (Performs r client table) ([], s₀) events (cache, s)) :
    Tracks r events cache := by
  have begun : Holds r [] [] :=
    ⟨(List.rtake_nil _).symm, List.nodup_nil, List.forall_mem_nil _⟩
  have holds : Holds r ([] ++ events) cache :=
    Run.keeps (fun events (state : Cache × σ) => Holds r events state.1)
      (fun _ _ _ _ holds performs => holds_step holds performs) [] begun run
  rw [List.nil_append] at holds
  exact holds.tracks

end Steps

/-- What a search that may use the cache finds is what the last fetch of the DID gave, be it its own. -/
theorem Tracks.latest {did : Text} {d : Document} (tracks : Tracks r events cache)
    (performs : Performs r client table (cache, s) event (cache', s'))
    (looked : event.lookup? = some l) (asked : l.useCache = true)
    (same : Web.withoutFragment l.did = did) (found : l.found = .ok d) :
    ∃ f, Latest did (fetches (events ++ [event])) f ∧ f.Sound r ∧ f.document = d := by
  subst same
  have parts : fetches (events ++ [event]) = fetches events ++ l.fetch?.toList := by
    rw [fetches, List.filterMap_append, List.filterMap_cons, Event.fetch?, looked, Option.bind_some]
    cases l.fetch? <;> rfl
  rw [parts]
  cases performs.leaves looked with
  | held held =>
    obtain rfl := Except.ok.inj found
    obtain ⟨_, _, f, latest⟩ := tracks.each _ _ (Cache.mem_of_get? held)
    change ∃ f, Latest _ (fetches events ++ []) f ∧ _
    rw [List.append_nil]
    exact ⟨f, latest⟩
  | @stored did url reply _ fresh address said =>
    obtain rfl := Except.ok.inj found
    refine ⟨_, ⟨rfl, fetches events, [], rfl, List.forall_mem_nil _⟩, ?_, rfl⟩
    exact ⟨Web.mark_notMem_withoutFragment did, ⟨url, address, rfl⟩, said⟩
  | passed => cases asked
  | failed => cases found

/-- Calls on a resolver with an empty cache, in any number and order and whatever the server replies,
leave the cache with the last fetches that were to be kept, and with none where the size is not
positive. Each document is what the last reply for its DID said. A document that is held is given
without a request, what may not use the cache neither reads nor changes it, and where no document is
found it stays as it was. -/
theorem cache_tracks (r : Resolver) (client : Http.Client σ) (table : CurveTable) (s₀ : σ) :
    (∀ calls, ∃ events after, events.map Event.call = calls ∧
      Run (Performs r client table) ([], s₀) events after) ∧
    ∀ events cache s, Run (Performs r client table) ([], s₀) events (cache, s) →
      Tracks r events cache ∧ ∀ event cache' s',
        Performs r client table (cache, s) event (cache', s') →
          Serves r client table cache s event cache' s' := by
  refine ⟨fun calls => Run.exists_of_calls (performs_some r client table) calls _, ?_⟩
  intro events cache s run
  have tracks := Tracks.of_run run
  exact ⟨tracks, fun event cache' s' performs => serves_of_performs tracks.distinct performs⟩

def inTurn : Http.Client (List Http.Reply) := fun _ replies =>
  (replies.head?.getD (.response 404 []), replies.tail)

def bare (did : Text) : Members := [("id", .text did)]

private theorem resolved_inTurn {did url : Text} {reply : Http.Reply} {rest : List Http.Reply}
    {d : Document} (whole : Web.withoutFragment did = did) (fresh : cache.get? did = none)
    (address : Web.url did = .ok url) (said : r.documentOf did reply = .ok d) :
    Performs r inTurn table (cache, reply :: rest)
      (.resolved ⟨did, true, [(r.request url, reply)], .ok d⟩)
      (cache.insert r.cacheSize did d, rest) := by
  refine .resolved (ends_resolve.mpr ?_)
  have fetched : (r.fetch inTurn.recorded did).Ends ([], reply :: rest) (.ok d)
      ([(r.request url, reply)], rest) := ends_fetch.mpr (.inr ⟨url, reply, address, rfl, said⟩)
  rw [whole]
  exact .stored rfl fresh fetched

/-- A document for a single place gives way to the next one, which is then held. -/
theorem cache_tracks_single :
    let r : Resolver := { standard Json.usualRoom with cacheSize := 1 }
    let did := Text.ofString "did:web:a"
    let did' := Text.ofString "did:web:b"
    let d := Document.ofEntries did (bare did)
    let d' := Document.ofEntries did' (bare did')
    let reply := Http.Reply.ofJson (.object (bare did))
    let reply' := Http.Reply.ofJson (.object (bare did'))
    let events : List Event :=
      [.resolved ⟨did, true, [(r.request "https://a/.well-known/did.json", reply)], .ok d⟩,
        .resolved ⟨did', true, [(r.request "https://b/.well-known/did.json", reply')], .ok d'⟩]
    let again : Event := .resolved ⟨did', true, [], .ok d'⟩
    Run (Performs r inTurn .initial) ([], [reply, reply']) events ([(did', d')], []) ∧
      Tracks r events [(did', d')] ∧
      Performs r inTurn .initial ([(did', d')], []) again ([(did', d')], []) ∧
      Serves r inTurn .initial [(did', d')] [] again [(did', d')] [] := by
  intro r did did' d d' reply reply' events again
  have said : r.documentOf did reply = .ok d :=
    documentOf_ofJson (by decide) (by decide +kernel) rfl (Document.ofValue_ok.mp rfl).1
  have said' : r.documentOf did' reply' = .ok d' :=
    documentOf_ofJson (by decide) (by decide +kernel) rfl (Document.ofValue_ok.mp rfl).1
  have run : Run (Performs r inTurn .initial) ([], [reply, reply']) events ([(did', d')], []) :=
    .cons (resolved_inTurn rfl rfl rfl said) (.cons (resolved_inTurn rfl rfl rfl said') .nil)
  have held : Performs r inTurn .initial ([(did', d')], []) again ([(did', d')], []) :=
    .resolved (ends_resolve.mpr (.held rfl rfl))
  obtain ⟨tracks, serves⟩ := (cache_tracks r inTurn .initial [reply, reply']).2 _ _ _ run
  exact ⟨run, tracks, held, serves _ _ _ held⟩

end Resolver

end LinkedProof.Did
