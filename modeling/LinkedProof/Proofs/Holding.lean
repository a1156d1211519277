import LinkedProof.Proofs.RoundTrip
import LinkedProof.Proofs.Run

/-! Documents that a caller holds, through attachments in place and removals that give a further
document. The proofs of each document are a list: an attachment that succeeds adds one proof at its
end, a removal that succeeds gives the list without one of its places, and a call that fails changes
no document. -/
namespace LinkedProof

namespace Document

variable {d d' : Document} {index : Int} {failure : Failure}

theorem removeProof_ok : d.removeProof index = .ok d' ↔
    ∃ i : Nat, index = i ∧ i < d.proofs.length ∧
      d' = d.withProofs ((d.proofs.eraseIdx i).map .object) := by
  unfold removeProof
  by_cases inside : 0 ≤ index ∧ index < d.proofs.length
  · obtain ⟨i, rfl⟩ := Int.eq_ofNat_of_zero_le inside.1
    simp only [if_pos inside, Except.ok.injEq, Int.toNat_natCast, @eq_comm _ _ d']
    constructor
    · rintro rfl
      exact ⟨i, rfl, Int.ofNat_lt.mp inside.2, rfl⟩
    · rintro ⟨j, same, _, rfl⟩
      rw [Int.ofNat.inj same]
  · simp only [if_neg inside]
    refine iff_of_false nofun ?_
    rintro ⟨i, rfl, below, _⟩
    exact inside ⟨Int.natCast_nonneg i, Int.ofNat_lt.mpr below⟩

theorem removeProof_error : d.removeProof index = .error failure ↔
    ¬(0 ≤ index ∧ index < d.proofs.length) ∧ failure = .noProof index d.proofs.length := by
  unfold removeProof
  by_cases inside : 0 ≤ index ∧ index < d.proofs.length
  · simp [inside]
  · rw [if_neg inside, Except.error.injEq, eq_comm]
    exact (and_iff_right inside).symm

/-- The other members of a document, with this list of proofs. -/
structure Carries (d' d : Document) (list : List Members) : Prop where
  stores : Stores (d'.get? proofKey) list
  proofs : d'.proofs = list
  others : d'.erase proofKey = d.erase proofKey

theorem addProof_carries (d : Document) (proof : Members) :
    (d.addProof proof).Carries d (d.proofs ++ [proof]) :=
  ⟨addProof_stores d proof, proofs_addProof d proof, addProof_erase d proof⟩

theorem withProofs_carries (d : Document) (list : List Members) :
    (d.withProofs (list.map .object)).Carries d list := by
  have stores : Stores ((d.withProofs (list.map .object)).get? proofKey) list := by
    rw [get?_withProofs]
    exact stores_proofValue list
  exact ⟨stores, proofs_of_stores stores, withProofs_erase d _⟩

end Document

section Held

variable {σ : Type} {now : Timestamp} {r : ProofRequest σ} {v w : Json} {s t : σ}

theorem Document.attachHeld_ok : (Document.attachHeld now r).Ends (v, s) (.ok ()) (w, t) ↔
    ∃ d, (Document.attach now r v).Ends s (.ok d) t ∧ w = .object d := by
  unfold Document.attachHeld
  constructor
  · intro ended
    obtain ⟨_, _, begun, ended⟩ := Action.ends_bind_ok.mp ended
    obtain ⟨⟨⟩, rfl⟩ := Action.ends_get.mp begun
    obtain ⟨d, ⟨_, _⟩, attached, ended⟩ := Action.ends_bind_ok.mp ended
    obtain ⟨attached, rfl⟩ := Action.ends_onSecond.mp attached
    obtain ⟨_, same⟩ := Action.ends_modify.mp ended
    obtain ⟨rfl, rfl⟩ := Prod.ext_iff.mp same
    exact ⟨d, attached, rfl⟩
  · rintro ⟨d, attached, rfl⟩
    refine Action.ends_bind_ok.mpr ⟨_, _, Action.ends_get.mpr ⟨rfl, rfl⟩, ?_⟩
    refine Action.ends_bind_ok.mpr ⟨d, (v, t), Action.ends_onSecond.mpr ⟨attached, rfl⟩, ?_⟩
    exact Action.ends_modify.mpr ⟨rfl, rfl⟩

/-- A document is replaced behind the last step that can fail. -/
theorem Document.attachHeld_error {failure : Failure} :
    (Document.attachHeld now r).Ends (v, s) (.error failure) (w, t) ↔
      (Document.attach now r v).Ends s (.error failure) t ∧ w = v := by
  unfold Document.attachHeld
  constructor
  · intro ended
    rcases Action.ends_bind_error.mp ended with stopped | ⟨_, _, begun, ended⟩
    · cases (Action.ends_get.mp stopped).1
    obtain ⟨⟨⟩, rfl⟩ := Action.ends_get.mp begun
    rcases Action.ends_bind_error.mp ended with stopped | ⟨d, ⟨_, _⟩, _, ended⟩
    · obtain ⟨attached, same⟩ := Action.ends_onSecond.mp stopped
      exact ⟨attached, same.symm⟩
    · cases (Action.ends_modify.mp ended).1
  · rintro ⟨attached, rfl⟩
    refine Action.ends_bind_error.mpr (.inr ⟨_, _, Action.ends_get.mpr ⟨rfl, rfl⟩, ?_⟩)
    exact Action.ends_bind_error.mpr (.inl (Action.ends_onSecond.mpr ⟨attached, rfl⟩))

end Held

section Holding

variable {σ : Type}

/-- A call on the document at a place: an attachment to it, or a removal, whose result is held
behind all documents. -/
inductive Call (σ : Type)
  | attach (place : Nat) (now : Timestamp) (request : ProofRequest σ)
  | remove (place : Nat) (index : Int)

def Call.place : Call σ → Nat
  | attach place _ _ => place
  | remove place _ => place

inductive Performs : List Document × σ → Call σ × Outcome Unit → List Document × σ → Prop
  | attach {docs : List Document} {s t : σ} {place : Nat} {d d' : Document} {now : Timestamp}
    {r : ProofRequest σ} {o : Outcome Unit} (held : docs[place]? = some d)
    (ended : (Document.attachHeld now r).Ends (.object d, s) o (.object d', t)) :
    Performs (docs, s) (.attach place now r, o) (docs.set place d', t)
  | removed {docs : List Document} {s : σ} {place : Nat} {d d' : Document} {index : Int}
    (held : docs[place]? = some d) (removed : d.removeProof index = .ok d') :
    Performs (docs, s) (.remove place index, .ok ()) (docs ++ [d'], s)
  | failed {docs : List Document} {s : σ} {place : Nat} {d : Document} {index : Int}
    {failure : Failure} (held : docs[place]? = some d)
    (failed : d.removeProof index = .error failure) :
    Performs (docs, s) (.remove place index, .error failure) (docs, s)

inductive Keeps : List Document → Call σ × Outcome Unit → List Document → Prop
  | attached {docs : List Document} {place : Nat} {d d' : Document} {proof : Members}
    {now : Timestamp} {r : ProofRequest σ} (held : docs[place]? = some d)
    (carries : d'.Carries d (d.proofs ++ [proof])) (made : r.Made d d.proofs.length proof) :
    Keeps docs (.attach place now r, .ok ()) (docs.set place d')
  | refused {docs : List Document} {place : Nat} {now : Timestamp} {r : ProofRequest σ}
    {failure : Failure} : Keeps docs (.attach place now r, .error failure) docs
  | removed {docs : List Document} {place i : Nat} {d d' : Document}
    (held : docs[place]? = some d) (inside : i < d.proofs.length)
    (carries : d'.Carries d (d.proofs.eraseIdx i)) :
    Keeps docs (.remove place i, .ok ()) (docs ++ [d'])
  | outside {docs : List Document} {place : Nat} {d : Document} {index : Int}
    (held : docs[place]? = some d) (outside : ¬(0 ≤ index ∧ index < d.proofs.length)) :
    Keeps docs (.remove place index, .error (.noProof index d.proofs.length)) docs

variable {docs docs' : List Document} {s s' : σ} {event : Call σ × Outcome Unit}
  {events : List (Call σ × Outcome Unit)}

theorem keeps_of_performs (performs : Performs (docs, s) event (docs', s')) :
    Keeps docs event docs' := by
  cases performs with
  | @attach _ _ _ _ d d' _ _ o held ended =>
    cases o with
    | ok =>
      obtain ⟨_, attached, ⟨⟩⟩ := Document.attachHeld_ok.mp ended
      obtain ⟨proof, rfl, made⟩ := ProofRequest.attach_made attached
      exact .attached held (d.addProof_carries proof) made
    | error failure =>
      obtain ⟨_, ⟨⟩⟩ := Document.attachHeld_error.mp ended
      obtain ⟨_, rfl⟩ := List.getElem?_eq_some_iff.mp held
      rw [List.set_getElem_self]
      exact .refused
  | @removed _ _ _ d d' _ held removed =>
    obtain ⟨i, rfl, inside, rfl⟩ := Document.removeProof_ok.mp removed
    exact .removed held inside (d.withProofs_carries _)
  | @failed _ _ _ d _ _ held failed =>
    obtain ⟨outside, rfl⟩ := Document.removeProof_error.mp failed
    exact .outside held outside

/-- A call on a held document ends. -/
theorem performs_some {call : Call σ} (inside : call.place < docs.length) (s : σ) :
    ∃ o docs' t, Performs (docs, s) (call, o) (docs', t) := by
  have held := List.getElem?_eq_getElem inside
  cases call with
  | attach place now r =>
    obtain ⟨o, ⟨v, t⟩, ended⟩ :=
      Action.ends_some (Document.attachHeld now r) (.object docs[place], s)
    cases o with
    | ok =>
      obtain ⟨d, attached, rfl⟩ := Document.attachHeld_ok.mp ended
      exact ⟨_, _, t, .attach held ended⟩
    | error failure =>
      obtain ⟨_, rfl⟩ := Document.attachHeld_error.mp ended
      exact ⟨_, _, t, .attach held ended⟩
  | remove place index =>
    cases removed : docs[place].removeProof index with
    | ok d => exact ⟨_, _, s, .removed held removed⟩
    | error failure => exact ⟨_, _, s, .failed held removed⟩

/-- What documents are held after others: those at their places, with further proofs at most, and
none with other members than they have. -/
structure Follow (docs docs' : List Document) : Prop where
  stays : ∀ (place : Nat) d, docs[place]? = some d → ∃ d', docs'[place]? = some d' ∧
    d.proofs <+: d'.proofs ∧ d'.erase Document.proofKey = d.erase Document.proofKey
  comes : ∀ d' ∈ docs', ∃ d ∈ docs, d'.erase Document.proofKey = d.erase Document.proofKey

theorem Follow.refl (docs : List Document) : Follow docs docs :=
  ⟨fun _ d held => ⟨d, held, List.prefix_rfl, rfl⟩, fun d member => ⟨d, member, rfl⟩⟩

theorem Follow.trans {docs'' : List Document} (first : Follow docs docs')
    (second : Follow docs' docs'') : Follow docs docs'' := by
  constructor
  · intro place d held
    obtain ⟨d', held', more, same⟩ := first.stays place d held
    obtain ⟨d'', held'', more', same'⟩ := second.stays place d' held'
    exact ⟨d'', held'', more.trans more', same'.trans same⟩
  · intro d'' member
    obtain ⟨d', member', same⟩ := second.comes d'' member
    obtain ⟨d, member, same'⟩ := first.comes d' member'
    exact ⟨d, member, same.trans same'⟩

theorem Keeps.follow (keeps : Keeps docs event docs') : Follow docs docs' := by
  cases keeps with
  | refused => exact .refl docs
  | outside => exact .refl docs
  | @attached place e e' _ _ _ held carries _ =>
    constructor
    · intro place' d held'
      by_cases same : place = place'
      · subst same
        obtain rfl := Option.some.inj (held.symm.trans held')
        refine ⟨e', List.getElem?_set_self (List.getElem?_eq_some_iff.mp held).1, ?_,
          carries.others⟩
        rw [carries.proofs]
        exact List.prefix_append _ _
      · rw [List.getElem?_set_ne same]
        exact ⟨d, held', List.prefix_rfl, rfl⟩
    · intro d' member
      rcases List.mem_or_eq_of_mem_set member with old | rfl
      · exact ⟨d', old, rfl⟩
      · exact ⟨e, List.mem_of_getElem? held, carries.others⟩
  | @removed place _ e e' held _ carries =>
    constructor
    · intro place' d held'
      rw [List.getElem?_append_left (List.getElem?_eq_some_iff.mp held').1]
      exact ⟨d, held', List.prefix_rfl, rfl⟩
    · intro d' member
      rcases List.mem_append.mp member with old | new
      · exact ⟨d', old, rfl⟩
      · obtain rfl := List.mem_singleton.mp new
        exact ⟨e, List.mem_of_getElem? held, carries.others⟩

theorem Keeps.whole (keeps : Keeps docs event docs')
    (whole : ∀ d ∈ docs, d.entryCount = d.proofs.length) :
    ∀ d ∈ docs', d.entryCount = d.proofs.length := by
  have made {d e : Document} {list : List Members} (carries : e.Carries d list) :
      e.entryCount = e.proofs.length := by
    rw [Document.entryCount_of_stores carries.stores, carries.proofs]
  cases keeps with
  | refused => exact whole
  | outside => exact whole
  | attached held carries _ =>
    intro d' member
    rcases List.mem_or_eq_of_mem_set member with old | rfl
    · exact whole d' old
    · exact made carries
  | removed held _ carries =>
    intro d' member
    rcases List.mem_append.mp member with old | new
    · exact whole d' old
    · obtain rfl := List.mem_singleton.mp new
      exact made carries

/-- Calls on held documents whose entries are all proofs treat the proofs of each document as a
list. At every time each document counts the entries that it has, the documents that were held at
first are held at their places with their proofs in front, no document has other members than they
have, and a further call ends. -/
theorem run_keeps (whole : ∀ d ∈ docs, d.entryCount = d.proofs.length)
    (run : Run Performs (docs, s) events (docs', s')) :
    Run Keeps docs events docs' ∧ (∀ d ∈ docs', d.entryCount = d.proofs.length) ∧
      Follow docs docs' ∧
      ∀ call : Call σ, call.place < docs'.length →
        ∃ o docs'' t, Performs (docs', s') (call, o) (docs'', t) := by
  have kept : Run Keeps docs events docs' :=
    Run.map (f := Prod.fst) (fun _ _ _ => keeps_of_performs) run
  refine ⟨kept, ?_, ?_, fun call inside => performs_some inside s'⟩
  · clear run
    induction kept with
    | nil => exact whole
    | cons first _ ih => exact ih (first.whole whole)
  · clear run whole
    induction kept with
    | nil => exact .refl _
    | cons first _ ih => exact first.follow.trans ih

private theorem attached_last {d₀ d : Document} {signings : List (Signing σ)} {x : Signing σ}
    (attached : Signing.Attached d₀ (signings ++ [x]) d) : ∃ e now s t,
      Signing.Attached d₀ signings e ∧
        (Document.attach now x.request (.object e)).Ends s (.ok d) t := by
  generalize all : signings ++ [x] = listed at attached
  cases attached with
  | none => exact absurd all (by simp)
  | more earlier ended =>
    obtain ⟨rfl, last⟩ := List.append_inj' all rfl
    obtain rfl := List.singleton_inj.mp last
    exact ⟨_, _, _, _, earlier, ended⟩

private theorem attached_nil {d₀ d : Document} (attached : Signing.Attached (σ := σ) d₀ [] d) :
    d = d₀ := by
  generalize all : [] = listed at attached
  cases attached with
  | none => rfl
  | more => exact absurd all (by simp)

open Signing in
/-- Two attachments, a removal behind the last proof and one of the first proof. -/
theorem run_keeps_echoed : ∃ (now now' : Timestamp) (docs : List Document),
    let events : List (Call Unit × Outcome Unit) :=
      [(.attach 0 now (echoed .jws).request, .ok ()),
        (.attach 0 now' (echoed .proofValue).request, .ok ()),
        (.remove 0 2, .error (.noProof 2 2)), (.remove 0 0, .ok ())]
    (∀ d ∈ [unsigned], Document.entryCount d = (Document.proofs d).length) ∧
      Run Performs ([unsigned], ()) events (docs, ()) ∧ Run Keeps [unsigned] events docs ∧
      (∀ d ∈ docs, d.entryCount = d.proofs.length) ∧ Follow [unsigned] docs := by
  obtain ⟨d₂, attached⟩ := echoed_attached
  obtain ⟨d₁, now', ⟨⟩, ⟨⟩, earlier, second⟩ := @attached_last _ _ _ [echoed .jws] _ attached
  obtain ⟨d₀, now, ⟨⟩, ⟨⟩, begun, first⟩ := @attached_last _ _ _ [] _ earlier
  obtain rfl := attached_nil begun
  have count : d₂.proofs.length = 2 := by
    obtain ⟨proof, rfl, _⟩ := ProofRequest.attach_made first
    obtain ⟨proof', rfl, _⟩ := ProofRequest.attach_made second
    rw [Document.proofs_addProof, Document.proofs_addProof]
    rfl
  have behind : d₂.removeProof 2 = .error (.noProof 2 2) :=
    Document.removeProof_error.mpr ⟨by omega, by rw [count]⟩
  have removed : d₂.removeProof 0 = .ok _ :=
    Document.removeProof_ok.mpr ⟨0, rfl, by omega, rfl⟩
  have whole : ∀ d ∈ [unsigned], Document.entryCount d = (Document.proofs d).length := by
    intro d member
    obtain rfl := List.mem_singleton.mp member
    rfl
  have added : Performs ([unsigned], ()) (.attach 0 now (echoed .jws).request, .ok ()) ([d₁], ()) :=
    .attach rfl (Document.attachHeld_ok.mpr ⟨_, first, rfl⟩)
  have added' : Performs ([d₁], ()) (.attach 0 now' (echoed .proofValue).request, .ok ())
      ([d₂], ()) := .attach rfl (Document.attachHeld_ok.mpr ⟨_, second, rfl⟩)
  have missed : Performs ([d₂], ()) (.remove 0 2, .error (.noProof 2 2)) ([d₂], ()) :=
    .failed rfl behind
  have taken : Performs ([d₂], ()) (.remove 0 0, .ok ()) ([d₂] ++ [_], ()) := .removed rfl removed
  have run := Run.cons added (.cons added' (.cons missed (.cons taken .nil)))
  obtain ⟨keeps, counted, follow, _⟩ := run_keeps whole run
  exact ⟨now, now', _, whole, run, keeps, counted, follow⟩

end Holding

end LinkedProof
