import LinkedProof.Proofs.Removal

/-! Attachments to a set commute. In a set a proof signs the members other than `proof`, which no
attachment changes. So a request whose signer and time of creation are fixed makes one proof,
whatever stands on the document before, and this proof comes behind those. -/
namespace LinkedProof

variable {σ : Type}

def Document.attachEach (calls : List (Timestamp × ProofRequest σ)) : Action (Json × σ) Unit :=
  calls.forM fun call => attachHeld call.1 call.2

namespace ProofRequest

open Document (proofKey)

variable {r : ProofRequest σ} {d d' e : Document} {now : Timestamp} {s t : σ} {proof : Members}

/-- A request for a proof in a set that leaves nothing to the time and to the state of the
signer. -/
structure Fixed (r : ProofRequest σ) : Prop where
  set : r.suite.canonicalizer.chain = false
  dated : r.created.isSome = true
  steady : ∀ signer, r.suite.signer = some signer → ∀ message, (signer.sign message).Steady

/-- On documents with the members `e` beside the proofs a request makes this proof. -/
def Yields (r : ProofRequest σ) (e : Document) (proof : Members) : Prop :=
  ∀ (d : Document) now s, d.Whole → d.erase proofKey = e →
    ∃ t, (Document.attach now r (.object d)).Ends s (.ok (d.addProof proof)) t

private theorem sign_again {suite : Suite σ} {payload : Bytes} {form : Representation}
    {value : Text} (steady : ∀ signer, suite.signer = some signer →
      ∀ message, (signer.sign message).Steady)
    (signed : (suite.sign payload form).Ends s (.ok value) t) (s' : σ) :
    ∃ t', (suite.sign payload form).Ends s' (.ok value) t' := by
  obtain ⟨signer, signature, holds, made, rfl⟩ := Suite.sign_ok.mp signed
  obtain ⟨o, always⟩ := steady signer holds (Suite.signedMessage signer.algorithm payload form)
  obtain ⟨_, made'⟩ := always s
  obtain ⟨rfl, _⟩ := made.unique made'
  obtain ⟨t', again⟩ := always s'
  exact ⟨t', Suite.sign_ok.mpr ⟨signer, signature, holds, again, rfl⟩⟩

/-- In a set the signed text is that of the other members. -/
private theorem verifyData_set {suite : Suite σ} (set : suite.canonicalizer.chain = false)
    (same : d.erase proofKey = d'.erase proofKey) (options : Members) (i j : Option Int) :
    suite.verifyData d options i = suite.verifyData d' options j := by
  rw [Suite.verifyData, Suite.verifyData]
  simp only [Document.canonicalize, set, Document.signed_set, same]

/-- The proof that a fixed request once made it makes again. -/
theorem Fixed.yields (fixed : r.Fixed)
    (attached : (Document.attach now r (.object d)).Ends s (.ok d') t) :
    ∃ proof, d' = d.addProof proof ∧ r.Yields (d.erase proofKey) proof := by
  obtain ⟨e, options, payload, value, prepared, signed, rfl⟩ := attach_ok.mp attached
  obtain ⟨isSigner, method, named, shape, _, ⟨created, dated, rfl⟩, data⟩ :=
    prepare_ok.mp prepared
  obtain rfl := Json.object.inj shape
  refine ⟨_, rfl, fun d' now' s' whole same => ?_⟩
  obtain ⟨time, stated⟩ := Option.isSome_iff_exists.mp fixed.dated
  have dated' : r.timeFormat.format (r.created.getD now') = .ok created := by
    rw [← dated, stated]
    rfl
  have data' : r.suite.verifyData d' (r.options created) (some d'.proofs.length) = .ok payload := by
    rw [← data, verifyData_set fixed.set same]
  obtain ⟨t', again⟩ := sign_again fixed.steady signed s'
  exact ⟨t', attach_ok.mpr ⟨d', _, payload, value, prepare_ok.mpr ⟨isSigner, method, named, rfl,
    Document.whole_iff.mp whole, ⟨created, dated', rfl⟩, data'⟩, again, rfl⟩⟩

end ProofRequest

namespace Document

open ProofRequest (Yields)

variable {d d' e : Document} {s s' t : σ} {now : Timestamp} {r : ProofRequest σ}
  {calls calls' : List (Timestamp × ProofRequest σ)}

theorem attachEach_nil {v w : Json} :
    (attachEach (σ := σ) []).Ends (v, s) (.ok ()) (w, t) ↔ v = w ∧ s = t := by
  refine Action.ends_pure.trans ?_
  simp

theorem attachEach_cons {v w : Json} :
    (attachEach ((now, r) :: calls)).Ends (v, s) (.ok ()) (w, t) ↔
      ∃ d s', (attach now r v).Ends s (.ok d) s' ∧
        (attachEach calls).Ends (.object d, s') (.ok ()) (w, t) := by
  refine (Action.ends_bind_ok (a := attachHeld now r) (f := fun _ => attachEach calls)).trans ?_
  constructor
  · rintro ⟨⟨⟩, ⟨v', s'⟩, first, rest⟩
    obtain ⟨d, attached, rfl⟩ := attachHeld_ok.mp first
    exact ⟨d, s', attached, rest⟩
  · rintro ⟨d, s', attached, rest⟩
    exact ⟨⟨⟩, _, attachHeld_ok.mpr ⟨d, attached, rfl⟩, rest⟩

/-- In a run that succeeds every fixed request makes its proof. -/
private theorem yields_of_each (fixed : ∀ r ∈ calls.map Prod.snd, r.Fixed) {w : Json}
    (ended : (attachEach calls).Ends (.object d, s) (.ok ()) (w, t)) :
    ∀ r ∈ calls.map Prod.snd, ∃ proof, r.Yields (d.erase proofKey) proof := by
  induction calls generalizing d s with
  | nil => nofun
  | cons call calls ih =>
    obtain ⟨first, others⟩ := List.forall_mem_cons.mp fixed
    obtain ⟨d', s', attached, rest⟩ := attachEach_cons.mp ended
    obtain ⟨proof, rfl, yields⟩ := first.yields attached
    have behind := ih others rest
    rw [addProof_erase] at behind
    exact List.forall_mem_cons.mpr ⟨⟨proof, yields⟩, behind⟩

/-- Requests that make their proofs are attached in every order, from every state. -/
private theorem each_of_yields {made : ProofRequest σ → Members}
    (yields : ∀ r ∈ calls.map Prod.snd, r.Yields e (made r)) (whole : d.Whole)
    (others : d.erase proofKey = e) (s : σ) :
    ∃ (d' : Document) (t : σ), (attachEach calls).Ends (.object d, s) (.ok ()) (.object d', t) ∧
      d'.proofs = d.proofs ++ (calls.map Prod.snd).map made ∧ d'.erase proofKey = e := by
  induction calls generalizing d s with
  | nil => exact ⟨d, s, attachEach_nil.mpr ⟨rfl, rfl⟩, by simp, others⟩
  | cons call calls ih =>
    obtain ⟨first, later⟩ := List.forall_mem_cons.mp yields
    obtain ⟨s', attached⟩ := first d call.1 s whole others
    have whole' : (d.addProof (made call.2)).Whole := (attach_whole attached).2
    obtain ⟨d', t, rest, proofs, same⟩ :=
      ih later whole' ((addProof_erase d (made call.2)).trans others) s'
    refine ⟨d', t, attachEach_cons.mpr ⟨_, s', attached, rest⟩, ?_, same⟩
    rw [proofs, proofs_addProof, List.append_assoc]
    rfl

/-- If fixed requests can be attached in one order, they can be in every other one, at any times and
with any states of their signers. Each request makes one proof in both orders; the proofs stand
behind the earlier ones in the order of their requests, and nothing else on the document differs
from what it was. -/
theorem attachEach_perm (whole : d.Whole) (fixed : ∀ r ∈ calls.map Prod.snd, r.Fixed)
    (perm : (calls.map Prod.snd).Perm (calls'.map Prod.snd))
    (ended : (attachEach calls).Ends (.object d, s) (.ok ()) (.object d', t)) (s₁ : σ) :
    ∃ (made : ProofRequest σ → Members) (d₁ : Document) (t₁ : σ),
      (attachEach calls').Ends (.object d, s₁) (.ok ()) (.object d₁, t₁) ∧
      d'.proofs = d.proofs ++ (calls.map Prod.snd).map made ∧
      d₁.proofs = d.proofs ++ (calls'.map Prod.snd).map made ∧
      d'.proofs.Perm d₁.proofs ∧
      d'.erase proofKey = d.erase proofKey ∧ d₁.erase proofKey = d.erase proofKey := by
  have each : ∀ r, ∃ proof, r ∈ calls.map Prod.snd → r.Yields (d.erase proofKey) proof := by
    intro r
    by_cases member : r ∈ calls.map Prod.snd
    · obtain ⟨proof, yields⟩ := yields_of_each fixed ended r member
      exact ⟨proof, fun _ => yields⟩
    · exact ⟨[], fun member' => absurd member' member⟩
  choose made yields using each
  obtain ⟨d₀, t₀, first, proofs, others⟩ := each_of_yields yields whole rfl s
  obtain ⟨_, same⟩ := ended.unique first
  obtain ⟨⟨rfl⟩, rfl⟩ := Prod.ext_iff.mp same
  obtain ⟨d₁, t₁, second, proofs₁, others₁⟩ :=
    each_of_yields (fun r member => yields r (perm.mem_iff.mpr member)) whole rfl s₁
  refine ⟨made, d₁, t₁, second, proofs, proofs₁, ?_, others, others₁⟩
  rw [proofs, proofs₁]
  exact (perm.map made).append_left d.proofs

open Signing (echo newYear unsigned)

def echoedSet (form : Representation) : ProofRequest Unit :=
  ⟨form.key, echo form.key false, .text "did:ex:1#k", form, some newYear,
    ProofRequest.defaultPurpose, .wholeSeconds⟩

theorem echoedSet_fixed (form : Representation) : (echoedSet form).Fixed where
  set := rfl
  dated := rfl
  steady := by
    intro signer made message
    obtain rfl := Option.some.inj made
    exact Action.steady_pure (1 :: message)

set_option maxRecDepth 8000 in
private theorem echoedSet_attach (form : Representation) {d : Document} (whole : d.Whole)
    (others : d.erase proofKey = unsigned) : ∃ proof,
      (attach newYear (echoedSet form) (.object d)).Ends () (.ok (d.addProof proof)) () := by
  have optionBytes : ∃ x, canonicalize (echoedSet form).suite.canonicalizer
      ((echoedSet form).options "2024-01-01T00:00:00Z") none = .ok x := by
    cases form <;> exact ⟨_, rfl⟩
  have documentBytes : d.canonicalize (echoedSet form).suite.canonicalizer
      (some d.proofs.length) = .ok (Bytes.ofCodes "\x7b\"id\":\"urn:1\"\x7d") := by
    rw [canonicalize, (echoedSet_fixed form).set, signed_set, others]
    rfl
  obtain ⟨x, written⟩ := optionBytes
  have prepared : (echoedSet form).prepare newYear (.object d) = .ok (d, _, _) :=
    ProofRequest.prepare_ok.mpr ⟨rfl, rfl, ⟨⟨"did:ex:1", "k"⟩, rfl⟩, rfl, whole_iff.mp whole,
      ⟨"2024-01-01T00:00:00Z", by cases form <;> rfl, rfl⟩,
      Suite.verifyData_ok.mpr ⟨x, _, written, documentBytes, rfl⟩⟩
  exact ⟨_, ProofRequest.attach_ok.mpr ⟨d, _, _, _, prepared,
    Suite.sign_ok.mpr ⟨_, _, rfl, rfl, rfl⟩, rfl⟩⟩

/-- A token and a plain signature in either order. -/
theorem attachEach_perm_echoed : ∃ (made : ProofRequest Unit → Members) (d d₁ : Document),
    (attachEach [(newYear, echoedSet .jws), (newYear, echoedSet .proofValue)]).Ends
      (.object unsigned, ()) (.ok ()) (.object d, ()) ∧
    (attachEach [(newYear, echoedSet .proofValue), (newYear, echoedSet .jws)]).Ends
      (.object unsigned, ()) (.ok ()) (.object d₁, ()) ∧
    d.proofs = [made (echoedSet .jws), made (echoedSet .proofValue)] ∧
    d₁.proofs = [made (echoedSet .proofValue), made (echoedSet .jws)] := by
  have whole : unsigned.Whole := nofun
  obtain ⟨proof, first⟩ := echoedSet_attach .jws whole rfl
  obtain ⟨proof', second⟩ := echoedSet_attach .proofValue (attach_whole first).2
    (addProof_erase unsigned proof)
  let calls : List (Timestamp × ProofRequest Unit) :=
    [(newYear, echoedSet .jws), (newYear, echoedSet .proofValue)]
  let calls' : List (Timestamp × ProofRequest Unit) :=
    [(newYear, echoedSet .proofValue), (newYear, echoedSet .jws)]
  have ended : (attachEach calls).Ends (.object unsigned, ()) (.ok ()) (.object _, ()) :=
    attachEach_cons.mpr ⟨_, (), first, attachEach_cons.mpr
      ⟨_, (), second, attachEach_nil.mpr ⟨rfl, rfl⟩⟩⟩
  have fixed : ∀ r ∈ calls.map Prod.snd, r.Fixed := by
    intro r member
    obtain ⟨_, rfl⟩ : ∃ form, r = echoedSet form := by
      simp only [calls, List.map_cons, List.map_nil, List.mem_cons, List.not_mem_nil,
        or_false] at member
      exact member.elim (⟨.jws, ·⟩) (⟨.proofValue, ·⟩)
    exact echoedSet_fixed _
  have swap : (calls.map Prod.snd).Perm (calls'.map Prod.snd) := .swap _ _ _
  obtain ⟨made, d₁, ⟨⟩, swapped, proofs, proofs₁, _⟩ := attachEach_perm whole fixed swap ended ()
  exact ⟨made, _, d₁, ended, swapped, proofs, proofs₁⟩

end Document

end LinkedProof
