import LinkedProof.Attachment
import LinkedProof.Proofs.Binding

/-! What a successful signing leaves behind: a document with one proof more. The proofs that stood
on it stay at their places, and so does the text that each of them signs. -/
namespace LinkedProof

/-- What the member for proofs holds: nothing, one object or an array, by how many proofs there
are. -/
inductive Stores : Option Json → List Members → Prop
  | nothing : Stores none []
  | object (proof : Members) : Stores (some (.object proof)) [proof]
  | array {list : List Members} (several : 2 ≤ list.length) :
    Stores (some (.array (list.map .object))) list

theorem stores_proofValue (list : List Members) :
    Stores (Document.proofValue? (list.map .object)) list := by
  match list with
  | [] => exact .nothing
  | [proof] => exact .object proof
  | first :: second :: rest => exact @Stores.array (first :: second :: rest) (by simp)

namespace Document

variable {d d' : Document} {proof : Members} {list : List Members}

def entries (d : Document) : List Json :=
  match d.get proofKey with
  | .null => []
  | .array items => items
  | value => [value]

theorem length_entries (d : Document) : d.entries.length = d.entryCount := by
  unfold entries entryCount
  cases d.get proofKey <;> rfl

theorem proofs_eq_filterMap (d : Document) : d.proofs = d.entries.filterMap Json.object? := by
  unfold entries proofs
  cases d.get proofKey <;> rfl

theorem entries_of_stores (stores : Stores (d.get? proofKey) list) :
    d.entries = list.map .object := by
  unfold entries Members.get
  generalize d.get? proofKey = found at stores
  cases stores with
  | nothing => rfl
  | object proof => rfl
  | array several => rfl

theorem proofs_of_stores (stores : Stores (d.get? proofKey) list) : d.proofs = list := by
  have whole : Json.object? ∘ Json.object = some := rfl
  rw [proofs_eq_filterMap, entries_of_stores stores, List.filterMap_map, whole,
    List.filterMap_some]

theorem proofs_of_missing (missing : d.get? proofKey = none) : d.proofs = [] :=
  proofs_of_stores (missing ▸ .nothing)

theorem entryCount_of_stores (stores : Stores (d.get? proofKey) list) :
    d.entryCount = list.length := by
  rw [← length_entries, entries_of_stores stores, List.length_map]

theorem addProof_stores (d : Document) (proof : Members) :
    Stores ((d.addProof proof).get? proofKey) (d.proofs ++ [proof]) := by
  have stores := stores_proofValue (d.proofs ++ [proof])
  rw [addProof]
  cases holds : proofValue? ((d.proofs ++ [proof]).map .object) with
  | none =>
    rw [holds] at stores
    generalize shape : d.proofs ++ [proof] = all at stores
    cases stores
    simp at shape
  | some value =>
    rw [holds] at stores
    simpa only [Members.get?_set_self] using stores

theorem addProof_erase (d : Document) (proof : Members) :
    (d.addProof proof).erase proofKey = d.erase proofKey := by
  rw [addProof]
  cases proofValue? ((d.proofs ++ [proof]).map .object) with
  | none => rfl
  | some value => exact Members.erase_set d proofKey value

theorem proofs_addProof (d : Document) (proof : Members) :
    (d.addProof proof).proofs = d.proofs ++ [proof] := proofs_of_stores (addProof_stores d proof)

theorem entryCount_addProof (d : Document) (proof : Members) :
    (d.addProof proof).entryCount = (d.addProof proof).proofs.length := by
  rw [entryCount_of_stores (addProof_stores d proof), proofs_addProof]

/-- The first proof of a document is its last member. -/
theorem addProof_missing (missing : d.get? proofKey = none) (proof : Members) :
    d.addProof proof = d.set proofKey (.object proof) := by
  rw [addProof, proofs_of_missing missing]
  rfl

/-- A proof signs nothing but the other members and the proofs in front of its place. -/
theorem signed_congr {chain : Bool} {i : Nat} (others : d.erase proofKey = d'.erase proofKey)
    (earlier : d.proofs.take i = d'.proofs.take i) :
    d.signed chain (some i) = d'.signed chain (some i) := by
  unfold signed withProofs
  rw [others]
  simp only [leading_ofNat, earlier]

theorem ofValue_ok {member : Text} {value : Json} :
    ofValue member value = .ok d ↔ value = .object d := by
  cases value with
  | object ms => simp [ofValue]
  | _ => exact iff_of_false nofun nofun

end Document

namespace ProofRequest

variable {σ : Type} {r : ProofRequest σ} {now : Timestamp} {document : Json} {d : Document}
  {options : Members} {payload : Bytes}

/-- A signing goes ahead with a signer, a verification method in two parts and an object whose proof
entries are all objects. -/
theorem prepare_ok : r.prepare now document = .ok (d, options, payload) ↔
    r.suite.signer.isSome = true ∧ r.method.isEmpty = false ∧
      (∃ method, Method.ofValue r.method = .ok method) ∧ document = .object d ∧
      d.proofs.length = d.entryCount ∧
      (∃ created, r.timeFormat.format (r.created.getD now) = .ok created ∧
        options = r.options created) ∧
      r.suite.verifyData d options (some d.proofs.length) = .ok payload := by
  have signer : ¬r.suite.signer.isNone = true ↔ r.suite.signer.isSome = true := by
    cases r.suite.signer <;> simp
  simp only [prepare, Outcome.guard_ok, Outcome.bind_ok, Outcome.discard_ok, Outcome.pure_ok,
    Document.ofValue_ok, Prod.mk.injEq, signer, Bool.not_eq_true, not_not]
  constructor
  · rintro ⟨isSigner, method, ⟨⟩, named, d, rfl, whole, created, written, bytes, signed, rfl, rfl,
      rfl⟩
    exact ⟨isSigner, method, named, rfl, whole, ⟨created, written, rfl⟩, signed⟩
  · rintro ⟨isSigner, method, named, rfl, whole, ⟨created, written, rfl⟩, signed⟩
    exact ⟨isSigner, method, ⟨⟩, named, d, rfl, whole, created, written, payload, signed, rfl, rfl,
      rfl⟩

variable {i : Nat} {proof : Members} {s t : σ} {d' : Document}

inductive Made (r : ProofRequest σ) (d : Document) (i : Nat) : Members → Prop
  | intro {method : Method} {created value : Text} {payload : Bytes} {s t : σ}
    (named : Method.ofValue r.method = .ok method)
    (prepared : r.suite.verifyData d (r.options created) (some i) = .ok payload)
    (signed : (r.suite.sign payload r.representation).Ends s (.ok value) t) :
    Made r d i ((r.options created).set r.representation.key (.text value))

theorem attach_ok : (Document.attach now r document).Ends s (.ok d') t ↔
    ∃ d options payload value, r.prepare now document = .ok (d, options, payload) ∧
      (r.suite.sign payload r.representation).Ends s (.ok value) t ∧
      d' = d.addProof (options.set r.representation.key (.text value)) := by
  unfold Document.attach
  constructor
  · intro attached
    obtain ⟨⟨d, options, payload⟩, u, opened, rest⟩ := Action.ends_bind_ok.mp attached
    obtain ⟨prepared, rfl⟩ := Action.ends_ofOutcome.mp opened
    obtain ⟨value, v, signed, done⟩ := Action.ends_bind_ok.mp rest
    obtain ⟨same, rfl⟩ := Action.ends_pure.mp done
    exact ⟨d, options, payload, value, prepared, signed, (Except.ok.inj same).symm⟩
  · rintro ⟨d, options, payload, value, prepared, signed, rfl⟩
    refine Action.ends_bind_ok.mpr ⟨_, s, Action.ends_ofOutcome.mpr ⟨prepared, rfl⟩, ?_⟩
    exact Action.ends_bind_ok.mpr ⟨value, t, signed, Action.ends_pure.mpr ⟨rfl, rfl⟩⟩

/-- A signing that succeeds adds one proof, which signs the document as it stood. -/
theorem attach_made (attached : (Document.attach now r (.object d)).Ends s (.ok d') t) :
    ∃ proof, d' = d.addProof proof ∧ Made r d d.proofs.length proof := by
  obtain ⟨e, options, payload, value, prepared, signed, rfl⟩ := attach_ok.mp attached
  obtain ⟨_, _, ⟨method, named⟩, shape, _, ⟨created, _, rfl⟩, data⟩ := prepare_ok.mp prepared
  obtain rfl := Json.object.inj shape
  exact ⟨_, rfl, .intro named data signed⟩

/-- A document with the same other members and the same proofs in front leaves a proof as it was
made. -/
theorem Made.later (made : Made r d i proof)
    (others : d.erase Document.proofKey = d'.erase Document.proofKey)
    (earlier : d.proofs.take i = d'.proofs.take i) : Made r d' i proof := by
  obtain ⟨named, prepared, signed⟩ := made
  have same : d'.canonicalize r.suite.canonicalizer (some i) =
      d.canonicalize r.suite.canonicalizer (some i) := by
    rw [Document.canonicalize, Document.canonicalize, Document.signed_congr others earlier]
  refine .intro named ?_ signed
  rw [← prepared, Suite.verifyData, Suite.verifyData, same]

end ProofRequest

end LinkedProof
