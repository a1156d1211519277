import LinkedProof.Method
import LinkedProof.Suite
import LinkedProof.TimeFormat

/-! Attaching a proof to a document: the new proof comes last, and it signs the document without
itself. -/
namespace LinkedProof

structure ProofRequest (σ : Type) where
  type : Text
  suite : Suite σ
  method : Json
  representation : Representation
  created : Option Timestamp
  purpose : Text
  timeFormat : TimeFormat

namespace ProofRequest

variable {σ : Type}

def defaultPurpose : Text := "assertionMethod"

def options (r : ProofRequest σ) (created : Text) : Members :=
  [("type", .text r.type), ("created", .text created), ("verificationMethod", r.method),
    ("proofPurpose", .text r.purpose)]

def prepare (r : ProofRequest σ) (now : Timestamp) (document : Json) :
    Outcome (Document × Members × Bytes) := do
  if r.suite.signer.isNone then throw (.proof (.noSigner r.type))
  if r.method.isEmpty then throw (.proof .noMethod)
  discard (Method.ofValue r.method)
  let d ← Document.ofValue "get" document
  let count := d.proofs.length
  if count ≠ d.entryCount then throw (.proof .entriesNotObjects)
  let created ← r.timeFormat.format (r.created.getD now)
  let options := r.options created
  return (d, options, ← r.suite.verifyData d options (some count))

end ProofRequest

/-- The document with one more proof. The member that holds the proofs stays where it stands. -/
def Document.addProof (d : Document) (proof : Members) : Document :=
  match proofValue? ((d.proofs ++ [proof]).map .object) with
  | some value => d.set proofKey value
  | none => d

def Document.attach {σ : Type} (now : Timestamp) (r : ProofRequest σ) (document : Json) :
    Action σ Document := do
  let (d, options, payload) ← Action.ofOutcome (r.prepare now document)
  let value ← r.suite.sign payload r.representation
  return d.addProof (options.set r.representation.key (.text value))

/-- Signs a document that is held in the first part of the state and replaces it by the document
with the proof. -/
def Document.attachHeld {σ : Type} (now : Timestamp) (r : ProofRequest σ) :
    Action (Json × σ) Unit := do
  let (held, _) ← get
  let d ← (Document.attach now r held).onSecond
  modify fun (_, s) => (.object d, s)

end LinkedProof
