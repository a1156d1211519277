import LinkedProof.Jwk

/-! The parts of a DID document that proofs need: verification methods by their absolute ids, and
the relationships under which they are listed. -/
namespace LinkedProof.Did

structure VerificationMethod where
  id : Text
  type : Text
  controller : Text
  key : Option Jwk

/-- `methods` are in the order in which their ids first came up; of several with one id the last
stays. -/
structure Document where
  id : Text
  methods : List (Text × VerificationMethod)
  relationships : List (Text × List Text)

namespace Document

def absolute (d : Document) (id : Text) : Text :=
  if id.head? = some '#' then d.id ++ id else id

def method? (d : Document) (id : Text) : Option VerificationMethod :=
  (d.methods.find? (·.1 = d.absolute id)).map (·.2)

def authorizes (d : Document) (id relationship : Text) : Bool :=
  match d.relationships.find? (·.1 = relationship) with
  | some (_, ids) => ids.contains (d.absolute id)
  | none => false

def store (m : VerificationMethod) :
    List (Text × VerificationMethod) → List (Text × VerificationMethod)
  | [] => [(m.id, m)]
  | (id, other) :: rest => if id = m.id then (id, m) :: rest else (id, other) :: store m rest

def register (d : Document) (m : VerificationMethod) : Document :=
  { d with methods := store m d.methods }

def readId (d : Document) : Json → Outcome Text
  | .text (c :: rest) => .ok (d.absolute (c :: rest))
  | found => .error (.proof (.did (.methodId d.id found)))

def readMethod (d : Document) (members : Members) : Outcome VerificationMethod := do
  let id ← d.readId (members.get "id")
  return {
    id
    type := ((members.get "type").text?).getD []
    controller := ((members.get "controller").text?).getD d.id
    key := ((members.get "publicKeyJwk").object?).map Jwk.ofMembers }

def entries (id : Text) (members : Members) (name : Text) : Outcome (List Json) :=
  match (members.get? name).getD (.array []) with
  | .array items => .ok items
  | _ => .error (.proof (.did (.notList id name)))

def readMethods (d : Document) : List Json → Outcome Document
  | [] => .ok d
  | .object members :: rest => do (d.register (← d.readMethod members)).readMethods rest
  | _ :: _ => .error (.proof (.did (.methodNotObject d.id)))

def readReferences (relationship : Text) (d : Document) : List Json → Outcome (Document × List Text)
  | [] => .ok (d, [])
  | .text id :: rest => do
    let id ← d.readId (.text id)
    let (d, ids) ← readReferences relationship d rest
    return (d, id :: ids)
  | .object members :: rest => do
    let m ← d.readMethod members
    let (d, ids) ← readReferences relationship (d.register m) rest
    return (d, m.id :: ids)
  | found :: _ => .error (.proof (.did (.entry d.id relationship found)))

def relationshipNames : List Text := ["authentication", "assertionMethod", "capabilityInvocation"]

def readRelationships (members : Members) (d : Document) : List Text → Outcome Document
  | [] => .ok d
  | name :: rest => do
    let (d, ids) ← readReferences name d (← entries d.id members name)
    readRelationships members { d with relationships := d.relationships ++ [(name, ids)] } rest

def ofValue (did : Text) : Json → Outcome Document
  | .object members => do
    let found := (Members.get? "id" members).getD (.text [])
    if !found.isText did then throw (.proof (.did (.mismatch did found)))
    let d ← readMethods ⟨did, [], []⟩ (← entries did members "verificationMethod")
    readRelationships members d relationshipNames
  | _ => .error (.proof (.did (.notObject did)))

end Document

end LinkedProof.Did
