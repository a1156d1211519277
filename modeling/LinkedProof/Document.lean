import LinkedProof.Action
import LinkedProof.Json.Writer

/-! Documents with embedded proofs, and the text of a document that a proof signs. The member
`proof` holds one object or an array; array entries that are no objects are entries, not proofs. -/
namespace LinkedProof

abbrev Document := Members

/-- How documents are brought to the text that a proof signs: each proof with those before it in a
chain or without any other in a set, and with room for so many containers one in the other. -/
structure Canonicalizer where
  chain : Bool
  room : Json.Room

namespace Document

def proofKey : Text := "proof"

def ofValue (member : Text) : Json → Outcome Document
  | .object ms => .ok ms
  | value => .error (.wrongKind (.noMember value.kindWord member))

def proofs (d : Document) : List Members :=
  match d.get proofKey with
  | .array items => items.filterMap Json.object?
  | .object proof => [proof]
  | _ => []

def entryCount (d : Document) : Nat :=
  match d.get proofKey with
  | .null => 0
  | .array items => items.length
  | _ => 1

def proofValue? : List Json → Option Json
  | [] => none
  | [proof] => some proof
  | proofs => some (.array proofs)

def withProofs (d : Document) (proofs : List Json) : Document :=
  d.erase proofKey ++ match proofValue? proofs with
    | some value => [(proofKey, value)]
    | none => []

/-- The first members of a list, counted from the end if the count is negative. -/
def leading {α : Type} (count : Int) (xs : List α) : List α :=
  if count < 0 then xs.take (xs.length - count.natAbs) else xs.take count.toNat

/-- The bytes that a value signs: members by ascending names, no blanks, UTF-8. -/
def serialize (room : Nat) (value : Json) : Outcome Bytes :=
  if room < value.depth then .error .unwritable
  else
    (Utf8.encode (value.sortKeys.render .literal)).mapError fun fault => .unfit (.encoding fault)

/-- The document as a proof signs it: without proofs, or in a chain with those before the excluded
one. -/
def signed (chain : Bool) (d : Document) (exclude : Option Int) : Document :=
  let kept := match exclude with
    | some index => if chain then leading index d.proofs else []
    | none => []
  d.withProofs (kept.map .object)

def canonicalize (c : Canonicalizer) (d : Document) (exclude : Option Int) : Outcome Bytes :=
  serialize c.room (.object (d.signed c.chain exclude))

/-- The document without one of its proofs. Entries that are no objects do not stay. -/
def removeProof (d : Document) (index : Int) : Outcome Document :=
  let proofs := d.proofs
  if 0 ≤ index ∧ index < proofs.length then
    .ok (d.withProofs ((proofs.eraseIdx index.toNat).map .object))
  else .error (.noProof index proofs.length)

end Document

end LinkedProof
