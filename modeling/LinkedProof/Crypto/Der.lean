import LinkedProof.Bytes

/-! Elements of the distinguished encoding rules: a tag, a length in the fewest bytes, and the
contents. A reader takes what it reads from the front of a byte string. -/
namespace LinkedProof.Der

inductive TagClass
  | universal
  | application
  | contextSpecific
  | privateUse
  deriving DecidableEq

namespace TagClass

def all : List TagClass := [universal, application, contextSpecific, privateUse]

def ofByte (b : UInt8) : TagClass := (all[b.toNat / 64]?).getD privateUse

def bits (c : TagClass) : Nat := all.idxOf c * 64

end TagClass

structure Tag where
  value : Nat
  constructed : Bool
  tagClass : TagClass
  deriving DecidableEq

namespace Tag

def integer : Tag := ⟨0x02, false, .universal⟩
def bitString : Tag := ⟨0x03, false, .universal⟩
def octetString : Tag := ⟨0x04, false, .universal⟩
def null : Tag := ⟨0x05, false, .universal⟩
def objectIdentifier : Tag := ⟨0x06, false, .universal⟩
def sequence : Tag := ⟨0x10, true, .universal⟩
def set : Tag := ⟨0x11, true, .universal⟩

def place (n : Nat) : Tag := ⟨n, true, .contextSpecific⟩

def byte (t : Tag) : UInt8 :=
  UInt8.ofNat (t.tagClass.bits + (if t.constructed then 0x20 else 0) + t.value)

end Tag

structure Element where
  tag : Tag
  contents : Bytes
  deriving DecidableEq

/-! Writing. -/

def magnitude (n : Nat) : Bytes := Bytes.ofNat ((n.log2 + 8) / 8) n

def lengthBytes (n : Nat) : Bytes :=
  if n < 0x80 then [UInt8.ofNat n]
  else let bytes := magnitude n; UInt8.ofNat (0x80 + bytes.length) :: bytes

def encode (tag : Tag) (contents : Bytes) : Bytes :=
  tag.byte :: lengthBytes contents.length ++ contents

/-! Reading. -/

inductive Fault
  | value
  | tag
  | length
  | unexpectedTag (found : Tag)
  | short (needed : Nat)
  | overflow
  | extra
  | setOrder
  | longIdentifier
  deriving DecidableEq

abbrev Reader := StateT Bytes (Except Fault)

namespace Reader

-- Powers are the core library's, whatever else is in scope.
attribute [local instance (high)] instPowNat

def bytes (count : Nat) : Reader Bytes := fun t =>
  if count ≤ t.length then .ok (t.take count, t.drop count) else .error (.short (count - t.length))

def byte : Reader UInt8
  | [] => .error (.short 1)
  | b :: rest => .ok (b, rest)

def groupsWithin : Nat → Nat → Reader Nat
  | 0, _ => throw .value
  | fuel + 1, n => do
    let b ← byte
    if n = 0 && b = 0x80 then throw .value
    let n := n * 128 + b.toNat % 128
    if b < 0x80 then return n else groupsWithin fuel n

def mostGroups : Nat := 4

def tag : Reader Tag := do
  let b ← byte
  let constructed := b.toNat / 32 % 2 = 1
  let low := b.toNat % 32
  if low < 31 then return ⟨low, constructed, TagClass.ofByte b⟩
  let value ← tryCatch (groupsWithin mostGroups 0) fun _ => throw .tag
  if value < 31 then throw .tag
  return ⟨value, constructed, TagClass.ofByte b⟩

/-- A length in `count` bytes, which has to be one that fewer bytes cannot hold. -/
def lengthIn (count : Nat) : Reader Nat := do
  let n := Bytes.toNat (← bytes count)
  if n < (if count = 1 then 0x80 else 256 ^ (count - 1)) then throw .length
  return n

def length : Reader Nat := do
  let b ← byte
  if b < 0x80 then return b.toNat
  if 0x81 ≤ b && b ≤ 0x84 then lengthIn (b.toNat - 0x80) else throw .length

def element : Reader Element := do
  let tag ← tag
  return ⟨tag, ← bytes (← length)⟩

def contents (expected : Tag) : Reader Bytes := do
  let e ← element
  if e.tag = expected then return e.contents else throw (.unexpectedTag e.tag)

def run {α : Type} (r : Reader α) (t : Bytes) : Except Fault α := do
  let (a, rest) ← StateT.run r t
  if rest.isEmpty then return a else throw .extra

def inside {α : Type} (expected : Tag) (r : Reader α) : Reader α := do
  StateT.lift (run r (← contents expected))

def next? : Reader (Option Tag) := fun t => .ok (((StateT.run tag t).toOption).map (·.1), t)

def optional {α : Type} (expected : Tag) (r : Reader α) : Reader (Option α) := do
  if (← next?) = some expected then some <$> r else return none

def natural : Reader Nat := do
  match ← contents .integer with
  | [] => throw .value
  | a :: rest =>
    let wasteful := a = 0 && rest.head?.any (· < 0x80)
    if wasteful || 0x80 ≤ a then throw .value
    return Bytes.toNat (a :: rest)

def small : Reader Nat := do
  let n ← natural
  if n < 256 then return n else throw .overflow

def octets : Reader Bytes := contents .octetString

def bits : Reader Bytes := do
  match ← contents .bitString with
  | [] => throw .value
  | unused :: body =>
    let spare := (body.getLast?.getD 0).toNat % 2 ^ unused.toNat
    if 7 < unused || (body.isEmpty && unused ≠ 0) || spare ≠ 0 then throw .value
    return body

def null : Reader Unit := do
  if !(← contents .null).isEmpty then throw .value

def numbersWithin : Nat → Reader Unit
  | 0 => return ()
  | fuel + 1 => do
    discard (groupsWithin mostGroups 0)
    if !(← get).isEmpty then numbersWithin fuel

def mostIdentifier : Nat := 63

def identifier : Reader Bytes := do
  let oid ← contents .objectIdentifier
  if oid.isEmpty then throw .value
  if mostIdentifier < oid.length then throw .longIdentifier
  match run (numbersWithin oid.length) oid with
  | .ok () => return oid
  | .error _ => throw .value

def membersWithin {α : Type} (r : Reader α) : Nat → Bytes → Reader Unit
  | 0, _ => return ()
  | fuel + 1, last => do
    let t ← get
    if t.isEmpty then return ()
    discard r
    let read := t.take (t.length - (← get).length)
    if read < last then throw .setOrder
    membersWithin r fuel read

def members {α : Type} (r : Reader α) : Reader Unit := do
  membersWithin r (← get).length []

end Reader

end LinkedProof.Der
