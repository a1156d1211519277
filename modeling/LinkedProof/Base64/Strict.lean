import LinkedProof.Base64

/-! Base64 in the standard alphabet with its padding. The reader takes what the writer writes and
nothing else, and tells the place of what it does not take. -/
namespace LinkedProof.Base64.Strict

def pad : UInt8 := 0x3D

def encode (bytes : Bytes) : Text :=
  let digits := (Base64.encode bytes).map fun c =>
    if c = ('-' : CodePoint) then ('+' : CodePoint) else if c = ('_' : CodePoint) then '/' else c
  digits ++ List.replicate (missingPadding digits.length) ('=' : CodePoint)

/-- Why bytes are no base64; positions count from zero. -/
inductive Fault
  | symbol (position : Nat) (byte : UInt8)
  | length (count : Nat)
  | lastSymbol (position : Nat) (byte : UInt8)
  | padding
  deriving DecidableEq

def value? (b : UInt8) : Option Nat :=
  if b = 0x2D || b = 0x5F then none else Base64.value? (CodePoint.ofNat b.toNat)

def symbol (position : Nat) (b : UInt8) : Except Fault Nat :=
  match value? b with
  | some v => .ok v
  | none => .error (.symbol position b)

def groups (position : Nat) : Bytes → Except Fault Bytes
  | a :: b :: c :: d :: rest => do
    let v ← symbol position a
    let w ← symbol (position + 1) b
    let x ← symbol (position + 2) c
    let y ← symbol (position + 3) d
    return UInt8.ofNat (v * 4 + w / 16) :: UInt8.ofNat (w % 16 * 16 + x / 4)
      :: UInt8.ofNat (x % 4 * 64 + y) :: (← groups (position + 4) rest)
  | _ => .ok []

def symbols (position : Nat) : Bytes → Except Fault (List Nat)
  | [] => .ok []
  | b :: rest => do return (← symbol position b) :: (← symbols (position + 1) rest)

/-- The bytes of the last group, which may be shorter or have padding in the place of its last
characters. -/
def lastGroup (position : Nat) (t : Bytes) : Except Fault Bytes := do
  let data := t.takeWhile (· ≠ pad)
  let padding := t.drop data.length
  let values ← symbols position data
  if !padding.isEmpty && (data.length < 2 || padding.any (· ≠ pad)) then
    throw (.symbol (position + data.length) pad)
  if data.length < 2 then throw (.length (position + data.length))
  if t.length % 4 ≠ 0 then throw .padding
  let unused (v : Nat) (bytes : Bytes) : Except Fault Bytes :=
    if v = 0 then .ok bytes
    else .error (.lastSymbol (position + data.length - 1) (data.getLast?.getD 0))
  match values with
  | [v, w] => unused (w % 16) [UInt8.ofNat (v * 4 + w / 16)]
  | [v, w, x] =>
    unused (x % 4) [UInt8.ofNat (v * 4 + w / 16), UInt8.ofNat (w % 16 * 16 + x / 4)]
  | _ => groups position data

def decode (t : Bytes) : Except Fault Bytes :=
  let left := t.length % 4
  let front := if left = 0 then t.length - 4 else t.length - left
  let body : Except Fault Bytes := do
    let bytes ← groups 0 (t.take front)
    return bytes ++ (← lastGroup front (t.drop front))
  match t.getLast? with
  | none => .ok []
  | some b =>
    if left = 1 && b ≠ pad && (value? b).isNone then .error (.symbol (t.length - 1) b) else body

end LinkedProof.Base64.Strict
