import LinkedProof.Text.CodePoint

/-! Byte strings and the big-endian numbers they stand for. -/
namespace LinkedProof

abbrev Bytes := List UInt8

namespace Bytes

-- Powers are the core library's, whatever else is in scope.
attribute [local instance (high)] instPowNat

def toNat (bytes : Bytes) : Nat := bytes.foldl (fun n b => n * 256 + b.toNat) 0

def ofNat : Nat → Nat → Bytes
  | 0, _ => []
  | size + 1, n => ofNat size (n / 256) ++ [UInt8.ofNat (n % 256)]

def ofNat? (size n : Nat) : Option Bytes := if n < 256 ^ size then some (ofNat size n) else none

def toHex (bytes : Bytes) : Text :=
  bytes.flatMap fun b => [CodePoint.hexDigit (b.toNat / 16), CodePoint.hexDigit (b.toNat % 16)]

def ofHex? : Text → Option Bytes
  | [] => some []
  | [_] => none
  | a :: b :: rest => do
    let high ← a.hexValue?
    let low ← b.hexValue?
    return UInt8.ofNat (high * 16 + low) :: (← ofHex? rest)

def ofCodes (t : Text) : Bytes := t.map fun c => UInt8.ofNat c.val

def ofAscii? (t : Text) : Option Bytes := if t.all CodePoint.isAscii then some (ofCodes t) else none

end Bytes

end LinkedProof
