import LinkedProof.Bytes

/-! Base64 in the URL alphabet without padding, and the lenient reader of it: characters outside the
alphabet are skipped, both alphabets are read, padding may end the data early, and bits left over in
the last character are dropped. -/
namespace LinkedProof.Base64

def digit (n : Nat) : CodePoint :=
  if n < 26 then CodePoint.ofNat (0x41 + n)
  else if n < 52 then CodePoint.ofNat (0x61 + (n - 26))
  else if n < 62 then CodePoint.ofNat (0x30 + (n - 52))
  else if n = 62 then '-'
  else '_'

def value? (c : CodePoint) : Option Nat :=
  if 0x41 ≤ c.val && c.val ≤ 0x5A then some (c.val - 0x41)
  else if 0x61 ≤ c.val && c.val ≤ 0x7A then some (c.val - 0x61 + 26)
  else if c.isDigit then some (c.val - 0x30 + 52)
  else if c = ('-' : CodePoint) || c = ('+' : CodePoint) then some 62
  else if c = ('_' : CodePoint) || c = ('/' : CodePoint) then some 63
  else none

def encode : Bytes → Text
  | [] => []
  | [a] => [digit (a.toNat / 4), digit (a.toNat % 4 * 16)]
  | [a, b] =>
    [digit (a.toNat / 4), digit (a.toNat % 4 * 16 + b.toNat / 16), digit (b.toNat % 16 * 4)]
  | a :: b :: c :: rest =>
    digit (a.toNat / 4) :: digit (a.toNat % 4 * 16 + b.toNat / 16)
      :: digit (b.toNat % 16 * 4 + c.toNat / 64) :: digit (c.toNat % 64) :: encode rest

inductive Fault
  | notAscii
  | lonely (characters : Nat)
  | padding
  deriving DecidableEq

def Fault.message : Fault → Text
  | .notAscii => "string argument should contain only ASCII characters"
  | .lonely n => Text.concat ["Invalid base64-encoded string: number of data characters (",
      Text.ofNat n, ") cannot be 1 more than a multiple of 4"]
  | .padding => "Incorrect padding"

/-- The reader between two characters: how many data characters of the current group were read, how
many padding characters since the last of them, the bits not yet handed out, and the bytes so far,
last first. -/
structure Reader where
  group : Nat
  pads : Nat
  bits : Nat
  done : Bytes
  deriving DecidableEq

def Reader.start : Reader := ⟨0, 0, 0, []⟩

def Reader.push (r : Reader) (v : Nat) : Reader :=
  match r.group with
  | 0 => ⟨1, 0, v, r.done⟩
  | 1 => ⟨2, 0, v % 16, UInt8.ofNat (r.bits * 4 + v / 16) :: r.done⟩
  | 2 => ⟨3, 0, v % 4, UInt8.ofNat (r.bits * 16 + v / 4) :: r.done⟩
  | _ => ⟨0, 0, 0, UInt8.ofNat (r.bits * 64 + v) :: r.done⟩

def Reader.bytes (r : Reader) : Bytes := r.done.reverse

def Reader.finish (r : Reader) : Except Fault Bytes :=
  match r.group with
  | 0 => .ok r.bytes
  | 1 => .error (.lonely (r.done.length / 3 * 4 + 1))
  | _ => .error .padding

/-- Padding counts in a group of two or three data characters; there it ends the data once the group
is complete. -/
def Reader.run (r : Reader) : Text → Except Fault Bytes
  | [] => r.finish
  | c :: rest =>
    if c = ('=' : CodePoint) then
      if 2 ≤ r.group then
        if 4 ≤ r.group + (r.pads + 1) then .ok r.bytes
        else run ⟨r.group, r.pads + 1, r.bits, r.done⟩ rest
      else run r rest
    else match value? c with
      | some v => run (r.push v) rest
      | none => run r rest

/-- As many padding characters as the length of the text calls for, whatever the text holds. -/
def missingPadding (length : Nat) : Nat := (4 - length % 4) % 4

def decode (t : Text) : Except Fault Bytes :=
  if t.all CodePoint.isAscii then
    Reader.start.run (t ++ List.replicate (missingPadding t.length) ('=' : CodePoint))
  else .error .notAscii

end LinkedProof.Base64
