import LinkedProof.Bytes

/-! UTF-8. Writing refuses halves of surrogate pairs, and reading reports how far a malformed
sequence reaches; the reader that accepts lone halves is the one used for JSON bytes. -/
namespace LinkedProof

structure EncodeFault where
  start : Nat
  stop : Nat
  first : CodePoint
  deriving DecidableEq

def EncodeFault.message (f : EncodeFault) : Text :=
  if f.stop = f.start + 1 then
    Text.concat ["'utf-8' codec can't encode character '\\u", Text.ofHex 4 f.first.val,
      "' in position ", Text.ofNat f.start, ": surrogates not allowed"]
  else
    Text.concat ["'utf-8' codec can't encode characters in position ", Text.ofNat f.start, "-",
      Text.ofNat (f.stop - 1), ": surrogates not allowed"]

inductive DecodeReason
  | invalidStart
  | invalidContinuation
  | unexpectedEnd
  | truncated
  | outOfRange
  deriving DecidableEq

def DecodeReason.message : DecodeReason → Text
  | .invalidStart => "invalid start byte"
  | .invalidContinuation => "invalid continuation byte"
  | .unexpectedEnd => "unexpected end of data"
  | .truncated => "truncated data"
  | .outOfRange => "code point not in range(0x110000)"

structure DecodeFault where
  encoding : Text
  start : Nat
  stop : Nat
  first : UInt8
  reason : DecodeReason
  deriving DecidableEq

def DecodeFault.message (f : DecodeFault) : Text :=
  let place :=
    if f.stop = f.start + 1 then
      Text.concat ["byte 0x", Text.ofHex 2 f.first.toNat, " in position ", Text.ofNat f.start]
    else
      Text.concat ["bytes in position ", Text.ofNat f.start, "-", Text.ofNat (f.stop - 1)]
  Text.concat ["'", f.encoding, "' codec can't decode ", place, ": ", f.reason.message]

namespace Utf8

def encodePoint (c : CodePoint) : Bytes :=
  let n := c.val
  let byte (k : Nat) : UInt8 := UInt8.ofNat k
  if n < 0x80 then [byte n]
  else if n < 0x800 then [byte (0xC0 + n / 0x40), byte (0x80 + n % 0x40)]
  else if n < 0x10000 then
    [byte (0xE0 + n / 0x1000), byte (0x80 + n / 0x40 % 0x40), byte (0x80 + n % 0x40)]
  else
    [byte (0xF0 + n / 0x40000), byte (0x80 + n / 0x1000 % 0x40), byte (0x80 + n / 0x40 % 0x40),
      byte (0x80 + n % 0x40)]

def encodeFrom (position : Nat) : Text → Except EncodeFault Bytes
  | [] => .ok []
  | c :: rest =>
    if c.isSurrogate then
      .error ⟨position, position + 1 + (rest.takeWhile CodePoint.isSurrogate).length, c⟩
    else do return encodePoint c ++ (← encodeFrom (position + 1) rest)

def encode (t : Text) : Except EncodeFault Bytes := encodeFrom 0 t

def isContinuation (b : UInt8) : Bool := 0x80 ≤ b && b < 0xC0

/-- The first code point of a byte string and the count of its bytes, or the reason why there is
none and the count of bytes at fault. -/
def step (b : UInt8) (rest : Bytes) : Except (DecodeReason × Nat) (CodePoint × Nat) :=
  let low (c : UInt8) : Nat := c.toNat - 0x80
  if b < 0x80 then .ok (CodePoint.ofNat b.toNat, 1)
  else if b < 0xC2 then .error (.invalidStart, 1)
  else if b < 0xE0 then
    match rest with
    | [] => .error (.unexpectedEnd, 1)
    | c :: _ =>
      if isContinuation c then .ok (CodePoint.ofNat ((b.toNat - 0xC0) * 0x40 + low c), 2)
      else .error (.invalidContinuation, 1)
  else if b < 0xF0 then
    let fits (c : UInt8) : Bool :=
      isContinuation c && !(b == 0xE0 && c < 0xA0) && !(b == 0xED && 0xA0 ≤ c)
    match rest with
    | [] => .error (.unexpectedEnd, 1)
    | [c] => if fits c then .error (.unexpectedEnd, 2) else .error (.invalidContinuation, 1)
    | c :: d :: _ =>
      if !fits c then .error (.invalidContinuation, 1)
      else if !isContinuation d then .error (.invalidContinuation, 2)
      else .ok (CodePoint.ofNat ((b.toNat - 0xE0) * 0x1000 + low c * 0x40 + low d), 3)
  else if b < 0xF5 then
    let fits (c : UInt8) : Bool :=
      isContinuation c && !(b == 0xF0 && c < 0x90) && !(b == 0xF4 && 0x90 ≤ c)
    match rest with
    | [] => .error (.unexpectedEnd, 1)
    | [c] => if fits c then .error (.unexpectedEnd, 2) else .error (.invalidContinuation, 1)
    | [c, d] =>
      if !fits c then .error (.invalidContinuation, 1)
      else if !isContinuation d then .error (.invalidContinuation, 2)
      else .error (.unexpectedEnd, 3)
    | c :: d :: e :: _ =>
      if !fits c then .error (.invalidContinuation, 1)
      else if !isContinuation d then .error (.invalidContinuation, 2)
      else if !isContinuation e then .error (.invalidContinuation, 3)
      else .ok (CodePoint.ofNat
        ((b.toNat - 0xF0) * 0x40000 + low c * 0x1000 + low d * 0x40 + low e), 4)
  else .error (.invalidStart, 1)

def surrogateStep? (b : UInt8) : Bytes → Option CodePoint
  | c :: d :: _ =>
    if 0xE0 ≤ b && b < 0xF0 && isContinuation c && isContinuation d then
      let point := CodePoint.ofNat
        ((b.toNat - 0xE0) * 0x1000 + (c.toNat - 0x80) * 0x40 + (d.toNat - 0x80))
      if point.isSurrogate then some point else none
    else none
  | _ => none

/-- Reads from `position` on; `skip` counts the bytes of the code point just read. -/
def decodeFrom (surrogates : Bool) : Nat → Nat → Bytes → Except DecodeFault Text
  | _, _, [] => .ok []
  | position, skip + 1, _ :: rest => decodeFrom surrogates (position + 1) skip rest
  | position, 0, b :: rest =>
    match step b rest with
    | .ok (c, size) => do return c :: (← decodeFrom surrogates (position + 1) (size - 1) rest)
    | .error (reason, size) =>
      match if surrogates then surrogateStep? b rest else none with
      | some c => do return c :: (← decodeFrom surrogates (position + 1) 2 rest)
      | none => .error ⟨"utf-8", position, position + size, b, reason⟩

def decode (bytes : Bytes) : Except DecodeFault Text := decodeFrom false 0 0 bytes

end Utf8

end LinkedProof
