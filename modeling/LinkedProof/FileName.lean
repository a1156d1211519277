import LinkedProof.Text.Utf8

/-! Names of files as texts. A name is a byte string in UTF-8; a byte that belongs to no sequence of
it is the half of a surrogate pair from U+DC80 to U+DCFF, and so every byte string has its text. -/
namespace LinkedProof.FileName

def isByte (c : CodePoint) : Bool := 0xDC80 ≤ c.val && c.val ≤ 0xDCFF

def ofByte (b : UInt8) : CodePoint := CodePoint.ofNat (0xDC00 + b.toNat)

def toByte (c : CodePoint) : UInt8 := UInt8.ofNat (c.val - 0xDC00)

def bytesFrom (position : Nat) : Text → Except EncodeFault Bytes
  | [] => .ok []
  | c :: rest =>
    if isByte c then do return toByte c :: (← bytesFrom (position + 1) rest)
    else if c.isSurrogate then
      .error ⟨position, position + 1 + (rest.takeWhile CodePoint.isSurrogate).length, c⟩
    else do return Utf8.encodePoint c ++ (← bytesFrom (position + 1) rest)

def bytes (name : Text) : Except EncodeFault Bytes := bytesFrom 0 name

/-- The text of a byte string with something in the place of each malformed sequence; `skip` counts
what is left of the sequence just read. -/
def ofBytesFrom (malformed : Bytes → Text) : Nat → Bytes → Text
  | _, [] => []
  | skip + 1, _ :: rest => ofBytesFrom malformed skip rest
  | 0, b :: rest =>
    match Utf8.step b rest with
    | .ok (c, size) => c :: ofBytesFrom malformed (size - 1) rest
    | .error (_, size) =>
      malformed ((b :: rest).take size) ++ ofBytesFrom malformed (size - 1) rest

def ofBytes (b : Bytes) : Text := ofBytesFrom (·.map ofByte) 0 b

def canonical (name : Text) : Text := ((bytes name).map ofBytes).toOption.getD name

def shown (name : Text) : Text :=
  ((bytes name).map (ofBytesFrom (fun _ => [CodePoint.ofNat 0xFFFD]) 0)).toOption.getD name

end LinkedProof.FileName
