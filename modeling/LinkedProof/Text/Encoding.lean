import LinkedProof.Text.Utf8

/-! Bytes of JSON text in any of the Unicode encoding forms. The form is told from a byte order mark
or, without one, from where the zero bytes of the first two characters stand. Lone surrogate halves
are let through in every form. -/
namespace LinkedProof.Encoding

inductive ByteOrder
  | big
  | little
  deriving DecidableEq

inductive Form
  | utf8
  | utf16 (order : ByteOrder)
  | utf32 (order : ByteOrder)
  deriving DecidableEq

def Form.name : Form → Text
  | .utf8 => "utf-8"
  | .utf16 .big => "utf-16-be"
  | .utf16 .little => "utf-16-le"
  | .utf32 .big => "utf-32-be"
  | .utf32 .little => "utf-32-le"

def marks : List (Bytes × Form) :=
  [([0x00, 0x00, 0xFE, 0xFF], .utf32 .big), ([0xFF, 0xFE, 0x00, 0x00], .utf32 .little),
    ([0xFE, 0xFF], .utf16 .big), ([0xFF, 0xFE], .utf16 .little), ([0xEF, 0xBB, 0xBF], .utf8)]

def unmarked : Bytes → Form
  | a :: b :: c :: d :: _ =>
    if a = 0 then (if b = 0 then .utf32 .big else .utf16 .big)
    else if b = 0 then (if c = 0 && d = 0 then .utf32 .little else .utf16 .little)
    else .utf8
  | [a, b] => if a = 0 then .utf16 .big else if b = 0 then .utf16 .little else .utf8
  | _ => .utf8

def detect (bytes : Bytes) : Form × Nat :=
  match marks.find? (·.1.isPrefixOf bytes) with
  | some (mark, form) => (form, mark.length)
  | none => (unmarked bytes, 0)

private def unit16 : ByteOrder → UInt8 → UInt8 → Nat
  | .big, a, b => a.toNat * 0x100 + b.toNat
  | .little, a, b => b.toNat * 0x100 + a.toNat

def units16 (order : ByteOrder) : Nat → Bytes → Except DecodeFault Text
  | _, [] => .ok []
  | position, [a] => .error ⟨(Form.utf16 order).name, position, position + 1, a, .truncated⟩
  | position, a :: b :: rest => do
    return CodePoint.ofNat (unit16 order a b) :: (← units16 order (position + 2) rest)

def joinSurrogates : Text → Text
  | high :: low :: rest =>
    if high.isHighSurrogate && low.isLowSurrogate then
      CodePoint.ofSurrogates high low :: joinSurrogates rest
    else high :: joinSurrogates (low :: rest)
  | t => t

private def unit32 : ByteOrder → UInt8 → UInt8 → UInt8 → UInt8 → Nat
  | .big, a, b, c, d => unit16 .big a b * 0x10000 + unit16 .big c d
  | .little, a, b, c, d => unit16 .little c d * 0x10000 + unit16 .little a b

def points32 (order : ByteOrder) : Nat → Bytes → Except DecodeFault Text
  | _, [] => .ok []
  | position, a :: b :: c :: d :: rest =>
    if unit32 order a b c d < 0x110000 then do
      return CodePoint.ofNat (unit32 order a b c d) :: (← points32 order (position + 4) rest)
    else .error ⟨(Form.utf32 order).name, position, position + 4, a, .outOfRange⟩
  | position, a :: rest =>
    .error ⟨(Form.utf32 order).name, position, position + 1 + rest.length, a, .truncated⟩

/-- The text of a byte string in the form that it shows. Positions in a fault count from the byte
order mark in the wider forms and from behind it in UTF-8. -/
def decode (bytes : Bytes) : Except DecodeFault Text :=
  let (form, mark) := detect bytes
  let body := bytes.drop mark
  match form with
  | .utf8 => Utf8.decodeFrom true 0 0 body
  | .utf16 order => joinSurrogates <$> units16 order mark body
  | .utf32 order => points32 order mark body

end LinkedProof.Encoding
