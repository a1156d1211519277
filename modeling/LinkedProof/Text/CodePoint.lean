/-! Text as a list of Unicode code points. A JSON escape can name one half of a surrogate pair on
its own, so a text may hold code points that no encoding carries and that `Char` excludes. -/
namespace LinkedProof

structure CodePoint where
  val : Nat
  isLt : val < 0x110000
  deriving DecidableEq

namespace CodePoint

def ofChar (c : Char) : CodePoint :=
  ⟨c.toNat, by
    have valid := c.valid
    simp only [UInt32.isValidChar, Nat.isValidChar] at valid
    simp only [Char.toNat]
    omega⟩

instance : Coe Char CodePoint := ⟨ofChar⟩

instance : Inhabited CodePoint := ⟨'?'⟩

def ofNat (n : Nat) : CodePoint :=
  if h : n < 0x110000 then ⟨n, h⟩ else ⟨0xFFFD, by decide⟩

def isSurrogate (c : CodePoint) : Bool := 0xD800 ≤ c.val && c.val ≤ 0xDFFF

def isHighSurrogate (c : CodePoint) : Bool := 0xD800 ≤ c.val && c.val ≤ 0xDBFF

def isLowSurrogate (c : CodePoint) : Bool := 0xDC00 ≤ c.val && c.val ≤ 0xDFFF

def ofSurrogates (high low : CodePoint) : CodePoint :=
  ofNat (0x10000 + (high.val - 0xD800) * 0x400 + (low.val - 0xDC00))

def isAscii (c : CodePoint) : Bool := c.val < 0x80

def isDigit (c : CodePoint) : Bool := 0x30 ≤ c.val && c.val ≤ 0x39

def toLowerAscii (c : CodePoint) : CodePoint :=
  if 0x41 ≤ c.val && c.val ≤ 0x5A then ofNat (c.val + 0x20) else c

def toUpperAscii (c : CodePoint) : CodePoint :=
  if 0x61 ≤ c.val && c.val ≤ 0x7A then ofNat (c.val - 0x20) else c

def hexDigit (n : Nat) : CodePoint := ofNat (if n < 10 then 0x30 + n else 0x57 + n)

def hexDigitUpper (n : Nat) : CodePoint := ofNat (if n < 10 then 0x30 + n else 0x37 + n)

def hexValue? (c : CodePoint) : Option Nat :=
  if c.isDigit then some (c.val - 0x30)
  else if 0x41 ≤ c.val && c.val ≤ 0x46 then some (c.val - 0x37)
  else if 0x61 ≤ c.val && c.val ≤ 0x66 then some (c.val - 0x57)
  else none

end CodePoint

abbrev Text := List CodePoint

namespace Text

def ofString (s : String) : Text := s.toList.map CodePoint.ofChar

instance : Coe String Text := ⟨ofString⟩

def concat (parts : List Text) : Text := parts.flatten

def join (separator : Text) : List Text → Text
  | [] => []
  | [part] => part
  | part :: rest => part ++ separator ++ join separator rest

def cut? (mark : CodePoint) : Text → Option (Text × Text)
  | [] => none
  | c :: rest =>
    if c = mark then some ([], rest) else (cut? mark rest).map fun (a, b) => (c :: a, b)

def before (mark : CodePoint) (t : Text) : Text := t.takeWhile (· ≠ mark)

def split (mark : CodePoint) : Text → List Text
  | [] => [[]]
  | c :: rest =>
    if c = mark then [] :: split mark rest
    else match split mark rest with
      | [] => [[c]]
      | part :: parts => (c :: part) :: parts

/-- Reads `old` from left to right, each time leaving `new` in its place. `skip` counts the code
points of a place that was just replaced. -/
def replaceFrom (old new : Text) : Nat → Text → Text
  | _, [] => []
  | skip + 1, _ :: rest => replaceFrom old new skip rest
  | 0, c :: rest =>
    if old.isPrefixOf (c :: rest) then new ++ replaceFrom old new (old.length - 1) rest
    else c :: replaceFrom old new 0 rest

def replace (old new t : Text) : Text := replaceFrom old new 0 t

def holds (part : Text) : Text → Bool
  | [] => part.isEmpty
  | c :: rest => part.isPrefixOf (c :: rest) || holds part rest

def dropTrailing (mark : CodePoint) (t : Text) : Text :=
  (t.reverse.dropWhile (· = mark)).reverse

def toLowerAscii (t : Text) : Text := t.map CodePoint.toLowerAscii

/-- Order by the first differing code point; a text comes before its continuations. -/
def lt : Text → Text → Bool
  | [], [] => false
  | [], _ :: _ => true
  | _ :: _, [] => false
  | a :: s, b :: t => if a = b then lt s t else a.val < b.val

def digitsValue (t : Text) : Nat := t.foldl (fun n c => n * 10 + (c.val - 0x30)) 0

def decimalFrom : Nat → Nat → Text → Text
  | 0, _, tail => tail
  | fuel + 1, n, tail =>
    let tail := CodePoint.ofNat (0x30 + n % 10) :: tail
    if n < 10 then tail else decimalFrom fuel (n / 10) tail

def ofNat (n : Nat) : Text := decimalFrom (n.log2 + 1) n []

def ofInt (i : Int) : Text := if i < 0 then "-" ++ ofNat i.natAbs else ofNat i.natAbs

def ofNatPadded (width n : Nat) : Text :=
  let digits := ofNat n
  List.replicate (width - digits.length) ('0' : CodePoint) ++ digits

def ofHex : Nat → Nat → Text
  | 0, _ => []
  | width + 1, n => ofHex width (n / 16) ++ [CodePoint.hexDigit (n % 16)]

end Text

end LinkedProof
