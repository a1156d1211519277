import LinkedProof.Text.CodePoint

/-! Blanks: the code points with the Unicode property White_Space, and beside them the four
information separators where a reader takes those for blanks too. -/
namespace LinkedProof

def Text.whiteSpaceRuns : List (Nat × Nat) :=
  [(0x9, 0xD), (0x20, 0x20), (0x85, 0x85), (0xA0, 0xA0), (0x1680, 0x1680), (0x2000, 0x200A),
  (0x2028, 0x2029), (0x202F, 0x202F), (0x205F, 0x205F), (0x3000, 0x3000)]

def CodePoint.isWhiteSpace (c : CodePoint) : Bool :=
  Text.whiteSpaceRuns.any fun (first, last) => first ≤ c.val && c.val ≤ last

def CodePoint.isBlank (c : CodePoint) : Bool := c.isWhiteSpace || (0x1C ≤ c.val && c.val ≤ 0x1F)

namespace Text

def trimEnd (isBlank : CodePoint → Bool) (t : Text) : Text :=
  (t.reverse.dropWhile isBlank).reverse

def trim (isBlank : CodePoint → Bool) (t : Text) : Text := trimEnd isBlank (t.dropWhile isBlank)

def unifyFrom (behindReturn : Bool) : Text → Text
  | [] => []
  | c :: rest =>
    if c.val = 0x0D then '\n' :: unifyFrom true rest
    else if behindReturn && c.val = 0x0A then unifyFrom false rest
    else c :: unifyFrom false rest

def unifyLineEnds (t : Text) : Text := unifyFrom false t

end Text

example : (Text.whiteSpaceRuns.map fun (first, last) => last + 1 - first).sum = 25 := by decide

end LinkedProof
