import LinkedProof.Number.Shortest
import LinkedProof.Text.CodePoint

/-! The text of a floating-point number: positional for moderate magnitudes, with an exponent of at
least two digits otherwise, always recognisable as fractional. -/
namespace LinkedProof

structure FloatLayout where
  leastPoint : Int
  greatestPoint : Int
  exponentDigits : Nat
  nan : Text
  infinity : Text

/-- A point at most three zeros in front of the digits and at most sixteen digits behind the first
is written positionally. -/
def FloatLayout.shown : FloatLayout := ⟨-3, 16, 2, "nan", "inf"⟩

def FloatLayout.json : FloatLayout := ⟨-3, 16, 2, "NaN", "Infinity"⟩

namespace FloatLayout

def positional (digits : Text) (point : Int) : Text :=
  let zeros (n : Nat) : Text := List.replicate n ('0' : CodePoint)
  if point ≤ 0 then "0." ++ zeros point.natAbs ++ digits
  else
    let point := point.toNat
    if digits.length ≤ point then digits ++ zeros (point - digits.length) ++ ".0"
    else digits.take point ++ "." ++ digits.drop point

def scientific (layout : FloatLayout) (digits : Text) (point : Int) : Text :=
  let exponent := point - 1
  let mantissa := match digits with
    | [] => []
    | [d] => [d]
    | d :: rest => d :: '.' :: rest
  mantissa ++ (if exponent < 0 then "e-" else "e+")
    ++ Text.ofNatPadded layout.exponentDigits exponent.natAbs

def magnitude (layout : FloatLayout) (x : Binary64) : Text :=
  if x.isZero then "0.0"
  else
    let d := Shortest.decimal x
    let digits := Text.ofNat d.digits
    let point := (digits.length : Int) + d.exponent
    if layout.leastPoint ≤ point && point ≤ layout.greatestPoint then positional digits point
    else scientific layout digits point

def text (layout : FloatLayout) (x : Binary64) : Text :=
  if x.isNaN then layout.nan
  else
    let unsigned := if x.isInfinite then layout.infinity else layout.magnitude x
    if x.isNegative then "-" ++ unsigned else unsigned

end FloatLayout

end LinkedProof
