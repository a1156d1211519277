import LinkedProof.Number.Binary64

/-! The shortest decimal that reads back as a given binary number. On the decimal grids of one, two,
up to seventeen digits only the two neighbours of the number are tried: a grid that has a point in
the interval of reals rounding to the number has one of these two in it. -/
namespace LinkedProof.Shortest

-- Powers are the core library's, whatever else is in scope.
attribute [local instance (high)] instPowNat

structure Decimal where
  digits : Nat
  exponent : Int
  deriving DecidableEq

/-- Both sides of a comparison between `a * 2 ^ p` and `b * 10 ^ e` as natural numbers. -/
def sides (a : Nat) (p : Int) (b : Nat) (e : Int) : Nat × Nat :=
  let two (q : Int) : Nat := if q < 0 then 1 else 2 ^ q.toNat
  let ten (q : Int) : Nat := if q < 0 then 1 else 10 ^ q.toNat
  (a * two p * ten (-e), b * ten e * two (-p))

/-- The interval of reals that round to a finite number: centre and ends in units of
`2 ^ (exponent - 2)`. Below a power of two the spacing is half as wide. -/
structure Interval where
  low : Nat
  centre : Nat
  high : Nat
  exponent : Int
  closed : Bool

def interval (x : Binary64) : Interval :=
  let m := x.mantissa
  let narrow := x.fraction = 0 && 1 < x.biasedExponent
  ⟨4 * m - (if narrow then 1 else 2), 4 * m, 4 * m + 2, x.exponent - 2, m % 2 = 0⟩

def Interval.contains (i : Interval) (d : Decimal) : Bool :=
  let (low, point) := sides i.low i.exponent d.digits d.exponent
  let (high, point') := sides i.high i.exponent d.digits d.exponent
  if i.closed then low ≤ point && point' ≤ high else low < point && point' < high

def Interval.floor (i : Interval) (e : Int) : Nat :=
  let (centre, unit) := sides i.centre i.exponent 1 e
  centre / unit

def Interval.nearer (i : Interval) (below : Decimal) : Decimal :=
  let above : Decimal := ⟨below.digits + 1, below.exponent⟩
  let (centre, middle) := sides (2 * i.centre) i.exponent (2 * below.digits + 1) below.exponent
  if centre < middle then below
  else if middle < centre then above
  else if below.digits % 2 = 0 then below else above

def Interval.onGrid? (i : Interval) (e : Int) : Option Decimal :=
  let below : Decimal := ⟨i.floor e, e⟩
  let above : Decimal := ⟨i.floor e + 1, e⟩
  match i.contains below, i.contains above with
  | true, true => some (i.nearer below)
  | true, false => some below
  | false, true => some above
  | false, false => none

def Interval.magnitude (i : Interval) : Nat → Int → Int
  | 0, e => e
  | fuel + 1, e =>
    let (centre, power) := sides i.centre i.exponent 1 (e + 1)
    if centre < power then e else i.magnitude fuel (e + 1)

def search (i : Interval) (magnitude : Int) : Nat → Nat → Decimal
  | 0, count => ⟨i.floor (magnitude + 1 - count), magnitude + 1 - count⟩
  | fuel + 1, count =>
    match i.onGrid? (magnitude + 1 - count) with
    | some d => d
    | none => search i magnitude fuel (count + 1)

def Decimal.trim : Nat → Decimal → Decimal
  | 0, d => d
  | fuel + 1, d => if d.digits ≠ 0 && d.digits % 10 = 0
    then Decimal.trim fuel ⟨d.digits / 10, d.exponent + 1⟩ else d

def decimal (x : Binary64) : Decimal :=
  let i := interval x
  let guess := ((i.centre.log2 : Int) + i.exponent) * 30102 / 100000 - 2
  (search i (i.magnitude 6 guess) 17 1).trim 20

end LinkedProof.Shortest
