import LinkedProof.Number.Binary64
import LinkedProof.Text.Blank
import LinkedProof.Text.Digit

/-! Numbers that people write: in options and in settings. A decimal numeral has a sign if it likes,
digits with a point anywhere among them, and an exponent if it likes; the infinities and
not-a-number are words. -/
namespace LinkedProof.Numeral

def sign (t : Text) : Bool × Text :=
  match t with
  | c :: rest =>
    if c = ('-' : CodePoint) then (true, rest) else if c = ('+' : CodePoint) then (false, rest)
    else (false, t)
  | [] => (false, [])

def digits (t : Text) : Text × Text :=
  (t.takeWhile CodePoint.isDigit, t.dropWhile CodePoint.isDigit)

def exponent? : Text → Option Int
  | [] => some 0
  | e :: rest =>
    if e = ('e' : CodePoint) || e = ('E' : CodePoint) then
      let (negative, rest) := sign rest
      match digits rest with
      | ([], _) | (_, _ :: _) => none
      | (run, []) =>
        let n : Int := Text.digitsValue run
        some (if negative then -n else n)
    else none

def unsigned? (negative : Bool) (t : Text) : Option Binary64 :=
  let word := t.toLowerAscii
  if word = Text.ofString "inf" || word = Text.ofString "infinity" then
    some (.infinity negative)
  else if word = Text.ofString "nan" then some .nan
  else
    let (whole, rest) := digits t
    let (decimals, rest) := match rest with
      | c :: after => if c = ('.' : CodePoint) then digits after else ([], rest)
      | [] => ([], [])
    if whole.isEmpty && decimals.isEmpty then none
    else (exponent? rest).map fun exponent =>
      .ofDecimal negative (Text.digitsValue (whole ++ decimals)) (exponent - decimals.length)

def plain? (t : Text) : Option Binary64 :=
  let (negative, rest) := sign t
  unsigned? negative rest

def joinsDigits (before : Bool) : Text → Bool
  | [] => true
  | c :: rest =>
    if c = ('_' : CodePoint) then
      before && (rest.head?.map CodePoint.isDigit).getD false && joinsDigits false rest
    else joinsDigits c.isDigit rest

def withoutUnderscores (t : Text) : Text := t.filter (· ≠ ('_' : CodePoint))

def option? (t : Text) : Option Binary64 :=
  let t := (Text.trim CodePoint.isBlank t).map CodePoint.toAsciiDigit
  if joinsDigits false t then plain? (withoutUnderscores t) else none

def spacesInside (t : Text) : Bool :=
  let mark : CodePoint := '_'
  t.head? ≠ some mark && t.getLast? ≠ some mark && !Text.holds [mark, mark] t

def setting? (t : Text) : Option Binary64 :=
  (plain? (Text.trim CodePoint.isWhiteSpace t)).or
    (if spacesInside t then plain? (withoutUnderscores t) else none)

inductive WholeFault
  | malformed
  | tooLong
  deriving DecidableEq

def mostDigits : Nat := 4300

/-- A whole number in its one form: a minus if it is below zero, and digits without leading
zeros. -/
def canonical (t : Text) : Except WholeFault Int :=
  let (negative, rest) := match t with
    | c :: after => if c = ('-' : CodePoint) then (true, after) else (false, t)
    | [] => (false, t)
  let (run, after) := digits rest
  let length := run.length + if negative then 1 else 0
  if run.isEmpty || (run.head? = some ('0' : CodePoint) && 1 < run.length) then .error .malformed
  else if mostDigits < length then .error .tooLong
  else if !after.isEmpty then .error .malformed
  else
    let n : Int := Text.digitsValue run
    .ok (if negative then -n else n)

def withoutPlus? (t : Text) : Option Text :=
  match t with
  | c :: rest =>
    if c = ('+' : CodePoint) then
      if rest.head? = some ('-' : CodePoint) then none else some rest
    else some t
  | [] => some t

def leads (c : CodePoint) : Bool := (c.isDigit && c ≠ ('0' : CodePoint)) || c = ('-' : CodePoint)

/-- Goes on behind a leading zero or an underscore, which is `last`. A point wants what stands in
front of it. -/
def behindZero? (last : CodePoint) : Text → Option Text
  | [] => some [last]
  | c :: rest =>
    if c = ('0' : CodePoint) || c = ('_' : CodePoint) then behindZero? c rest
    else if leads c then some (c :: rest)
    else if c = ('.' : CodePoint) then some (last :: c :: rest)
    else none

def withoutLeadingZeros? : Text → Option Text
  | [] => none
  | c :: rest =>
    if c = ('0' : CodePoint) then behindZero? c rest
    else if leads c then some (c :: rest)
    else none

def withoutZeros (t : Text) : Text :=
  match Text.cut? '.' t with
  | some (whole, decimals) =>
    if !decimals.isEmpty && decimals.all (· = ('0' : CodePoint)) then whole else t
  | none => t

def tidy? (t : Text) : Option Text := do
  let t ← withoutPlus? (Text.trim CodePoint.isWhiteSpace t)
  let t := withoutZeros (← withoutLeadingZeros? t)
  return if spacesInside t then withoutUnderscores t else t

def wholeSetting (t : Text) : Except WholeFault Int :=
  match canonical t with
  | .error .malformed =>
    match (tidy? t).map canonical with
    | some (.ok i) => .ok i
    | _ => .error .malformed
  | read => read

end LinkedProof.Numeral
