import LinkedProof.Json.Basic
import LinkedProof.Text.Encoding

/-! JSON text to values. `NaN` and the infinities are values, a lone surrogate escape stands for
itself, and of members with one name the last value stays at the first place. Integers have a most
count of digits, and containers have room for so many of them one in the other. Each reading
function returns what it left unread; a
fault names how much of the text was left where it lies. -/
namespace LinkedProof

namespace Json

-- Powers are the core library's, whatever else is in scope.
attribute [local instance (high)] instPowNat

inductive SyntaxReason
  | value
  | name
  | colon
  | comma
  | unterminated
  | control
  | escape
  | unicodeEscape
  | extra
  | byteOrderMark
  deriving DecidableEq

def SyntaxReason.message : SyntaxReason → Text
  | .value => "Expecting value"
  | .name => "Expecting property name enclosed in double quotes"
  | .colon => "Expecting ':' delimiter"
  | .comma => "Expecting ',' delimiter"
  | .unterminated => "Unterminated string starting at"
  | .control => "Invalid control character at"
  | .escape => "Invalid \\escape"
  | .unicodeEscape => "Invalid \\uXXXX escape"
  | .extra => "Extra data"
  | .byteOrderMark => "Unexpected UTF-8 BOM (decode using utf-8-sig)"

inductive Container
  | array
  | object
  deriving DecidableEq

def Container.word : Container → Text
  | .array => "array"
  | .object => "object"

inductive Stop
  | fault (reason : SyntaxReason) (left : Nat)
  | digits (count : Nat)
  | depth (container : Container)

def mostDigits : Nat := 4300

structure SyntaxFault where
  reason : SyntaxReason
  line : Nat
  column : Nat
  position : Nat
  deriving DecidableEq

def SyntaxFault.message (f : SyntaxFault) : Text :=
  Text.concat [f.reason.message, ": line ", Text.ofNat f.line, " column ", Text.ofNat f.column,
    " (char ", Text.ofNat f.position, ")"]

inductive TextFault
  | syntaxFault (fault : SyntaxFault)
  | digits (count : Nat)
  | depth (container : Container)
  deriving DecidableEq

def TextFault.message : TextFault → Text
  | .syntaxFault fault => fault.message
  | .digits count => Text.concat ["Exceeds the limit (", Text.ofNat mostDigits,
      " digits) for integer string conversion: value has ", Text.ofNat count,
      " digits; use sys.set_int_max_str_digits() to increase the limit"]
  | .depth container => Text.concat ["maximum recursion depth exceeded while decoding a JSON ",
      container.word, " from a unicode string"]

def SyntaxReason.locate (whole : Text) (reason : SyntaxReason) (left : Nat) : SyntaxFault :=
  let position := whole.length - left
  let earlier := whole.take position
  let newline : CodePoint := '\n'
  ⟨reason, (earlier.filter (· = newline)).length + 1,
    (earlier.reverse.takeWhile (· ≠ newline)).length + 1, position⟩

def Stop.locate (whole : Text) : Stop → TextFault
  | .fault reason left => .syntaxFault (reason.locate whole left)
  | .digits count => .digits count
  | .depth container => .depth container

private def fail {α : Type} (reason : SyntaxReason) (rest : Text) : Except Stop α :=
  .error (.fault reason rest.length)

def isBlank (c : CodePoint) : Bool := c.val = 0x20 || c.val = 0x09 || c.val = 0x0A || c.val = 0x0D

def skipBlanks (t : Text) : Text := t.dropWhile isBlank

/-- Four hexadecimal digits. One more code point has to follow them. -/
def hexQuad? : Text → Option (Nat × Text)
  | a :: b :: c :: d :: next :: rest => do
    let n := ((← a.hexValue?) * 16 + (← b.hexValue?)) * 256 + (← c.hexValue?) * 16 + (← d.hexValue?)
    return (n, next :: rest)
  | _ => none

def shortEscape? (c : CodePoint) : Option CodePoint :=
  if c = ('"' : CodePoint) || c = ('\\' : CodePoint) || c = ('/' : CodePoint) then some c
  else if c = ('b' : CodePoint) then some (CodePoint.ofNat 0x08)
  else if c = ('f' : CodePoint) then some (CodePoint.ofNat 0x0C)
  else if c = ('n' : CodePoint) then some (CodePoint.ofNat 0x0A)
  else if c = ('r' : CodePoint) then some (CodePoint.ofNat 0x0D)
  else if c = ('t' : CodePoint) then some (CodePoint.ofNat 0x09)
  else none

/-- The low half that follows a high one as an escape of its own. Digits that are not hexadecimal
are a fault there too. -/
def lowEscape : Text → Except Stop (Option CodePoint)
  | backslash :: u :: rest =>
    if backslash = ('\\' : CodePoint) && u = ('u' : CodePoint) && 5 ≤ rest.length then
      match hexQuad? rest with
      | some (n, _) =>
        let low := CodePoint.ofNat n
        .ok (if low.isLowSurrogate then some low else none)
      | none => fail .unicodeEscape (u :: rest)
    else .ok none
  | _ => .ok none

def readEscape (c : CodePoint) (rest : Text) : Except Stop (CodePoint × Nat) :=
  if c = ('u' : CodePoint) then
    match hexQuad? rest with
    | none => fail .unicodeEscape (c :: rest)
    | some (n, after) =>
      let first := CodePoint.ofNat n
      if first.isHighSurrogate then
        match lowEscape after with
        | .error fault => .error fault
        | .ok (some low) => .ok (CodePoint.ofSurrogates first low, 11)
        | .ok none => .ok (first, 5)
      else .ok (first, 5)
  else match shortEscape? c with
    | some point => .ok (point, 1)
    | none => .error (.fault .escape (rest.length + 2))

/-- The rest of a string up to its closing quote, behind the `done` part in reverse order; `skip`
counts what is left of the escape just read. There is no stop where the text ends within the
string. -/
def readString : Nat → Text → Text → Except (Option Stop) (Text × Text)
  | _, _, [] => .error none
  | skip + 1, done, _ :: rest => readString skip done rest
  | 0, done, c :: rest =>
    if c = ('"' : CodePoint) then .ok (done.reverse, rest)
    else if c = ('\\' : CodePoint) then
      match rest with
      | [] => .error none
      | d :: after =>
        match readEscape d after with
        | .ok (point, size) => readString size (point :: done) (d :: after)
        | .error stop => .error (some stop)
    else if c.val < 0x20 then .error (some (.fault .control (rest.length + 1)))
    else readString 0 (c :: done) rest

def string (t : Text) : Except Stop (Text × Text) :=
  (readString 0 [] t).mapError fun stop => stop.getD (.fault .unterminated (t.length + 1))

def fraction? : Text → Option (Text × Text)
  | point :: d :: rest =>
    if point = ('.' : CodePoint) && d.isDigit then
      some (d :: rest.takeWhile CodePoint.isDigit, rest.dropWhile CodePoint.isDigit)
    else none
  | _ => none

def exponent? : Text → Option (Int × Text)
  | e :: rest =>
    if e = ('e' : CodePoint) || e = ('E' : CodePoint) then
      let (negative, digits) := match rest with
        | sign :: after =>
          if sign = ('-' : CodePoint) then (true, after)
          else if sign = ('+' : CodePoint) then (false, after)
          else (false, rest)
        | [] => (false, rest)
      let run := digits.takeWhile CodePoint.isDigit
      if run.isEmpty then none
      else
        let n : Int := Text.digitsValue run
        some (if negative then -n else n, digits.dropWhile CodePoint.isDigit)
    else none
  | [] => none

def wholePart? : Text → Option (Text × Text)
  | c :: rest =>
    if c = ('0' : CodePoint) then some ([c], rest)
    else if c.isDigit then
      some (c :: rest.takeWhile CodePoint.isDigit, rest.dropWhile CodePoint.isDigit)
    else none
  | [] => none

def unsignedNumber? (negative : Bool) (t : Text) : Option (Json × Text) := do
  let (whole, afterWhole) ← wholePart? t
  let (decimals, afterFraction) := (fraction? afterWhole).getD ([], afterWhole)
  match exponent? afterFraction with
  | some (exponent, rest) =>
    return (.float (.ofDecimal negative (Text.digitsValue (whole ++ decimals))
      (exponent - decimals.length)), rest)
  | none =>
    if decimals.isEmpty then
      let n : Int := Text.digitsValue whole
      return (.int (if negative then -n else n), afterFraction)
    else
      return (.float (.ofDecimal negative (Text.digitsValue (whole ++ decimals))
        (-(decimals.length : Int))), afterFraction)

def number? : Text → Option (Json × Text)
  | c :: rest =>
    if c = ('-' : CodePoint) then unsignedNumber? true rest else unsignedNumber? false (c :: rest)
  | [] => none

def words : List (Text × Json) :=
  [("null", .null), ("true", .bool true), ("false", .bool false), ("NaN", .float .nan),
    ("Infinity", .float (.infinity false)), ("-Infinity", .float (.infinity true))]

def word? (t : Text) : Option (Json × Text) :=
  (words.find? fun (word, _) => word.isPrefixOf t).map fun (word, value) =>
    (value, t.drop word.length)

/-- The members with the last value of each name at its first place. -/
def uniteMembers (ms : List (Text × Json)) : Members :=
  ms.foldl (fun united (key, value) => Members.set key value united) []

def leastLong : Nat := 10 ^ mostDigits

def checkDigits (found : Json × Text) : Except Stop (Json × Text) :=
  match found.1 with
  | .int i =>
    if leastLong ≤ i.natAbs then .error (.digits (Text.ofNat i.natAbs).length) else .ok found
  | _ => .ok found

/-! In what follows `room` counts the containers that may still be opened one in the other. -/

mutual

def value (room : Nat) : Nat → Text → Except Stop (Json × Text)
  | 0, t => fail .value t
  | _ + 1, [] => fail .value []
  | fuel + 1, c :: rest =>
    if c = ('"' : CodePoint) then do
      let (t, after) ← string rest
      return (.text t, after)
    else if c = ('[' : CodePoint) then
      if room = 0 then .error (.depth .array)
      else match skipBlanks rest with
      | d :: after =>
        if d = (']' : CodePoint) then .ok (.array [], after)
        else do
          let (items, after) ← elements (room - 1) fuel (d :: after)
          return (.array items, after)
      | [] => fail .value []
    else if c = ('\x7b' : CodePoint) then
      if room = 0 then .error (.depth .object)
      else match skipBlanks rest with
      | d :: after =>
        if d = ('\x7d' : CodePoint) then .ok (.object [], after)
        else do
          let (ms, after) ← members (room - 1) fuel (d :: after)
          return (.object (uniteMembers ms), after)
      | [] => fail .name []
    else match word? (c :: rest) with
      | some found => .ok found
      | none => match number? (c :: rest) with
        | some found => checkDigits found
        | none => fail .value (c :: rest)

def elements (room : Nat) : Nat → Text → Except Stop (List Json × Text)
  | 0, t => fail .value t
  | fuel + 1, t => do
    let (item, after) ← value room fuel t
    match skipBlanks after with
    | c :: rest =>
      if c = (']' : CodePoint) then return ([item], rest)
      else if c = (',' : CodePoint) then
        let (items, after) ← elements room fuel (skipBlanks rest)
        return (item :: items, after)
      else fail .comma (c :: rest)
    | [] => fail .comma []

def members (room : Nat) : Nat → Text → Except Stop (List (Text × Json) × Text)
  | 0, t => fail .name t
  | _ + 1, [] => fail .name []
  | fuel + 1, quote :: t =>
    if quote ≠ ('"' : CodePoint) then fail .name (quote :: t)
    else do
      let (key, afterKey) ← string t
      match skipBlanks afterKey with
      | colon :: afterColon =>
        if colon ≠ (':' : CodePoint) then fail .colon (colon :: afterColon)
        else
          let (item, afterItem) ← value room fuel (skipBlanks afterColon)
          match skipBlanks afterItem with
          | c :: rest =>
            if c = ('\x7d' : CodePoint) then return ([(key, item)], rest)
            else if c = (',' : CodePoint) then
              let (ms, after) ← members room fuel (skipBlanks rest)
              return ((key, item) :: ms, after)
            else fail .comma (c :: rest)
          | [] => fail .comma []
      | [] => fail .colon []

end

/-- A value with nothing but blanks around it. Each step reads a code point or hands the text to a
step that does, so twice the length of the text bounds their number. -/
def document (room : Nat) (t : Text) : Except Stop Json := do
  let body := skipBlanks t
  let (found, rest) ← value room (2 * body.length + 1) body
  match skipBlanks rest with
  | [] => return found
  | c :: after => fail .extra (c :: after)

def parse (room : Nat) (t : Text) : Except TextFault Json :=
  match t.head? with
  | some c =>
    if c.val = 0xFEFF then .error (.syntaxFault ⟨.byteOrderMark, 1, 1, 0⟩) else read room t
  | none => read room t
where
  read (room : Nat) (t : Text) : Except TextFault Json :=
    match document room t with
    | .ok found => .ok found
    | .error stop => .error (stop.locate t)

inductive BytesFault
  | encoding (fault : DecodeFault)
  | text (fault : TextFault)

def BytesFault.message : BytesFault → Text
  | .encoding fault => fault.message
  | .text fault => fault.message

def parseBytes (room : Nat) (bytes : Bytes) : Except BytesFault Json :=
  match Encoding.decode bytes with
  | .error fault => .error (.encoding fault)
  | .ok t => (parse.read room t).mapError .text

end Json

end LinkedProof
