import LinkedProof.Base64.Strict
import LinkedProof.Text.Blank
import LinkedProof.Text.Utf8

/-! Textual armour: a label between dashes, lines with headers and an empty line if there are any,
base64 in lines of 64 characters, and the label again. Text may stand before and after a block, and
a block that is not finished is passed over. -/
namespace LinkedProof.Pem

structure Block where
  label : Text
  headers : List (Text × Text)
  contents : Bytes
  deriving DecidableEq

def Block.header? (name : Text) (b : Block) : Option Text :=
  (b.headers.reverse.find? (·.1 = name)).map (·.2)

inductive Fault
  | noBlock
  | noLabel
  | noEndLabel
  | labels (opening ending : Text)
  | data (fault : Base64.Strict.Fault)
  | header (line : Text)
  | notUtf8 (position : Nat) (length : Option Nat)
  deriving DecidableEq

/-! Writing. -/

def wrap (width : Nat) : Nat → Text → Text
  | _, [] => "\n"
  | 0, c :: rest => '\n' :: c :: wrap width (width - 1) rest
  | room + 1, c :: rest => c :: wrap width room rest

def encode (label : Text) (contents : Bytes) : Text :=
  Text.concat ["-----BEGIN ", label, "-----\n", wrap 64 64 (Base64.Strict.encode contents),
    "-----END ", label, "-----\n"]

/-! Reading. -/

/-- What is read up to the end of the first `mark`, and what follows. `left` is what of the mark is
still to come; when that fails, the search goes on behind the byte at fault. -/
def seek? (mark : Bytes) : Bytes → Bytes → Option (Bytes × Bytes)
  | [], t => some ([], t)
  | _ :: _, [] => none
  | m :: left, b :: rest =>
    (seek? mark (if b = m then left else mark) rest).map fun (read, after) => (b :: read, after)

def cut? (mark t : Bytes) : Option (Bytes × Bytes) :=
  (seek? mark mark t).map fun (read, after) => (read.take (read.length - mark.length), after)

def openingMark : Bytes := Bytes.ofCodes "-----BEGIN "
def endingMark : Bytes := Bytes.ofCodes "-----END "
def dashes : Bytes := Bytes.ofCodes "-----"

def skipBlanks (t : Bytes) : Bytes :=
  t.dropWhile fun b => b = 0x20 || b = 0x09 || b = 0x0A || b = 0x0D

structure Section where
  opening : Bytes
  headers : Bytes
  data : Bytes
  ending : Bytes

def cutBody (body : Bytes) : Bytes × Bytes :=
  match cut? (Bytes.ofCodes "\n\n") body with
  | some parts => parts
  | none => (cut? (Bytes.ofCodes "\r\n\r\n") body).getD ([], body)

def section? (t : Bytes) : Option (Section × Bytes) := do
  let (_, t) ← cut? openingMark t
  let (opening, t) ← cut? dashes t
  let (body, t) ← cut? endingMark (skipBlanks t)
  let (ending, t) ← cut? dashes t
  let (headers, data) := cutBody body
  return (⟨opening, headers, data, ending⟩, skipBlanks t)

def sectionsWithin : Nat → Bytes → List Section
  | 0, _ => []
  | fuel + 1, t =>
    match section? t with
    | some (found, rest) => found :: sectionsWithin fuel rest
    | none => []

def decodeText (bytes : Bytes) : Except Fault Text :=
  (Utf8.decode bytes).mapError fun fault =>
    .notUtf8 fault.start
      (if fault.reason = .unexpectedEnd then none else some (fault.stop - fault.start))

def lines (t : Text) : List Text :=
  let parts := Text.split '\n' t
  let whole := parts.dropLast.map fun line =>
    if line.getLast? = some ('\r' : CodePoint) then line.dropLast else line
  whole ++ (parts.getLast?.filter fun line => !line.isEmpty).toList

def readHeader (line : Text) : Except Fault (Text × Text) :=
  match Text.cut? ':' line with
  | some (name, value) =>
    .ok (Text.trim CodePoint.isWhiteSpace name, Text.trim CodePoint.isWhiteSpace value)
  | none => .error (.header line)

def Section.read (s : Section) : Except Fault Block := do
  let label ← decodeText s.opening
  if label.isEmpty then throw .noLabel
  let ending ← decodeText s.ending
  if ending.isEmpty then throw .noEndLabel
  if label ≠ ending then throw (.labels label ending)
  let data := (← decodeText s.data).filter fun c => !c.isWhiteSpace
  let contents ← (Base64.Strict.decode (data.flatMap Utf8.encodePoint)).mapError .data
  let headers ← (lines (← decodeText s.headers)).mapM readHeader
  return { label, headers, contents }

def blocks (t : Bytes) : Except Fault (List Block) :=
  match sectionsWithin t.length t with
  | [] => .error .noBlock
  | found => found.mapM Section.read

end LinkedProof.Pem
