import LinkedProof.Console
import LinkedProof.Console.Control
import LinkedProof.Text.Blank

/-! A console without colours, of a width in code points. It leaves the tags of markup out, puts
glyphs in the place of their names between colons, breaks lines between words, and sets the cells
of a row, which may have several lines each, apart by blanks. -/
namespace LinkedProof.Console.Plain

def opening : CodePoint := '['

def closing : CodePoint := ']'

def backslash : CodePoint := '\\'

inductive Piece
  | plain (t : Text)
  | tag (backslashes : Nat) (content : Text)

def startsTag (c : CodePoint) : Bool := isLetter c.toLowerAscii && 0x61 ≤ c.val ||
  c = ('#' : CodePoint) || c = ('/' : CodePoint) || c = ('@' : CodePoint)

def content? : Text → Option Text
  | bracket :: first :: rest =>
    let inside := rest.takeWhile fun c => c ≠ opening && c ≠ closing
    if bracket = opening && startsTag first && (rest.drop inside.length).head? = some closing then
      some (first :: inside)
    else none
  | _ => none

/-- The pieces from a place on; `skip` counts what is left of the tag just read. -/
def piecesFrom : Nat → Text → List Piece
  | _, [] => []
  | skip + 1, _ :: rest => piecesFrom skip rest
  | 0, c :: rest =>
    let backslashes := ((c :: rest).takeWhile (· = backslash)).length
    match content? ((c :: rest).drop backslashes) with
    | some content => .tag backslashes content :: piecesFrom (backslashes + content.length + 1) rest
    | none => match piecesFrom 0 rest with
      | .plain t :: pieces => .plain (c :: t) :: pieces
      | pieces => .plain [c] :: pieces

def backslashes (n : Nat) : Text := List.replicate n backslash

def bracketed (content : Text) : Text := Text.concat [[opening], content, [closing]]

def Piece.escaped : Piece → Text
  | plain t => t
  | tag n content => backslashes (2 * n + 1) ++ bracketed content

def escape (t : Text) : Text :=
  let escaped := (piecesFrom 0 t).flatMap Piece.escaped
  if (escaped.reverse.takeWhile (· = backslash)).length = 1 then escaped ++ [backslash] else escaped

variable (glyph? : Text → Option Text)

def withGlyphs : Nat → Text → Text
  | _, [] => []
  | skip + 1, _ :: rest => withGlyphs skip rest
  | 0, c :: rest =>
    let colon : CodePoint := ':'
    let name := rest.takeWhile fun d => !(d.isBlank || d = colon)
    if c = colon && (rest.drop name.length).head? = some colon then
      (glyph? name).getD (Text.concat [[colon], name, [colon]])
        ++ withGlyphs (name.length + 1) rest
    else c :: withGlyphs 0 rest

def untagged (t : Text) : Text := withGlyphs glyph? 0 (Text.replace "\\[" "[" t)

def words (name : Text) : List Text :=
  ((Text.split ' ' name.toLowerAscii).filter fun w => !w.isEmpty).mergeSort fun s t => !Text.lt t s

def fault {α : Type} (content reason : Text) : Outcome α :=
  .error (.external .markup (Text.concat ["tag ", bracketed content, " ", reason]))

/-- The tags that are open behind a tag, the last one in front. Parameters may follow a name, and
those of an action have to close the brackets that they open. -/
def behind (content : Text) (unclosed : List (List Text × Text)) :
    Outcome (List (List Text × Text)) :=
  let (name, parameters) := (Text.cut? '=' content).getD (content, [])
  if name.head? ≠ some ('/' : CodePoint) then .ok ((words name, parameters) :: unclosed)
  else
    let closes := words (name.drop 1)
    match unclosed.find? fun tag => closes.isEmpty || tag.1 = closes with
    | none => fault content "closes no tag"
    | some tag =>
      if tag.2.count ('(' : CodePoint) ≠ tag.2.count (')' : CodePoint) then
        fault content "ends an unreadable action"
      else .ok (unclosed.eraseP fun tag => closes.isEmpty || tag.1 = closes)

def shown : List Piece → List (List Text × Text) → Outcome Text
  | [], _ => .ok []
  | .plain t :: rest, unclosed => do return untagged glyph? t ++ (← shown rest unclosed)
  | .tag n content :: rest, unclosed => do
    if n % 2 = 1 then
      let own := backslashes (n / 2) ++ untagged glyph? (bracketed content)
      return own ++ (← shown rest unclosed)
    else return backslashes (n / 2) ++ (← shown rest (← behind content unclosed))

def expand (column : Nat) : Text → Text
  | [] => []
  | c :: rest =>
    if c = ('\t' : CodePoint) then
      List.replicate (8 - column % 8) (' ' : CodePoint) ++ expand 0 rest
    else c :: expand (if c = ('\n' : CodePoint) then 0 else column + 1) rest

def render (t : Text) : Outcome Text := do
  return expand 0 (visible (← shown glyph? (piecesFrom 0 t) []))

def wordsOf (t : Text) : List Text := t.splitBy fun a b => !(a.isBlank && !b.isBlank)

def putOne (width : Nat) : List Text → CodePoint → List Text
  | [], c => [[c]]
  | line :: full, c =>
    if line.length < width then (line ++ [c]) :: full else [c] :: line :: full

/-- Puts a word behind the last of the lines, which stand in reverse, if it fits there without its
blanks. A word wider than a line is cut where lines end. -/
def put (width : Nat) (lines : List Text) (word : Text) : List Text :=
  let needed := (Text.trimEnd CodePoint.isBlank word).length
  match lines with
  | [] => [word]
  | line :: full =>
    if line.length + needed ≤ width then (line ++ word) :: full
    else if needed ≤ width then word :: lines
    else word.foldl (putOne width) (if line.isEmpty then lines else [] :: lines)

def wrap (width : Nat) (t : Text) : Text :=
  Text.join "\n" ((Text.split '\n' t).flatMap fun line =>
    (((wordsOf line).foldl (put width) [[]]).reverse).map (List.take width))

def rowLines (cells : List Text) : List Text :=
  let parts := cells.map (Text.split '\n')
  let height := (parts.map List.length).foldl max 0
  (List.range height).map fun i => Text.join "  " (parts.map fun lines => (lines[i]?).getD [])

end Plain

def plain (width : Nat) (glyph? : Text → Option Text) : Console where
  escape := Plain.escape
  print t := do return Plain.wrap width (← Plain.render glyph? t) ++ "\n"
  table title headings rows := do
    let cells ← rows.mapM fun row => row.mapM (Plain.render glyph?)
    let lines := (headings :: cells).flatMap Plain.rowLines
    return Text.join "\n" ((← Plain.render glyph? title) :: lines) ++ "\n"

end LinkedProof.Console
