import LinkedProof.Text.Blank

/-! Files that assign values to variables, one assignment a line. A value may stand between quotes
and then reach over several lines; a line that is malformed is passed over. A value may mention
other variables, those of the surroundings and those assigned before it. -/
namespace LinkedProof

abbrev Variables := List (Text × Text)

def Variables.get? (name : Text) (vs : Variables) : Option Text :=
  (vs.find? (·.1 = name)).map (·.2)

namespace VariableFile

abbrev Binding := Text × Option Text

def isLineEnd (c : CodePoint) : Bool := c.val = 0x0A

def isInnerBlank (c : CodePoint) : Bool := c.isBlank && !isLineEnd c

def skipBlanks (t : Text) : Text := t.dropWhile isInnerBlank

def skipExport (t : Text) : Text :=
  let word : Text := "export"
  match t.drop word.length with
  | c :: rest => if word.isPrefixOf t && isInnerBlank c then skipBlanks rest else t
  | [] => t

/-- What stands behind an opening quote, up to the closing one. A backslash and what follows it
belong together, so that a quote behind a backslash does not close. -/
def quoted? (quote : CodePoint) : Text → Option (Text × Text)
  | [] => none
  | [c] => if c = quote then some ([], []) else none
  | c :: d :: rest =>
    if c = quote then some ([], d :: rest)
    else if c = ('\\' : CodePoint) then
      (quoted? quote rest).map fun (a, b) => (c :: d :: a, b)
    else (quoted? quote (d :: rest)).map fun (a, b) => (c :: a, b)

def singleEscapes : List (CodePoint × CodePoint) := [('\\', '\\'), ('\'', '\'')]

def doubleEscapes : List (CodePoint × CodePoint) :=
  [('\\', '\\'), ('\'', '\''), ('"', '"'), ('a', CodePoint.ofNat 0x07), ('b', CodePoint.ofNat 0x08),
    ('f', CodePoint.ofNat 0x0C), ('n', '\n'), ('r', '\r'), ('t', '\t'), ('v', CodePoint.ofNat 0x0B)]

def unescape (table : List (CodePoint × CodePoint)) : Text → Text
  | c :: d :: rest =>
    match if c = ('\\' : CodePoint) then table.lookup d else none with
    | some point => point :: unescape table rest
    | none => c :: unescape table (d :: rest)
  | t => t

/-- A value without quotes, up to a comment. `behindBlank` tells of a blank in front. -/
def beforeComment (behindBlank : Bool) : Text → Text
  | [] => []
  | c :: rest =>
    if behindBlank && c = ('#' : CodePoint) then [] else c :: beforeComment c.isBlank rest

def name (t : Text) : Except Text (Option Text × Text) :=
  match t with
  | [] => .error t
  | c :: rest =>
    if c = ('#' : CodePoint) then .ok (none, t)
    else if c = ('\'' : CodePoint) then
      match Text.cut? '\'' rest with
      | some (d :: found, after) => .ok (some (d :: found), after)
      | _ => .error t
    else
      let belongs (d : CodePoint) : Bool :=
        !(d.isBlank || d = ('=' : CodePoint) || d = ('#' : CodePoint))
      if belongs c then .ok (some (t.takeWhile belongs), t.dropWhile belongs) else .error t

/-- The value of an assignment, from behind the blanks that follow the sign; `behindBlank` tells
whether there were any. -/
def value (behindBlank : Bool) (t : Text) : Except Text (Text × Text) :=
  match t with
  | [] => .ok ([], t)
  | c :: rest =>
    let enclosed (escapes : List (CodePoint × CodePoint)) : Except Text (Text × Text) :=
      match quoted? c rest with
      | some (found, after) => .ok (unescape escapes found, after)
      | none => .error t
    if c = ('\'' : CodePoint) then enclosed singleEscapes
    else if c = ('"' : CodePoint) then enclosed doubleEscapes
    else
      let line := t.takeWhile fun d => !isLineEnd d
      .ok (Text.trimEnd CodePoint.isBlank (beforeComment behindBlank line),
        t.dropWhile fun d => !isLineEnd d)

def lineEnd (t : Text) : Except Text Text :=
  let t := match skipBlanks t with
    | c :: rest => if c = ('#' : CodePoint) then rest.dropWhile fun d => !isLineEnd d else t
    | [] => t
  match skipBlanks t with
  | [] => .ok []
  | c :: rest => if isLineEnd c then .ok rest else .error t

def line (t : Text) : Except Text (Option Binding × Text) := do
  let (name?, t) ← name (skipExport t)
  let t := skipBlanks t
  let (value?, t) ← match t with
    | c :: rest =>
      if c = ('=' : CodePoint) then
        let t := skipBlanks rest
        (fun (v, t) => (some v, t)) <$> value (t.length < rest.length) t
      else .ok (none, t)
    | [] => .ok (none, t)
  return (name?.map fun name => (name, value?), ← lineEnd t)

def linesWithin : Nat → Text → List Binding
  | 0, _ => []
  | fuel + 1, t =>
    match t.dropWhile CodePoint.isBlank with
    | [] => []
    | t => match line t with
      | .ok (binding?, rest) => binding?.toList ++ linesWithin fuel rest
      | .error rest => linesWithin fuel ((rest.dropWhile fun d => !isLineEnd d).drop 1)

def withoutMark : Text → Text
  | [] => []
  | c :: rest => if c.val = 0xFEFF then rest else c :: rest

def bindings (t : Text) : List Binding :=
  let t := Text.unifyLineEnds (withoutMark t)
  linesWithin (t.length + 1) t

/-- A variable that is mentioned, from behind the mark and the opening brace: its name, what stands
for it when it is missing, and the count of code points up to the closing brace. -/
def mention? (t : Text) : Option (Text × Text × Nat) :=
  let name := t.takeWhile fun c => c ≠ ('\x7d' : CodePoint) && c ≠ (':' : CodePoint)
  match t.drop name.length with
  | a :: rest =>
    if a = ('\x7d' : CodePoint) then some (name, [], name.length + 1)
    else match rest with
      | b :: rest =>
        let fallback := rest.takeWhile (· ≠ ('\x7d' : CodePoint))
        if b = ('-' : CodePoint) && fallback.length < rest.length then
          some (name, fallback, name.length + fallback.length + 3)
        else none
      | [] => none
  | [] => none

def mentionAt? (t : Text) : Option (Text × Text × Nat) :=
  match t with
  | c :: d :: rest =>
    if c = ('$' : CodePoint) && d = ('\x7b' : CodePoint) then mention? rest else none
  | _ => none

def mentions : Text → List Text
  | [] => []
  | c :: rest => ((mentionAt? (c :: rest)).map (·.1)).toList ++ mentions rest

/-- Puts values in the place of the variables that are mentioned. `skip` counts the code points of
the mention just read. -/
def expandFrom (lookup : Text → Text → Text) : Nat → Text → Text
  | _, [] => []
  | skip + 1, _ :: rest => expandFrom lookup skip rest
  | 0, c :: rest =>
    match mentionAt? (c :: rest) with
    | some (name, fallback, length) =>
      lookup name fallback ++ expandFrom lookup (length + 1) rest
    | none => c :: expandFrom lookup 0 rest

def put (b : Binding) : List Binding → List Binding
  | [] => [b]
  | other :: rest => if other.1 = b.1 then b :: rest else other :: put b rest

def lookup (surroundings : Variables) (assigned : List Binding) (name fallback : Text) : Text :=
  match assigned.find? (·.1 = name) with
  | some (_, value?) => value?.getD []
  | none => (surroundings.get? name).getD fallback

def read (surroundings : Variables) (t : Text) : List Binding :=
  (bindings t).foldl (fun assigned (name, value?) =>
    put (name, value?.map (expandFrom (lookup surroundings assigned) 0)) assigned) []

end VariableFile

end LinkedProof
