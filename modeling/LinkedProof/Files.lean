import LinkedProof.Action
import LinkedProof.FileName

/-! The files that a run can read and write. A path is followed component by component from the
working directory or from the root. -/
namespace LinkedProof

/-- The mark of an absolute path, and the components without those that stay in place. -/
structure Path where
  root : Text
  names : List Text
  deriving DecidableEq

namespace Path

def separator : CodePoint := '/'

def staysInPlace (name : Text) : Bool := name.isEmpty || name = Text.ofString "."

/-- Just two separators at the start are kept apart from a single one; any other number of them is
one. -/
def rootOf (t : Text) : Text :=
  match (t.takeWhile (· = separator)).length with
  | 0 => []
  | 2 => [separator, separator]
  | _ => [separator]

def ofText (t : Text) : Path where
  root := rootOf t
  names := (Text.split separator t).filter fun name => !staysInPlace name

def isAbsolute (p : Path) : Bool := !p.root.isEmpty

def text (p : Path) : Text :=
  if p.root.isEmpty && p.names.isEmpty then "." else p.root ++ Text.join [separator] p.names

end Path

structure File where
  content : Bytes
  mode : Nat

inductive Node
  | file (file : File)
  | directory

abbrev Location := List Text

namespace Location

def root : Location := [[Path.separator]]

def parentMark : Text := ".."

def parent (here : Location) : Location :=
  match here.reverse with
  | [] => [parentMark]
  | last :: rest =>
    if last = parentMark then here ++ [parentMark]
    else if here = root then root
    else rest.reverse

def enter (here : Location) (name : Text) : Location :=
  if Path.staysInPlace name then here
  else if name = parentMark then here.parent
  else here ++ [FileName.canonical name]

def start (isAbsolute : Bool) : Location := if isAbsolute then root else []

def ofPath (p : Path) : Location := p.names.foldl enter (start p.isAbsolute)

end Location

abbrev Files := List (Location × Node)

namespace Files

/-- The working directory, the root and the directories above them are always there. -/
def node? (fs : Files) (place : Location) : Option Node :=
  if place = [] || place = Location.root || place.getLast? = some Location.parentMark then
    some .directory
  else (fs.find? (·.1 = place)).map (·.2)

def put (place : Location) (n : Node) : Files → Files
  | [] => [(place, n)]
  | other :: rest => if other.1 = place then (place, n) :: rest else other :: put place n rest

def mostNameBytes : Nat := 255

def mostPathBytes : Nat := 4095

def isTooLong (name : Text) : Bool :=
  mostNameBytes < ((FileName.bytes name).toOption.getD []).length

def follow (fs : Files) (here : Location) :
    List Text → Except (Text → FileFault) (Location × Node)
  | [] => match fs.node? here with
    | some n => .ok (here, n)
    | none => .error .notFound
  | name :: rest => match fs.node? here with
    | none => .error .notFound
    | some (.file _) => .error .notDirectory
    | some .directory =>
      if isTooLong name then .error .nameTooLong else follow fs (here.enter name) rest

def checkText (path : Text) : Outcome Unit :=
  match FileName.bytes path with
  | .error fault => .error (.unfit (.encoding fault))
  | .ok bytes =>
    if bytes.contains 0 then .error (.unfit .nullByte)
    else if mostPathBytes < bytes.length then .error (.file (.nameTooLong path))
    else .ok ()

def find (fs : Files) (path : Text) : Outcome Node := do
  checkText path
  if path.isEmpty then throw (.file (.notFound path))
  let isAbsolute := path.head? = some Path.separator
  match fs.follow (Location.start isAbsolute) (Text.split Path.separator path) with
  | .ok (_, n) => return n
  | .error fault => throw (.file (fault path))

def followPath (fs : Files) (p : Path) : Outcome (Location × Node) := do
  checkText p.text
  match fs.follow (Location.start p.isAbsolute) p.names with
  | .ok found => return found
  | .error fault => throw (.file (fault p.text))

def holds (fs : Files) (p : Path) : Outcome Bool :=
  match fs.followPath p with
  | .ok _ => .ok true
  | .error (.file (.nameTooLong path)) => .error (.file (.nameTooLong path))
  | .error _ => .ok false

def read (fs : Files) (p : Path) : Outcome Bytes := do
  match ← fs.followPath p with
  | (_, .file f) => return f.content
  | (_, .directory) => throw (.file (.isDirectory p.text))

def newMode : Nat := 0o644

def write (fs : Files) (p : Path) (content : Bytes) : Outcome Files := do
  checkText p.text
  let refuse (fault : Text → FileFault) : Outcome Files := throw (.file (fault p.text))
  match p.names.getLast? with
  | none => refuse .isDirectory
  | some name =>
    match fs.follow (Location.start p.isAbsolute) p.names.dropLast with
    | .error fault => refuse fault
    | .ok (_, .file _) => refuse .notDirectory
    | .ok (here, .directory) =>
      if isTooLong name then refuse .nameTooLong
      else
        let place := here.enter name
        match fs.node? place with
        | some .directory => refuse .isDirectory
        | some (.file f) => return fs.put place (.file { f with content })
        | none => return fs.put place (.file ⟨content, newMode⟩)

def restrict (fs : Files) (p : Path) (mode : Nat) : Outcome Files := do
  match ← fs.followPath p with
  | (place, .file f) => return fs.put place (.file { f with mode })
  | (_, .directory) => return fs

def add (p : Path) (f : File) (fs : Files) : Files :=
  let place := Location.ofPath p
  let above := (List.range place.length).map place.take
  (above.foldl (fun fs directory => put directory .directory fs) fs).put place (.file f)

end Files

end LinkedProof
