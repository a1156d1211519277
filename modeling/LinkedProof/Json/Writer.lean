import LinkedProof.Json.Basic
import LinkedProof.Number.Layout

/-! JSON text of a value. -/
namespace LinkedProof

structure JsonLayout where
  asciiOnly : Bool
  indent : Option Nat
  deriving DecidableEq

namespace JsonLayout

def literal : JsonLayout := ⟨false, none⟩

def ascii : JsonLayout := ⟨true, none⟩

def pretty : JsonLayout := ⟨false, some 2⟩

def prettyAscii : JsonLayout := ⟨true, some 2⟩

end JsonLayout

namespace Json

def escapeUnit (n : Nat) : Text := "\\u" ++ Text.ofHex 4 n

def escape (asciiOnly : Bool) (c : CodePoint) : Text :=
  if c = ('"' : CodePoint) then "\\\""
  else if c = ('\\' : CodePoint) then "\\\\"
  else if c.val = 0x0A then "\\n"
  else if c.val = 0x0D then "\\r"
  else if c.val = 0x09 then "\\t"
  else if c.val = 0x0C then "\\f"
  else if c.val = 0x08 then "\\b"
  else if c.val < 0x20 then escapeUnit c.val
  else if asciiOnly && 0x7F ≤ c.val then
    if c.val < 0x10000 then escapeUnit c.val
    else escapeUnit (0xD800 + (c.val - 0x10000) / 0x400)
      ++ escapeUnit (0xDC00 + (c.val - 0x10000) % 0x400)
  else [c]

def quoted (asciiOnly : Bool) (t : Text) : Text :=
  "\"" ++ t.flatMap (escape asciiOnly) ++ "\""

def lineBreak (layout : JsonLayout) (depth : Nat) : Text :=
  match layout.indent with
  | none => []
  | some width => '\n' :: List.replicate (width * depth) (' ' : CodePoint)

def nameEnd (layout : JsonLayout) : Text := if layout.indent.isSome then ": " else ":"

mutual

def write (layout : JsonLayout) (depth : Nat) : Json → Text
  | null => "null"
  | bool true => "true"
  | bool false => "false"
  | int i => Text.ofInt i
  | float x => FloatLayout.json.text x
  | text t => quoted layout.asciiOnly t
  | array [] => "[]"
  | array (item :: rest) =>
    "[" ++ lineBreak layout (depth + 1) ++ write layout (depth + 1) item
      ++ writeItems layout (depth + 1) rest ++ lineBreak layout depth ++ "]"
  | object [] => "\x7b\x7d"
  | object ((key, value) :: rest) =>
    "\x7b" ++ lineBreak layout (depth + 1) ++ quoted layout.asciiOnly key ++ nameEnd layout
      ++ write layout (depth + 1) value ++ writeMembers layout (depth + 1) rest
      ++ lineBreak layout depth ++ "\x7d"

def writeItems (layout : JsonLayout) (depth : Nat) : List Json → Text
  | [] => []
  | item :: rest =>
    "," ++ lineBreak layout depth ++ write layout depth item ++ writeItems layout depth rest

def writeMembers (layout : JsonLayout) (depth : Nat) : List (Text × Json) → Text
  | [] => []
  | (key, value) :: rest =>
    "," ++ lineBreak layout depth ++ quoted layout.asciiOnly key ++ nameEnd layout
      ++ write layout depth value ++ writeMembers layout depth rest

end

def render (layout : JsonLayout) (value : Json) : Text := value.write layout 0

end Json

end LinkedProof
