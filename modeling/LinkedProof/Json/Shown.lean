import LinkedProof.Json.Basic
import LinkedProof.Number.Layout
import LinkedProof.Text.Quoted

/-! The form in which a message shows a value. -/
namespace LinkedProof.Json

mutual

def shown : Json → Text
  | null => "None"
  | bool true => "True"
  | bool false => "False"
  | int i => Text.ofInt i
  | float x => FloatLayout.shown.text x
  | text t => Quoted.text t
  | array items => "[" ++ Text.join ", " (shownItems items) ++ "]"
  | object members => "\x7b" ++ Text.join ", " (shownMembers members) ++ "\x7d"

def shownItems : List Json → List Text
  | [] => []
  | item :: rest => shown item :: shownItems rest

def shownMembers : List (Text × Json) → List Text
  | [] => []
  | (key, value) :: rest => (Quoted.text key ++ ": " ++ shown value) :: shownMembers rest

end

def plain : Json → Text
  | text t => t
  | value => value.shown

end LinkedProof.Json
