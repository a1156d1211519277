import LinkedProof.Text.CodePoint
import LinkedProof.Number.Binary64

/-! JSON values. Integers are unbounded and apart from floating-point numbers; an object is the list
of its members in the order of their first appearance. -/
namespace LinkedProof

inductive Json where
  | null
  | bool (value : Bool)
  | int (value : Int)
  | float (value : Binary64)
  | text (value : Text)
  | array (items : List Json)
  | object (members : List (Text × Json))

abbrev Members := List (Text × Json)

namespace Members

def get? (key : Text) : Members → Option Json
  | [] => none
  | (k, v) :: rest => if k = key then some v else get? key rest

def get (key : Text) (ms : Members) : Json := (ms.get? key).getD .null

def set (key : Text) (value : Json) : Members → Members
  | [] => [(key, value)]
  | (k, v) :: rest => if k = key then (key, value) :: rest else (k, v) :: set key value rest

def erase (key : Text) (ms : Members) : Members := ms.filter fun member => member.1 ≠ key

def keys (ms : Members) : List Text := ms.map (·.1)

def insertSorted (member : Text × Json) : Members → Members
  | [] => [member]
  | other :: rest =>
    if Text.lt member.1 other.1 then member :: other :: rest
    else other :: insertSorted member rest

def sort (ms : Members) : Members := ms.foldl (fun sorted member => insertSorted member sorted) []

end Members

namespace Json

def kindWord : Json → Text
  | null => "NoneType"
  | bool _ => "bool"
  | int _ => "int"
  | float _ => "float"
  | text _ => "str"
  | array _ => "list"
  | object _ => "dict"

def isEmpty : Json → Bool
  | null => true
  | bool b => !b
  | int i => i = 0
  | float x => x.isZero
  | text t => t.isEmpty
  | array items => items.isEmpty
  | object members => members.isEmpty

def text? : Json → Option Text
  | text t => some t
  | _ => none

def array? : Json → Option (List Json)
  | array items => some items
  | _ => none

def object? : Json → Option Members
  | object members => some members
  | _ => none

def isNull : Json → Bool
  | null => true
  | _ => false

def isTrue : Json → Bool
  | bool true => true
  | _ => false

def isFalse : Json → Bool
  | bool false => true
  | _ => false

def isText (t : Text) : Json → Bool
  | text s => s = t
  | _ => false

mutual

def sortKeys : Json → Json
  | array items => array (sortItems items)
  | object members => object (Members.sort (sortMembers members))
  | value => value

def sortItems : List Json → List Json
  | [] => []
  | item :: rest => sortKeys item :: sortItems rest

def sortMembers : List (Text × Json) → List (Text × Json)
  | [] => []
  | (key, value) :: rest => (key, sortKeys value) :: sortMembers rest

end

mutual

/-- How many containers lie one in the other. -/
def depth : Json → Nat
  | array items => depthItems items + 1
  | object members => depthMembers members + 1
  | _ => 0

def depthItems : List Json → Nat
  | [] => 0
  | item :: rest => max (depth item) (depthItems rest)

def depthMembers : List (Text × Json) → Nat
  | [] => 0
  | (_, value) :: rest => max (depth value) (depthMembers rest)

end

/-- How many containers may lie one in the other where a value is read or written. It depends on who
asks for that; two always may. -/
abbrev Room := { containers : Nat // 2 ≤ containers }

def usualRoom : Room := ⟨900, by decide⟩

end Json

end LinkedProof
