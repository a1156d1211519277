import LinkedProof.Action
import LinkedProof.Calendar

/-! The profiles in which a proof states when it was created. -/
namespace LinkedProof

inductive TimeFormat
  | exact
  | wholeSeconds
  deriving DecidableEq

namespace TimeFormat

def name : TimeFormat → Text
  | exact => "rfc3339"
  | wholeSeconds => "rfc3339-seconds"

def all : List TimeFormat := [exact, wholeSeconds]

def ofName? (name : Text) : Option TimeFormat := all.find? (·.name = name)

def ofName (name : Text) : Outcome TimeFormat :=
  match ofName? name with
  | some format => .ok format
  | none => .error (.unfit (.timeFormat name))

def format (f : TimeFormat) (t : Timestamp) : Outcome Text :=
  match t.universal? with
  | none => .error (.overflow "date value out of range")
  | some u => .ok (match f with
    | exact => u.text ++ "Z"
    | wholeSeconds => u.wholeSecond.text ++ "Z")

end TimeFormat

end LinkedProof
