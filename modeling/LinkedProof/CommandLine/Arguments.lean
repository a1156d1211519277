import LinkedProof.CommandLine.Usage
import LinkedProof.Files
import LinkedProof.Settings

/-! Arguments of a command, sorted into options with their values and words. A command reads its
options from them one by one; of all that is wrong with them, what comes first is reported. -/
namespace LinkedProof

structure OptionForm where
  name : Text
  takesValue : Bool

structure Arguments where
  options : List (Text × Text)
  words : List Text

inductive Halt
  | usage (fault : UsageFault)
  | printed (text : Text)
  | settings (faults : List (Setting × SettingFault))
  | failure (failure : Failure)

namespace Arguments

def dash : CodePoint := '-'

def endMark : Text := "--"

def isOption (arg : Text) : Bool := arg.head? = some dash && 1 < arg.length

def unknown (forms : List OptionForm) (name : Text) : UsageFault :=
  if endMark.isPrefixOf name then .unknownOption name (Text.alike name (forms.map (·.name)))
  else .unknownOption (name.take 2) []

def cutValue (arg : Text) : Text × Option Text :=
  match Text.cut? '=' arg with
  | some (name, value) => (name, some value)
  | none => (arg, none)

def addOption (name value : Text) (a : Arguments) : Arguments :=
  { a with options := (name, value) :: a.options }

def addWord (word : Text) (a : Arguments) : Arguments := { a with words := word :: a.words }

/-- Sorts arguments. Behind the mark that ends the options all arguments are words, and where
options have to stand in front the first word ends them too. -/
def sort (forms : List OptionForm) (optionsFirst : Bool) : List Text → Except UsageFault Arguments
  | [] => .ok ⟨[], []⟩
  | arg :: rest =>
    if arg = endMark then .ok ⟨[], rest⟩
    else if isOption arg then
      let (name, joined?) := cutValue arg
      match forms.find? (·.name = name) with
      | none => .error (unknown forms (if endMark.isPrefixOf arg then name else arg))
      | some form =>
        match form.takesValue, joined? with
        | false, some _ => .error (.needlessValue name)
        | false, none => addOption name [] <$> sort forms optionsFirst rest
        | true, some value => addOption name value <$> sort forms optionsFirst rest
        | true, none =>
          match rest with
          | [] => .error (.missingValue name)
          | value :: after => addOption name value <$> sort forms optionsFirst after
    else if optionsFirst then .ok ⟨[], arg :: rest⟩
    else addWord arg <$> sort forms optionsFirst rest

def has (a : Arguments) (name : Text) : Bool := a.options.any (·.1 = name)

def all (a : Arguments) (name : Text) : List Text := (a.options.filter (·.1 = name)).map (·.2)

def last? (a : Arguments) (name : Text) : Option Text := (a.all name).getLast?

end Arguments

/-- A value read from arguments, or why there is none and how early that counts. -/
abbrev Reading (α : Type) := Except (Nat × Halt) α

namespace Reading

/-- Both readings are made; of two reasons the one with the lower rank stays. -/
def both {α β : Type} (a : Reading α) (b : Reading β) : Reading (α × β) :=
  match a, b with
  | .ok a, .ok b => .ok (a, b)
  | .ok _, .error reason => .error reason
  | .error reason, .ok _ => .error reason
  | .error reason, .error other => .error (if other.1 < reason.1 then other else reason)

def result {α : Type} (r : Reading α) : Except Halt α := r.mapError (·.2)

end Reading

namespace Arguments

variable {α : Type} (a : Arguments)

def rank (name : Text) : Nat := (a.options.takeWhile (·.1 ≠ name)).length

def optional (name : Text) (read : Text → Except Halt α) : Reading (Option α) :=
  match a.last? name with
  | none => .ok none
  | some t => ((read t).mapError fun reason => (a.rank name, reason)).map some

/-- The value of an option that must not be missing. Missing options rank behind all that was
given, in the order in which the command has them. -/
def required (place : Nat) (name : Text) (read : Text → Except Halt α) : Reading α :=
  match a.last? name with
  | none => .error (a.options.length + 1 + place, .usage (.missingOption name))
  | some t => (read t).mapError fun reason => (a.rank name, reason)

def word (name : Text) : Reading Text :=
  match a.words with
  | [] => .error (a.options.length, .usage (.missingArgument name))
  | word :: _ => .ok word

end Arguments

/-! Kinds of values. -/

namespace OptionValue

def text (t : Text) : Except Halt Text := .ok t

def among {α : Type} (name : Text) (words : List Text) (read : Text → Option α) (t : Text) :
    Except Halt α :=
  match read t with
  | some a => .ok a
  | none => .error (.usage (.notAmong name t words))

def number (name t : Text) : Except Halt Binary64 :=
  match Numeral.option? t with
  | some x => .ok x
  | none => .error (.usage (.notNumber name t))

def oldFile (files : Files) (name t : Text) : Except Halt Path :=
  match files.find t with
  | .ok (.file _) => .ok (Path.ofText t)
  | .ok .directory => .error (.usage (.directory name t))
  | .error (.file _) => .error (.usage (.noFile name t))
  | .error failure => .error (.failure failure)

def newFile (files : Files) (name t : Text) : Except Halt Path :=
  match files.find t with
  | .ok .directory => .error (.usage (.directory name t))
  | .ok (.file _) | .error (.file _) => .ok (Path.ofText t)
  | .error failure => .error (.failure failure)

end OptionValue

end LinkedProof
