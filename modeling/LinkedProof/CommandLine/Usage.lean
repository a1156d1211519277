import LinkedProof.FileName
import LinkedProof.Text.Quoted
import LinkedProof.Text.Similarity

/-! What is wrong with the way a command is called. -/
namespace LinkedProof

inductive UsageFault
  | missingCommand
  | unknownCommand (name : Text) (alike : List Text)
  | unknownOption (name : Text) (alike : List Text)
  | missingValue (option : Text)
  | needlessValue (option : Text)
  | missingArgument (name : Text)
  | missingOption (option : Text)
  | notAmong (option value : Text) (words : List Text)
  | notNumber (option value : Text)
  | noFile (option path : Text)
  | directory (option path : Text)
  | extraArguments (words : List Text)
  deriving DecidableEq

namespace UsageFault

def suggestion (alike : List Text) : Text :=
  match alike.mergeSort fun s t => !Text.lt t s with
  | [] => []
  | [name] => Text.concat [" Did you mean ", Quoted.text name, "?"]
  | names =>
    Text.concat [" (Did you mean one of: ", Text.join ", " (names.map Quoted.text), "?)"]

def unknown (noun name : Text) (alike : List Text) : Text :=
  Text.concat ["No such ", noun, " ", Quoted.text name, ".", suggestion alike]

def invalid (option reason : Text) : Text :=
  Text.concat ["Invalid value for ", Quoted.text option, ": ", reason]

def message : UsageFault → Text
  | missingCommand => "Missing command."
  | unknownCommand name alike => unknown "command" name alike
  | unknownOption name alike => unknown "option" name alike
  | missingValue option => Text.concat ["Option ", Quoted.text option, " requires an argument."]
  | needlessValue option => Text.concat ["Option ", Quoted.text option, " does not take a value."]
  | missingArgument name => Text.concat ["Missing argument ", Quoted.text name, "."]
  | missingOption option => Text.concat ["Missing option ", Quoted.text option, "."]
  | notAmong option value words => invalid option (Text.concat [Quoted.text value,
      " is not one of ", Text.join ", " (words.map Quoted.text), "."])
  | notNumber option value =>
    invalid option (Text.concat [Quoted.text value, " is not a valid float."])
  | noFile option path =>
    invalid option (Text.concat ["File ", Quoted.text (FileName.shown path), " does not exist."])
  | directory option path =>
    invalid option (Text.concat ["File ", Quoted.text (FileName.shown path), " is a directory."])
  | extraArguments words => Text.concat ["Got unexpected extra argument",
      if words.length = 1 then " (" else "s (", Text.join " " words, ")"]

end UsageFault

end LinkedProof
