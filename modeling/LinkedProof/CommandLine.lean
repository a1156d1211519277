import LinkedProof.CommandLine.Keygen
import LinkedProof.CommandLine.Sign
import LinkedProof.CommandLine.Verify

/-! Whole runs: from the arguments and what is around them to what the run leaves. -/
namespace LinkedProof.CommandLine

variable {σ : Type} (s : Surroundings σ)

def variableFile : Text := ".env"

def settings : Except Halt Settings := do
  let file ← match s.files.find variableFile with
    | .ok (.file f) => (some <$> Source.decode f.content).mapError .failure
    | _ => pure none
  (Settings.read s.environment file).mapError .settings

def command (args : List Text) : Except Halt (Settings × Command) := do
  let (name, args) ← Command.choose args
  let settings ← settings s
  return (settings, ← Command.ofArguments s.files name args)

def run (args : List Text) : StateM σ RunResult :=
  match command s args with
  | .error halt => return halted s.files halt
  | .ok (_, .keygen o) => return keygen s o
  | .ok (settings, .sign o) => sign s settings o
  | .ok (settings, .verify o) => verify s settings o

end LinkedProof.CommandLine
