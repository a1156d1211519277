import LinkedProof.CommandLine.Arguments
import LinkedProof.Console
import LinkedProof.Console.Control

/-! What a run leaves: texts that are printed, files, and the way it ended. -/
namespace LinkedProof

inductive Ending
  | status (code : Nat)
  | failure (failure : Failure)
  | settings (faults : List (Setting × SettingFault))

def Ending.code : Ending → Nat
  | status code => code
  | failure _ | settings _ => 1

structure RunResult where
  ending : Ending
  output : Text
  errors : Text
  files : Files

namespace CommandLine

def accepted : Nat := 0
def rejected : Nat := 1
def unable : Nat := 2

def escapeSurrogates (t : Text) : Text :=
  t.flatMap fun c => if c.isSurrogate then "\\u" ++ Text.ofHex 4 c.val else [c]

def errorLine (message : Text) : Text :=
  Text.concat ["Error: ", escapeSurrogates (Console.withoutSequences message), "\n"]

def printing (files : Files) (code : Nat) (t : Text) : RunResult :=
  match Utf8.encode t with
  | .ok _ => ⟨.status code, t, [], files⟩
  | .error fault => ⟨.failure (.unfit (.encoding fault)), [], [], files⟩

def reporting (files : Files) (code : Nat) (message : Text) : RunResult :=
  ⟨.status code, [], errorLine message, files⟩

def failing (files : Files) (failure : Failure) : RunResult := ⟨.failure failure, [], [], files⟩

def showing (files : Files) (code : Nat) (console : Console) (markup output : Text) : RunResult :=
  match console.print markup with
  | .ok shown => ⟨.status code, output, escapeSurrogates shown, files⟩
  | .error failure => failing files failure

def halted (files : Files) : Halt → RunResult
  | .usage fault => reporting files unable fault.message
  | .printed t => printing files accepted t
  | .settings faults => ⟨.settings faults, [], [], files⟩
  | .failure f => failing files f

end CommandLine

end LinkedProof
