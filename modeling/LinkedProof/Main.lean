import LinkedProof.CommandLine
import LinkedProof.Console.Plain
import Std.Time.DateTime.Timestamp

/-! The program itself: it collects what the arguments speak of, runs the command, and carries out
what the run leaves. It has no network: every request fails to connect. -/
namespace LinkedProof.Main

def toText (s : String) : Text := Text.ofString s

def toString (t : Text) : String := String.ofList (t.map fun c => Char.ofNat c.val)

def paths (arg : Text) : List Text :=
  let parts := Text.split '=' arg
  (List.range parts.length).map fun n => Text.join "=" (parts.drop n)

def places (path : Text) : List Location :=
  let p := Path.ofText path
  (List.range (p.names.length + 1)).map fun n =>
    Location.ofPath { p with names := p.names.take n }

def name (place : Location) : String := toString (Text.join [Path.separator] place)

def look (place : Location) : IO (Option Node) := do
  let path := (← IO.currentDir) / name place
  if ← path.isDir then return some .directory
  if !(← path.pathExists) then return none
  try return some (.file ⟨(← IO.FS.readBinFile path).toList, Files.newMode⟩)
  catch _ => return none

def collect (args : List Text) : IO Files := do
  let mut files : Files := []
  for place in ((CommandLine.variableFile :: args).flatMap paths).flatMap places do
    match ← look place with
    | some node => files := files.put place node
    | none => pure ()
  return files

def collectVariables (files : Files) : IO Variables := do
  let known := Setting.all.flatMap fun s =>
    [s.variable, s.variable.map CodePoint.toUpperAscii]
  let mentioned := match Source.readText files CommandLine.variableFile with
    | .ok t => VariableFile.mentions t
    | .error _ => []
  let mut environment : Variables := []
  for name in known ++ mentioned do
    match ← IO.getEnv (toString name) with
    | some value => environment := environment ++ [(name, toText value)]
    | none => pure ()
  return environment

def client : Http.Client Unit := fun _ => pure (.failed (.external .connect "no network"))

def generator (random : Bytes) (label : CurveLabel) : Outcome PrivateKey := do
  let curve ← label.curve
  match PrivateKey.ofScalar? curve (Bytes.toNat random % (curve.n - 1) + 1) with
  | some key => return key
  | none => throw (.external .value "no key")

def epoch : Nat := Calendar.daysBeforeYear 1970 * 86400

def now : IO (Option Timestamp) := do
  let nanoseconds := (← Std.Time.Timestamp.now).toNanosecondsSinceUnixEpoch.val.toNat
  let seconds := epoch + nanoseconds / 1000000000
  return (CivilTime.ofSeconds? seconds (nanoseconds / 1000 % 1000000)).map fun t => ⟨t, some 0⟩

def isOwners (mode : Nat) : Bool := mode = CommandLine.keyMode

def store (before after : Files) : IO Unit := do
  for (place, node) in after do
    match node, before.node? place with
    | .file f, some (.file old) => if f.content ≠ old.content || f.mode ≠ old.mode then put place f
    | .file f, _ => put place f
    | .directory, _ => pure ()
where
  put (place : Location) (f : File) : IO Unit := do
    IO.FS.writeBinFile (name place) ⟨f.content.toArray⟩
    if isOwners f.mode then
      IO.setAccessRights (name place) { user := { read := true, write := true } }

def wording (_ : KeyFile.Fault) : Text := "the file holds no private key that can be read"

def settingsMessage (faults : List (Setting × SettingFault)) : Text :=
  "invalid settings: " ++ Text.join ", " (faults.map fun (s, _) => s.name)

def run (args : List Text) : IO UInt32 := do
  let files ← collect args
  let environment ← collectVariables files
  let input ← if args.contains "-" then (← IO.getStdin).readToEnd else pure ""
  let random := (← IO.getRandomBytes 96).toList
  let some now ← now | return 1
  let (result, _) := CommandLine.run {
    table := .initial, primitive := .deterministic, generator := generator random
    client, now, environment, files, wording, input := input.toUTF8.toList
    console := .plain 80 fun _ => none
    schedule := []
    room := fun _ => Json.usualRoom } args ()
  store files result.files
  IO.print (toString result.output)
  IO.eprint (toString result.errors)
  match result.ending with
  | .status _ => pure ()
  | .failure f => IO.eprintln (toString (CommandLine.escapeSurrogates f.message))
  | .settings faults => IO.eprintln (toString (settingsMessage faults))
  return UInt32.ofNat result.ending.code

end LinkedProof.Main

def main (args : List String) : IO UInt32 :=
  LinkedProof.Main.run (args.map LinkedProof.Text.ofString)
