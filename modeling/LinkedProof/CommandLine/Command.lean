import LinkedProof.CommandLine.Arguments

/-! The commands with their options. -/
namespace LinkedProof

structure KeygenOptions where
  curve : Text
  out : Path
  kid : Option Text

structure SignOptions where
  source : Text
  key : Path
  method : Text
  type : Text
  purpose : Option Text
  representation : Option Representation
  timeFormat : Option TimeFormat
  output : Option Path

structure VerifyOptions where
  source : Text
  keys : List Text
  types : List Text
  policy : Option Policy
  verifySsl : Bool
  timeout : Option Binary64
  asJson : Bool

inductive Command
  | keygen (options : KeygenOptions)
  | sign (options : SignOptions)
  | verify (options : VerifyOptions)

namespace Command

inductive Name
  | keygen
  | sign
  | verify
  deriving DecidableEq

def Name.text : Name → Text
  | keygen => "keygen"
  | sign => "sign"
  | verify => "verify"

def Name.all : List Name := [keygen, sign, verify]

def Name.ofText? (t : Text) : Option Name := Name.all.find? (·.text = t)

def helpOption : OptionForm := ⟨"--help", false⟩

def forms : Name → List OptionForm
  | .keygen => [⟨"--curve", true⟩, ⟨"--out", true⟩, ⟨"--kid", true⟩, helpOption]
  | .sign => [⟨"--key", true⟩, ⟨"--verification-method", true⟩, ⟨"--type", true⟩,
      ⟨"--purpose", true⟩, ⟨"--representation", true⟩, ⟨"--time-format", true⟩,
      ⟨"--output", true⟩, helpOption]
  | .verify => [⟨"--key", true⟩, ⟨"--type", true⟩, ⟨"--policy", true⟩,
      ⟨"--no-ssl-verify", false⟩, ⟨"--timeout", true⟩, ⟨"--json-output", false⟩, helpOption]

def curveNames : List Text := (CurveTable.initial.names).mergeSort fun s t => !Text.lt t s

open Reading OptionValue

def keygenOptions (files : Files) (a : Arguments) : Reading KeygenOptions :=
  (both (a.optional "--curve" (among "--curve" curveNames fun t => curveNames.find? (· = t)))
    <| both (a.required 1 "--out" (newFile files "--out"))
    <| a.optional "--kid" text).map
  fun (curve, out, kid) => { curve := curve.getD "P-256", out, kid }

def sourceName : Text := "SOURCE"

def signOptions (files : Files) (a : Arguments) : Reading SignOptions :=
  let representations := Representation.all.map (·.key)
  let timeFormats := TimeFormat.all.map (·.name)
  (both (a.word sourceName)
    <| both (a.required 1 "--key" (oldFile files "--key"))
    <| both (a.required 2 "--verification-method" text)
    <| both (a.optional "--type" text)
    <| both (a.optional "--purpose" text)
    <| both (a.optional "--representation"
      (among "--representation" representations Representation.ofKey?))
    <| both (a.optional "--time-format" (among "--time-format" timeFormats TimeFormat.ofName?))
    <| a.optional "--output" (newFile files "--output")).map
  fun (source, key, method, type, purpose, representation, timeFormat, output) =>
    { source, key, method, type := type.getD Suite.defaultType, purpose, representation,
      timeFormat, output }

def verifyOptions (a : Arguments) : Reading VerifyOptions :=
  let policies := Policy.choices.map (·.name)
  (both (a.word sourceName)
    <| both (a.optional "--policy" (among "--policy" policies Policy.ofName?))
    <| a.optional "--timeout" (number "--timeout")).map
  fun (source, policy, timeout) =>
    { source, policy, timeout, keys := a.all "--key", types := a.all "--type",
      verifySsl := !a.has "--no-ssl-verify", asJson := a.has "--json-output" }

def wordCount : Name → Nat
  | .keygen => 0
  | .sign | .verify => 1

def read (files : Files) (name : Name) (a : Arguments) : Reading Command :=
  match name with
  | .keygen => (keygenOptions files a).map keygen
  | .sign => (signOptions files a).map sign
  | .verify => (verifyOptions a).map verify

def help : Text :=
  "Usage: main [OPTIONS] (keygen | sign | verify) [ARGUMENTS]\n"

def ofArguments (files : Files) (name : Name) (args : List Text) : Except Halt Command := do
  let a ← (Arguments.sort (forms name) false args).mapError .usage
  if a.has helpOption.name then throw (.printed help)
  let command ← (read files name a).result
  match a.words.drop (wordCount name) with
  | [] => return command
  | extra => throw (.usage (.extraArguments extra))

/-! Options in front of the command. -/

def outerForms : List OptionForm :=
  [⟨"--log-level", true⟩, ⟨"--version", false⟩, helpOption]

def logLevels : List Text := ["debug", "info", "warning", "error"]

def version : Text := "main, version 0.1.0\n"

def outerWords (args : List Text) : Except Halt (List Text) := do
  let a ← (Arguments.sort outerForms true args).mapError .usage
  match a.options.find? fun given =>
      given.1 = Text.ofString "--version" || given.1 = helpOption.name with
  | some (name, _) => throw (.printed (if name = helpOption.name then help else version))
  | none => pure ()
  let level := a.optional "--log-level" <|
    OptionValue.among "--log-level" logLevels fun t => logLevels.find? (· = t.toLowerAscii)
  discard level.result
  return a.words

/-- The name of the command and its arguments. A word that is no command is looked at once more as
an option. -/
def choose (args : List Text) : Except Halt (Name × List Text) := do
  match ← outerWords args with
  | [] => throw (.usage .missingCommand)
  | word :: rest =>
    match Name.ofText? word with
    | some name => return (name, rest)
    | none =>
      discard (outerWords (word :: rest))
      throw (.usage (.unknownCommand word (Text.alike word (Name.all.map Name.text))))

end Command

end LinkedProof
