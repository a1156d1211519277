import LinkedProof.Console
import LinkedProof.Verification

/-! What a run says about the proofs of a document: as a JSON value, or as a table for people. -/
namespace LinkedProof.Report

def errorValue (v : Verdict) : Json := (v.error.map fun cause => Json.text cause.message).getD .null

def proofValue (v : Verdict) : Json :=
  .object [("index", .int v.index), ("type", .text v.type), ("verification_method", .text v.method),
    ("valid", .bool v.valid), ("error", errorValue v)]

def value (policy : Policy) (verdicts : List Verdict) : Json :=
  .object [("accepted", .bool (policy.accepts verdicts)), ("policy", .text policy.name),
    ("proofs", .array (verdicts.map proofValue))]

def title (policy : Policy) (verdicts : List Verdict) : Text :=
  Text.concat [
    if policy.accepts verdicts then "[bold green]ACCEPTED[/]" else "[bold red]REJECTED[/]",
    " (policy: ", policy.name, ", ", Text.ofNat verdicts.length, " proof(s))"]

def headings : List Text := ["#", "Type", "Verification Method", "Result"]

variable (console : Console)

def result (v : Verdict) : Text :=
  match v.error with
  | none => "[green]Valid[/]"
  | some cause => Text.concat ["[red]", console.escape cause.message, "[/]"]

/-- The markup of the cells about a proof. Its type and its method are taken for markup as they
are. -/
def row (v : Verdict) : List Text := [Text.ofNat v.index, v.type, v.method, result console v]

def noProofs : Text := "[yellow]![/] Document carries no proofs"

def table (policy : Policy) (verdicts : List Verdict) : Outcome Text := do
  let table ← console.table (title policy verdicts) headings (verdicts.map (row console))
  if verdicts.isEmpty then return table ++ (← console.print noProofs) else return table

end LinkedProof.Report
