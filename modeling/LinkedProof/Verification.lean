import LinkedProof.Method
import LinkedProof.Suite

/-! Checking each proof of a document on its own. What is wrong with a proof is its verdict and does
not keep the others from being checked. -/
namespace LinkedProof

structure Verdict where
  index : Nat
  type : Text
  method : Text
  valid : Bool
  error : Option Cause

inductive Policy
  | all
  | any
  deriving DecidableEq

namespace Policy

def name : Policy → Text
  | all => "all"
  | any => "any"

def choices : List Policy := [all, any]

def ofName? (name : Text) : Option Policy := choices.find? (·.name = name)

/-- A document without proofs is never accepted. -/
def accepts (p : Policy) (verdicts : List Verdict) : Bool :=
  !verdicts.isEmpty && match p with
    | all => verdicts.all (·.valid)
    | any => verdicts.any (·.valid)

end Policy

def Verdict.errors (verdicts : List Verdict) : List Text :=
  (verdicts.filter fun v => !v.valid).map fun v =>
    Text.concat ["proof ", Text.ofNat v.index, ": ", (v.error.map Cause.message).getD "None"]

/-- Suites by the proof types that they check; of two for one type the later counts. -/
abbrev SuiteTable (σ : Type) := List (Text × Suite σ)

namespace SuiteTable

variable {σ : Type}

def ofSuites (suites : List (Suite σ)) : SuiteTable σ := suites.map fun s => (s.type, s)

def get? (t : SuiteTable σ) (type : Text) : Option (Suite σ) :=
  (t.reverse.find? (·.1 = type)).map (·.2)

end SuiteTable

namespace Verification

variable {σ : Type}

def signatureValue (proof : Members) : Outcome (Representation × Text) :=
  let found := Representation.all.findSome? fun r =>
    match proof.get r.key with
    | .text [] => none
    | .text value => some (r, value)
    | _ => none
  match found with
  | some signature => .ok signature
  | none => .error (.proof .noSignature)

def options (proof : Members) : Members :=
  proof.filter fun member => Representation.all.all fun r => member.1 ≠ r.key

def unresolved (m : Method) : Failure → Failure
  | .proof cause => .proof cause
  | failure => .proof (.unresolved m.text failure.message)

def refused : Failure → Failure
  | .proof cause => .proof cause
  | failure => .proof (.refused failure.message)

def findSuite (suites : SuiteTable σ) (type : Json) : Outcome (Suite σ) :=
  match type with
  | .text t => match suites.get? t with
    | some suite => .ok suite
    | none => .error (.proof (.unsupportedType t))
  | found => .error (.proof (.proofType found))

def member (name : Text) (proof : Members) : Json := (proof.get? name).getD (.text [])

structure Keyed (σ : Type) where
  suite : Suite σ
  representation : Representation
  value : Text
  key : PublicKey

def fetchKey (fetch : Fetcher σ) (suites : SuiteTable σ) (proof : Members) :
    Action σ (Keyed σ) := do
  let suite ← Action.ofOutcome (findSuite suites (member "type" proof))
  let (representation, value) ← Action.ofOutcome (signatureValue proof)
  let method ← Action.ofOutcome (Method.ofValue (member "verificationMethod" proof))
  let key ← (fetch method.issuer method.keyId).rename (unresolved method)
  return ⟨suite, representation, value, key⟩

def checkSignature (table : CurveTable) (d : Document) (index : Nat) (proof : Members)
    (k : Keyed σ) : Action σ Unit := do
  let payload ← Action.ofOutcome (k.suite.verifyData d (options proof) (some index))
  (k.suite.verify table k.key payload k.representation k.value).rename refused

def check (table : CurveTable) (fetch : Fetcher σ) (suites : SuiteTable σ) (d : Document)
    (index : Nat) (proof : Members) : Action σ Unit := do
  checkSignature table d index proof (← fetchKey fetch suites proof)

def stated (name : Text) (proof : Members) : Text := ((member name proof).text?).getD []

/-- The verdict on a proof whose check ended in this way. A failure outside the proof layer is no
verdict. -/
def concluded (index : Nat) (proof : Members) : Outcome Unit → Outcome Verdict
  | .ok () => .ok ⟨index, stated "type" proof, stated "verificationMethod" proof, true, none⟩
  | .error (.proof cause) =>
    .ok ⟨index, stated "type" proof, stated "verificationMethod" proof, false, some cause⟩
  | .error failure => .error failure

def verdict (table : CurveTable) (fetch : Fetcher σ) (suites : SuiteTable σ) (d : Document)
    (index : Nat) (proof : Members) : Action σ Verdict := ExceptT.mk fun s =>
  let (o, s) := (check table fetch suites d index proof).run.run s
  (concluded index proof o, s)

def verdictsFrom (table : CurveTable) (fetch : Fetcher σ) (suites : SuiteTable σ) (d : Document)
    (index : Nat) : List Members → Action σ (List Verdict)
  | [] => return []
  | proof :: rest => do
    let v ← verdict table fetch suites d index proof
    return v :: (← verdictsFrom table fetch suites d (index + 1) rest)

def run (table : CurveTable) (fetch : Fetcher σ) (suites : SuiteTable σ) (document : Json) :
    Action σ (List Verdict) := do
  let d ← Action.ofOutcome (Document.ofValue "get" document)
  verdictsFrom table fetch suites d 0 d.proofs

inductive Progress (σ : Type)
  | waiting
  | keyed (k : Keyed σ)
  | ended (o : Outcome Verdict)

def advance (table : CurveTable) (fetch : Fetcher σ) (suites : SuiteTable σ) (d : Document)
    (index : Nat) (proof : Members) : Progress σ → σ → Progress σ × σ
  | .waiting, s => match (fetchKey fetch suites proof).run.run s with
    | (.ok k, s) => (.keyed k, s)
    | (.error failure, s) => (.ended (concluded index proof (.error failure)), s)
  | .keyed k, s =>
    let (o, s) := (checkSignature table d index proof k).run.run s
    (.ended (concluded index proof o), s)
  | .ended o, s => (.ended o, s)

/-- The checks of a call that several workers carry out, and the state that they share. -/
structure Pool (σ : Type) where
  checks : List (Progress σ)
  state : σ

def Pool.step (table : CurveTable) (fetch : Fetcher σ) (suites : SuiteTable σ) (d : Document)
    (pool : Pool σ) (index : Nat) : Pool σ :=
  match d.proofs[index]?, pool.checks[index]? with
  | some proof, some check =>
    let (check, s) := advance table fetch suites d index proof check pool.state
    ⟨pool.checks.set index check, s⟩
  | _, _ => pool

def pooled (table : CurveTable) (fetch : Fetcher σ) (suites : SuiteTable σ) (d : Document) (s : σ)
    (schedule : List Nat) : Pool σ :=
  schedule.foldl (Pool.step table fetch suites d) ⟨d.proofs.map fun _ => .waiting, s⟩

/-- The steps that one worker takes: both of each check in a row, for so many checks from a place
on. -/
def oneByOne (index count : Nat) : List Nat := (List.range' index count).flatMap fun i => [i, i]

def Progress.outcome? : Progress σ → Option (Outcome Verdict)
  | .ended o => some o
  | _ => none

/-- What a pool returns when all of its checks have ended: their verdicts in the order of the
document, or the first failure. -/
def Pool.result? (pool : Pool σ) : Option (Outcome (List Verdict)) :=
  (pool.checks.mapM Progress.outcome?).map fun outcomes => outcomes.mapM id

/-- The verdicts on all proofs of a document, if there are several of both by workers that share
the proofs. Their steps come in the order of a schedule, and what it leaves to be done is done one
by one, so there always is a result. -/
def shared (table : CurveTable) (fetch : Fetcher σ) (suites : SuiteTable σ) (workers : Nat)
    (schedule : List Nat) (document : Json) : Action σ (List Verdict) := do
  let d ← Action.ofOutcome (Document.ofValue "get" document)
  if workers ≤ 1 || d.proofs.length ≤ 1 then verdictsFrom table fetch suites d 0 d.proofs
  else ExceptT.mk fun s =>
    let pool := pooled table fetch suites d s (schedule ++ oneByOne 0 d.proofs.length)
    (pool.result?.getD (.ok []), pool.state)

end Verification

end LinkedProof
