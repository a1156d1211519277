import LinkedProof.Did.Resolver
import LinkedProof.CommandLine.Report
import LinkedProof.CommandLine.RunResult
import LinkedProof.CommandLine.Source

/-! The command that checks the proofs of a document. -/
namespace LinkedProof.CommandLine

variable {σ : Type} (s : Surroundings σ)

def knownTypes : List Text := ["EcdsaSecp256k1Signature2019", "JsonWebSignature2020"]

def suites {τ : Type} (types : List Text) : SuiteTable τ :=
  SuiteTable.ofSuites <| (knownTypes ++ types).map fun type => {
    type
    signer := none
    verifier := LocalVerifier.toVerifier s.primitive s.table
    canonicalizer := ⟨false, s.room .canonical⟩
    headerRoom := s.room .header
    digest := Digest.sha256 }

def fetcher (settings : Settings) (timeout : Binary64) (o : VerifyOptions) :
    Except CommandFault (Fetcher (Did.Cache × σ)) :=
  if o.keys.isEmpty then
    let resolver : Did.Resolver := { Did.Resolver.standard (s.room .didDocument) with
      timeout := .fractional timeout
      verify := settings.verifySsl && o.verifySsl }
    .ok (resolver.key s.client s.table)
  else KeyTable.fetcher <$> Source.keyTable (s.room .keyFile) s.files o.keys

def verdicts (settings : Settings) (o : VerifyOptions) :
    ExceptT CommandFault (StateM σ) (List Verdict) := do
  let timeout := o.timeout.getD settings.httpTimeout
  let document ← Source.load s timeout o.source
  let fetch ← ExceptT.mk (pure (fetcher s settings timeout o))
  ExceptT.mk fun state =>
    let checks := Verification.shared s.table fetch (suites s o.types) settings.workers s.schedule
    let (found, _, state) := (checks document).run.run ([], state)
    (found.mapError .failure, state)

def verifyReports : CommandFault → Bool
  | .failure (.proof _) => true
  | .failure f => f.isUnfit || f.isSystem
  | _ => true

def verifyFailed (asJson : Bool) (fault : CommandFault) : RunResult :=
  match fault, verifyReports fault with
  | .failure f, false => failing s.files f
  | fault, _ =>
    if asJson then
      printing s.files unable
        ((Json.object [("error", .text fault.message)]).render .pretty ++ "\n")
    else showing s.files unable s.console ("[red]Error:[/] " ++ s.console.escape fault.message) []

def verify (settings : Settings) (o : VerifyOptions) : StateM σ RunResult := do
  match ← (verdicts s settings o).run with
  | .error fault => return verifyFailed s o.asJson fault
  | .ok found =>
    let policy := o.policy.getD settings.policy
    let code := if policy.accepts found then accepted else rejected
    if o.asJson then
      return printing s.files code ((Report.value policy found).render .pretty ++ "\n")
    else match Report.table s.console policy found with
      | .ok t => return printing s.files code t
      | .error failure => return failing s.files failure

end LinkedProof.CommandLine
