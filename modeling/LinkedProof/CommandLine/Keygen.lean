import LinkedProof.CommandLine.Report
import LinkedProof.CommandLine.RunResult
import LinkedProof.CommandLine.Source

/-! The command that makes a private key. -/
namespace LinkedProof.CommandLine

variable {σ : Type} (s : Surroundings σ)

def keyMode : Nat := 0o600

def keygen (o : KeygenOptions) : RunResult :=
  let made : Outcome LocalSigner := do
    let entry ← s.table.ofName o.curve
    LocalSigner.generate s.table s.generator entry ((o.kid.map Json.text).getD .null)
  match made with
  | .error (.proof cause) => reporting s.files rejected cause.message
  | .error f => failing s.files f
  | .ok signer =>
    match do (← s.files.write o.out (Bytes.ofCodes signer.pem)).restrict o.out keyMode with
    | .error f => failing s.files f
    | .ok files =>
      showing files accepted s.console
        (Text.concat ["Wrote ", signer.entry.name, " private key to ", o.out.text])
        ((Json.object signer.jwk.toMembers).render .prettyAscii ++ "\n")

end LinkedProof.CommandLine
