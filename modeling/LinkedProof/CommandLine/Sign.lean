import LinkedProof.Attachment
import LinkedProof.CommandLine.Report
import LinkedProof.CommandLine.RunResult
import LinkedProof.CommandLine.Source

/-! The command that attaches a proof to a document. -/
namespace LinkedProof.CommandLine

variable {σ : Type} (s : Surroundings σ)

def signed (settings : Settings) (o : SignOptions) : ExceptT CommandFault (StateM σ) Document := do
  let lift {α : Type} (a : Action σ α) : ExceptT CommandFault (StateM σ) α :=
    ExceptT.mk ((·.mapError .failure) <$> a.run)
  let document ← Source.load s settings.httpTimeout o.source
  let signer ← lift (.ofOutcome do
    LocalSigner.ofPem s.wording s.table (← s.files.read o.key) none .null)
  let filled (t : Option Text) (standard : Text) : Text :=
    match t with
    | none | some [] => standard
    | some t => t
  let request : ProofRequest σ := {
    type := o.type
    suite := {
      type := o.type
      signer := some (signer.toSigner s.primitive)
      verifier := LocalVerifier.toVerifier s.primitive s.table
      canonicalizer := ⟨false, s.room .canonical⟩
      headerRoom := s.room .header
      digest := Digest.sha256 }
    method := .text o.method
    representation := o.representation.getD settings.representation
    created := none
    purpose := filled o.purpose settings.purpose
    timeFormat := o.timeFormat.getD settings.timeFormat }
  lift (Document.attach s.now request document)

def signReports : CommandFault → Bool
  | .failure (.proof _) => true
  | .failure f => f.isUnfit || f.isWrongKind
  | _ => true

/-- Puts a text into a file. The file is emptied before it is known whether UTF-8 can carry the
text. -/
def store (files : Files) (p : Path) (t : Text) : Files × Outcome Unit :=
  match files.write p [], Utf8.encode t with
  | .error f, _ => (files, .error f)
  | .ok emptied, .error fault => (emptied, .error (.unfit (.encoding fault)))
  | .ok _, .ok bytes =>
    match files.write p bytes with
    | .ok files => (files, .ok ())
    | .error f => (files, .error f)

def deliver (output : Option Path) (d : Document) : RunResult :=
  if s.room .output < (Json.object d).depth then failing s.files .unwritable
  else
    let t := (Json.object d).render .pretty ++ "\n"
    match output with
    | none => printing s.files accepted t
    | some p =>
      match store s.files p t with
      | (files, .ok ()) =>
        showing files accepted s.console ("Wrote signed document to " ++ p.text) []
      | (files, .error f) => failing files f

def signFailed (files : Files) (fault : CommandFault) : RunResult :=
  match fault, signReports fault with
  | .failure f, false => failing files f
  | fault, _ => reporting files rejected fault.message

def sign (settings : Settings) (o : SignOptions) : StateM σ RunResult := do
  match ← (signed s settings o).run with
  | .ok d => return deliver s o.output d
  | .error fault => return signFailed s.files fault

end LinkedProof.CommandLine
