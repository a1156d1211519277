import LinkedProof.Attachment
import LinkedProof.Number.Numeral
import LinkedProof.TimeFormat
import LinkedProof.VariableFile
import LinkedProof.Verification

/-! What holds unless a command says otherwise. A setting is taken from the variable of its name,
from a file of variables when there is no such variable, and has a standard value otherwise. -/
namespace LinkedProof

inductive Setting
  | httpTimeout
  | verifySsl
  | timeFormat
  | acceptancePolicy
  | proofPurpose
  | signatureRepresentation
  | verifyWorkers
  deriving DecidableEq

def Setting.name : Setting → Text
  | httpTimeout => "http_timeout"
  | verifySsl => "verify_ssl"
  | timeFormat => "time_format"
  | acceptancePolicy => "acceptance_policy"
  | proofPurpose => "proof_purpose"
  | signatureRepresentation => "signature_representation"
  | verifyWorkers => "verify_workers"

def Setting.all : List Setting :=
  [.httpTimeout, .verifySsl, .timeFormat, .acceptancePolicy, .proofPurpose,
    .signatureRepresentation, .verifyWorkers]

def Setting.variable (s : Setting) : Text := "vc_proofs_" ++ s.name

inductive SettingFault
  | notNumber
  | notPositive
  | notFlag
  | notChoice
  | notWhole
  | tooLong
  | notCounting
  | notUnicode
  deriving DecidableEq

structure Settings where
  httpTimeout : Binary64
  verifySsl : Bool
  timeFormat : TimeFormat
  policy : Policy
  purpose : Text
  representation : Representation
  workers : Nat
  httpTimeout_isPositive : httpTimeout.isPositive
  workers_pos : 0 < workers

namespace Settings

def standard : Settings where
  httpTimeout := Binary64.ofInt 30
  verifySsl := true
  timeFormat := .exact
  policy := .all
  purpose := ProofRequest.defaultPurpose
  representation := .jws
  workers := 1
  httpTimeout_isPositive := by decide +kernel
  workers_pos := by decide

/-- Lower case so far as it leads to ASCII, where all names of settings are: the sign of the kelvin
has a letter of ASCII as its lower case, too. -/
def lowered (c : CodePoint) : CodePoint := if c.val = 0x212A then 'k' else c.toLowerAscii

def lookup (name : Text) (bindings : List VariableFile.Binding) : Option Text :=
  (bindings.reverse.find? fun (key, _) => key.map lowered = name).bind (·.2)

def positive? (t : Text) : Except SettingFault { x : Binary64 // x.isPositive } :=
  match Numeral.setting? t with
  | none => .error .notNumber
  | some x => if h : x.isPositive then .ok ⟨x, h⟩ else .error .notPositive

def counting? (t : Text) : Except SettingFault { n : Nat // 0 < n } :=
  match Numeral.wholeSetting t with
  | .error .malformed => .error .notWhole
  | .error .tooLong => .error .tooLong
  | .ok i => if h : 0 < i.toNat then .ok ⟨i.toNat, h⟩ else .error .notCounting

def noWords : List Text := ["0", "f", "n", "no", "off", "false"]

def yesWords : List Text := ["1", "t", "y", "on", "yes", "true"]

def flag? (t : Text) : Except SettingFault Bool :=
  if yesWords.contains t.toLowerAscii then .ok true
  else if noWords.contains t.toLowerAscii then .ok false
  else .error .notFlag

def choice? {α : Type} (found : Option α) : Except SettingFault α :=
  match found with
  | some a => .ok a
  | none => .error .notChoice

def unicode {α : Type} (read : Text → Except SettingFault α) (t : Text) : Except SettingFault α :=
  if t.any CodePoint.isSurrogate then .error .notUnicode else read t

def ofLookup (find : Setting → Option Text) : Except (List (Setting × SettingFault)) Settings :=
  let setting {α : Type} (s : Setting) (standard : α) (read : Text → Except SettingFault α) :
      Except (List (Setting × SettingFault)) α :=
    match find s with
    | none => .ok standard
    | some t => (unicode read t).mapError fun fault => [(s, fault)]
  let timeout := setting .httpTimeout ⟨_, standard.httpTimeout_isPositive⟩ positive?
  let verify := setting .verifySsl standard.verifySsl flag?
  let format := setting .timeFormat standard.timeFormat fun t => choice? (TimeFormat.ofName? t)
  let policy := setting .acceptancePolicy standard.policy fun t => choice? (Policy.ofName? t)
  let purpose := (find .proofPurpose).getD standard.purpose
  let representation := setting .signatureRepresentation standard.representation fun t =>
    choice? (Representation.ofKey? t)
  let workers := setting .verifyWorkers ⟨_, standard.workers_pos⟩ counting?
  match timeout, verify, format, policy, representation, workers with
  | .ok timeout, .ok verify, .ok format, .ok policy, .ok representation, .ok workers =>
    .ok ⟨timeout, verify, format, policy, purpose, representation, workers, timeout.property,
      workers.property⟩
  | timeout, verify, format, policy, representation, workers =>
    let faults {α : Type} : Except (List (Setting × SettingFault)) α → List (Setting × SettingFault)
      | .ok _ => []
      | .error fs => fs
    .error (faults timeout ++ faults verify ++ faults format ++ faults policy
      ++ faults representation ++ faults workers)

def read (surroundings : Variables) (file : Option Text) :
    Except (List (Setting × SettingFault)) Settings :=
  let outer := surroundings.map fun (name, value) => (name, some value)
  let inner := (file.map (VariableFile.read surroundings)).getD []
  ofLookup fun s => (lookup s.variable outer).or (lookup s.variable inner)

end Settings

end LinkedProof
