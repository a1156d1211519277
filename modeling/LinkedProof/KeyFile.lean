import LinkedProof.KeyFile.Container

/-! Private keys in files: the container with an algorithm in front of the key, and the bare forms
of keys. -/
namespace LinkedProof.KeyFile

inductive Form
  | container
  | encrypted
  | curveKey
  | rsa
  | dsa

namespace Form

def label : Form → Text
  | container => "PRIVATE KEY"
  | encrypted => "ENCRYPTED PRIVATE KEY"
  | curveKey => "EC PRIVATE KEY"
  | rsa => "RSA PRIVATE KEY"
  | dsa => "DSA PRIVATE KEY"

def all : List Form := [container, encrypted, curveKey, rsa, dsa]

def ofLabel? (label : Text) : Option Form := all.find? (·.label = label)

end Form

def write (k : PrivateKey) : Text := Pem.encode Form.container.label (Container.write k)

def isFilled (password : Option Text) : Bool := password.any fun t => !t.isEmpty

def checkHeaders (b : Pem.Block) (password : Option Text) : Except Fault Unit :=
  match b.header? "Proc-Type" with
  | none => .ok ()
  | some value =>
    if value = Text.ofString "4,ENCRYPTED" && !isFilled password then .error .encrypted
    else .error .encryption

def load (form : Form) (bytes : Bytes) (password : Option Text) : Except Fault Loaded :=
  match form with
  | .container => Container.loadBytes bytes
  | .encrypted => do
    Container.checkEncrypted bytes
    throw (if isFilled password then .password else .encrypted)
  | .curveKey => .curveKey <$> CurveKey.keyOf none bytes
  | .rsa => Container.readRsa bytes
  | .dsa => Container.readDsa bytes

def check : Loaded → Except Fault Loaded
  | .rsaKey key => if key.isConsistent then .ok (.rsaKey key) else .error .factors
  | loaded => .ok loaded

def read (t : Bytes) (password : Option Text) : Except Fault Loaded := do
  let blocks ← (Pem.blocks t).mapError .armour
  let some (form, block) := blocks.findSome? fun b => (Form.ofLabel? b.label).map (·, b)
    | throw .noKey
  checkHeaders block password
  let loaded ← load form block.contents password
  if password.isSome then throw .needlessPassword
  check loaded

end LinkedProof.KeyFile
