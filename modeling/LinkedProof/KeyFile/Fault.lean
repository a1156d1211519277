import LinkedProof.Crypto.Der
import LinkedProof.Crypto.Pem

/-! Why a key file gives no private key. -/
namespace LinkedProof.KeyFile

inductive Fault
  | armour (fault : Pem.Fault)
  | noKey
  | encryption
  | encrypted
  | password
  | needlessPassword
  | contents (fault : Der.Fault)
  | invalidKey
  | shortScalar
  | factors
  | unsupported
  | rawLength
  deriving DecidableEq

inductive FaultNature
  | content
  | password
  | algorithm
  | arithmetic
  deriving DecidableEq

namespace Fault

def nature : Fault → FaultNature
  | encrypted | needlessPassword => .password
  | unsupported => .algorithm
  | rawLength => .arithmetic
  | _ => .content

end Fault

end LinkedProof.KeyFile
