import LinkedProof.Action
import LinkedProof.Bytes

/-! Signatures of fixed width: two numbers in big-endian order, each in the same count of bytes. -/
namespace LinkedProof.Signature

def half (size n : Int) : Outcome Bytes :=
  if size < 0 then .error (.unfit .negativeLength)
  else if n < 0 then .error (.overflow "can't convert negative int to unsigned")
  else match Bytes.ofNat? size.toNat n.toNat with
    | some bytes => .ok bytes
    | none => .error (.overflow "int too big to convert")

def encode (r s size : Int) : Outcome Bytes := do return (← half size r) ++ (← half size s)

def decode (signature : Bytes) (size : Int) : Outcome (Nat × Nat) :=
  if (signature.length : Int) = 2 * size then
    .ok (Bytes.toNat (signature.take size.toNat), Bytes.toNat (signature.drop size.toNat))
  else .error (.proof (.signature (.length (2 * size) signature.length)))

end LinkedProof.Signature
