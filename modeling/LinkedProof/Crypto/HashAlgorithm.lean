import LinkedProof.Action
import LinkedProof.Crypto.Sha2

/-! Hash algorithms as curves are bound to them: by their names. An algorithm is made anew for each
signature, and for some there is nothing to make it of, because their length has to be chosen. -/
namespace LinkedProof

structure HashAlgorithm where
  name : Text
  deriving DecidableEq

namespace Digest

def name : Digest → Text
  | sha256 => "sha256"
  | sha384 => "sha384"
  | sha512 => "sha512"

def all : List Digest := [sha256, sha384, sha512]

def algorithm (d : Digest) : HashAlgorithm := ⟨d.name⟩

end Digest

namespace HashAlgorithm

def digest? (h : HashAlgorithm) : Option Digest := Digest.all.find? (·.name = h.name)

theorem digest?_algorithm (d : Digest) : d.algorithm.digest? = some d := by
  cases d <;> decide

end HashAlgorithm

end LinkedProof
