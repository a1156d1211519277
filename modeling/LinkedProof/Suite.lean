import LinkedProof.Crypto.HashFunction
import LinkedProof.DetachedJws
import LinkedProof.Document
import LinkedProof.Signer

/-! Signature suites: a proof type with its digest, its way of canonicalization, and what signs and
checks for it. -/
namespace LinkedProof

inductive Representation
  | proofValue
  | jws
  deriving DecidableEq

namespace Representation

def key : Representation → Text
  | proofValue => "proofValue"
  | jws => "jws"

/-- In the order in which a proof is searched for its signature. -/
def all : List Representation := [proofValue, jws]

def ofKey? (key : Text) : Option Representation := all.find? (·.key = key)

end Representation

structure Suite (σ : Type) where
  type : Text
  signer : Option (Signer σ)
  verifier : Verifier σ
  canonicalizer : Canonicalizer
  headerRoom : Json.Room
  digest : HashFunction

namespace Suite

variable {σ : Type}

def defaultType : Text := "JsonWebSignature2020"

/-- The digest of the canonical options and behind it the digest of the canonical document. -/
def verifyData (s : Suite σ) (document options : Document) (exclude : Option Int) :
    Outcome Bytes := do
  let optionBytes ← options.canonicalize s.canonicalizer none
  let documentBytes ← document.canonicalize s.canonicalizer exclude
  return s.digest.hash optionBytes ++ s.digest.hash documentBytes

def sign (s : Suite σ) (payload : Bytes) (r : Representation) : Action σ Text :=
  match s.signer with
  | none => throw (.proof (.suiteWithoutSigner s.type))
  | some signer =>
    match r with
    | .proofValue => do return Base64.encode (← signer.sign payload)
    | .jws => do
      let header := DetachedJws.headerPart signer.algorithm
      let input ← Action.ofOutcome (DetachedJws.signingInput header payload)
      return DetachedJws.token header (← signer.sign input)

def opening (room : Nat) (table : CurveTable) (key : PublicKey) (payload : Bytes)
    (r : Representation) (value : Text) : Outcome (Bytes × Bytes) :=
  match r with
  | .proofValue => do return (payload, ← DetachedJws.decodePart value)
  | .jws => DetachedJws.opening room table key payload value

def verify (table : CurveTable) (s : Suite σ) (key : PublicKey) (payload : Bytes)
    (r : Representation) (value : Text) : Action σ Unit := do
  let (message, signature) ← Action.ofOutcome (opening s.headerRoom table key payload r value)
  s.verifier key message signature

end Suite

end LinkedProof
