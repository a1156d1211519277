import LinkedProof.PublicKey

/-! Verification methods: an issuer and a fragment with the mark `#` between them. -/
namespace LinkedProof

structure Method where
  issuer : Text
  fragment : Text
  deriving DecidableEq

namespace Method

def keyId (m : Method) : Text := '#' :: m.fragment

def text (m : Method) : Text := m.issuer ++ m.keyId

def ofText (t : Text) : Outcome Method :=
  match Text.cut? '#' t with
  | some (issuer, fragment) =>
    if issuer.isEmpty || fragment.isEmpty then .error (.proof (.methodWithoutFragment t))
    else .ok ⟨issuer, fragment⟩
  | none => .error (.proof (.methodWithoutFragment t))

def ofValue : Json → Outcome Method
  | .text t => ofText t
  | value => .error (.proof (.methodNotText value))

end Method

/-- Gives the key of an issuer and a fragment with its mark. -/
abbrev Fetcher (σ : Type) := Text → Text → Action σ PublicKey

abbrev KeyTable := List (Text × PublicKey)

namespace KeyTable

def get? (id : Text) : KeyTable → Option PublicKey
  | [] => none
  | (k, key) :: rest => if k = id then some key else get? id rest

def add (id : Text) (key : PublicKey) : KeyTable → KeyTable
  | [] => [(id, key)]
  | (k, other) :: rest => if k = id then (id, key) :: rest else (k, other) :: add id key rest

/-- The key of the whole method, or else the key of the fragment. An empty key counts as missing in
the first place, null in both. -/
def resolve (t : KeyTable) (issuer keyId : Text) : Outcome PublicKey :=
  let whole := (t.get? (issuer ++ keyId)).filter fun key => !key.isEmpty
  match whole.or ((t.get? keyId).filter fun key => !key.isNull) with
  | some key => .ok key
  | none => .error (.proof (.unknownMethod (issuer ++ keyId)))

def fetcher {σ : Type} (t : KeyTable) : Fetcher σ :=
  fun issuer keyId => .ofOutcome (t.resolve issuer keyId)

end KeyTable

end LinkedProof
