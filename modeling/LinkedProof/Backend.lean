import LinkedProof.Http
import LinkedProof.Signer

/-! Signing and checking by something that is only known by what it answers, and the remote key
service as one such thing. -/
namespace LinkedProof

structure Backend (σ : Type) where
  sign : Bytes → Option Timeout → Action σ Bytes
  verify : PublicKey → Bytes → Bytes → Option Timeout → Action σ Unit

def Backend.toVerifier {σ : Type} (b : Backend σ) (timeout : Option Timeout) : Verifier σ :=
  fun key message signature => b.verify key message signature timeout

structure BackendSigner (σ : Type) where
  backend : Backend σ
  key : Option PublicKey
  algorithm : Text
  timeout : Option Timeout

namespace BackendSigner

variable {σ : Type}

def toSigner (s : BackendSigner σ) : Signer σ where
  algorithm := s.algorithm
  sign message := s.backend.sign message s.timeout

def publicKey (s : BackendSigner σ) : Outcome PublicKey :=
  match s.key.filter fun key => !key.isNull with
  | some key => .ok key
  | none => .error (.proof .signerWithoutKey)

def publicBytes (table : CurveTable) (s : BackendSigner σ) : Outcome Bytes × BackendSigner σ :=
  match s.publicKey with
  | .ok key => (key.bytes table, { s with key := some (key.used table) })
  | .error failure => (.error failure, s)

end BackendSigner

structure RemoteKey where
  baseUrl : Text
  id : Text
  timeout : Timeout
  verifyTls : Bool
  room : Json.Room

namespace RemoteKey

variable {σ : Type} (k : RemoteKey) (client : Http.Client σ)

def url (suffix : Text) : Text :=
  Text.concat [Text.dropTrailing '/' k.baseUrl, "/keys/", k.id, suffix]

def fault (f : RemoteFault) : Failure := .proof (.remote k.id f)

def exchange (task : RemoteTask) (method suffix : Text) (timeout : Option Timeout)
    (payload : Option Json) : Action σ Members := do
  let request : Http.Request :=
    ⟨method, k.url suffix, timeout.getD k.timeout, k.verifyTls, "application/json", payload⟩
  match ← Http.exchange k.room client request with
  | .ok (.object members) => return members
  | .ok _ => throw (k.fault (.exchange task .body))
  | .error f => throw (k.fault (.exchange task f))

def publicKey (timeout : Option Timeout) : Action σ PublicKey := do
  let reply ← k.exchange client .describe "GET" [] timeout none
  match reply.get "publicKeyJwk" with
  | .object members => return .jwk (Jwk.ofMembers members) PublicKey.defaultType
  | _ => throw (k.fault .noKey)

def sign (message : Bytes) (timeout : Option Timeout) : Action σ Bytes := do
  let payload : Members := [("message", .text (Base64.encode message))]
  let reply ← k.exchange client .sign "POST" "/sign" timeout (some (.object payload))
  match reply.get "signature" with
  | .text (c :: rest) =>
    match Base64.decode (c :: rest) with
    | .ok signature => return signature
    | .error _ => throw (k.fault .signatureText)
  | _ => throw (k.fault .noSignature)

def describe (table : CurveTable) : PublicKey → Outcome Members
  | .jwk key _ => .ok key.toMembers
  | .bound key _ => .ok key.toMembers
  | key => do
    let q ← key.point table
    return (← Jwk.ofPoint table q .null).toMembers

def verify (table : CurveTable) (key : PublicKey) (message signature : Bytes)
    (timeout : Option Timeout) : Action σ Unit := do
  let members ← Action.ofOutcome (describe table key)
  let payload : Members :=
    [("message", .text (Base64.encode message)), ("signature", .text (Base64.encode signature)),
      ("publicKeyJwk", .object members)]
  let reply ← k.exchange client .verify "POST" "/verify" timeout (some (.object payload))
  if (reply.get "valid").isTrue then return () else throw (.proof .invalidSignature)

def toBackend (table : CurveTable) : Backend σ where
  sign := k.sign client
  verify := k.verify client table

end RemoteKey

end LinkedProof
