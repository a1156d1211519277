import LinkedProof.CurveTable
import LinkedProof.Json.Writer
import LinkedProof.PublicKey

/-! Signatures as compact tokens whose middle part, the payload, is left out. The header says that
the payload is signed as it is. -/
namespace LinkedProof.DetachedJws

def decodePart (t : Text) : Outcome Bytes :=
  (Base64.decode t).mapError fun fault => .proof (.signature (.notEncoded fault.message))

def headerPart (algorithm : Text) : Text :=
  let header : Members :=
    [("alg", .text algorithm), ("b64", .bool false), ("crit", .array [.text "b64"])]
  Base64.encode (Bytes.ofCodes ((Json.object header).render .ascii))

def signingInput (header : Text) (payload : Bytes) : Outcome Bytes :=
  match Bytes.ofAscii? header with
  | some bytes => .ok (bytes ++ 0x2E :: payload)
  | none => .error (.unfit .notAscii)

def token (header : Text) (signature : Bytes) : Text :=
  Text.concat [header, "..", Base64.encode signature]

def split (token : Text) : Outcome (Text × Bytes) :=
  match Text.split '.' token with
  | [header, [], signature] => do return (header, ← decodePart signature)
  | _ => .error (.proof (.signature .notDetached))

/-- Whether a value names `b64`: as an entry, as a member or as a part of a text. -/
def namesPayload : Json → Outcome Bool
  | .array items => .ok (items.any (·.isText "b64"))
  | .object members => .ok ((Members.get? "b64" members).isSome)
  | .text t => .ok (Text.holds "b64" t)
  | value => .error (.wrongKind (.notContainer value.kindWord))

def readHeader (room : Nat) (part : Text) : Outcome Members := do
  let bytes ← decodePart part
  match Json.parseBytes room bytes with
  | .error (.text (.depth container)) => throw (.nesting container)
  | .error fault => throw (.proof (.signature (.header fault.message)))
  | .ok (.object header) =>
    if !(Members.get "b64" header).isFalse then throw (.proof (.signature .payloadEncoded))
    if ← namesPayload ((Members.get? "crit" header).getD (.array [])) then return header
    else throw (.proof (.signature .payloadEncoded))
  | .ok _ => throw (.proof (.signature .headerNotObject))

def refuseCurve : Failure → Failure
  | .proof cause =>
    if cause.family = .unsupportedCurve then .proof (.refused cause.message) else .proof cause
  | failure => failure

def announcedCurve? : PublicKey → Option Json
  | .jwk key _ => if key.isCurveKey then some key.crv else none
  | .bound key _ => if key.isCurveKey then some key.crv else none
  | .encoded _ curve _ => some curve
  | .other _ => none

def checkAlgorithm (table : CurveTable) (algorithm : Json) (key : PublicKey) : Outcome Unit :=
  match announcedCurve? key with
  | none => .ok ()
  | some curve => do
    let (expected, declared) ← Outcome.rename refuseCurve do
      let expected ← table.ofValue curve
      let declared ← table.ofAlgorithm algorithm
      return (expected, declared)
    if declared.name = expected.name then return ()
    else throw (.proof (.signature (.algorithm algorithm expected.name)))

def opening (room : Nat) (table : CurveTable) (key : PublicKey) (payload : Bytes) (token : Text) :
    Outcome (Bytes × Bytes) := do
  let (part, signature) ← split token
  let header ← readHeader room part
  checkAlgorithm table ((header.get? "alg").getD (.text [])) key
  return (← signingInput part payload, signature)

end LinkedProof.DetachedJws
