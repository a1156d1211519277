import LinkedProof.Action

/-! The address at which the document of a `did:web` identifier is found. -/
namespace LinkedProof.Did.Web

def isUnreserved (c : CodePoint) : Bool :=
  c.isDigit || (0x41 ≤ c.val && c.val ≤ 0x5A) || (0x61 ≤ c.val && c.val ≤ 0x7A)
    || c.val = 0x2D || c.val = 0x2E || c.val = 0x5F || c.val = 0x7E

def escapeByte (b : UInt8) : Text :=
  let c := CodePoint.ofNat b.toNat
  if isUnreserved c then [c]
  else ['%', CodePoint.hexDigitUpper (b.toNat / 16), CodePoint.hexDigitUpper (b.toNat % 16)]

def escapeSegment (t : Text) : Outcome Text :=
  match Utf8.encode t with
  | .ok bytes => .ok (bytes.flatMap escapeByte)
  | .error fault => .error (.unfit (.encoding fault))

def withoutFragment (did : Text) : Text := Text.before '#' did

def namePrefix : Text := "did:web:"

def components (did : Text) : Outcome (Text × List Text) :=
  if namePrefix.isPrefixOf did then
    match Text.split ':' (withoutFragment (did.drop namePrefix.length)) with
    | host :: segments =>
      let host := Text.replace "%3A" ":" host
      if host.isEmpty then .error (.proof (.did (.identifier did))) else .ok (host, segments)
    | [] => .error (.proof (.did (.identifier did)))
  else .error (.proof (.did (.identifier did)))

def url (did : Text) : Outcome Text := do
  let (host, segments) ← components did
  match segments with
  | [] => return Text.concat ["https://", host, "/.well-known/did.json"]
  | segments =>
    let escaped ← segments.mapM escapeSegment
    return Text.concat ["https://", host, "/", Text.join "/" escaped, "/did.json"]

end LinkedProof.Did.Web
