import LinkedProof.Base64
import LinkedProof.Json.Reader
import LinkedProof.Json.Shown
import LinkedProof.KeyFile.Fault

/-! What goes wrong, by cause. The proof layer has its own causes, sorted into families; beside them
stand values that are unfit, values of a kind that an operation does not take, and what
collaborators report. Each cause has one text. -/
namespace LinkedProof

inductive Family
  | proof
  | unsupportedCurve
  | keyGeneration
  | signing
  | verification
  | backendUnavailable
  | keyResolution
  | didResolution
  deriving DecidableEq

def Family.parent? : Family → Option Family
  | .proof => none
  | .backendUnavailable => some .verification
  | .didResolution => some .keyResolution
  | _ => some .proof

inductive RemoteTask
  | describe
  | sign
  | verify
  deriving DecidableEq

namespace RemoteTask

def family : RemoteTask → Family
  | describe => .keyResolution
  | sign => .signing
  | verify => .backendUnavailable

def phrase : RemoteTask → Text
  | describe => "fetching key"
  | sign => "signing with"
  | verify => "verifying with"

end RemoteTask

inductive ExchangeFault
  | status (code : Int)
  | network (reason : Text)
  | body
  deriving DecidableEq

inductive DidFault
  | identifier (did : Text)
  | exchange (did : Text) (fault : ExchangeFault)
  | notObject (did : Text)
  | mismatch (did : Text) (found : Json)
  | methodId (did : Text) (found : Json)
  | notList (did member : Text)
  | methodNotObject (did : Text)
  | entry (did relationship : Text) (found : Json)
  | noMethod (method : Text)
  | notListed (method relationship : Text)
  | noKey (method : Text)

def DidFault.message : DidFault → Text
  | identifier did => "Invalid did:web identifier: " ++ did
  | exchange did (.status code) =>
    Text.concat ["HTTP error resolving ", did, ": ", Text.ofInt code]
  | exchange did (.network reason) =>
    Text.concat ["Network error resolving ", did, ": ", reason]
  | exchange did .body => "Invalid JSON in DID Document for " ++ did
  | notObject did => Text.concat ["DID Document for ", did, " is not a JSON object"]
  | mismatch did found =>
    Text.concat ["DID Document id mismatch: expected ", did, ", got ", found.plain]
  | methodId did found =>
    Text.concat ["Invalid verification method id in DID Document for ", did, ": ", found.shown]
  | notList did member => Text.concat [member, " in DID Document for ", did, " must be a list"]
  | methodNotObject did =>
    Text.concat ["Verification method in DID Document for ", did, " is not an object"]
  | entry did relationship found =>
    Text.concat ["Invalid ", relationship, " entry in DID Document for ", did, ": ", found.shown]
  | noMethod method =>
    Text.concat ["Verification method ", method, " not found in DID Document"]
  | notListed method relationship =>
    Text.concat ["Verification method ", method, " is not listed under ", relationship]
  | noKey method => "No usable publicKeyJwk in " ++ method

inductive RemoteFault
  | exchange (task : RemoteTask) (fault : ExchangeFault)
  | noKey
  | noSignature
  | signatureText
  deriving DecidableEq

def RemoteFault.family : RemoteFault → Family
  | exchange task _ => task.family
  | noKey => .keyResolution
  | noSignature | signatureText => .signing

def RemoteFault.message (key : Text) : RemoteFault → Text
  | exchange task (.status code) =>
    Text.concat ["HTTP error ", task.phrase, " ", key, ": ", Text.ofInt code]
  | exchange task (.network reason) =>
    Text.concat ["Network error ", task.phrase, " ", key, ": ", reason]
  | exchange .describe .body => "Invalid JSON object describing key " ++ key
  | exchange .sign .body => "Invalid JSON object in sign response for " ++ key
  | exchange .verify .body => "Invalid JSON in verify response for " ++ key
  | noKey => "No publicKeyJwk for key " ++ key
  | noSignature => "Missing signature in sign response for " ++ key
  | signatureText => "Malformed signature in sign response for " ++ key

inductive SignatureFault
  | notEncoded (reason : Text)
  | notDetached
  | header (reason : Text)
  | headerNotObject
  | payloadEncoded
  | algorithm (declared : Json) (expected : Text)
  | length (expected actual : Int)

def SignatureFault.message : SignatureFault → Text
  | notEncoded reason => "Malformed signature encoding: " ++ reason
  | notDetached => "Malformed detached JWS"
  | header reason => "Malformed JWS header: " ++ reason
  | headerNotObject => "Malformed JWS header"
  | payloadEncoded => "JWS header must declare an unencoded payload"
  | algorithm declared expected =>
    Text.concat ["JWS algorithm ", declared.plain, " does not match ", expected, " key"]
  | length expected actual =>
    Text.concat ["Invalid signature length: expected ", Text.ofInt expected, " bytes, got ",
      Text.ofInt actual]

inductive Cause
  | unsupportedCurve (name : Text)
  | noCurveFor (algorithm : Json)
  | notCurveKey (kind : Text)
  | generation (curve reason : Text)
  | signing (algorithm reason : Text)
  | suiteWithoutSigner (type : Text)
  | unusableKey (reason : Text)
  | unsupportedKey (kind : Text)
  | signature (fault : SignatureFault)
  | invalidSignature
  | proofType (found : Json)
  | unsupportedType (type : Text)
  | noSignature
  | refused (reason : Text)
  | noSigner (type : Text)
  | noMethod
  | entriesNotObjects
  | signerWithoutKey
  | methodNotText (found : Json)
  | methodWithoutFragment (method : Text)
  | unknownMethod (method : Text)
  | unresolved (method reason : Text)
  | remote (key : Text) (fault : RemoteFault)
  | did (fault : DidFault)
  | reported (family : Family) (message : Text)

namespace Cause

def family : Cause → Family
  | unsupportedCurve _ | noCurveFor _ | notCurveKey _ => .unsupportedCurve
  | generation _ _ => .keyGeneration
  | signing _ _ | suiteWithoutSigner _ => .signing
  | unusableKey _ | unsupportedKey _ | signature _ | invalidSignature | proofType _
  | unsupportedType _ | noSignature | refused _ => .verification
  | noSigner _ | noMethod | entriesNotObjects | signerWithoutKey => .proof
  | methodNotText _ | methodWithoutFragment _ | unknownMethod _ | unresolved _ _ => .keyResolution
  | remote _ fault => fault.family
  | did _ => .didResolution
  | reported family _ => family

def message : Cause → Text
  | unsupportedCurve name => "Unsupported curve: " ++ name
  | noCurveFor algorithm => "No curve registered for algorithm " ++ algorithm.plain
  | notCurveKey kind => "Not an elliptic curve private key: " ++ kind
  | generation curve reason => Text.concat ["Failed to generate ", curve, " key: ", reason]
  | signing algorithm reason => Text.concat [algorithm, " signing failed: ", reason]
  | suiteWithoutSigner type => type ++ " suite has no signer"
  | unusableKey reason => "Unusable public key: " ++ reason
  | unsupportedKey kind => "Unsupported public key type: " ++ kind
  | signature fault => fault.message
  | invalidSignature => "Invalid signature"
  | proofType found => "Proof type must be a string, got " ++ found.shown
  | unsupportedType type => "Unsupported proof type: " ++ type
  | noSignature => "Proof carries none of proofValue, jws"
  | refused reason => reason
  | noSigner type => "No signer configured for " ++ type
  | noMethod => "verificationMethod is required"
  | entriesNotObjects => "Existing proof entries must be JSON objects"
  | signerWithoutKey => "Backend signer was created without a public key"
  | methodNotText found =>
    Text.concat ["Invalid verification method ", found.shown, ": expected a string"]
  | methodWithoutFragment method =>
    Text.concat ["Invalid verification method ", Quoted.text method,
      ": expected issuer#fragment"]
  | unknownMethod method => "Unknown verification method " ++ method
  | unresolved method reason => Text.concat ["Cannot resolve ", method, ": ", reason]
  | remote key fault => fault.message key
  | did fault => fault.message
  | reported _ message => message

end Cause

inductive FileFault
  | notFound (path : Text)
  | notDirectory (path : Text)
  | isDirectory (path : Text)
  | nameTooLong (path : Text)
  deriving DecidableEq

def FileFault.message : FileFault → Text
  | notFound path => "[Errno 2] No such file or directory: " ++ Quoted.text path
  | notDirectory path => "[Errno 20] Not a directory: " ++ Quoted.text path
  | isDirectory path => "[Errno 21] Is a directory: " ++ Quoted.text path
  | nameTooLong path => "[Errno 36] File name too long: " ++ Quoted.text path

inductive Unfit
  | base64 (fault : Base64.Fault)
  | json (fault : Json.BytesFault)
  | encoding (fault : EncodeFault)
  | decoding (fault : DecodeFault)
  | nullByte
  | notAscii
  | keyType (found : Json)
  | point
  | noPoint
  | pointForm
  | pointData
  | negativeLength
  | timeFormat (name : Text)

namespace Unfit

def message : Unfit → Text
  | base64 fault => fault.message
  | json fault => fault.message
  | encoding fault => fault.message
  | decoding fault => fault.message
  | nullByte => "embedded null byte"
  | notAscii => "ordinal not in range(128)"
  | keyType found => "Unsupported key type: " ++ found.plain
  | point => "Invalid EC key. Point is not on the curve specified."
  | noPoint => "data must not be an empty byte string"
  | pointForm => "Unsupported elliptic curve point type"
  | pointData => "Invalid EC key."
  | negativeLength => "length argument must be non-negative"
  | timeFormat name => Text.concat ["Unknown time format ", Quoted.text name,
      "; expected one of ['rfc3339', 'rfc3339-seconds']"]

end Unfit

inductive WrongKind
  | noLength (kind : Text)
  | noPadding (kind : Text)
  | notCharacters (kind : Text)
  | notContainer (kind : Text)
  | noKey (kind : Text)
  | noMember (kind member : Text)
  deriving DecidableEq

def WrongKind.message : WrongKind → Text
  | noLength kind => Text.concat ["object of type '", kind, "' has no len()"]
  | noPadding kind =>
    Text.concat ["unsupported operand type(s) for +=: '", kind, "' and 'str'"]
  | notCharacters kind =>
    Text.concat ["argument should be a bytes-like object or ASCII string, not '", kind, "'"]
  | notContainer kind => Text.concat ["argument of type '", kind, "' is not iterable"]
  | noKey kind => Text.concat ["unhashable type: '", kind, "'"]
  | noMember kind member => Text.concat ["'", kind, "' object has no attribute '", member, "'"]

inductive ExternalKind
  | runtime
  | value
  | missingKey
  | system
  | wrongKind
  | vendor
  | unsupportedAlgorithm
  | connect
  | connectTimeout
  | readTimeout
  | tooManyRedirects
  | invalidUrl
  | markup
  deriving DecidableEq

def ExternalKind.isRequest : ExternalKind → Bool
  | connect | connectTimeout | readTimeout | tooManyRedirects => true
  | _ => false

inductive Failure
  | proof (cause : Cause)
  | unfit (fault : Unfit)
  | wrongKind (fault : WrongKind)
  | overflow (message : Text)
  | noProof (index : Int) (count : Nat)
  | file (fault : FileFault)
  | keyFile (fault : KeyFile.Fault) (message : Text)
  | nesting (container : Json.Container)
  | unwritable
  | external (kind : ExternalKind) (message : Text)

namespace Failure

/-- Bytes that nest too deep are no unfit value: the reader itself gives up on them. -/
def ofJson : Json.BytesFault → Failure
  | .text (.depth container) => nesting container
  | fault => unfit (.json fault)

def message : Failure → Text
  | proof cause => cause.message
  | unfit fault => fault.message
  | wrongKind fault => fault.message
  | overflow message => message
  | noProof index count =>
    Text.concat ["Proof index ", Text.ofInt index, " out of range [0, ", Text.ofNat count, ")"]
  | file fault => fault.message
  | keyFile _ message => message
  | nesting container => (Json.TextFault.depth container).message
  | unwritable => "maximum recursion depth exceeded while encoding a JSON object"
  | external .missingKey message => Quoted.text message
  | external _ message => message

def isUnfit : Failure → Bool
  | unfit _ => true
  | keyFile fault _ => fault.nature = .content
  | external kind _ => kind = .value
  | _ => false

def isWrongKind : Failure → Bool
  | wrongKind (.noMember _ _) => false
  | wrongKind _ => true
  | keyFile fault _ => fault.nature = .password
  | external kind _ => kind = .wrongKind
  | _ => false

def isSystem : Failure → Bool
  | file _ => true
  | external kind _ => kind = .system
  | _ => false

def isUnsupportedAlgorithm : Failure → Bool
  | external kind _ => kind = .unsupportedAlgorithm
  | _ => false

def isRequest : Failure → Bool
  | external kind _ => kind.isRequest
  | _ => false

end Failure

end LinkedProof
