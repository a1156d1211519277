import LinkedProof.CommandLine.Command
import LinkedProof.Console
import LinkedProof.Http
import LinkedProof.Http.Status

/-! What commands read: documents from files, from the standard input or from addresses, and the
keys that options name. -/
namespace LinkedProof

/-- Where a run reads or writes JSON text whose depth it does not choose. -/
inductive JsonPlace
  | input
  | file
  | reply
  | keyFile
  | didDocument
  | header
  | canonical
  | output
  deriving DecidableEq

/-- What a run finds around it. The schedule is the order in which workers take their steps, and the
wording what is said about a file that holds no private key. -/
structure Surroundings (σ : Type) where
  table : CurveTable
  primitive : Primitive
  generator : CurveLabel → Outcome PrivateKey
  client : Http.Client σ
  now : Timestamp
  environment : Variables
  input : Bytes
  files : Files
  console : Console
  schedule : List Nat
  room : JsonPlace → Json.Room
  wording : KeyFile.Fault → Text

inductive CommandFault
  | noDocument (source : Text)
  | notJson (fault : Json.SyntaxFault)
  | exchange (reason : Text)
  | keyOption (value : Text)
  | keyFile (path reason : Text)
  | failure (failure : Failure)

def CommandFault.message : CommandFault → Text
  | noDocument source => "File not found: " ++ source
  | notJson fault => "Invalid JSON: " ++ fault.message
  | exchange reason => "HTTP error: " ++ reason
  | keyOption value => Text.concat ["Invalid value for --key: Expected KEY_ID=JWK_FILE, got ",
      Quoted.text value]
  | keyFile path reason =>
    Text.concat ["Invalid value for --key: Cannot read JWK from ", path, ": ", reason]
  | failure f => f.message

namespace Source

def decode (bytes : Bytes) : Outcome Text :=
  match Utf8.decode bytes with
  | .ok t => .ok (Text.unifyLineEnds t)
  | .error fault => .error (.unfit (.decoding fault))

def readText (files : Files) (path : Text) : Outcome Text := do
  decode (← files.read (Path.ofText path))

def refuse : Json.BytesFault → CommandFault
  | .text (.syntaxFault fault) => .notJson fault
  | fault => .failure (.ofJson fault)

def parse (room : Nat) (t : Outcome Text) : Except CommandFault Json :=
  match t with
  | .ok t => (Json.parse room t).mapError fun fault => refuse (.text fault)
  | .error failure => .error (.failure failure)

def ofFile (room : Nat) (files : Files) (source : Text) : Except CommandFault Json :=
  match files.holds (Path.ofText source) with
  | .ok true => parse room (readText files source)
  | .ok false => .error (.noDocument source)
  | .error failure => .error (.failure failure)

def accept : Text := "application/vc+ld+json, application/json"

def ofReply (room : Nat) (url : Text) : Http.Reply → Except CommandFault Json
  | .response status body =>
    if Http.isSuccess status then (Json.parseBytes room body).mapError refuse
    else .error (.exchange (Http.Status.message status url))
  | .failed failure =>
    .error (if failure.isRequest then .exchange failure.message else .failure failure)

def isAddress (source : Text) : Bool :=
  (Text.ofString "http://").isPrefixOf source || (Text.ofString "https://").isPrefixOf source

variable {σ : Type}

def load (s : Surroundings σ) (timeout : Binary64) (source : Text) :
    ExceptT CommandFault (StateM σ) Json :=
  if source = Text.ofString "-" then ExceptT.mk (pure (parse (s.room .input) (decode s.input)))
  else if isAddress source then ExceptT.mk fun state =>
    let (reply, state) := s.client ⟨"GET", source, .fractional timeout, true, accept, none⟩ state
    (ofReply (s.room .reply) source reply, state)
  else ExceptT.mk (pure (ofFile (s.room .file) s.files source))

def keyOption (room : Nat) (files : Files) (value : Text) :
    Except CommandFault (Text × PublicKey) :=
  match Text.cut? '=' value with
  | some (id, path) =>
    if id.isEmpty || path.isEmpty then .error (.keyOption value)
    else
      let unreadable (reason : Text) : Except CommandFault (Text × PublicKey) :=
        .error (.keyFile path reason)
      match readText files path with
      | .error failure => unreadable failure.message
      | .ok t => match Json.parse room t with
        | .error (.depth container) => .error (.failure (.nesting container))
        | .error fault => unreadable fault.message
        | .ok found => match Jwk.ofValue found with
          | .ok key => .ok (id, .jwk key PublicKey.defaultType)
          | .error failure => .error (.failure failure)
  | none => .error (.keyOption value)

/-- The keys that options name; of two with one id the later counts. -/
def keyTable (room : Nat) (files : Files) (values : List Text) : Except CommandFault KeyTable := do
  let keys ← values.mapM (keyOption room files)
  return keys.foldl (fun table (id, key) => table.add id key) []

end Source

end LinkedProof
