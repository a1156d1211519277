import LinkedProof.Did.Document
import LinkedProof.Did.Web
import LinkedProof.Http
import LinkedProof.Method

/-! Keys from the documents of `did:web` identifiers, with a cache of the documents last fetched. -/
namespace LinkedProof.Did

/-- Documents by their DIDs, the one fetched first in front. -/
abbrev Cache := List (Text × Document)

namespace Cache

def get? (did : Text) : Cache → Option Document
  | [] => none
  | (k, d) :: rest => if k = did then some d else get? did rest

def put (did : Text) (d : Document) : Cache → Cache
  | [] => [(did, d)]
  | (k, other) :: rest => if k = did then (did, d) :: rest else (k, other) :: put did d rest

/-- Stores a document in a cache of a given size, from which the oldest entries give way. -/
def insert (size : Int) (did : Text) (d : Document) (c : Cache) : Cache :=
  if 0 < size then put did d (c.drop (c.length + 1 - size.toNat)) else c

end Cache

structure Resolver where
  timeout : Timeout
  verify : Bool
  relationship : Option Text
  cacheSize : Int
  room : Json.Room

namespace Resolver

def standard (room : Json.Room) : Resolver := ⟨.standard, true, none, 256, room⟩

def accept : Text := "application/did+ld+json, application/json"

variable {σ : Type} (r : Resolver) (client : Http.Client σ)

def request (url : Text) : Http.Request := ⟨"GET", url, r.timeout, r.verify, accept, none⟩

def fetch (did : Text) : Action σ Document := do
  let url ← Action.ofOutcome (Web.url did)
  match ← Http.exchange r.room client (r.request url) with
  | .error fault => throw (.proof (.did (.exchange did fault)))
  | .ok value => Action.ofOutcome (Document.ofValue did value)

def resolve (did : Text) (useCache : Bool) : Action (Cache × σ) Document := do
  let did := Web.withoutFragment did
  let (cache, _) ← get
  match if useCache then cache.get? did else none with
  | some d => return d
  | none =>
    let d ← (r.fetch client did).onSecond
    if useCache then modify fun (cache, s) => (cache.insert r.cacheSize did d, s)
    return d

def clear : Action (Cache × σ) Unit := modify fun (_, s) => ([], s)

def select (table : CurveTable) (d : Document) (issuer keyId : Text) : Outcome PublicKey := do
  let method := issuer ++ keyId
  let refuse (fault : DidFault) : Failure := .proof (.did fault)
  let some m := d.method? keyId | throw (refuse (.noMethod method))
  match r.relationship with
  | some (c :: rest) =>
    if !d.authorizes keyId (c :: rest) then throw (refuse (.notListed method (c :: rest)))
  | _ => pure ()
  match m.key with
  | some key =>
    if key.isValid table then
      return .jwk key (if m.type.isEmpty then PublicKey.defaultType else m.type)
    else throw (refuse (.noKey method))
  | none => throw (refuse (.noKey method))

def key (table : CurveTable) : Fetcher (Cache × σ) := fun issuer keyId => do
  let d ← r.resolve client issuer true
  Action.ofOutcome (r.select table d issuer keyId)

end Resolver

end LinkedProof.Did
