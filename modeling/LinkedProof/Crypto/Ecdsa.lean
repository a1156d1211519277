import LinkedProof.Crypto.Curve
import LinkedProof.Crypto.Sha2

/-! ECDSA with nonces drawn from the key and the digest of the message, so that signing is a
function. -/
namespace LinkedProof.Ecdsa

-- Powers are the core library's, whatever else is in scope.
attribute [local instance (high)] instPowNat

def orderBits (c : Curve) : Nat := c.n.log2 + 1

def leadingBits (c : Curve) (bytes : Bytes) : Nat :=
  Bytes.toNat bytes / 2 ^ (8 * bytes.length - orderBits c)

structure Generator where
  key : Bytes
  chain : Bytes

def Generator.rekey (digest : Digest) (g : Generator) (input : Bytes) : Generator :=
  let key := digest.hmac g.key (g.chain ++ input)
  ⟨key, digest.hmac key g.chain⟩

def Generator.start (c : Curve) (digest : Digest) (scalar : Nat) (hashed : Bytes) : Generator :=
  let size := c.scalarSize
  let seed := Bytes.ofNat size scalar ++ Bytes.ofNat size (leadingBits c hashed % c.n)
  let blank : Generator := ⟨List.replicate digest.size 0, List.replicate digest.size 1⟩
  (blank.rekey digest (0 :: seed)).rekey digest (1 :: seed)

def Generator.draw (digest : Digest) (wanted : Nat) : Nat → Generator → Bytes × Generator
  | 0, g => ([], g)
  | fuel + 1, g =>
    if wanted = 0 then ([], g)
    else
      let chain := digest.hmac g.key g.chain
      let (more, g) := draw digest (wanted - 8 * digest.size) fuel ⟨g.key, chain⟩
      (chain ++ more, g)

def signWith? (c : Curve) (scalar hashed nonce : Nat) : Option (Nat × Nat) := do
  let (x, _) ← (Jacobian.scale c ⟨c.gx, c.gy, 1⟩ (orderBits c) nonce).affine? c
  let r := x % c.n
  let s := inverseMod c.n nonce * ((hashed + r * scalar) % c.n) % c.n
  if r = 0 || s = 0 then none else some (r, s)

def search? (c : Curve) (digest : Digest) (scalar hashed : Nat) :
    Nat → Generator → Option (Nat × Nat)
  | 0, _ => none
  | fuel + 1, g =>
    let (drawn, g) := g.draw digest (orderBits c) 4
    let nonce := leadingBits c drawn
    match if 0 < nonce && nonce < c.n then signWith? c scalar hashed nonce else none with
    | some signature => some signature
    | none => search? c digest scalar hashed fuel (g.rekey digest [0])

/-- The signature of a message; that no nonce of a hundred will do does not happen. -/
def sign? (c : Curve) (scalar : Nat) (digest : Digest) (message : Bytes) : Option (Nat × Nat) :=
  let hashed := digest.hash message
  search? c digest scalar (leadingBits c hashed) 100 (Generator.start c digest scalar hashed)

def verify (q : CurvePoint) (digest : Digest) (message : Bytes) (r s : Nat) : Bool :=
  let c := q.curve
  if r = 0 || s = 0 || c.n ≤ r || c.n ≤ s then false
  else
    let inverse := inverseMod c.n s
    let u := leadingBits c (digest.hash message) * inverse % c.n
    let v := r * inverse % c.n
    let base := Jacobian.scale c ⟨c.gx, c.gy, 1⟩ (orderBits c) u
    let own := Jacobian.scale c q.jacobian (orderBits c) v
    match (base.add c own).affine? c with
    | some (x, _) => x % c.n == r
    | none => false

end LinkedProof.Ecdsa
