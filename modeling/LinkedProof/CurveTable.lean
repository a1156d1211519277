import LinkedProof.Crypto.Curve
import LinkedProof.Crypto.HashAlgorithm

/-! The table that binds each curve to the one algorithm and hash it is used with. Entries are held
by their key names, which are distinct; a lookup by name falls back to the standard's name of the
curve itself. -/
namespace LinkedProof

/-- A curve by its standard's name and the length of its coordinates in bits. The arithmetic of the
curve need not be available. -/
structure CurveLabel where
  name : Text
  bits : Nat
  deriving DecidableEq

def Curve.label (c : Curve) : CurveLabel := ⟨c.name, c.bits⟩

def CurveLabel.curve (l : CurveLabel) : Outcome Curve :=
  match Curve.ofName? l.name with
  | some c => .ok c
  | none => .error (.external .unsupportedAlgorithm
      (Text.concat ["Curve ", l.name, " is not supported"]))

structure CurveEntry where
  name : Text
  curve : CurveLabel
  algorithm : Text
  newHash : Outcome HashAlgorithm

namespace CurveEntry

def coordinateSize (e : CurveEntry) : Nat := (e.curve.bits + 7) / 8

def signatureSize (e : CurveEntry) : Nat := 2 * e.coordinateSize

def putInto (e : CurveEntry) : List CurveEntry → List CurveEntry
  | [] => [e]
  | other :: rest => if other.name = e.name then e :: rest else other :: e.putInto rest

theorem mem_names_putInto (e : CurveEntry) (es : List CurveEntry) (name : Text) :
    name ∈ (e.putInto es).map (·.name) ↔ name = e.name ∨ name ∈ es.map (·.name) := by
  induction es with
  | nil => simp [putInto]
  | cons other rest ih =>
    by_cases same : other.name = e.name
    · simp [putInto, same]
    · simp only [putInto, same, if_false, List.map_cons, List.mem_cons, ih]
      exact or_left_comm

theorem nodup_names_putInto (e : CurveEntry) (es : List CurveEntry)
    (distinct : (es.map (·.name)).Nodup) : ((e.putInto es).map (·.name)).Nodup := by
  induction es with
  | nil => simp [putInto]
  | cons other rest ih =>
    by_cases same : other.name = e.name
    · simpa [putInto, same] using distinct
    · simp only [List.map_cons, List.nodup_cons] at distinct
      rw [putInto, if_neg same, List.map_cons, List.nodup_cons, mem_names_putInto]
      exact ⟨fun h => h.elim same distinct.1, ih distinct.2⟩

end CurveEntry

structure CurveTable where
  entries : List CurveEntry
  distinct : (entries.map (·.name)).Nodup

namespace CurveTable

def p256 : CurveEntry := ⟨"P-256", Curve.secp256r1.label, "ES256", .ok Digest.sha256.algorithm⟩
def p384 : CurveEntry := ⟨"P-384", Curve.secp384r1.label, "ES384", .ok Digest.sha384.algorithm⟩
def p521 : CurveEntry := ⟨"P-521", Curve.secp521r1.label, "ES512", .ok Digest.sha512.algorithm⟩
def p256k : CurveEntry :=
  ⟨"secp256k1", Curve.secp256k1.label, "ES256K", .ok Digest.sha256.algorithm⟩

def initial : CurveTable := ⟨[p256, p384, p521, p256k], by decide⟩

def register (t : CurveTable) (e : CurveEntry) : CurveTable :=
  ⟨e.putInto t.entries, e.nodup_names_putInto t.entries t.distinct⟩

def names (t : CurveTable) : List Text := t.entries.map (·.name)

def ofCurve (t : CurveTable) (curve : Text) : Outcome CurveEntry :=
  match t.entries.find? (·.curve.name = curve) with
  | some e => .ok e
  | none => .error (.proof (.unsupportedCurve curve))

def ofName (t : CurveTable) (name : Text) : Outcome CurveEntry :=
  match t.entries.find? (·.name = name) with
  | some e => .ok e
  | none => t.ofCurve name

def ofValue (t : CurveTable) : Json → Outcome CurveEntry
  | .text name => t.ofName name
  | value => .error (.wrongKind (.noMember value.kindWord "name"))

def resolveAlias (algorithm : Text) : Text :=
  if algorithm = Text.ofString "ES521" then "ES512" else algorithm

/-- The first entry of an algorithm, which containers cannot name. -/
def ofAlgorithm (t : CurveTable) : Json → Outcome CurveEntry
  | .text algorithm =>
    match t.entries.find? (·.algorithm = resolveAlias algorithm) with
    | some e => .ok e
    | none => .error (.proof (.noCurveFor (.text (resolveAlias algorithm))))
  | .array items => .error (.wrongKind (.noKey (Json.array items).kindWord))
  | .object members => .error (.wrongKind (.noKey (Json.object members).kindWord))
  | value => .error (.proof (.noCurveFor value))

end CurveTable

end LinkedProof
