import LinkedProof.Proofs.Json.ReadBack
import LinkedProof.Proofs.KeyForms
import LinkedProof.Proofs.TokenGrammar
import LinkedProof.Proofs.Utf8

/-! Signatures there and back: what a suite puts into a proof, it puts before the verifier again as
the message that was signed and the signature of that message. -/
namespace LinkedProof

theorem Bytes.ofCodes_ascii {t : Text} (ascii : ∀ c ∈ t, c.isAscii = true) :
    Bytes.ofCodes t = t.flatMap Utf8.encodePoint := by
  have one (c : CodePoint) (small : c.isAscii = true) :
      Utf8.encodePoint c = [UInt8.ofNat c.val] := by
    simp only [CodePoint.isAscii, decide_eq_true_eq] at small
    rw [Utf8.encodePoint, if_pos small]
  induction t with
  | nil => rfl
  | cons c rest ih =>
    rw [List.flatMap_cons, one c (ascii c List.mem_cons_self), Bytes.ofCodes, List.map_cons]
    exact congrArg _ (ih fun d member => ascii d (List.mem_cons_of_mem _ member))

/-- Texts of ASCII alone are told apart by their bytes. -/
theorem Bytes.ofCodes_inj {t t' : Text} (ascii : ∀ c ∈ t, c.isAscii = true)
    (ascii' : ∀ c ∈ t', c.isAscii = true) (same : ofCodes t = ofCodes t') : t = t' := by
  have clear := fun c member => CodePoint.isSurrogate_of_isAscii (ascii c member)
  have clear' := fun c member => CodePoint.isSurrogate_of_isAscii (ascii' c member)
  rw [ofCodes_ascii ascii, ofCodes_ascii ascii'] at same
  exact Utf8.encode_inj (Utf8.encode_ok.mpr ⟨clear, same⟩) (Utf8.encode_ok.mpr ⟨clear', rfl⟩)

namespace DetachedJws

def readMembers (algorithm : Text) : Members :=
  [("alg", .text (Json.asRead true algorithm)), ("b64", .bool false),
    ("crit", .array [.text "b64"])]

private def writtenMembers (algorithm : Text) : Members :=
  [("alg", .text algorithm), ("b64", .bool false), ("crit", .array [.text "b64"])]

private theorem header_shape (algorithm : Text) :
    (Json.object (writtenMembers algorithm)).render .ascii = Text.ofString "\x7b\"alg\":" ++
      (Json.quoted true algorithm ++ Text.ofString ",\"b64\":false,\"crit\":[\"b64\"]\x7d") := by
  simp only [writtenMembers, Json.render, Json.write, Json.writeMembers, Json.writeItems,
    Json.lineBreak, Json.nameEnd, JsonLayout.ascii, List.append_assoc, List.append_nil]
  rfl

private theorem header_ascii (algorithm : Text) :
    ∀ c ∈ (Json.object (writtenMembers algorithm)).render .ascii, c.isAscii = true := by
  have front : ∀ c ∈ Text.ofString "\x7b\"alg\":", c.isAscii = true := by decide
  have back : ∀ c ∈ Text.ofString ",\"b64\":false,\"crit\":[\"b64\"]\x7d", c.isAscii = true := by
    decide
  intro c member
  rw [header_shape, List.mem_append, List.mem_append] at member
  rcases member with first | value | last
  · exact front c first
  · exact Json.quoted_ascii algorithm c value
  · exact back c last

private theorem header_fits (room : Json.Room) (algorithm : Text) :
    Json.Fits room (.object (writtenMembers algorithm)) := by
  obtain ⟨room, two⟩ := room
  obtain ⟨room, rfl⟩ := Nat.exists_eq_add_of_le' two
  refine .object fun m member => ?_
  rcases List.mem_cons.mp member with rfl | member
  · exact .text _
  rcases List.mem_cons.mp member with rfl | member
  · exact .bool _
  obtain rfl := List.mem_singleton.mp member
  refine .array fun item member => ?_
  obtain rfl := List.mem_singleton.mp member
  exact .text _

private theorem header_parsed (room : Json.Room) (algorithm : Text) :
    Json.parseBytes room (Bytes.ofCodes ((Json.object (writtenMembers algorithm)).render .ascii)) =
      .ok (.object (readMembers algorithm)) := by
  have form : Encoding.detect (Bytes.ofCodes
      ((Json.object (writtenMembers algorithm)).render .ascii)) = (.utf8, 0) := by
    rw [header_shape]
    rfl
  have ascii := header_ascii algorithm
  have decoded : Encoding.decode (Bytes.ofCodes
      ((Json.object (writtenMembers algorithm)).render .ascii)) =
      .ok ((Json.object (writtenMembers algorithm)).render .ascii) := by
    rw [Encoding.decode, form]
    simp only [List.drop_zero]
    rw [Bytes.ofCodes_ascii ascii]
    exact Utf8.decodeFrom_encode true 0 _ fun c member =>
      CodePoint.isSurrogate_of_isAscii (ascii c member)
  rw [Json.parseBytes, decoded]
  simp only [Json.parse.read, Json.document_render .ascii (header_fits room algorithm)]
  rfl

/-- There always is room for the header that a suite writes. -/
theorem readHeader_headerPart (room : Json.Room) (algorithm : Text) :
    readHeader room (headerPart algorithm) = .ok (readMembers algorithm) := by
  have decoded : decodePart (headerPart algorithm) = .ok (Bytes.ofCodes
      ((Json.object (writtenMembers algorithm)).render .ascii)) := decodePart_encode _
  rw [readHeader, decoded]
  simp only [bind, Except.bind, header_parsed]
  rfl

/-- The algorithm of an entry of the first table is read as itself and leads back to the entry. -/
private theorem initial_algorithm : ∀ e ∈ CurveTable.initial.entries,
    CurveTable.initial.ofAlgorithm (.text (Json.asRead true e.algorithm)) = .ok e := by
  intro e member
  simp only [CurveTable.initial, List.mem_cons, List.not_mem_nil, or_false] at member
  rcases member with rfl | rfl | rfl | rfl <;> rfl

/-- The algorithm that a signer states is the one of the curve that the key announces, if it
announces one. -/
def Agrees (algorithm : Text) (key : PublicKey) : Prop :=
  ∀ curve, announcedCurve? key = some curve →
    ∃ e, CurveTable.initial.ofValue curve = .ok e ∧ algorithm = e.algorithm

theorem checkAlgorithm_ok {algorithm : Text} {key : PublicKey} (agrees : Agrees algorithm key) :
    checkAlgorithm CurveTable.initial (.text (Json.asRead true algorithm)) key = .ok () := by
  unfold checkAlgorithm
  cases announced : announcedCurve? key with
  | none => rfl
  | some curve =>
    obtain ⟨e, found, rfl⟩ := agrees curve announced
    simp only [found, initial_algorithm e (CurveTable.ofValue_mem found), bind, Except.bind, pure,
      Except.pure]
    exact if_pos rfl

theorem signingInput_headerPart (algorithm : Text) (payload : Bytes) :
    signingInput (headerPart algorithm) payload =
      .ok (Bytes.ofCodes (headerPart algorithm) ++ 0x2E :: payload) := by
  have spelled : Bytes.ofAscii? (headerPart algorithm) =
      some (Bytes.ofCodes (headerPart algorithm)) := if_pos (Base64.encode_ascii _)
  rw [signingInput, spelled]

end DetachedJws

namespace Suite

open DetachedJws
open Verification (Presents)

def signedMessage (algorithm : Text) (payload : Bytes) : Representation → Bytes
  | .proofValue => payload
  | .jws => Bytes.ofCodes (headerPart algorithm) ++ 0x2E :: payload

def signatureText (algorithm : Text) (signature : Bytes) : Representation → Text
  | .proofValue => Base64.encode signature
  | .jws => token (headerPart algorithm) signature

variable {σ : Type} {s : Suite σ} {payload signature : Bytes} {r : Representation}
  {algorithm value : Text} {a b : σ}

/-- Signing puts one message before the signer and makes a text of the signature of it. -/
theorem sign_eq {signer : Signer σ} (holds : s.signer = some signer) : s.sign payload r = do
    let signature ← signer.sign (signedMessage signer.algorithm payload r)
    return signatureText signer.algorithm signature r := by
  rw [sign, holds]
  cases r with
  | proofValue => rfl
  | jws =>
    simp only [signingInput_headerPart]
    rfl

theorem sign_ok : (s.sign payload r).Ends a (.ok value) b ↔ ∃ signer signature,
    s.signer = some signer ∧
      (signer.sign (signedMessage signer.algorithm payload r)).Ends a (.ok signature) b ∧
      value = signatureText signer.algorithm signature r := by
  cases found : s.signer with
  | none => simp [sign, found, Action.ends_throw]
  | some signer =>
    rw [sign_eq found]
    simp only [Action.ends_bind_ok, Action.ends_pure, Except.ok.injEq]
    constructor
    · rintro ⟨signature, u, made, rfl, rfl⟩
      exact ⟨signer, signature, rfl, made, rfl⟩
    · rintro ⟨signer', signature, same, made, rfl⟩
      obtain rfl := Option.some.inj same
      exact ⟨signature, b, made, rfl, rfl⟩

theorem signatureText_ne_nil (filled : signature ≠ []) :
    signatureText algorithm signature r ≠ [] := by
  cases r with
  | proofValue => exact Base64.encode_ne_nil filled
  | jws =>
    have points : Text.ofString ".." ≠ [] := by decide
    simp [signatureText, token, Text.concat, points]

/-- What a signature was made of stands before the verifier again. -/
theorem presents_signatureText {room : Json.Room} {key : PublicKey}
    (agrees : r = .jws → Agrees algorithm key) :
    Presents room CurveTable.initial key payload r (signatureText algorithm signature r)
      (signedMessage algorithm payload r) signature := by
  cases r with
  | proofValue => exact .proofValue (decodePart_encode signature)
  | jws =>
    have clear : CodePoint.ofChar '.' ∉ headerPart algorithm := Base64.encode_clear _
    obtain ⟨part, shape, points, decoded⟩ := parted_token clear signature
    rw [signatureText, shape]
    exact .jws points decoded (readHeader_headerPart room algorithm)
      (checkAlgorithm_ok (agrees rfl)) (if_pos (Base64.encode_ascii _))

end Suite

end LinkedProof
