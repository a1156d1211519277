import LinkedProof.Proofs.Canonical
import LinkedProof.Suite

/-! What the bytes that a proof signs bind. Both digests have one length, so equal bytes are equal
pairs of digests; where no two canonical texts collide, documents and options agree. A member of the
options that is named like the proofs of a document is left out of the text and stays unbound. -/
namespace LinkedProof

open Json (Alike)

def HashFunction.Collides (h : HashFunction) (first second : Outcome Bytes) : Prop :=
  ∃ x y, first = .ok x ∧ second = .ok y ∧ x ≠ y ∧ h.hash x = h.hash y

namespace Suite

variable {σ : Type} {s : Suite σ} {d options : Document} {exclude : Option Int} {data : Bytes}

theorem verifyData_ok : s.verifyData d options exclude = .ok data ↔
    ∃ x y, options.canonicalize s.canonicalizer none = .ok x ∧
      d.canonicalize s.canonicalizer exclude = .ok y ∧
      s.digest.hash x ++ s.digest.hash y = data := by
  simp only [verifyData, Outcome.bind_ok, Outcome.pure_ok]
  constructor
  · rintro ⟨x, first, y, second, same⟩
    exact ⟨x, y, first, second, same⟩
  · rintro ⟨x, y, first, second, same⟩
    exact ⟨x, first, y, second, same⟩

/-- The digests in front, and with them those behind, are taken from bytes of the same length. -/
theorem digests_inj (h : HashFunction) {x y x' y' : Bytes}
    (same : h.hash x ++ h.hash y = h.hash x' ++ h.hash y') :
    h.hash x = h.hash x' ∧ h.hash y = h.hash y' :=
  List.append_inj same (by rw [h.length_hash, h.length_hash])

private theorem verifyData_set (value : Json) :
    s.verifyData d (options.set Document.proofKey value) exclude =
      s.verifyData d options exclude := by
  have same : Document.canonicalize s.canonicalizer (options.set Document.proofKey value) none =
      options.canonicalize s.canonicalizer none := by
    simp only [Document.canonicalize, Document.signed_none, Members.erase_set]
  rw [verifyData, verifyData, same]

private theorem alike_of_canonical {d d' : Document} {c : Canonicalizer}
    {exclude exclude' : Option Int} {x : Bytes} (first : d.canonicalize c exclude = .ok x)
    (second : d'.canonicalize c exclude' = .ok x) :
    Alike (.object (d.erase Document.proofKey)) (.object (d'.erase Document.proofKey)) := by
  have alike := ((Document.alike_iff Document.proofKey).mp
    (Document.serialize_alike first second)).1
  rwa [Document.signed_erase, Document.signed_erase] at alike

/-- Signing the same bytes binds all members of both documents other than `proof` and all options
other than one of that name, unless two of the canonical texts collide. So the options agree as a
whole exactly when their members of that name do, and nothing ties these to the bytes. -/
theorem verifyData_binds (s : Suite σ) (d d' options options' : Document)
    (exclude exclude' : Option Int) :
    (∀ value, s.verifyData d (options.set Document.proofKey value) exclude =
      s.verifyData d options exclude) ∧
    ∀ data, s.verifyData d options exclude = .ok data →
      s.verifyData d' options' exclude' = .ok data →
      s.digest.Collides (options.canonicalize s.canonicalizer none)
        (options'.canonicalize s.canonicalizer none) ∨
      s.digest.Collides (d.canonicalize s.canonicalizer exclude)
        (d'.canonicalize s.canonicalizer exclude') ∨
      Alike (.object (options.erase Document.proofKey))
          (.object (options'.erase Document.proofKey)) ∧
        Alike (.object (d.erase Document.proofKey)) (.object (d'.erase Document.proofKey)) ∧
        (Alike (.object options) (.object options') ↔
          Alike (.object (options.filter (·.1 = Document.proofKey)))
            (.object (options'.filter (·.1 = Document.proofKey)))) := by
  refine ⟨fun value => verifyData_set value, fun data first second => ?_⟩
  obtain ⟨x, y, optionBytes, documentBytes, rfl⟩ := verifyData_ok.mp first
  obtain ⟨x', y', optionBytes', documentBytes', same⟩ := verifyData_ok.mp second
  obtain ⟨optionDigest, documentDigest⟩ := digests_inj s.digest same.symm
  by_cases sameOptions : x = x'
  · by_cases sameDocument : y = y'
    · subst sameOptions sameDocument
      have others := alike_of_canonical optionBytes optionBytes'
      refine .inr (.inr ⟨others, alike_of_canonical documentBytes documentBytes', ?_⟩)
      rw [Document.alike_iff Document.proofKey]
      exact and_iff_right others
    · exact .inr (.inl ⟨y, y', documentBytes, documentBytes', sameDocument, documentDigest⟩)
  · exact .inl ⟨x, x', optionBytes, optionBytes', sameOptions, optionDigest⟩

def trusting : Suite Unit where
  type := defaultType
  signer := none
  verifier _ _ _ := pure ()
  canonicalizer := ⟨false, Json.usualRoom⟩
  headerRoom := Json.usualRoom
  digest := Digest.sha256

def plainOptions : Document := [("type", .text "T")]

def namedOptions : Document := [("type", .text "T"), ("proof", .text "x")]

private theorem plain_canonical : plainOptions.canonicalize trusting.canonicalizer none =
    .ok (Bytes.ofCodes "\x7b\"type\":\"T\"\x7d") := rfl

private theorem named_canonical : namedOptions.canonicalize trusting.canonicalizer none =
    .ok (Bytes.ofCodes "\x7b\"type\":\"T\"\x7d") := rfl

private theorem empty_canonical (index : Int) :
    Document.canonicalize trusting.canonicalizer [] (some index) =
      .ok (Bytes.ofCodes "\x7b\x7d") := rfl

private theorem trusting_data (options : Document) (index : Int)
    (bytes : options.canonicalize trusting.canonicalizer none =
      .ok (Bytes.ofCodes "\x7b\"type\":\"T\"\x7d")) :
    trusting.verifyData [] options (some index) =
      .ok (trusting.digest.hash (Bytes.ofCodes "\x7b\"type\":\"T\"\x7d") ++
        trusting.digest.hash (Bytes.ofCodes "\x7b\x7d")) :=
  verifyData_ok.mpr ⟨_, _, bytes, empty_canonical index, rfl⟩

theorem verifyData_binds_two : ∃ data,
    trusting.verifyData [] plainOptions (some 0) = .ok data ∧
    trusting.verifyData [] namedOptions (some 1) = .ok data ∧
    (trusting.digest.Collides (plainOptions.canonicalize trusting.canonicalizer none)
        (namedOptions.canonicalize trusting.canonicalizer none) ∨
      trusting.digest.Collides (Document.canonicalize trusting.canonicalizer [] (some 0))
        (Document.canonicalize trusting.canonicalizer [] (some 1)) ∨
      Alike (.object (plainOptions.erase Document.proofKey))
          (.object (namedOptions.erase Document.proofKey)) ∧
        Alike (.object (Members.erase Document.proofKey []))
          (.object (Members.erase Document.proofKey [])) ∧
        (Alike (.object plainOptions) (.object namedOptions) ↔
          Alike (.object (plainOptions.filter (·.1 = Document.proofKey)))
            (.object (namedOptions.filter (·.1 = Document.proofKey))))) :=
  ⟨_, trusting_data _ 0 plain_canonical, trusting_data _ 1 named_canonical,
    (verifyData_binds trusting [] [] plainOptions namedOptions (some 0) (some 1)).2 _
      (trusting_data _ 0 plain_canonical) (trusting_data _ 1 named_canonical)⟩

/-- The options as a whole are not bound: one named like the proofs of a document may be added. -/
theorem options_not_bound : ¬∀ (s : Suite Unit) (d d' options options' : Document)
    (exclude exclude' : Option Int) (data : Bytes), s.verifyData d options exclude = .ok data →
    s.verifyData d' options' exclude' = .ok data →
    s.digest.Collides (options.canonicalize s.canonicalizer none)
      (options'.canonicalize s.canonicalizer none) ∨
    s.digest.Collides (d.canonicalize s.canonicalizer exclude)
      (d'.canonicalize s.canonicalizer exclude') ∨
    Alike (.object options) (.object options') ∧
      Alike (.object (d.erase Document.proofKey)) (.object (d'.erase Document.proofKey)) := by
  intro bound
  rcases bound trusting [] [] plainOptions namedOptions (some 0) (some 0) _
    (trusting_data _ 0 plain_canonical) (trusting_data _ 0 named_canonical) with
    ⟨x, y, first, second, differ, _⟩ | ⟨x, y, first, second, differ, _⟩ | ⟨alike, _⟩
  · have same := plain_canonical.trans named_canonical.symm
    exact differ (Except.ok.inj (first.symm.trans (same.trans second)))
  · exact differ (Except.ok.inj (first.symm.trans second))
  · cases alike with
    | object left alike right =>
      have lengths := left.length_eq.trans (alike.length_eq.trans right.length_eq)
      exact absurd lengths (by decide)

end Suite

end LinkedProof
