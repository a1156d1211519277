import LinkedProof.Proofs.AlgorithmBinding
import LinkedProof.Proofs.LocalKeys

/-! Curves that are registered after the first ones. In every table that registrations lead to, each
entry stands for a curve at hand, so a key on it has a signer. Where the hash of its entry can be
made, what this signer makes of a token is taken under its own public key exactly if the algorithm
of its entry identifies the entry. -/
namespace LinkedProof

-- Powers are the core library's, whatever else is in scope.
attribute [local instance (high)] instPowNat

theorem Curve.available_room : ∀ c ∈ Curve.available,
    c.p ≤ 256 ^ c.coordinateSize ∧ c.n ≤ 256 ^ c.coordinateSize := by decide +kernel

theorem CurveEntry.mem_putInto {e d : CurveEntry} {es : List CurveEntry} (member : d ∈ e.putInto es) :
    d = e ∨ d ∈ es := by
  induction es with
  | nil => exact .inl (List.mem_singleton.mp member)
  | cons other rest ih =>
    rw [putInto] at member
    split at member
    · exact (List.mem_cons.mp member).imp_right (List.mem_cons_of_mem other)
    · rcases List.mem_cons.mp member with rfl | member
      · exact .inr List.mem_cons_self
      · exact (ih member).imp_right (List.mem_cons_of_mem other)

theorem CurveEntry.self_mem_putInto {e : CurveEntry} {es : List CurveEntry} : e ∈ e.putInto es := by
  induction es with
  | nil => exact List.mem_singleton_self e
  | cons other rest ih =>
    rw [putInto]
    split
    · exact List.mem_cons_self
    · exact List.mem_cons_of_mem other ih

theorem CurveEntry.mem_putInto_of_ne {e d : CurveEntry} {es : List CurveEntry} (member : d ∈ es)
    (other : d.name ≠ e.name) : d ∈ e.putInto es := by
  induction es with
  | nil => cases member
  | cons head rest ih =>
    rw [putInto]
    rcases List.mem_cons.mp member with rfl | later
    · rw [if_neg other]
      exact List.mem_cons_self
    · split
      · exact List.mem_cons_of_mem e later
      · exact List.mem_cons_of_mem head (ih later)

namespace CurveTable

/-- The tables that registrations of curves at hand lead to, whatever the names, the algorithms and
the hashes are. -/
inductive Reachable : CurveTable → Prop
  | initial : Reachable .initial
  | register {t : CurveTable} {e : CurveEntry} {c : Curve} (before : Reachable t)
    (available : c ∈ Curve.available) (label : e.curve = c.label) : Reachable (t.register e)

section Lookups

variable {t : CurveTable} {e : CurveEntry} {c : Curve}

/-- Registrations keep that each entry stands for a curve at hand. -/
theorem Reachable.available (reachable : t.Reachable) :
    ∀ e ∈ t.entries, ∃ c ∈ Curve.available, e.curve = c.label := by
  induction reachable with
  | initial =>
    simp only [CurveTable.initial, List.forall_mem_cons]
    have known : Curve.secp256r1 ∈ Curve.available ∧ Curve.secp384r1 ∈ Curve.available ∧
        Curve.secp521r1 ∈ Curve.available ∧ Curve.secp256k1 ∈ Curve.available := by
      simp [Curve.available]
    exact ⟨⟨_, known.1, rfl⟩, ⟨_, known.2.1, rfl⟩, ⟨_, known.2.2.1, rfl⟩, ⟨_, known.2.2.2, rfl⟩,
      List.forall_mem_nil _⟩
  | register _ available label ih =>
    intro d member
    rcases CurveEntry.mem_putInto member with rfl | earlier
    · exact ⟨_, available, label⟩
    · exact ih d earlier

/-- A curve at hand is the one that an entry with its name stands for. -/
theorem Reachable.label (reachable : t.Reachable) (listed : e ∈ t.entries)
    (available : c ∈ Curve.available) (name : e.curve.name = c.name) : e.curve = c.label := by
  obtain ⟨other, known, label⟩ := reachable.available e listed
  have same : Curve.ofName? other.name = some c := by
    have shared : other.name = c.name := by rw [← name, label]; rfl
    rw [shared, Curve.ofName?_name available]
  obtain rfl := Option.some.inj ((Curve.ofName?_name known).symm.trans same)
  exact label

/-- The curve of an entry is bound to the first entry for it. -/
theorem Reachable.binds (reachable : t.Reachable) (listed : e ∈ t.entries)
    (arithmetic : e.curve.curve = .ok c) :
    ∃ first, t.ofCurve e.curve.name = .ok first ∧ t.Binds first c := by
  obtain ⟨other, available, label⟩ := reachable.available e listed
  have known : e.curve.curve = .ok other := by
    rw [label, CurveLabel.curve, Curve.label, Curve.ofName?_name available]
  obtain rfl := Except.ok.inj (known.symm.trans arithmetic)
  have name := CurveLabel.curve_name arithmetic
  obtain ⟨first, found⟩ := Option.isSome_iff_exists.mp
    (List.find?_isSome (p := (·.curve.name = e.curve.name)).mpr ⟨e, listed, decide_eq_true rfl⟩)
  have member := List.mem_of_find?_eq_some found
  have shared : first.curve.name = e.curve.name := by simpa using List.find?_some found
  have same := reachable.label member available (shared.trans name.symm)
  have width : first.coordinateSize = other.coordinateSize := by
    rw [CurveEntry.coordinateSize, same]
    rfl
  have room := Curve.available_room other available
  refine ⟨first, ofCurve_ok.mpr found, ofName_name member, ?_, ?_, width, ?_, ?_⟩
  · rw [name]
    exact ofCurve_ok.mpr found
  · rw [same, ← label, arithmetic]
  · rw [width]
    exact room.1
  · rw [width]
    exact room.2

end Lookups

/-- The algorithm of an entry is not the other name of one, it is read from a header as it was
written, and no earlier entry has it. -/
structure Identifies (t : CurveTable) (e : CurveEntry) : Prop where
  own : e.algorithm ≠ "ES521"
  read : Json.asRead true e.algorithm = e.algorithm
  first : ∃ before after, t.entries = before ++ e :: after ∧
    ∀ d ∈ before, d.algorithm ≠ e.algorithm

private theorem resolveAlias_asRead {algorithm : Text} :
    resolveAlias (Json.asRead true algorithm) = algorithm ↔
      algorithm ≠ "ES521" ∧ Json.asRead true algorithm = algorithm := by
  rw [resolveAlias_eq]
  constructor
  · rintro (⟨other, rfl⟩ | ⟨own, read⟩)
    · exact absurd other (by decide)
    · rw [read] at own
      exact ⟨own, read⟩
  · rintro ⟨own, read⟩
    exact .inr ⟨by rwa [read], read⟩

theorem identifies_iff {t : CurveTable} {e : CurveEntry} : t.Identifies e ↔
    t.ofAlgorithm (.text (Json.asRead true e.algorithm)) = .ok e := by
  rw [ofAlgorithm_ok]
  constructor
  · rintro ⟨own, read, before, after, parted, others⟩
    have plain := resolveAlias_asRead.mpr ⟨own, read⟩
    refine ⟨_, rfl, List.find?_eq_some_iff_append.mpr ⟨?_, before, after, parted, ?_⟩⟩
    · rw [plain, decide_eq_true rfl]
    · intro d member
      rw [plain, decide_eq_false (others d member)]
      rfl
  · rintro ⟨_, ⟨⟩, found⟩
    obtain ⟨same, before, after, parted, others⟩ := List.find?_eq_some_iff_append.mp found
    have plain := (of_decide_eq_true same).symm
    obtain ⟨own, read⟩ := resolveAlias_asRead.mp plain
    refine ⟨own, read, before, after, parted, fun d member => ?_⟩
    simpa [plain] using others d member

end CurveTable

namespace DetachedJws

variable {room : Json.Room} {table : CurveTable} {e : CurveEntry} {key : PublicKey}
  {algorithm stated : Text} {payload signature : Bytes}

/-- A token of a signer opens when its algorithm passes, and then it puts before the verifier what
was signed. -/
theorem opening_token : opening room table key payload (token (headerPart algorithm) signature) =
    (checkAlgorithm table (.text (Json.asRead true algorithm)) key).map fun _ =>
      (Suite.signedMessage algorithm payload .jws, signature) := by
  have parts : split (token (headerPart algorithm) signature) =
      .ok (headerPart algorithm, signature) :=
    Verification.split_ok.mpr (parted_token (Base64.encode_clear _) signature)
  have stated : ((readMembers algorithm).get? "alg").getD (.text []) =
      .text (Json.asRead true algorithm) := rfl
  simp only [opening, parts, readHeader_headerPart, stated, signingInput_headerPart, bind,
    Except.bind]
  cases checkAlgorithm table (.text (Json.asRead true algorithm)) key <;> rfl

/-- An algorithm that does not lead to the entry of the key is refused. -/
theorem checkAlgorithm_refused {name : Text} (announced : announcedCurve? key = some (.text name))
    (named : table.ofValue (.text name) = .ok e) (other : table.ofAlgorithm (.text stated) ≠ .ok e) :
    ∃ failure, checkAlgorithm table (.text stated) key = .error failure ∧ IsRefusal failure := by
  cases checked : checkAlgorithm table (.text stated) key with
  | ok passed =>
    obtain ⟨e', named', declared⟩ := (checkAlgorithm_iff announced).mp checked
    obtain rfl := Except.ok.inj (named.symm.trans named')
    exact absurd declared other
  | error failure =>
    rcases checkAlgorithm_error checked with refusal | ⟨curve, announced', unnamed⟩
    · exact ⟨failure, rfl, refusal⟩
    -- The key names its curve and the header its algorithm by a text.
    · obtain rfl := Option.some.inj (announced.symm.trans announced')
      rcases unnamed with ⟨unnamed, _⟩ | ⟨_, _, _, unnamed, _⟩ <;> cases unnamed

end DetachedJws

namespace LocalSigner

/-- A key that is generated for an entry has a signer under the first entry for the curve. -/
theorem generate_ok {table : CurveTable} {generator : CurveLabel → Outcome PrivateKey}
    {key : PrivateKey} {e first : CurveEntry} (kid : Json)
    (generated : generator e.curve = .ok key) (binds : table.Binds first key.curve) :
    generate table generator e kid = .ok (ofEntry key first kid) := by
  rw [generate, generated]
  exact ofKey_ok binds

/-- Without a hash there is no signature. -/
theorem sign_unhashed {s : LocalSigner} {failure : Failure} (p : Primitive) (message : Bytes)
    (unmade : s.entry.newHash = .error failure) :
    s.sign p message = .error (signingFailure s.entry failure) := by
  rw [sign, unmade]
  rfl

end LocalSigner

namespace Suite

open DetachedJws

/-- With the verifier for local keys the check of a token is its opening and the check of the
signature after it. -/
theorem verify_token {σ : Type} {s : Suite σ} {p : Primitive} {table : CurveTable} {key : PublicKey}
    {payload signature : Bytes} {algorithm : Text} {u : σ}
    (own : s.verifier = LocalVerifier.toVerifier p table) :
    (s.verify table key payload .jws (token (headerPart algorithm) signature)).Ends u
      (do checkAlgorithm table (.text (Json.asRead true algorithm)) key
          LocalVerifier.verify p table key (signedMessage algorithm payload .jws) signature) u := by
  rw [verify, opening, opening_token, own]
  cases checkAlgorithm table (.text (Json.asRead true algorithm)) key <;> rfl

/-- A signer whose hash cannot be made puts no token together. -/
theorem sign_unhashed {σ : Type} {s : Suite σ} {signer : LocalSigner} {failure : Failure} {u : σ}
    (p : Primitive) (payload : Bytes) (signs : s.signer = some (signer.toSigner p))
    (unmade : signer.entry.newHash = .error failure) :
    (s.sign payload .jws).Ends u (.error (LocalSigner.signingFailure signer.entry failure)) u := by
  rw [sign_eq signs]
  refine Action.ends_bind_error.mpr (.inl (Action.ends_ofOutcome.mpr ⟨?_, rfl⟩))
  exact LocalSigner.sign_unhashed p _ unmade

/-- The token of a signer on an entry of the table is made of every payload. Under the public key of
the signer it is taken if the algorithm of the entry identifies the entry, and refused if not. -/
theorem own_token {table : CurveTable} {first : CurveEntry} {key : PrivateKey} {p : Primitive}
    {hash : HashAlgorithm} {payload : Bytes} {r t : Nat} (kid : Json)
    (binds : table.Binds first key.curve) (made : first.newHash = .ok hash)
    (raw : p.Signs key hash (signedMessage first.algorithm payload .jws) r t) :
    ∃ token, ∀ (σ : Type) (s : Suite σ) (u : σ),
      s.signer = some ((LocalSigner.ofEntry key first kid).toSigner p) →
      s.verifier = LocalVerifier.toVerifier p table →
      (s.sign payload .jws).Ends u (.ok token) u ∧
      ∃ verdict, (s.verify table (LocalSigner.ofEntry key first kid).publicKey payload .jws
          token).Ends u verdict u ∧
        (verdict = .ok () ↔ table.Identifies first) ∧
        ∀ failure, verdict = .error failure → IsRefusal failure := by
  obtain ⟨signature, signed, encoded⟩ := LocalSigner.sign_ok kid binds made raw
  refine ⟨token (headerPart first.algorithm) signature, fun σ s u signs checks => ⟨?_, _,
    verify_token checks, ?_⟩⟩
  · exact sign_ok.mpr ⟨_, signature, signs, Action.ends_ofOutcome.mpr ⟨signed, rfl⟩, rfl⟩
  -- The key announces its curve by the name of the signer's entry.
  have announced : announcedCurve? (LocalSigner.ofEntry key first kid).publicKey =
      some (.text first.name) := rfl
  have named : table.ofValue (.text first.name) = .ok first := binds.byName
  by_cases identifies : table.Identifies first
  · have passed := (checkAlgorithm_iff announced).mpr
      ⟨first, named, CurveTable.identifies_iff.mp identifies⟩
    have point : (LocalSigner.ofEntry key first kid).publicKey.point table = .ok key.point :=
      LocalSigner.Shows.own.point binds
    have taken := LocalSigner.verify_ok binds point made raw encoded
    simp only [passed, bind, Except.bind, taken]
    exact ⟨iff_of_true trivial identifies, nofun⟩
  · obtain ⟨failure, stopped, refusal⟩ := checkAlgorithm_refused announced named
      (mt CurveTable.identifies_iff.mpr identifies)
    simp only [stopped, bind, Except.bind]
    refine ⟨iff_of_false nofun identifies, ?_⟩
    rintro _ ⟨⟩
    exact refusal

/-- In a table that registrations lead to, the name of an entry leads to the entry, and a key that is
generated for it has a signer under the first entry for its curve. Where the hash of this entry can
be made, a suite with the signer makes a token of every payload, and takes it under the signer's own
public key exactly if the algorithm of the entry identifies it; it refuses it otherwise. Where the
hash cannot be made, there are no tokens. -/
theorem token_taken_iff {table : CurveTable} {e : CurveEntry}
    {generator : CurveLabel → Outcome PrivateKey} {key : PrivateKey}
    (reachable : table.Reachable) (listed : e ∈ table.entries)
    (generated : generator e.curve = .ok key) (on : e.curve.curve = .ok key.curve) (kid : Json) :
    table.ofName e.name = .ok e ∧
    ∃ signer, LocalSigner.generate table generator e kid = .ok signer ∧ signer.key = key ∧
      table.ofCurve e.curve.name = .ok signer.entry ∧
      (∀ failure, signer.entry.newHash = .error failure →
        ∀ (p : Primitive) (payload : Bytes) (σ : Type) (s : Suite σ) (u : σ),
          s.signer = some (signer.toSigner p) →
          (s.sign payload .jws).Ends u
            (.error (LocalSigner.signingFailure signer.entry failure)) u) ∧
      ∀ hash, signer.entry.newHash = .ok hash → ∀ (p : Primitive) (payload : Bytes) (r t : Nat),
        p.Signs key hash (signedMessage signer.entry.algorithm payload .jws) r t →
        ∃ token, ∀ (σ : Type) (s : Suite σ) (u : σ), s.signer = some (signer.toSigner p) →
          s.verifier = LocalVerifier.toVerifier p table →
          (s.sign payload .jws).Ends u (.ok token) u ∧
          ∃ verdict, (s.verify table signer.publicKey payload .jws token).Ends u verdict u ∧
            (verdict = .ok () ↔ table.Identifies signer.entry) ∧
            ∀ failure, verdict = .error failure → IsRefusal failure := by
  obtain ⟨first, found, binds⟩ := reachable.binds listed on
  exact ⟨CurveTable.ofName_name listed, LocalSigner.ofEntry key first kid,
    LocalSigner.generate_ok kid generated binds, rfl, found,
    fun _ unmade p payload _ _ _ signs => sign_unhashed p payload signs unmade,
    fun _ made _ _ _ _ => own_token kid binds made⟩

def brainpool : CurveEntry :=
  ⟨"brainpoolP256r1", Curve.brainpoolP256r1.label, "ES256", .ok Digest.sha256.algorithm⟩

def crowded : CurveTable := CurveTable.initial.register brainpool

def cleared : CurveTable :=
  crowded.register ⟨"P-256", Curve.secp256r1.label, "ES256R", .ok Digest.sha256.algorithm⟩

def brainpoolKey : PrivateKey where
  scalar := 1
  point := ⟨Curve.brainpoolP256r1, Curve.brainpoolP256r1.gx, Curve.brainpoolP256r1.gy,
    by decide +kernel⟩
  multiple := by decide +kernel

private theorem crowded_reachable : crowded.Reachable :=
  .register (c := Curve.brainpoolP256r1) .initial (by decide) rfl

private theorem cleared_reachable : cleared.Reachable :=
  .register (c := Curve.secp256r1) crowded_reachable (by decide) rfl

private theorem brainpool_crowded : brainpool ∈ crowded.entries := CurveEntry.self_mem_putInto

private theorem brainpool_cleared : brainpool ∈ cleared.entries :=
  CurveEntry.mem_putInto_of_ne brainpool_crowded (by decide)

private theorem brainpool_signs : Primitive.deterministic.Signs brainpoolKey
    Digest.sha256.algorithm
    (signedMessage brainpool.algorithm [] .jws)
    73414668199815552972116965375015958119215420881604917973655759838427201022841
    4224902884726826735242433529735211808196197773379610507894114526005429106251 where
  signed := by
    have raw : Ecdsa.sign? brainpoolKey.curve brainpoolKey.scalar .sha256
        (signedMessage brainpool.algorithm [] .jws) = some
        (73414668199815552972116965375015958119215420881604917973655759838427201022841,
          4224902884726826735242433529735211808196197773379610507894114526005429106251) := by
      decide +kernel
    simp only [Primitive.deterministic, HashAlgorithm.digest?_algorithm, raw]
  first := by decide
  second := by decide
  taken := by decide +kernel

/-- An algorithm of its own identifies an entry. -/
theorem token_taken_iff_cleared : cleared.Reachable ∧ brainpool ∈ cleared.entries ∧
    ∃ signer token,
      LocalSigner.generate cleared (fun _ => .ok brainpoolKey) brainpool .null = .ok signer ∧
      ∀ (s : Suite Unit), s.signer = some (signer.toSigner .deterministic) →
        s.verifier = LocalVerifier.toVerifier .deterministic cleared →
        (s.sign [] .jws).Ends () (.ok token) () ∧
        (s.verify cleared signer.publicKey [] .jws token).Ends () (.ok ()) () := by
  have listed := brainpool_cleared
  obtain ⟨_, signer, made, _, found, _, each⟩ := @token_taken_iff cleared brainpool
    (fun _ => .ok brainpoolKey) brainpoolKey cleared_reachable listed rfl rfl .null
  have own : brainpool = signer.entry := Except.ok.inj found
  rw [← own] at each
  obtain ⟨token, ends⟩ := each _ rfl .deterministic [] _ _ brainpool_signs
  have identifies : cleared.Identifies brainpool := CurveTable.identifies_iff.mpr rfl
  refine ⟨cleared_reachable, listed, signer, token, made, fun s signs checks => ?_⟩
  obtain ⟨signed, verdict, ended, taken, _⟩ := ends Unit s () signs checks
  rw [taken.mpr identifies] at ended
  exact ⟨signed, ended⟩

/-- The algorithm of an earlier entry does not: what was signed under the later one is refused. -/
theorem registered_refused : crowded.Reachable ∧ brainpool ∈ crowded.entries ∧
    ∃ signer token,
      LocalSigner.generate crowded (fun _ => .ok brainpoolKey) brainpool .null = .ok signer ∧
      ∀ (s : Suite Unit), s.signer = some (signer.toSigner .deterministic) →
        s.verifier = LocalVerifier.toVerifier .deterministic crowded →
        (s.sign [] .jws).Ends () (.ok token) () ∧
        ¬(s.verify crowded signer.publicKey [] .jws token).Ends () (.ok ()) () := by
  have listed := brainpool_crowded
  obtain ⟨first, found, binds⟩ := crowded_reachable.binds listed (c := brainpoolKey.curve) rfl
  obtain rfl : brainpool = first := Except.ok.inj found
  obtain ⟨token, ends⟩ := own_token .null binds rfl brainpool_signs
  have earlier : crowded.ofAlgorithm (.text (Json.asRead true brainpool.algorithm)) =
      .ok CurveTable.p256 := rfl
  have crossed : ¬crowded.Identifies brainpool := fun identifies => by
    have same := earlier.symm.trans (CurveTable.identifies_iff.mp identifies)
    exact absurd (congrArg CurveEntry.name (Except.ok.inj same)) (by decide)
  refine ⟨crowded_reachable, listed, LocalSigner.ofEntry brainpoolKey brainpool .null, token,
    LocalSigner.generate_ok .null rfl binds, fun s signs checks => ?_⟩
  obtain ⟨signed, verdict, ended, taken, _⟩ := ends Unit s () signs checks
  refine ⟨signed, fun accepted => crossed (taken.mp ?_)⟩
  exact (ended.unique accepted).1

end Suite

end LinkedProof
