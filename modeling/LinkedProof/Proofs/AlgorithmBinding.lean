import LinkedProof.Proofs.KeyForms
import LinkedProof.Proofs.Token
import LinkedProof.Proofs.TokenGrammar
import LinkedProof.Signer

/-! One algorithm for each key. The name of a curve, the algorithm of a header and the curve of a
point are looked up in a table by three different ways. In every table the first two of them come to
one entry before a verifier is asked, and where no curve has two entries the third one comes to it as
well. -/
namespace LinkedProof

section Lookups

variable {table : CurveTable} {e e' : CurveEntry} {name : Text} {stated : Json}

namespace CurveTable

theorem eq_of_name (listed : e ∈ table.entries) (listed' : e' ∈ table.entries)
    (same : e.name = e'.name) : e = e' :=
  List.inj_on_of_nodup_map table.distinct listed listed' same

theorem ofCurve_ok :
    table.ofCurve name = .ok e ↔ table.entries.find? (·.curve.name = name) = some e := by
  rw [ofCurve]
  cases table.entries.find? (·.curve.name = name) with
  | none => simp
  | some found => rw [Except.ok.injEq, Option.some.injEq]

/-- An entry is found by what no other entry shares with it. -/
theorem find?_key {f : CurveEntry → Text} (distinct : (table.entries.map f).Nodup)
    (listed : e ∈ table.entries) : table.entries.find? (f · = f e) = some e := by
  cases found : table.entries.find? (f · = f e) with
  | none =>
    have missing := List.find?_eq_none.mp found e listed
    simp at missing
  | some other =>
    have same : f other = f e := by simpa using List.find?_some found
    rw [List.inj_on_of_nodup_map distinct (List.mem_of_find?_eq_some found) listed same]

theorem ofName_name (listed : e ∈ table.entries) : table.ofName e.name = .ok e := by
  rw [ofName, find?_key table.distinct listed]

/-- Without a second entry for its curve, the curve of an entry leads back to it. -/
theorem ofCurve_self (curves : (table.entries.map (·.curve.name)).Nodup)
    (listed : e ∈ table.entries) : table.ofCurve e.curve.name = .ok e :=
  ofCurve_ok.mpr (find?_key curves listed)

theorem resolveAlias_eq {algorithm other : Text} : resolveAlias algorithm = other ↔
    algorithm = "ES521" ∧ "ES512" = other ∨ algorithm ≠ "ES521" ∧ algorithm = other := by
  unfold resolveAlias
  by_cases named : algorithm = "ES521" <;> simp [named]

theorem ofAlgorithm_ok : table.ofAlgorithm stated = .ok e ↔ ∃ algorithm,
    stated = .text algorithm ∧
      table.entries.find? (·.algorithm = resolveAlias algorithm) = some e := by
  cases stated with
  | text algorithm =>
    rw [ofAlgorithm]
    cases found : table.entries.find? (·.algorithm = resolveAlias algorithm) with
    | none => simp [found]
    | some entry =>
      rw [Except.ok.injEq]
      constructor
      · rintro rfl
        exact ⟨algorithm, rfl, found⟩
      · rintro ⟨_, ⟨⟩, other⟩
        exact Option.some.inj (found.symm.trans other)
  | _ => simp [ofAlgorithm]

end CurveTable

/-- For a key that names its curve, a header passes if the first entry of the algorithm that it
states is the entry of the curve. -/
theorem DetachedJws.checkAlgorithm_iff {key : PublicKey} {curve : Json}
    (announced : announcedCurve? key = some curve) : checkAlgorithm table stated key = .ok () ↔
      ∃ e, table.ofValue curve = .ok e ∧ table.ofAlgorithm stated = .ok e := by
  unfold checkAlgorithm
  rw [announced]
  constructor
  · intro passed
    obtain ⟨⟨e, e'⟩, looked, passed⟩ := Outcome.bind_ok.mp passed
    obtain ⟨_, known, looked⟩ := Outcome.bind_ok.mp (Outcome.rename_ok.mp looked)
    obtain ⟨_, declared, same⟩ := Outcome.bind_ok.mp looked
    obtain ⟨rfl, rfl⟩ := Prod.mk.inj (Outcome.pure_ok.mp same)
    obtain ⟨_, _, first⟩ := CurveTable.ofAlgorithm_ok.mp declared
    dsimp only at passed
    split at passed
    · rename_i same
      obtain rfl := CurveTable.eq_of_name (List.mem_of_find?_eq_some first)
        (CurveTable.ofValue_mem known) same
      exact ⟨_, known, declared⟩
    · cases passed
  · rintro ⟨e, known, declared⟩
    simp only [known, declared, bind, Except.bind, pure, Except.pure]
    exact if_pos rfl

theorem CurveLabel.curve_name {label : CurveLabel} {c : Curve} (found : label.curve = .ok c) :
    c.name = label.name := by
  unfold curve at found
  split at found
  · rename_i known
    obtain rfl := Except.ok.inj found
    simpa using List.find?_some known
  · cases found

theorem Curve.ofName?_name {c : Curve} (listed : c ∈ available) : ofName? c.name = some c := by
  simp only [available, List.mem_cons, List.not_mem_nil, or_false] at listed
  rcases listed with rfl | rfl | rfl | rfl | rfl | rfl | rfl | rfl | rfl <;> rfl

end Lookups

section Keys

variable {table : CurveTable} {e : CurveEntry} {key : PublicKey} {curve : Json} {q : CurvePoint}

inductive Announces : PublicKey → Json → Prop
  | jwk {key : Jwk} {type : Text} (kind : key.kty = .text "EC") : Announces (.jwk key type) key.crv
  | encoded {point : Bytes} {curve : Json} {type : Text} :
    Announces (.encoded point curve type) curve

theorem Announces.announced (announces : Announces key curve) :
    DetachedJws.announcedCurve? key = some curve := by
  cases announces with
  | jwk kind => exact if_pos (Json.isText_iff.mpr kind)
  | encoded => rfl

private theorem curve_ofParity? {c : Curve} {x : Nat} {odd : Bool}
    (found : CurvePoint.ofParity? c x odd = some q) : q.curve = c := by
  unfold CurvePoint.ofParity? at found
  obtain ⟨root, _, found⟩ := Option.bind_eq_some_iff.mp found
  exact PrivateKey.curve_ofCoordinates? (Option.ite_none_right_eq_some.mp found).2

private theorem curve_decode? {c : Curve} {bytes : Bytes}
    (found : CurvePoint.decode? c bytes = some q) : q.curve = c := by
  unfold CurvePoint.decode? at found
  split at found
  · cases found
  · dsimp only at found
    split at found
    · split at found
      · exact PrivateKey.curve_ofCoordinates? found
      · cases found
    · split at found
      · split at found
        · exact curve_ofParity? found
        · cases found
      · cases found

private theorem decodePoint_curve {bytes : Bytes}
    (read : PublicKey.decodePoint e bytes = .ok q) : e.curve.curve = .ok q.curve := by
  unfold PublicKey.decodePoint at read
  split at read
  · cases read
  · obtain ⟨_, read⟩ := Outcome.guard_ok.mp read
    obtain ⟨c, arithmetic, read⟩ := Outcome.bind_ok.mp read
    split at read
    · rename_i found
      obtain rfl := Except.ok.inj read
      rw [arithmetic, curve_decode? found]
    · cases read

theorem Jwk.point_curve {k : Jwk} (read : k.point table = .ok q) :
    ∃ e, table.ofValue k.crv = .ok e ∧ e.curve.curve = .ok q.curve := by
  unfold Jwk.point at read
  obtain ⟨_, read⟩ := Outcome.guard_ok.mp read
  obtain ⟨e, named, read⟩ := Outcome.bind_ok.mp read
  obtain ⟨_, _, read⟩ := Outcome.bind_ok.mp read
  obtain ⟨_, _, read⟩ := Outcome.bind_ok.mp read
  obtain ⟨c, arithmetic, read⟩ := Outcome.bind_ok.mp read
  split at read
  · rename_i found
    obtain rfl := Except.ok.inj read
    exact ⟨e, named, by rw [arithmetic, PrivateKey.curve_ofCoordinates? found]⟩
  · cases read

/-- The point of a key is on the curve of the entry that the key names. -/
theorem Announces.point (announces : Announces key curve) (named : table.ofValue curve = .ok e)
    (read : key.point table = .ok q) : e.curve.curve = .ok q.curve := by
  cases announces with
  | jwk =>
    obtain ⟨e', named', arithmetic⟩ := Jwk.point_curve (Outcome.rename_ok.mp read)
    obtain rfl := Except.ok.inj (named.symm.trans named')
    exact arithmetic
  | encoded =>
    obtain ⟨e', named', read⟩ := Outcome.bind_ok.mp (Outcome.rename_ok.mp read)
    obtain rfl := Except.ok.inj (named.symm.trans named')
    exact decodePoint_curve read

end Keys

section Checks

variable {p : Primitive} {table : CurveTable} {e : CurveEntry} {key : PublicKey} {curve : Json}
  {message signature : Bytes}

def CheckedAs (p : Primitive) (table : CurveTable) (e : CurveEntry) (key : PublicKey)
    (message signature : Bytes) : Prop :=
  ∃ q hash, key.point table = .ok q ∧ e.curve.curve = .ok q.curve ∧
    signature.length = e.signatureSize ∧ e.newHash = .ok hash ∧
    p.verify q hash message (Bytes.toNat (signature.take e.coordinateSize))
      (Bytes.toNat (signature.drop e.coordinateSize)) = true

/-- The verifier takes a signature after a check with the entry of the curve of the point. -/
theorem LocalVerifier.verify_iff : verify p table key message signature = .ok () ↔
    ∃ q e hash, key.point table = .ok q ∧ table.ofCurve q.curve.name = .ok e ∧
      signature.length = e.signatureSize ∧ e.newHash = .ok hash ∧
      p.verify q hash message (Bytes.toNat (signature.take e.coordinateSize))
        (Bytes.toNat (signature.drop e.coordinateSize)) = true := by
  unfold verify
  constructor
  · intro taken
    obtain ⟨q, point, taken⟩ := Outcome.bind_ok.mp taken
    obtain ⟨e, entry, taken⟩ := Outcome.bind_ok.mp taken
    obtain ⟨⟨r, s⟩, decoded, taken⟩ := Outcome.bind_ok.mp taken
    obtain ⟨length, rfl, rfl⟩ := Signature.decode_ok.mp decoded
    obtain ⟨hash, made, taken⟩ := Outcome.bind_ok.mp taken
    split at taken
    · rename_i valid
      exact ⟨q, e, hash, point, Outcome.rename_ok.mp entry, length, made, valid⟩
    · cases taken
  · rintro ⟨q, e, hash, point, entry, length, made, valid⟩
    have decoded := Signature.decode_ok.mpr ⟨length, rfl, rfl⟩
    simp only [point, entry, Outcome.rename, ok_mapError, bind, Except.bind, decoded, made, valid]
    rfl

/-- Where no curve has two entries, the verifier comes to the entry that the key names. -/
theorem verify_iff_checked (announces : Announces key curve)
    (named : table.ofValue curve = .ok e)
    (curves : (table.entries.map (·.curve.name)).Nodup) :
    LocalVerifier.verify p table key message signature = .ok () ↔
      CheckedAs p table e key message signature := by
  rw [LocalVerifier.verify_iff]
  have entry {q : CurvePoint} (arithmetic : e.curve.curve = .ok q.curve) :
      table.ofCurve q.curve.name = .ok e := by
    rw [CurveLabel.curve_name arithmetic]
    exact CurveTable.ofCurve_self curves (CurveTable.ofValue_mem named)
  constructor
  · rintro ⟨q, e', hash, point, found, taken⟩
    have arithmetic := announces.point named point
    obtain rfl := Except.ok.inj ((entry arithmetic).symm.trans found)
    exact ⟨q, hash, point, arithmetic, taken⟩
  · rintro ⟨q, hash, point, arithmetic, taken⟩
    exact ⟨q, e, hash, point, entry arithmetic, taken⟩

end Checks

namespace Suite

open DetachedJws

variable {room : Json.Room} {table : CurveTable} {key : PublicKey} {curve : Json}
  {payload message signature : Bytes} {token : Text}

/-- A token puts its signature before a verifier only if its header states the algorithm of the
entry that the key's curve name leads to, whatever the table is. If no curve has two entries in it,
a suite with the verifier for local keys takes the signature exactly after a check with the curve,
the hash and the length of this entry. -/
theorem algorithm_bound (announces : Announces key curve)
    (hands : Hands room table key payload token message signature) :
    ∃ header members algorithm e, Parted token header signature ∧ Declared room header members ∧
      message = Bytes.ofCodes header ++ 0x2E :: payload ∧ table.ofValue curve = .ok e ∧
      DetachedJws.algorithm members = .text algorithm ∧
      CurveTable.resolveAlias algorithm = e.algorithm ∧
      ((table.entries.map (·.curve.name)).Nodup →
        ∀ (σ : Type) (p : Primitive) (s : Suite σ) (u u' : σ),
          s.headerRoom = room → s.verifier = LocalVerifier.toVerifier p table →
          ((s.verify table key payload .jws token).Ends u (.ok ()) u' ↔
            CheckedAs p table e key message signature ∧ u = u')) := by
  obtain ⟨header, ⟨parted, members, declared, passed⟩, rfl⟩ :=
    opening_iff.mp (hands_iff.mp hands)
  obtain ⟨e, named, stated⟩ := (checkAlgorithm_iff announces.announced).mp passed
  obtain ⟨algorithm, text, first⟩ := CurveTable.ofAlgorithm_ok.mp stated
  have same : e.algorithm = CurveTable.resolveAlias algorithm := by
    simpa using List.find?_some first
  refine ⟨header, members, algorithm, e, parted, declared, rfl, named, text, same.symm, ?_⟩
  intro curves σ p s u u' size own
  rw [hands σ s size, own, LocalVerifier.toVerifier, Action.ends_ofOutcome,
    verify_iff_checked announces named curves]

def widened : CurveTable :=
  CurveTable.initial.register
    ⟨"BP-256", Curve.brainpoolP256r1.label, "ESB256", .ok Digest.sha256.algorithm⟩

def widestPoint : CurvePoint :=
  ⟨Curve.secp521r1, Curve.secp521r1.gx, Curve.secp521r1.gy, by decide +kernel⟩

def widestKey : PublicKey := .encoded widestPoint.encode (.text "P-521") PublicKey.defaultType

def widestSignature : Bytes :=
  Bytes.ofNat 66 Curve.secp521r1.gx ++ Bytes.ofNat 66 0xc6a3f8b6eb0ab925faa7b16379b3341c0070d695ecf6a4044167c48e85e7ef771bd737997c4cc21f92cbe3625c0ef01abe1120c5b7990660efc045ba1ff1986ab7

def aliasedToken : Text := DetachedJws.token (headerPart "ES521") widestSignature

private theorem aliased_opens :
    Opens Json.usualRoom widened widestKey aliasedToken (headerPart "ES521") widestSignature := by
  have parted : Parted aliasedToken (headerPart "ES521") widestSignature :=
    parted_token (Base64.encode_clear _) widestSignature
  refine ⟨parted, readMembers "ES521", readHeader_ok.mp (readHeader_headerPart _ _), ?_⟩
  exact (@checkAlgorithm_iff widened _ _ (.text "P-521") rfl).mpr ⟨CurveTable.p521, rfl, rfl⟩

private theorem aliased_checked : CheckedAs .deterministic widened CurveTable.p521 widestKey
    (Bytes.ofCodes (headerPart "ES521") ++ [0x2E]) widestSignature := by
  have binds : widened.Binds CurveTable.p521 widestPoint.curve :=
    ⟨rfl, rfl, rfl, rfl, by decide +kernel, by decide +kernel⟩
  have point : widestKey.point widened = .ok widestPoint := by
    rw [widestKey]
    exact @PublicKey.point_encoded widened CurveTable.p521 widestPoint _ binds
  exact ⟨widestPoint, Digest.sha512.algorithm, point, rfl, by decide +kernel, rfl,
    by decide +kernel⟩

theorem algorithm_bound_aliased :
    Announces widestKey (.text "P-521") ∧ (widened.entries.map (·.curve.name)).Nodup ∧
    ∃ message, Hands Json.usualRoom widened widestKey [] aliasedToken message widestSignature ∧
      ∃ header members algorithm e, Parted aliasedToken header widestSignature ∧
        Declared Json.usualRoom header members ∧ DetachedJws.algorithm members = .text algorithm ∧
        CurveTable.resolveAlias algorithm = e.algorithm ∧ e = CurveTable.p521 ∧
        ∀ (σ : Type) (s : Suite σ) (u : σ), s.headerRoom = Json.usualRoom →
          s.verifier = LocalVerifier.toVerifier .deterministic widened →
          (s.verify widened widestKey [] .jws aliasedToken).Ends u (.ok ()) u := by
  have hands := hands_iff.mpr (aliased_opens.opening [])
  have curves : (widened.entries.map (·.curve.name)).Nodup := by decide
  refine ⟨.encoded, curves, _, hands, ?_⟩
  obtain ⟨header, members, algorithm, e, parted, declared, _, named, stated, same, taken⟩ :=
    algorithm_bound .encoded hands
  obtain rfl : CurveTable.p521 = e := Except.ok.inj named
  refine ⟨header, members, algorithm, _, parted, declared, stated, same, rfl, ?_⟩
  intro σ s u size own
  exact (taken curves σ .deterministic s u u size own).mpr ⟨aliased_checked, rfl⟩

end Suite

end LinkedProof
