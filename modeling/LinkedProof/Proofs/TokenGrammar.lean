import LinkedProof.Proofs.Base64
import LinkedProof.Proofs.Check
import LinkedProof.Proofs.Json.FromBytes

/-! Which tokens put a signature before the verifier, and with what the others are refused. A header
says that `b64` is critical in an array, but an object with a member of that name or a text with
these letters in it does as well; four kinds of tokens are refused by failures that are none of
verification. -/
namespace LinkedProof

namespace DetachedJws

section Grammar

def Parted (token header : Text) (signature : Bytes) : Prop :=
  ∃ part, token = header ++ Text.ofString ".." ++ part ∧
    (CodePoint.ofChar '.' ∉ header ∧ CodePoint.ofChar '.' ∉ part) ∧
    decodePart part = .ok signature

/-- A header part for an object that leaves the payload as it is. -/
def Unencoded (room : Nat) (header : Text) (members : Members) : Prop :=
  ∃ bytes, decodePart header = .ok bytes ∧ Json.parseBytes room bytes = .ok (.object members) ∧
    members.get? "b64" = some (.bool false)

/-- A value in which `b64` is found: as an item, as the name of a member or in a text. -/
inductive NamesPayload : Json → Prop
  | item {items : List Json} (member : Json.text "b64" ∈ items) : NamesPayload (.array items)
  | name {ms : Members} {value : Json} (found : ms.get? "b64" = some value) :
    NamesPayload (.object ms)
  | part {t : Text} (inside : Text.ofString "b64" <:+: t) : NamesPayload (.text t)

def Declared (room : Nat) (header : Text) (members : Members) : Prop :=
  Unencoded room header members ∧ ∃ crit, members.get? "crit" = some crit ∧ NamesPayload crit

def algorithm (members : Members) : Json := (members.get? "alg").getD (.text [])

def Opens (room : Nat) (table : CurveTable) (key : PublicKey) (token header : Text)
    (signature : Bytes) : Prop :=
  Parted token header signature ∧ ∃ members, Declared room header members ∧
    checkAlgorithm table (algorithm members) key = .ok ()

def IsRefusal (failure : Failure) : Prop :=
  ∃ cause, failure = .proof cause ∧ cause.family = .verification

/-- A token whose failure is another one: the header nests too deeply, its `crit` is neither text
nor container, the key names its curve by no text, or the algorithm is a container. -/
inductive Unforeseen (room : Nat) (table : CurveTable) (key : PublicKey) (token : Text) :
    Failure → Prop
  | nested {header : Text} {signature bytes : Bytes} {container : Json.Container}
    (parted : Parted token header signature) (decoded : decodePart header = .ok bytes)
    (deep : Json.parseBytes room bytes = .error (.text (.depth container))) :
    Unforeseen room table key token (.nesting container)
  | critical {header : Text} {signature : Bytes} {members : Members} {crit : Json}
    (parted : Parted token header signature) (unencoded : Unencoded room header members)
    (found : members.get? "crit" = some crit) (scalar : crit.isScalar = true) :
    Unforeseen room table key token (.wrongKind (.notContainer crit.kindWord))
  | curve {header : Text} {signature : Bytes} {members : Members} {curve : Json}
    (parted : Parted token header signature) (declared : Declared room header members)
    (announced : announcedCurve? key = some curve) (unnamed : curve.text? = none) :
    Unforeseen room table key token (.wrongKind (.noMember curve.kindWord "name"))
  | container {header : Text} {signature : Bytes} {members : Members} {curve : Json}
    {expected : CurveEntry} (parted : Parted token header signature)
    (declared : Declared room header members) (announced : announcedCurve? key = some curve)
    (known : table.ofValue curve = .ok expected) (other : (algorithm members).isScalar = false)
    (unnamed : (algorithm members).text? = none) :
    Unforeseen room table key token (.wrongKind (.noKey (algorithm members).kindWord))

end Grammar

section Stages

variable {room : Nat} {table : CurveTable} {key : PublicKey} {token header : Text}
  {members : Members} {failure : Failure}

private theorem decodePart_ascii {t : Text} {bytes : Bytes} (decoded : decodePart t = .ok bytes) :
    t.all CodePoint.isAscii = true := by
  rw [decodePart, Outcome.mapError_ok, Base64.decode] at decoded
  split at decoded
  · assumption
  · cases decoded

theorem decodePart_encode (signature : Bytes) :
    decodePart (Base64.encode signature) = .ok signature := by
  rw [decodePart, Base64.decode_encode]
  rfl

/-- A token is in the parts it was made of. -/
theorem parted_token (clear : CodePoint.ofChar '.' ∉ header) (signature : Bytes) :
    Parted (DetachedJws.token header signature) header signature := by
  refine ⟨_, ?_, ⟨clear, Base64.encode_clear _⟩, decodePart_encode signature⟩
  simp only [DetachedJws.token, Text.concat, List.flatten_cons, List.flatten_nil, List.append_nil,
    List.append_assoc]

private theorem decodePart_error {t : Text} (stopped : decodePart t = .error failure) :
    IsRefusal failure := by
  unfold decodePart at stopped
  cases decoded : Base64.decode t with
  | ok bytes =>
    rw [decoded] at stopped
    cases stopped
  | error fault =>
    rw [decoded] at stopped
    obtain rfl := Except.error.inj stopped
    exact ⟨_, rfl, rfl⟩

private theorem split_error (stopped : split token = .error failure) : IsRefusal failure := by
  unfold split at stopped
  split at stopped
  · rcases Outcome.bind_error.mp stopped with undecoded | ⟨_, _, done⟩
    · exact decodePart_error undecoded
    · cases done
  · obtain rfl := Except.error.inj stopped
    exact ⟨_, rfl, rfl⟩

theorem namesPayload_ok {v : Json} : namesPayload v = .ok true ↔ NamesPayload v := by
  constructor
  · intro named
    cases v with
    | array items =>
      obtain ⟨item, member, text⟩ := List.any_eq_true.mp (Except.ok.inj named)
      rw [Json.isText_iff.mp text] at member
      exact .item member
    | object ms =>
      obtain ⟨value, found⟩ := Option.isSome_iff_exists.mp (Except.ok.inj named)
      exact .name found
    | text t => exact .part (Text.holds_iff.mp (Except.ok.inj named))
    | _ => cases named
  · intro named
    cases named with
    | item member =>
      exact congrArg Except.ok (List.any_eq_true.mpr ⟨_, member, Json.isText_iff.mpr rfl⟩)
    | name found => exact congrArg Except.ok (Option.isSome_iff_exists.mpr ⟨_, found⟩)
    | part inside => exact congrArg Except.ok (Text.holds_iff.mpr inside)

private theorem namesPayload_error {v : Json} : namesPayload v = .error failure ↔
    v.isScalar = true ∧ failure = .wrongKind (.notContainer v.kindWord) := by
  cases v <;> simp [namesPayload, Json.isScalar, eq_comm]

private def judged (members : Members) : Outcome Members :=
  if (members.get "b64").isFalse = true then do
    if ← namesPayload ((members.get? "crit").getD (.array [])) then return members
    else throw (.proof (.signature .payloadEncoded))
  else throw (.proof (.signature .payloadEncoded))

private theorem readHeader_decoded {bytes : Bytes} (decoded : decodePart header = .ok bytes) :
    readHeader room header = match Json.parseBytes room bytes with
      | .error (.text (.depth container)) => .error (.nesting container)
      | .error fault => .error (.proof (.signature (.header fault.message)))
      | .ok (.object members) => judged members
      | .ok _ => .error (.proof (.signature .headerNotObject)) := by
  rw [readHeader, decoded]
  cases parsed : Json.parseBytes room bytes with
  | error fault =>
    cases fault with
    | encoding fault => simp only [bind, Except.bind, parsed]; rfl
    | text fault => cases fault <;> (simp only [bind, Except.bind, parsed]; rfl)
  | ok v =>
    cases v with
    | object found =>
      simp only [bind, Except.bind, parsed, judged]
      cases (Members.get "b64" found).isFalse <;> rfl
    | _ => simp only [bind, Except.bind, parsed]; rfl

private theorem isFalse_iff : (members.get "b64").isFalse = true ↔
    members.get? "b64" = some (.bool false) := by
  unfold Members.get
  cases members.get? "b64" with
  | none => simp [Json.isFalse]
  | some v =>
    cases v with
    | bool b => cases b <;> simp [Json.isFalse]
    | _ => simp [Json.isFalse]

private theorem judged_ok {found : Members} : judged found = .ok members ↔
    found = members ∧ found.get? "b64" = some (.bool false) ∧
      ∃ crit, found.get? "crit" = some crit ∧ NamesPayload crit := by
  constructor
  · intro passed
    rw [judged] at passed
    split at passed
    · rename_i unencoded
      obtain ⟨named, asked, passed⟩ := Outcome.bind_ok.mp passed
      cases named with
      | false => cases passed
      | true =>
        obtain rfl := Except.ok.inj passed
        have names := namesPayload_ok.mp asked
        cases listed : found.get? "crit" with
        | none =>
          rw [listed] at names
          cases names with
          | item member => cases member
        | some crit =>
          rw [listed] at names
          exact ⟨rfl, isFalse_iff.mp unencoded, crit, rfl, names⟩
    · cases passed
  · rintro ⟨rfl, unencoded, crit, listed, names⟩
    rw [judged, if_pos (isFalse_iff.mpr unencoded), listed, Option.getD_some,
      namesPayload_ok.mpr names]
    rfl

private theorem judged_error (stopped : judged members = .error failure) : IsRefusal failure ∨
    members.get? "b64" = some (.bool false) ∧ ∃ crit, members.get? "crit" = some crit ∧
      crit.isScalar = true ∧ failure = .wrongKind (.notContainer crit.kindWord) := by
  rw [judged] at stopped
  split at stopped
  · rename_i unencoded
    rcases Outcome.bind_error.mp stopped with asked | ⟨named, _, stopped⟩
    · obtain ⟨scalar, same⟩ := namesPayload_error.mp asked
      cases listed : members.get? "crit" with
      | none =>
        rw [listed] at scalar
        cases scalar
      | some crit =>
        rw [listed] at scalar same
        exact .inr ⟨isFalse_iff.mp unencoded, crit, rfl, scalar, same⟩
    · cases named with
      | false =>
        obtain rfl := Except.error.inj stopped
        exact .inl ⟨_, rfl, rfl⟩
      | true => cases stopped
  · obtain rfl := Except.error.inj stopped
    exact .inl ⟨_, rfl, rfl⟩

private theorem judged_scalar {crit : Json} (unencoded : members.get? "b64" = some (.bool false))
    (listed : members.get? "crit" = some crit) (scalar : crit.isScalar = true) :
    judged members = .error (.wrongKind (.notContainer crit.kindWord)) := by
  rw [judged, if_pos (isFalse_iff.mpr unencoded), listed, Option.getD_some,
    namesPayload_error.mpr ⟨scalar, rfl⟩]
  rfl

theorem readHeader_ok : readHeader room header = .ok members ↔ Declared room header members := by
  constructor
  · intro read
    have opened := read
    rw [readHeader] at opened
    obtain ⟨bytes, decoded, _⟩ := Outcome.bind_ok.mp opened
    rw [readHeader_decoded decoded] at read
    split at read
    · cases read
    · cases read
    · rename_i found parsed
      obtain ⟨rfl, unencoded, critical⟩ := judged_ok.mp read
      exact ⟨⟨bytes, decoded, parsed, unencoded⟩, critical⟩
    · cases read
  · rintro ⟨⟨bytes, decoded, parsed, unencoded⟩, critical⟩
    rw [readHeader_decoded decoded, parsed]
    exact judged_ok.mpr ⟨rfl, unencoded, critical⟩

private theorem readHeader_error (stopped : readHeader room header = .error failure) :
    IsRefusal failure ∨
    (∃ bytes container, decodePart header = .ok bytes ∧
      Json.parseBytes room bytes = .error (.text (.depth container)) ∧
      failure = .nesting container) ∨
    ∃ members crit, Unencoded room header members ∧ members.get? "crit" = some crit ∧
      crit.isScalar = true ∧ failure = .wrongKind (.notContainer crit.kindWord) := by
  cases decoded : decodePart header with
  | error reason =>
    rw [readHeader, decoded] at stopped
    obtain rfl := Except.error.inj stopped
    exact .inl (decodePart_error decoded)
  | ok bytes =>
    rw [readHeader_decoded decoded] at stopped
    split at stopped
    · rename_i container deep
      obtain rfl := Except.error.inj stopped
      exact .inr (.inl ⟨bytes, container, rfl, deep, rfl⟩)
    · obtain rfl := Except.error.inj stopped
      exact .inl ⟨_, rfl, rfl⟩
    · rename_i members parsed
      rcases judged_error stopped with refusal | ⟨unencoded, crit, listed, scalar, same⟩
      · exact .inl refusal
      · exact .inr (.inr ⟨members, crit, ⟨bytes, decoded, parsed, unencoded⟩, listed, scalar, same⟩)
    · obtain rfl := Except.error.inj stopped
      exact .inl ⟨_, rfl, rfl⟩

theorem ofValue_error {curve : Json} (stopped : table.ofValue curve = .error failure) :
    (∃ cause, failure = .proof cause ∧ cause.family = .unsupportedCurve) ∨
      curve.text? = none ∧ failure = .wrongKind (.noMember curve.kindWord "name") := by
  cases curve with
  | text name =>
    rw [CurveTable.ofValue, CurveTable.ofName] at stopped
    split at stopped
    · cases stopped
    · rw [CurveTable.ofCurve] at stopped
      split at stopped
      · cases stopped
      · obtain rfl := Except.error.inj stopped
        exact .inl ⟨_, rfl, rfl⟩
  | _ => exact .inr ⟨rfl, (Except.error.inj stopped).symm⟩

private theorem ofValue_unnamed {curve : Json} (unnamed : curve.text? = none) :
    table.ofValue curve = .error (.wrongKind (.noMember curve.kindWord "name")) := by
  cases curve with
  | text name => cases unnamed
  | _ => rfl

private theorem ofAlgorithm_error {stated : Json}
    (stopped : table.ofAlgorithm stated = .error failure) :
    (∃ cause, failure = .proof cause ∧ cause.family = .unsupportedCurve) ∨
      stated.isScalar = false ∧ stated.text? = none ∧
        failure = .wrongKind (.noKey stated.kindWord) := by
  cases stated with
  | text name =>
    rw [CurveTable.ofAlgorithm] at stopped
    split at stopped
    · cases stopped
    · obtain rfl := Except.error.inj stopped
      exact .inl ⟨_, rfl, rfl⟩
  | array items => exact .inr ⟨rfl, rfl, (Except.error.inj stopped).symm⟩
  | object ms => exact .inr ⟨rfl, rfl, (Except.error.inj stopped).symm⟩
  | _ =>
    obtain rfl := Except.error.inj stopped
    exact .inl ⟨_, rfl, rfl⟩

private theorem ofAlgorithm_container {stated : Json} (other : stated.isScalar = false)
    (unnamed : stated.text? = none) :
    table.ofAlgorithm stated = .error (.wrongKind (.noKey stated.kindWord)) := by
  cases stated with
  | text name => cases unnamed
  | array items => rfl
  | object ms => rfl
  | _ => cases other

private theorem refuseCurve_refusal (curve : ∃ cause, failure = .proof cause ∧
    cause.family = .unsupportedCurve) : IsRefusal (refuseCurve failure) := by
  obtain ⟨cause, rfl, family⟩ := curve
  rw [refuseCurve, if_pos family]
  exact ⟨_, rfl, rfl⟩

theorem checkAlgorithm_error {stated : Json}
    (stopped : checkAlgorithm table stated key = .error failure) :
    IsRefusal failure ∨ ∃ curve, announcedCurve? key = some curve ∧
      (curve.text? = none ∧ failure = .wrongKind (.noMember curve.kindWord "name") ∨
        ∃ expected, table.ofValue curve = .ok expected ∧ stated.isScalar = false ∧
          stated.text? = none ∧ failure = .wrongKind (.noKey stated.kindWord)) := by
  unfold checkAlgorithm at stopped
  cases announced : announcedCurve? key with
  | none =>
    rw [announced] at stopped
    cases stopped
  | some curve =>
    rw [announced] at stopped
    rcases Outcome.bind_error.mp stopped with unfound | ⟨⟨expected, declared⟩, _, stopped⟩
    · obtain ⟨reason, lookup, rfl⟩ := Outcome.rename_error.mp unfound
      rcases Outcome.bind_error.mp lookup with unknown | ⟨expected, known, lookup⟩
      · rcases ofValue_error unknown with family | ⟨unnamed, rfl⟩
        · exact .inl (refuseCurve_refusal family)
        · exact .inr ⟨curve, rfl, .inl ⟨unnamed, rfl⟩⟩
      · rcases Outcome.bind_error.mp lookup with unknown | ⟨_, _, done⟩
        · rcases ofAlgorithm_error unknown with family | ⟨other, unnamed, rfl⟩
          · exact .inl (refuseCurve_refusal family)
          · exact .inr ⟨curve, rfl, .inr ⟨expected, known, other, unnamed, rfl⟩⟩
        · cases done
    · dsimp only at stopped
      split at stopped
      · cases stopped
      · obtain rfl := Except.error.inj stopped
        exact .inl ⟨_, rfl, rfl⟩

private theorem checkAlgorithm_unnamed {stated curve : Json}
    (announced : announcedCurve? key = some curve) (unnamed : curve.text? = none) :
    checkAlgorithm table stated key =
      .error (.wrongKind (.noMember curve.kindWord "name")) := by
  unfold checkAlgorithm
  rw [announced]
  simp only [ofValue_unnamed unnamed]
  rfl

private theorem checkAlgorithm_container {stated curve : Json} {expected : CurveEntry}
    (announced : announcedCurve? key = some curve) (known : table.ofValue curve = .ok expected)
    (other : stated.isScalar = false) (unnamed : stated.text? = none) :
    checkAlgorithm table stated key = .error (.wrongKind (.noKey stated.kindWord)) := by
  unfold checkAlgorithm
  rw [announced]
  simp only [known, ofAlgorithm_container other unnamed]
  rfl

end Stages

section Opening

variable {room : Nat} {table : CurveTable} {key : PublicKey} {payload message signature : Bytes}
  {token : Text} {failure : Failure}

/-- A header part that can be read is written in ASCII. -/
theorem Declared.ascii {header : Text} {members : Members}
    (declared : Declared room header members) : header.all CodePoint.isAscii = true := by
  obtain ⟨⟨bytes, decoded, _⟩, _⟩ := declared
  exact decodePart_ascii decoded

private theorem Declared.spelled {header : Text} {members : Members}
    (declared : Declared room header members) :
    Bytes.ofAscii? header = some (Bytes.ofCodes header) := if_pos declared.ascii

theorem opening_iff : opening room table key payload token = .ok (message, signature) ↔
    ∃ header, Opens room table key token header signature ∧
      message = Bytes.ofCodes header ++ 0x2E :: payload := by
  have presents := @Verification.opening_ok room table key payload message signature .jws token
  refine presents.trans ⟨?_, ?_⟩
  · intro presented
    cases presented with
    | @jws header part members ascii _ points decoded read fits spelled =>
      have declared := readHeader_ok.mp read
      rw [declared.spelled] at spelled
      obtain rfl := Option.some.inj spelled
      exact ⟨header, ⟨⟨part, rfl, points, decoded⟩, members, declared, fits⟩, rfl⟩
  · rintro ⟨header, ⟨⟨part, rfl, points, decoded⟩, members, declared, fits⟩, rfl⟩
    exact .jws points decoded (readHeader_ok.mpr declared) fits declared.spelled

theorem Opens.opening {header : Text} (opens : Opens room table key token header signature)
    (payload : Bytes) : DetachedJws.opening room table key payload token =
      .ok (Bytes.ofCodes header ++ 0x2E :: payload, signature) :=
  opening_iff.mpr ⟨header, opens, rfl⟩

theorem opening_error (stopped : opening room table key payload token = .error failure) :
    IsRefusal failure ∨ Unforeseen room table key token failure := by
  rcases Outcome.bind_error.mp stopped with unsplit | ⟨⟨header, signature⟩, parts, stopped⟩
  · exact .inl (split_error unsplit)
  have parted : Parted token header signature := Verification.split_ok.mp parts
  rcases Outcome.bind_error.mp stopped with unread | ⟨members, read, stopped⟩
  · rcases readHeader_error unread with refusal |
      ⟨bytes, container, decoded, deep, rfl⟩ | ⟨members, crit, unencoded, found, scalar, rfl⟩
    · exact .inl refusal
    · exact .inr (.nested parted decoded deep)
    · exact .inr (.critical parted unencoded found scalar)
  have declared := readHeader_ok.mp read
  rcases Outcome.bind_error.mp stopped with unfit | ⟨_, _, stopped⟩
  · rcases checkAlgorithm_error unfit with refusal |
      ⟨curve, announced, ⟨unnamed, rfl⟩ | ⟨expected, known, other, unnamed, rfl⟩⟩
    · exact .inl refusal
    · exact .inr (.curve parted declared announced unnamed)
    · exact .inr (.container parted declared announced known other unnamed)
  · rcases Outcome.bind_error.mp stopped with unspelled | ⟨_, _, done⟩
    · rw [signingInput, declared.spelled] at unspelled
      cases unspelled
    · cases done

private theorem opening_unread {header : Text} (parted : Parted token header signature)
    (unread : readHeader room header = .error failure) :
    opening room table key payload token = .error failure := by
  refine Outcome.bind_error.mpr (.inr ⟨_, Verification.split_ok.mpr parted, ?_⟩)
  exact Outcome.bind_error.mpr (.inl unread)

private theorem opening_unfit {header : Text} {members : Members}
    (parted : Parted token header signature) (declared : Declared room header members)
    (unfit : checkAlgorithm table (algorithm members) key = .error failure) :
    opening room table key payload token = .error failure := by
  refine Outcome.bind_error.mpr (.inr ⟨_, Verification.split_ok.mpr parted, ?_⟩)
  refine Outcome.bind_error.mpr (.inr ⟨members, readHeader_ok.mpr declared, ?_⟩)
  exact Outcome.bind_error.mpr (.inl unfit)

theorem opening_unforeseen (unforeseen : Unforeseen room table key token failure) :
    opening room table key payload token = .error failure := by
  cases unforeseen with
  | nested parted decoded deep =>
    apply opening_unread parted
    rw [readHeader_decoded decoded, deep]
  | critical parted unencoded found scalar =>
    obtain ⟨bytes, decoded, parsed, literal⟩ := unencoded
    apply opening_unread parted
    rw [readHeader_decoded decoded, parsed]
    exact judged_scalar literal found scalar
  | curve parted declared announced unnamed =>
    exact opening_unfit parted declared (checkAlgorithm_unnamed announced unnamed)
  | container parted declared announced known other unnamed =>
    exact opening_unfit parted declared (checkAlgorithm_container announced known other unnamed)

end Opening

end DetachedJws

namespace Suite

open DetachedJws

variable {room : Json.Room} {table : CurveTable} {key : PublicKey}
  {payload message signature : Bytes} {token : Text} {failure : Failure}

/-- Whatever the suite is, its verifier decides on the signature of the message. -/
def Hands (room : Json.Room) (table : CurveTable) (key : PublicKey) (payload : Bytes) (token : Text)
    (message signature : Bytes) : Prop :=
  ∀ (σ : Type) (s : Suite σ), s.headerRoom = room →
    s.verify table key payload .jws token = s.verifier key message signature

/-- Whatever the suite is, the token is refused and its verifier is not asked. -/
def Refuses (room : Json.Room) (table : CurveTable) (key : PublicKey) (payload : Bytes)
    (token : Text) (failure : Failure) : Prop :=
  ∀ (σ : Type) (s : Suite σ), s.headerRoom = room →
    s.verify table key payload .jws token = throw failure

private theorem hands_of_opening
    (opened : DetachedJws.opening room table key payload token = .ok (message, signature)) :
    Hands room table key payload token message signature := by
  intro σ s size
  rw [verify, Suite.opening, size, opened]
  rfl

private theorem refuses_of_opening
    (stopped : DetachedJws.opening room table key payload token = .error failure) :
    Refuses room table key payload token failure := by
  intro σ s size
  rw [verify, Suite.opening, size, stopped]
  rfl

private def only (room : Json.Room) (message signature : Bytes) : Suite Unit where
  type := defaultType
  signer := none
  verifier := fun _ m s =>
    if m = message ∧ s = signature then pure () else throw (.proof .invalidSignature)
  canonicalizer := ⟨false, room⟩
  headerRoom := room
  digest := Digest.sha256

private theorem only_takes {m s : Bytes} :
    ((only room message signature).verifier key m s).Ends () (.ok ()) () ↔
      m = message ∧ s = signature := by
  change (if m = message ∧ s = signature then pure () else throw _ :
    Action Unit Unit).Ends _ _ _ ↔ _
  split
  · rename_i same
    exact iff_of_true (Action.ends_pure.mpr ⟨rfl, rfl⟩) same
  · rename_i differ
    refine iff_of_false ?_ differ
    intro taken
    cases (Action.ends_throw.mp taken).1

theorem hands_iff : Hands room table key payload token message signature ↔
    DetachedJws.opening room table key payload token = .ok (message, signature) := by
  refine ⟨fun hands => ?_, hands_of_opening⟩
  -- A verifier that tells this message and signature from all others finds out which it is given.
  have taken := (@only_takes room key message signature message signature).mpr ⟨rfl, rfl⟩
  rw [← hands Unit (only room message signature) rfl] at taken
  cases opened : DetachedJws.opening room table key payload token with
  | error failure =>
    rw [refuses_of_opening opened Unit (only room message signature) rfl] at taken
    cases (Action.ends_throw.mp taken).1
  | ok found =>
    obtain ⟨m, s⟩ := found
    rw [hands_of_opening opened Unit (only room message signature) rfl] at taken
    obtain ⟨rfl, rfl⟩ := only_takes.mp taken
    rfl

theorem refuses_iff : Refuses room table key payload token failure ↔
    DetachedJws.opening room table key payload token = .error failure := by
  refine ⟨fun refuses => ?_, refuses_of_opening⟩
  have stopped : (throw failure : Action Unit Unit).Ends () (.error failure) () :=
    Action.ends_throw.mpr ⟨rfl, rfl⟩
  rw [← refuses Unit { trusting with headerRoom := room } rfl] at stopped
  cases opened : DetachedJws.opening room table key payload token with
  | error reason =>
    rw [refuses_of_opening opened Unit { trusting with headerRoom := room } rfl] at stopped
    rw [Except.error.inj (Action.ends_throw.mp stopped).1]
  | ok found =>
    rw [hands_of_opening opened Unit { trusting with headerRoom := room } rfl] at stopped
    cases (Action.ends_pure.mp stopped).1

/-- A token puts its signature before the verifier, with its own header part in front of the
payload, exactly if it opens. Every other token is refused without asking the verifier, with a
failure of verification or with one of the unforeseen ones, and each of those does come up. -/
theorem tokens_classified (room : Json.Room) (table : CurveTable) (key : PublicKey)
    (payload : Bytes) (token : Text) :
    (∀ message signature, Hands room table key payload token message signature ↔
      ∃ header, Opens room table key token header signature ∧
        message = Bytes.ofCodes header ++ 0x2E :: payload) ∧
    ((¬∃ header signature, Opens room table key token header signature) →
      ∃ failure, Refuses room table key payload token failure ∧
        (IsRefusal failure ∨ Unforeseen room table key token failure)) ∧
    ∀ failure, Unforeseen room table key token failure →
      Refuses room table key payload token failure ∧ ¬IsRefusal failure := by
  refine ⟨?_, ?_, ?_⟩
  · intro message signature
    rw [hands_iff, opening_iff]
  · intro closed
    cases opened : DetachedJws.opening room table key payload token with
    | ok found =>
      obtain ⟨header, opens, _⟩ := opening_iff.mp opened
      exact absurd ⟨header, _, opens⟩ closed
    | error failure => exact ⟨failure, refuses_iff.mpr opened, opening_error opened⟩
  · intro failure unforeseen
    refine ⟨refuses_iff.mpr (opening_unforeseen unforeseen), ?_⟩
    rintro ⟨cause, rfl, _⟩
    cases unforeseen

section Loose

def looseMembers (crit : Json) : Members :=
  [("alg", .text "ES256"), ("b64", .bool false), ("crit", crit)]

def looseHeader (crit : Json) : Text :=
  Base64.encode (((Json.object (looseMembers crit)).render .literal).flatMap Utf8.encodePoint)

def looseToken (crit : Json) : Text := DetachedJws.token (looseHeader crit) [1]

def looseKey : PublicKey := .encoded [] (.text "P-256") PublicKey.defaultType

private theorem loose_parted (crit : Json) : Parted (looseToken crit) (looseHeader crit) [1] :=
  parted_token (Base64.encode_clear _) [1]

private theorem loose_unencoded {crit : Json} (fits : ∀ room, Json.Fits room crit)
    (clear : ¬Json.HoldsBroken (.object (looseMembers crit)))
    (back : (Json.object (looseMembers crit)).readBack false = .object (looseMembers crit)) :
    Unencoded Json.usualRoom (looseHeader crit) (looseMembers crit) := by
  have whole : Json.Fits Json.usualRoom (.object (looseMembers crit)) := by
    apply Json.Fits.object
    intro m member
    simp only [looseMembers, List.mem_cons, List.not_mem_nil, or_false] at member
    rcases member with rfl | rfl | rfl
    · exact .text _
    · exact .bool _
    · exact fits _
  have written := (not_congr (Json.broken_write 0 _)).mpr clear
  have parsed := Json.parseBytes_render whole written
  rw [back] at parsed
  exact ⟨_, decodePart_encode _, parsed, rfl⟩

private theorem text_unencoded :
    Unencoded Json.usualRoom (looseHeader (.text "b64")) (looseMembers (.text "b64")) :=
  loose_unencoded (fun _ => .text _) (by decide) rfl

private theorem null_unencoded :
    Unencoded Json.usualRoom (looseHeader .null) (looseMembers .null) :=
  loose_unencoded (fun _ => .null) (by decide) rfl

private theorem text_opens :
    Opens Json.usualRoom CurveTable.initial looseKey (looseToken (.text "b64"))
      (looseHeader (.text "b64")) [1] :=
  ⟨loose_parted _, _, ⟨text_unencoded, _, rfl, .part (List.infix_refl _)⟩, rfl⟩

private theorem null_unforeseen :
    Unforeseen Json.usualRoom CurveTable.initial looseKey (looseToken .null)
      (.wrongKind (.notContainer "NoneType")) :=
  .critical (loose_parted _) null_unencoded rfl rfl

theorem tokens_classified_loose :
    Hands Json.usualRoom CurveTable.initial looseKey [] (looseToken (.text "b64"))
      (Bytes.ofCodes (looseHeader (.text "b64")) ++ [0x2E]) [1] ∧
    Refuses Json.usualRoom CurveTable.initial looseKey [] (looseToken .null)
      (.wrongKind (.notContainer "NoneType")) := by
  constructor
  · have taken := (tokens_classified Json.usualRoom CurveTable.initial looseKey []
      (looseToken (.text "b64"))).1
    exact (taken _ _).mpr ⟨_, text_opens, rfl⟩
  · have refused := (tokens_classified Json.usualRoom CurveTable.initial looseKey []
      (looseToken .null)).2.2
    exact (refused _ null_unforeseen).1

def OpensByArray (room : Nat) (table : CurveTable) (key : PublicKey) (token header : Text)
    (signature : Bytes) : Prop :=
  Parted token header signature ∧ ∃ members items, Unencoded room header members ∧
    members.get? "crit" = some (.array items) ∧ Json.text "b64" ∈ items ∧
      checkAlgorithm table (algorithm members) key = .ok ()

private theorem text_not_array : ¬∃ header signature,
    OpensByArray Json.usualRoom CurveTable.initial looseKey (looseToken (.text "b64")) header
      signature := by
  rintro ⟨header, signature, parted, members, items, unencoded, found, member, _⟩
  -- A token is split in one way and its header read as one object, whose `crit` is the text.
  have split := (Verification.split_ok.mpr parted).symm.trans
    (Verification.split_ok.mpr (loose_parted (.text "b64")))
  obtain ⟨rfl, rfl⟩ := Prod.mk.inj (Except.ok.inj split)
  have read := readHeader_ok.mpr ⟨unencoded, _, found, .item member⟩
  rw [readHeader_ok.mpr ⟨text_unencoded, _, rfl, .part (List.infix_refl _)⟩] at read
  obtain rfl := Except.ok.inj read
  cases found

/-- Not every token that is handed over has an array for its `crit`, and not every other token is
refused by a failure of verification. -/
theorem tokens_not_strict :
    (¬∀ (room : Json.Room) (table : CurveTable) (key : PublicKey) (payload : Bytes) (token : Text)
      (message signature : Bytes), Hands room table key payload token message signature →
      ∃ header, OpensByArray room table key token header signature ∧
        message = Bytes.ofCodes header ++ 0x2E :: payload) ∧
    ¬∀ (room : Json.Room) (table : CurveTable) (key : PublicKey) (payload : Bytes) (token : Text),
      (¬∃ header signature, OpensByArray room table key token header signature) →
      ∃ failure, Refuses room table key payload token failure ∧ IsRefusal failure := by
  constructor
  · intro strict
    have hands := hands_iff.mpr (text_opens.opening [])
    obtain ⟨header, opens, _⟩ := strict _ _ _ _ _ _ _ hands
    exact text_not_array ⟨header, _, opens⟩
  · intro strict
    have stopped := @opening_unforeseen _ _ _ [] _ _ null_unforeseen
    have closed : ¬∃ header signature,
        OpensByArray Json.usualRoom CurveTable.initial looseKey (looseToken .null) header
          signature := by
      rintro ⟨header, signature, parted, members, items, unencoded, found, member, fits⟩
      have opens : Opens Json.usualRoom CurveTable.initial looseKey (looseToken .null) header
          signature :=
        ⟨parted, members, ⟨unencoded, _, found, .item member⟩, fits⟩
      cases stopped.symm.trans (opens.opening [])
    obtain ⟨failure, refused, cause, rfl, _⟩ :=
      strict Json.usualRoom CurveTable.initial looseKey [] _ closed
    cases stopped.symm.trans (refuses_iff.mp refused)

end Loose

end Suite

end LinkedProof
