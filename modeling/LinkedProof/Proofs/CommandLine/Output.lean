import LinkedProof.CommandLine
import LinkedProof.Proofs.CommandLine.SignedFile

/-! What signing leaves in the file for its output. Before the text of the signed document is put
there the file is emptied, and the document holds proofs that were signed by nobody in this run: if
one of them holds half of a surrogate pair, the text has no bytes and the file stays empty. -/
namespace LinkedProof

open Json (Broken HoldsBroken)

section Documents

variable {ms : Members} {key : Text} {value : Json} {d : Document} {list : List Members}

theorem Members.get?_of_mem (distinct : ms.Distinct) (member : (key, value) ∈ ms) :
    ms.get? key = some value := by
  induction ms with
  | nil => cases member
  | cons m rest ih =>
    obtain ⟨k, v⟩ := m
    obtain ⟨first, others⟩ := List.nodup_cons.mp distinct
    rcases List.mem_cons.mp member with same | later
    · obtain ⟨rfl, rfl⟩ := Prod.mk.inj same
      exact if_pos rfl
    · have apart : k ≠ key := by
        rintro rfl
        exact first (List.mem_map.mpr ⟨_, later, rfl⟩)
      exact (if_neg apart).trans (ih others later)

theorem Stores.holdsBroken (stores : Stores (some value) list) :
    HoldsBroken value ↔ ∃ proof ∈ list, HoldsBroken (.object proof) := by
  cases stores with
  | object proof => simp
  | array several => simp [Json.holdsBroken_array]

/-- Half of a surrogate pair stands in a proof or in another member. -/
theorem Document.holdsBroken_iff (distinct : Members.Distinct d)
    (stores : Stores (d.get? proofKey) list) : HoldsBroken (.object d) ↔
      (∃ proof ∈ list, HoldsBroken (.object proof)) ∨
        HoldsBroken (.object (d.erase proofKey)) := by
  have clear : ¬Broken proofKey := by decide
  constructor
  · intro broken
    obtain ⟨⟨name, value⟩, member, half⟩ := Json.holdsBroken_object.mp broken
    by_cases proofs : name = proofKey
    · subst proofs
      rw [Members.get?_of_mem distinct member] at stores
      exact .inl (stores.holdsBroken.mp (half.resolve_left clear))
    · have other : (name, value) ∈ d.erase proofKey := Members.mem_erase.mpr ⟨member, proofs⟩
      exact .inr (Json.holdsBroken_object.mpr ⟨_, other, half⟩)
  · rintro (⟨proof, listed, broken⟩ | broken)
    · cases found : d.get? proofKey with
      | none =>
        rw [found] at stores
        cases stores
        cases listed
      | some value =>
        rw [found] at stores
        exact .value (Members.mem_of_get? found) (stores.holdsBroken.mpr ⟨proof, listed, broken⟩)
    · exact broken.subset (Members.erase_subset d proofKey)

theorem Document.addProof_distinct (distinct : Members.Distinct d) (proof : Members) :
    Members.Distinct (d.addProof proof) := by
  rw [addProof]
  split
  · exact distinct.set
  · exact distinct

theorem Suite.signatureText_clear (algorithm : Text) (signature : Bytes) (r : Representation) :
    ¬Broken (signatureText algorithm signature r) := by
  have base64 (bytes : Bytes) : ¬Broken (Base64.encode bytes) :=
    Json.not_broken_of_ascii (List.all_eq_true.mp (Base64.encode_ascii bytes))
  have dots : ¬Broken (Text.ofString "..") := by decide
  cases r with
  | proofValue => exact base64 signature
  | jws =>
    rw [signatureText, DetachedJws.token, DetachedJws.headerPart]
    simp [Text.concat, base64, dots]

end Documents

namespace CommandLine

open Files (Replaced)

variable {σ : Type} {s : Surroundings σ} {settings : Settings} {o : SignOptions} {st : σ}
  {d d' : Document} {p : Path} {files : Files} {args : List Text}

/-- Signing looks at everything in a document but the proofs that are there already. -/
theorem Signed.holdsBroken (signed : Signed s settings o st d d') :
    HoldsBroken (.object d') ↔ ∃ proof ∈ d.proofs, HoldsBroken (.object proof) := by
  obtain ⟨_, loaded⟩ := signed.source
  obtain ⟨request, _, @⟨_, created, value, _, _, _, _, data, sealed⟩, rfl, _, _, chain⟩ :=
    signed.made
  have clear : ¬Broken value := by
    obtain ⟨signer, signature, _, _, rfl⟩ := Suite.sign_ok.mp sealed
    exact Suite.signatureText_clear _ _ _
  obtain ⟨_, _, optionBytes, documentBytes, _⟩ := Suite.verifyData_ok.mp data
  have others : ¬HoldsBroken (.object (d.erase Document.proofKey)) := by
    rw [Document.canonicalize, chain, Document.signed_set] at documentBytes
    exact (Document.serialize_ok.mp documentBytes).1.1
  have options := ProofRequest.clear_options optionBytes
  have made : ¬HoldsBroken (.object ((request.options created).set request.representation.key
      (.text value))) := by
    intro broken
    obtain ⟨m, member, half⟩ := Json.holdsBroken_object.mp broken
    rcases Members.mem_set member with rfl | before
    · have key : ¬Broken request.representation.key := by cases request.representation <;> decide
      exact absurd (Json.holdsBroken_text.mp (half.resolve_left key)) clear
    · exact options (Json.holdsBroken_object.mpr ⟨m, before, half⟩)
  have distinct : Members.Distinct d := by
    obtain ⟨place, settled⟩ := load_settled loaded
    exact settled.distinct
  rw [Document.holdsBroken_iff (Document.addProof_distinct distinct _)
    (Document.addProof_stores d _), Document.addProof_erase]
  simp [others, made, or_and_right, exists_or]

section Storing

variable {t : Text} {emptied : Files} {failure : Failure}

theorem store_closed (closed : files.write p [] = .error failure) :
    store files p t = (files, .error failure) := by
  rw [store, closed]

theorem store_broken (opened : files.write p [] = .ok emptied) (broken : Broken t) :
    ∃ fault, store files p t = (emptied, .error (.unfit (.encoding fault))) := by
  obtain ⟨fault, stopped⟩ := Utf8.encodeFrom_surrogate 0 t broken
  refine ⟨fault, ?_⟩
  rw [store, opened, Utf8.encode, stopped]

theorem store_clear (opened : files.write p [] = .ok emptied) (clear : ¬Broken t) :
    ∃ bytes written, Utf8.encode t = .ok bytes ∧ files.write p bytes = .ok written ∧
      store files p t = (written, .ok ()) := by
  have encoded : Utf8.encode t = .ok _ := Utf8.encode_ok.mpr ⟨by simpa [Broken] using clear, rfl⟩
  cases put : files.write p (t.flatMap Utf8.encodePoint) with
  | error failure => cases (Files.write_error put []).symm.trans opened
  | ok written =>
    refine ⟨_, written, encoded, put, ?_⟩
    rw [store, opened, encoded]
    simp only [put]

end Storing

def announcement (p : Path) : Text := "Wrote signed document to " ++ p.text

def signedText (d' : Document) : Text := (Json.object d').render .pretty ++ "\n"

private theorem showing_accepted (files : Files) (console : Console) (markup : Text) :
    (showing files accepted console markup []).ending.code = 0 ↔ console.Prints markup := by
  by_cases prints : console.Prints markup
  · exact iff_of_true (showing_printed prints) prints
  · rw [showing_unprinted prints]
    exact iff_of_false nofun prints

/-- Signing turns the document from the source into another one that there is room to write, and its
file can be opened. -/
structure Ready (s : Surroundings σ) (settings : Settings) (o : SignOptions) (p : Path) (st : σ)
    (d d' : Document) : Prop where
  loaded : ∃ between, (Source.load s settings.httpTimeout o.source).run.run st =
    (.ok (.object d), between)
  signed : ((signed s settings o).run.run st).1 = .ok d'
  roomy : (Json.object d').depth ≤ s.room .output
  opens : ∃ emptied, s.files.write p [] = .ok emptied

private theorem sign_delivers (ended : ((signed s settings o).run.run st).1 = .ok d') :
    ((sign s settings o).run st).1 = deliver s o.output d' := by
  rw [sign, StateT.run_bind]
  generalize (signed s settings o).run.run st = result at ended ⊢
  obtain ⟨r, after⟩ := result
  obtain rfl : r = .ok d' := ended
  rfl

private theorem sign_fails {fault : CommandFault}
    (ended : ((signed s settings o).run.run st).1 = .error fault) :
    ((sign s settings o).run st).1 = signFailed s.files fault := by
  rw [sign, StateT.run_bind]
  generalize (signed s settings o).run.run st = result at ended ⊢
  obtain ⟨r, after⟩ := result
  obtain rfl : r = .error fault := ended
  rfl

private theorem Ready.made (ready : Ready s settings o p st d d') :
    Signed s settings o st d d' := by
  obtain ⟨d₁, made⟩ := signed_ok ready.signed
  obtain ⟨_, loaded⟩ := ready.loaded
  obtain ⟨_, loaded'⟩ := made.source
  have same := congrArg Prod.fst (loaded'.symm.trans loaded)
  obtain rfl := Json.object.inj (Except.ok.inj same)
  exact made

private theorem sign_unready (output : o.output = some p)
    (unready : ¬∃ d d', Ready s settings o p st d d') :
    ((sign s settings o).run st).1.ending.code ≠ 0 ∧
      ((sign s settings o).run st).1.files = s.files := by
  cases ended : ((signed s settings o).run.run st).1 with
  | error fault =>
    rw [sign_fails ended]
    unfold signFailed
    split <;> exact ⟨Nat.succ_ne_zero _, rfl⟩
  | ok d' =>
    obtain ⟨d, made⟩ := signed_ok ended
    rw [sign_delivers ended, output, deliver]
    by_cases deep : s.room .output < (Json.object d').depth
    · rw [if_pos deep]
      exact ⟨Nat.succ_ne_zero _, rfl⟩
    · have roomy := Nat.not_lt.mp deep
      rw [if_neg deep]
      cases opened : s.files.write p [] with
      | ok emptied => exact absurd ⟨d, d', made.source, ended, roomy, emptied, opened⟩ unready
      | error failure =>
        dsimp only
        rw [store_closed opened]
        exact ⟨Nat.succ_ne_zero _, rfl⟩

private theorem Ready.delivers (ready : Ready s settings o p st d d') :
    deliver s (some p) d' = match store s.files p (signedText d') with
      | (files, .ok ()) => showing files accepted s.console (announcement p) []
      | (files, .error failure) => failing files failure :=
  if_neg (Nat.not_lt.mpr ready.roomy)

private theorem sign_broken (output : o.output = some p) (ready : Ready s settings o p st d d')
    (broken : ∃ proof ∈ d.proofs, HoldsBroken (.object proof)) :
    ((sign s settings o).run st).1.ending.code ≠ 0 ∧
      Replaced s.files ((sign s settings o).run st).1.files p [] := by
  obtain ⟨emptied, opened⟩ := ready.opens
  have broken' : Broken (signedText d') := broken_line.mpr (ready.made.holdsBroken.mpr broken)
  obtain ⟨fault, stored⟩ := store_broken opened broken'
  rw [sign_delivers ready.signed, output, ready.delivers, stored]
  exact ⟨Nat.succ_ne_zero _, Files.replaced_of_write opened⟩

private theorem sign_clear (output : o.output = some p) (ready : Ready s settings o p st d d')
    (clear : ¬∃ proof ∈ d.proofs, HoldsBroken (.object proof)) :
    (((sign s settings o).run st).1.ending.code = 0 ↔ s.console.Prints (announcement p)) ∧
      ∃ bytes, Utf8.encode (signedText d') = .ok bytes ∧
        Replaced s.files ((sign s settings o).run st).1.files p bytes := by
  obtain ⟨emptied, opened⟩ := ready.opens
  have clear' : ¬Broken (signedText d') := fun broken =>
    clear (ready.made.holdsBroken.mp (broken_line.mp broken))
  obtain ⟨bytes, written, encoded, put, stored⟩ := store_clear opened clear'
  rw [sign_delivers ready.signed, output, ready.delivers, stored]
  dsimp only
  rw [showing_accepted, showing_files]
  exact ⟨Iff.rfl, bytes, encoded, Files.replaced_of_write put⟩

private theorem halted_files (files : Files) (halt : Halt) : (halted files halt).files = files := by
  cases halt with
  | printed t =>
    rw [halted, printing]
    split <;> rfl
  | _ => rfl

/-- A run that is to write a signed document leaves all files as they are, with a status of failure,
unless it signs the document with room to write it and opens the file for it. From there on the file
is replaced in any case. It is emptied, with a status of failure, if one of the proofs that the
document had holds half of a surrogate pair. Otherwise it holds the whole text of the signed
document, and the run is a success exactly if the console can show the path as the markup for which
it is taken. -/
theorem output_settled (s : Surroundings σ) (args : List Text) (st : σ) :
    let result := ((run s args).run st).1
    (∀ halt, command s args = .error halt → result.files = s.files) ∧
    ∀ settings o p, command s args = .ok (settings, .sign o) → o.output = some p →
      ((¬∃ d d', Ready s settings o p st d d') →
        result.ending.code ≠ 0 ∧ result.files = s.files) ∧
      ∀ d d', Ready s settings o p st d d' →
        ((∃ proof ∈ d.proofs, HoldsBroken (.object proof)) →
          result.ending.code ≠ 0 ∧ Replaced s.files result.files p []) ∧
        ((¬∃ proof ∈ d.proofs, HoldsBroken (.object proof)) →
          (result.ending.code = 0 ↔ s.console.Prints (announcement p)) ∧
          ∃ bytes, Utf8.encode (signedText d') = .ok bytes ∧
            Replaced s.files result.files p bytes) := by
  intro result
  constructor
  · intro halt stopped
    have halts : result = halted s.files halt := by
      simp only [result, run, stopped]
      rfl
    rw [halts, halted_files]
  · intro settings o p read output
    have signs : result = ((sign s settings o).run st).1 := by simp only [result, run, read]
    rw [signs]
    exact ⟨sign_unready output, fun d d' ready =>
      ⟨sign_broken output ready, sign_clear output ready⟩⟩

section Spoiling

def halfSigned : Document :=
  [("id", .text "urn:1"), ("proof", .object [("note", .text [CodePoint.ofNat 0xD800])])]

def crowdedDesk : Surroundings Unit :=
  { desk with files := [
    (["doc"], .file ⟨Bytes.ofCodes ((Json.object halfSigned).render .ascii), Files.newMode⟩),
    (["key"], .file ⟨Bytes.ofCodes (KeyFile.write LocalSigner.unitKey), Files.newMode⟩)] }

def resealing : SignOptions := { sealing with output := some (Path.ofText "doc") }

def resealingArguments : List Text :=
  ["sign", "doc", "--key", "key", "--verification-method", "did:ex:1#k", "--representation",
    "proofValue", "--time-format", "rfc3339-seconds", "--output", "doc"]

set_option maxRecDepth 20000 in
private theorem resealing_read :
    command crowdedDesk resealingArguments = .ok (.standard, .sign resealing) := by rfl

private theorem resealing_signed :
    ((signed crowdedDesk .standard resealing).run.run ()).1.toOption.any fun d =>
      (Json.object d).depth ≤ crowdedDesk.room .output := by
  decide +kernel

set_option maxRecDepth 20000 in
private theorem halfSigned_held :
    HoldsValue (crowdedDesk.room .file) crowdedDesk.files (Path.ofText "doc")
      (.object halfSigned) :=
  ⟨_, _, rfl, rfl, rfl⟩

private theorem resealing_ready :
    ∃ d', Ready crowdedDesk .standard resealing (Path.ofText "doc") () halfSigned d' := by
  have names : NamesFile "doc" (Path.ofText "doc") := ⟨by decide, by decide, rfl⟩
  have made := resealing_signed
  cases result : ((signed crowdedDesk .standard resealing).run.run ()).1 with
  | ok d' =>
    rw [result] at made
    exact ⟨d', ⟨(), load_value names halfSigned_held⟩, result, of_decide_eq_true made, _, rfl⟩
  | error fault =>
    rw [result] at made
    cases made

private theorem halfSigned_broken : ∃ proof ∈ halfSigned.proofs, HoldsBroken (.object proof) :=
  ⟨_, .head _, .value (.head _) (.text (by decide))⟩

theorem output_settled_crowded : ∃ d',
    Ready crowdedDesk .standard resealing (Path.ofText "doc") () halfSigned d' ∧
    ((run crowdedDesk resealingArguments).run ()).1.ending.code ≠ 0 ∧
    Replaced crowdedDesk.files ((run crowdedDesk resealingArguments).run ()).1.files
      (Path.ofText "doc") [] := by
  obtain ⟨d', ready⟩ := resealing_ready
  obtain ⟨_, signs⟩ := output_settled crowdedDesk resealingArguments ()
  obtain ⟨_, delivers⟩ := signs _ _ _ resealing_read rfl
  exact ⟨d', ready, (delivers _ d' ready).1 halfSigned_broken⟩

/-- A run that fails can leave its file with other bytes than it had: here the source itself is
lost. -/
theorem output_not_safe : ¬∀ (s : Surroundings Unit) (args : List Text) (settings : Settings)
    (o : SignOptions) (p : Path), command s args = .ok (settings, .sign o) → o.output = some p →
    ((run s args).run ()).1.ending.code ≠ 0 →
    ((run s args).run ()).1.files.read p = s.files.read p := by
  intro safe
  obtain ⟨d', ready⟩ := resealing_ready
  obtain ⟨failed, replaced⟩ := sign_broken rfl ready halfSigned_broken
  have signs : run crowdedDesk resealingArguments = sign crowdedDesk .standard resealing := by
    simp only [run, resealing_read]
  have kept := safe _ _ _ _ _ resealing_read rfl (by rwa [signs])
  rw [signs, replaced.read] at kept
  cases kept

end Spoiling

end CommandLine

end LinkedProof
