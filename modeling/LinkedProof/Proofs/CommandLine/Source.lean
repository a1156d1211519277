import LinkedProof.CommandLine.Verify
import LinkedProof.Proofs.Action
import LinkedProof.Proofs.Files
import LinkedProof.Proofs.Json.Settled
import LinkedProof.Proofs.Text

/-! What a check of a document reads, and which of the ways to fail in reading it the command has no
answer for: text that nests deeper than there is room for, a client that fails by something of its
own, and a key that is no object. -/
namespace LinkedProof.CommandLine

variable {σ : Type} {s : Surroundings σ} {st : σ} {files : Files} {path : Path}
  {t source value : Text} {timeout : Binary64} {failure : Failure} {room : Nat}

section Sources

def TooDeep (room : Nat) (t : Text) : Prop :=
  ∃ container, Json.parse room t = .error (.depth container)

def Answered (failure : Failure) : Prop :=
  (∃ cause, failure = .proof cause) ∨ failure.isUnfit = true ∨ failure.isSystem = true

theorem Answered.unfit (fault : Unfit) : Answered (.unfit fault) := .inr (.inl rfl)

theorem Answered.file (fault : FileFault) : Answered (.file fault) := .inr (.inr rfl)

theorem reports_failure : verifyReports (.failure failure) = true ↔ Answered failure := by
  cases failure <;> simp [verifyReports, Answered, Failure.isUnfit, Failure.isSystem]

private theorem checkText_answered (stopped : Files.checkText t = .error failure) :
    Answered failure := by
  rw [Files.checkText] at stopped
  split at stopped
  · obtain rfl := Except.error.inj stopped
    exact .unfit _
  · split at stopped
    · obtain rfl := Except.error.inj stopped
      exact .unfit _
    · split at stopped
      · obtain rfl := Except.error.inj stopped
        exact .file _
      · cases stopped

private theorem followPath_answered (stopped : Files.followPath files path = .error failure) :
    Answered failure := by
  rw [Files.followPath, Outcome.bind_error] at stopped
  rcases stopped with unfit | ⟨_, _, followed⟩
  · exact checkText_answered unfit
  · split at followed
    · cases followed
    · obtain rfl := Except.error.inj followed
      exact .file _

theorem holds_answered (stopped : files.holds path = .error failure) : Answered failure := by
  rw [Files.holds] at stopped
  split at stopped
  · cases stopped
  · obtain rfl := Except.error.inj stopped
    exact .file _
  · cases stopped

private theorem decode_answered {bytes : Bytes} (stopped : Source.decode bytes = .error failure) :
    Answered failure := by
  rw [Source.decode] at stopped
  split at stopped
  · cases stopped
  · obtain rfl := Except.error.inj stopped
    exact .unfit _

theorem readText_answered (stopped : Source.readText files t = .error failure) :
    Answered failure := by
  rw [Source.readText, Outcome.bind_error] at stopped
  rcases stopped with unread | ⟨bytes, _, undecoded⟩
  · rw [Files.read, Outcome.bind_error] at unread
    rcases unread with unfollowed | ⟨node, _, directory⟩
    · exact followPath_answered unfollowed
    · split at directory
      · cases directory
      · obtain rfl := Except.error.inj directory
        exact .file _
  · exact decode_answered undecoded

private theorem refuse_reports {fault : Json.BytesFault} :
    verifyReports (Source.refuse fault) = false ↔
      ∃ container, fault = .text (.depth container) := by
  cases fault with
  | encoding fault => simp [Source.refuse, Failure.ofJson, verifyReports, Failure.isUnfit]
  | text fault =>
    cases fault <;> simp [Source.refuse, Failure.ofJson, verifyReports, Failure.isUnfit,
      Failure.isSystem]

/-- Of the text of a document nothing but its depth goes unanswered. -/
theorem parse_escapes {text : Outcome Text}
    (answered : ∀ failure, text = .error failure → Answered failure) :
    (∃ fault, Source.parse room text = .error fault ∧ verifyReports fault = false) ↔
      ∃ t, text = .ok t ∧ TooDeep room t := by
  cases text with
  | error failure =>
    have reported := reports_failure.mpr (answered failure rfl)
    simp [Source.parse, reported]
  | ok t =>
    have parsed : Source.parse room (.ok t) = (Json.parse room t).mapError fun fault =>
      Source.refuse (.text fault) := rfl
    cases read : Json.parse room t with
    | ok v => simp [parsed, read, TooDeep]
    | error fault => simp [parsed, read, TooDeep, refuse_reports]

def documentRequest (timeout : Binary64) (source : Text) : Http.Request :=
  ⟨"GET", source, .fractional timeout, true, Source.accept, none⟩

/-- No value comes from a source, for a reason that the command does not answer for. -/
inductive SourceEscapes (s : Surroundings σ) (timeout : Binary64) (source : Text) (st : σ) : Prop
  | input {t : Text} (standard : source = Text.ofString "-") (text : Source.decode s.input = .ok t)
    (deep : TooDeep (s.room .input) t)
  | file {t : Text} (notStandard : source ≠ Text.ofString "-")
    (notAddress : Source.isAddress source = false)
    (there : s.files.holds (Path.ofText source) = .ok true)
    (text : Source.readText s.files source = .ok t) (deep : TooDeep (s.room .file) t)
  | reply {status : Int} {body : Bytes} {after : σ} {container : Json.Container}
    (notStandard : source ≠ Text.ofString "-") (address : Source.isAddress source = true)
    (replied : s.client (documentRequest timeout source) st = (.response status body, after))
    (success : Http.isSuccess status = true)
    (deep : Json.parseBytes (s.room .reply) body = .error (.text (.depth container)))
  | client {failure : Failure} {after : σ} (notStandard : source ≠ Text.ofString "-")
    (address : Source.isAddress source = true)
    (failed : s.client (documentRequest timeout source) st = (.failed failure, after))
    (notRequest : failure.isRequest = false) (unanswered : ¬Answered failure)

private theorem ofFile_escapes : (∃ fault, Source.ofFile room files source = .error fault ∧
    verifyReports fault = false) ↔ files.holds (Path.ofText source) = .ok true ∧
      ∃ t, Source.readText files source = .ok t ∧ TooDeep room t := by
  rw [Source.ofFile]
  split
  · rename_i there
    simp [there, parse_escapes fun failure => readText_answered]
  · rename_i missing
    simp [missing, verifyReports]
  · rename_i failure stopped
    simp [stopped, reports_failure.mpr (holds_answered stopped)]

private theorem ofReply_escapes {reply : Http.Reply} :
    (∃ fault, Source.ofReply room source reply = .error fault ∧ verifyReports fault = false) ↔
      (∃ status body container, reply = .response status body ∧ Http.isSuccess status = true ∧
        Json.parseBytes room body = .error (.text (.depth container))) ∨
      ∃ failure, reply = .failed failure ∧ failure.isRequest = false ∧ ¬Answered failure := by
  cases reply with
  | response status body =>
    by_cases success : Http.isSuccess status = true
    · cases read : Json.parseBytes room body with
      | ok v => simp [Source.ofReply, success, read]
      | error fault =>
        have refused : Source.ofReply room source (.response status body) =
            .error (Source.refuse fault) := by
          simp [Source.ofReply, success, read]
        constructor
        · rintro ⟨_, stopped, unanswered⟩
          obtain rfl := Except.error.inj (refused.symm.trans stopped)
          obtain ⟨container, rfl⟩ := refuse_reports.mp unanswered
          exact .inl ⟨status, body, container, rfl, success, read⟩
        · rintro (⟨_, _, container, same, _, deep⟩ | ⟨_, same, _⟩)
          · obtain ⟨rfl, rfl⟩ := Http.Reply.response.inj same
            obtain rfl := Except.error.inj (read.symm.trans deep)
            exact ⟨_, refused, refuse_reports.mpr ⟨container, rfl⟩⟩
          · cases same
    · simp [Source.ofReply, success, verifyReports]
  | failed failure =>
    cases request : failure.isRequest with
    | true => simp [Source.ofReply, request, verifyReports]
    | false => simp [Source.ofReply, request, ← reports_failure]

private theorem load_input (standard : source = Text.ofString "-") :
    (Source.load s timeout source).run.run st =
      (Source.parse (s.room .input) (Source.decode s.input), st) := by
  rw [Source.load, if_pos standard]
  rfl

private theorem load_address (notStandard : source ≠ Text.ofString "-")
    (address : Source.isAddress source = true) : (Source.load s timeout source).run.run st =
      (Source.ofReply (s.room .reply) source (s.client (documentRequest timeout source) st).1,
        (s.client (documentRequest timeout source) st).2) := by
  rw [Source.load, if_neg notStandard, if_pos address]
  rfl

theorem load_file (notStandard : source ≠ Text.ofString "-")
    (notAddress : Source.isAddress source = false) :
    (Source.load s timeout source).run.run st =
      (Source.ofFile (s.room .file) s.files source, st) := by
  rw [Source.load, if_neg notStandard, if_neg (by rw [notAddress]; decide)]
  rfl

theorem load_escapes : (∃ fault after,
    (Source.load s timeout source).run.run st = (.error fault, after) ∧
      verifyReports fault = false) ↔ SourceEscapes s timeout source st := by
  constructor
  · rintro ⟨fault, after, stopped, unanswered⟩
    by_cases standard : source = Text.ofString "-"
    · rw [load_input standard] at stopped
      obtain ⟨t, text, deep⟩ := (parse_escapes fun failure => decode_answered).mp
        ⟨fault, congrArg Prod.fst stopped, unanswered⟩
      exact .input standard text deep
    · cases address : Source.isAddress source with
      | true =>
        rw [load_address standard address] at stopped
        cases replied : s.client (documentRequest timeout source) st with
        | mk reply after' =>
          rw [replied] at stopped
          rcases ofReply_escapes.mp ⟨fault, congrArg Prod.fst stopped, unanswered⟩ with
            ⟨status, body, container, rfl, success, deep⟩ | ⟨failure, rfl, notRequest, other⟩
          · exact .reply standard address replied success deep
          · exact .client standard address replied notRequest other
      | false =>
        rw [load_file standard address] at stopped
        obtain ⟨there, t, text, deep⟩ := ofFile_escapes.mp
          ⟨fault, congrArg Prod.fst stopped, unanswered⟩
        exact .file standard address there text deep
  · intro escapes
    cases escapes with
    | input standard text deep =>
      obtain ⟨fault, stopped, unanswered⟩ :=
        (parse_escapes fun failure => decode_answered).mpr ⟨_, text, deep⟩
      exact ⟨fault, st, by rw [load_input standard, stopped], unanswered⟩
    | file notStandard notAddress there text deep =>
      obtain ⟨fault, stopped, unanswered⟩ := ofFile_escapes.mpr ⟨there, _, text, deep⟩
      exact ⟨fault, st, by rw [load_file notStandard notAddress, stopped], unanswered⟩
    | reply notStandard address replied success deep =>
      obtain ⟨fault, stopped, unanswered⟩ := (@ofReply_escapes source (s.room .reply) _).mpr
        (.inl ⟨_, _, _, rfl, success, deep⟩)
      exact ⟨fault, _, by rw [load_address notStandard address, replied, stopped], unanswered⟩
    | client notStandard address failed notRequest other =>
      obtain ⟨fault, stopped, unanswered⟩ := (@ofReply_escapes source (s.room .reply) _).mpr
        (.inr ⟨_, rfl, notRequest, other⟩)
      exact ⟨fault, _, by rw [load_address notStandard address, failed, stopped], unanswered⟩

/-- Whatever a source gives was read where there was room for it. -/
theorem load_settled {v : Json} {after : σ}
    (loaded : (Source.load s timeout source).run.run st = (.ok v, after)) :
    ∃ place, Json.Settled (s.room place) v := by
  have settled {place : JsonPlace} {text : Outcome Text}
      (read : Source.parse (s.room place) text = .ok v) :
      ∃ place, Json.Settled (s.room place) v := by
    cases text with
    | ok t => exact ⟨place, Json.parse_settled (mapError_ok.mp read)⟩
    | error failure => cases read
  by_cases standard : source = Text.ofString "-"
  · rw [load_input standard] at loaded
    exact settled (congrArg Prod.fst loaded)
  · cases address : Source.isAddress source with
    | true =>
      rw [load_address standard address] at loaded
      have replied := congrArg Prod.fst loaded
      cases reply : (s.client (documentRequest timeout source) st).1 with
      | response status body =>
        rw [reply, Source.ofReply] at replied
        split at replied
        · exact ⟨.reply, Json.parseBytes_settled (mapError_ok.mp replied)⟩
        · cases replied
      | failed failure =>
        rw [reply] at replied
        cases replied
    | false =>
      rw [load_file standard address] at loaded
      have read := congrArg Prod.fst loaded
      rw [Source.ofFile] at read
      split at read
      · exact settled read
      · cases read
      · cases read

/-- A source that names the file at a path: neither the standard input nor an address. -/
structure NamesFile (source : Text) (p : Path) : Prop where
  notStandard : source ≠ Text.ofString "-"
  notAddress : Source.isAddress source = false
  path : Path.ofText source = p

/-- A file holds a value as JSON text that there is room to read. -/
def HoldsValue (room : Nat) (files : Files) (p : Path) (v : Json) : Prop :=
  ∃ bytes t, files.read p = .ok bytes ∧ Source.decode bytes = .ok t ∧ Json.parse room t = .ok v

theorem load_value {p : Path} {v : Json} (names : NamesFile source p)
    (held : HoldsValue (s.room .file) s.files p v) :
    (Source.load s timeout source).run.run st = (.ok v, st) := by
  obtain ⟨bytes, t, found, decoded, parsed⟩ := held
  have text : Source.readText s.files source = .ok t := by
    rw [Source.readText, names.path, found]
    exact decoded
  rw [load_file names.notStandard names.notAddress, Source.ofFile, names.path,
    Files.holds_of_read found, text]
  simp only [Source.parse, parsed, ok_mapError]

end Sources

section Keys

/-- The option for a key names a file that nests too deep or holds no object. -/
inductive KeyEscapes (room : Nat) (files : Files) (value : Text) : Prop
  | intro {id path t : Text} (parts : Text.cut? '=' value = some (id, path)) (named : id ≠ [])
    (placed : path ≠ []) (text : Source.readText files path = .ok t)
    (unfit : TooDeep room t ∨ ∃ v, Json.parse room t = .ok v ∧ v.object? = none)

theorem keyOption_escapes : (∃ fault, Source.keyOption room files value = .error fault ∧
    verifyReports fault = false) ↔ KeyEscapes room files value := by
  constructor
  · rintro ⟨fault, stopped, unanswered⟩
    rw [Source.keyOption] at stopped
    split at stopped
    · rename_i id path parts
      split at stopped
      · obtain rfl := Except.error.inj stopped
        cases unanswered
      · rename_i filled
        simp only [Bool.or_eq_true, List.isEmpty_iff, not_or] at filled
        split at stopped
        · obtain rfl := Except.error.inj stopped
          cases unanswered
        · rename_i t text
          split at stopped
          · rename_i container deep
            exact ⟨parts, filled.1, filled.2, text, .inl ⟨container, deep⟩⟩
          · obtain rfl := Except.error.inj stopped
            cases unanswered
          · rename_i v read
            split at stopped
            · cases stopped
            · rename_i failure kind
              refine ⟨parts, filled.1, filled.2, text, .inr ⟨v, read, ?_⟩⟩
              cases v with
              | object ms => cases kind
              | _ => rfl
    · obtain rfl := Except.error.inj stopped
      cases unanswered
  · rintro ⟨parts, named, placed, text, ⟨container, deep⟩ | ⟨v, read, notObject⟩⟩
    · refine ⟨.failure (.nesting container), ?_, rfl⟩
      simp [Source.keyOption, parts, named, placed, text, deep]
    · refine ⟨.failure (.wrongKind (.noMember v.kindWord "get")), ?_, rfl⟩
      cases v with
      | object ms => cases notObject
      | _ => simp [Source.keyOption, parts, named, placed, text, read, Jwk.ofValue]

/-- An option with a name, the sign and a file that holds an object gives the key of the object. -/
theorem keyOption_ok {id : Text} {ms : Members} (named : id ≠ [])
    (clear : CodePoint.ofChar '=' ∉ id) (placed : t ≠ [])
    (held : HoldsValue room files (Path.ofText t) (.object ms)) :
    Source.keyOption room files (id ++ CodePoint.ofChar '=' :: t) =
      .ok (id, .jwk (Jwk.ofMembers ms) PublicKey.defaultType) := by
  obtain ⟨bytes, text, found, decoded, parsed⟩ := held
  have read : Source.readText files t = .ok text := by
    rw [Source.readText, found]
    exact decoded
  have parts : Text.cut? '=' (id ++ CodePoint.ofChar '=' :: t) = some (id, t) :=
    Text.cut?_eq_some.mpr ⟨rfl, clear⟩
  simp [Source.keyOption, parts, named, placed, read, parsed, Jwk.ofValue]

end Keys

end LinkedProof.CommandLine
