import LinkedProof.Proofs.CommandLine.Report
import LinkedProof.Proofs.CommandLine.Source
import LinkedProof.Proofs.Isolation

/-! The exit status of a check: which runs end with the status of an accepted document, which with
that of a rejected one, and which with that of an error. The status of an error is kept for what the
command answers for. What it does not answer for leaves the run with the status of a rejection. -/
namespace LinkedProof.CommandLine

open Json (Broken HoldsBroken)

variable {σ : Type} {s : Surroundings σ} {settings : Settings} {o : VerifyOptions} {st : σ}
  {failure : Failure} {fault : CommandFault} {document : Json}

section Runs

variable {found : List Verdict} {between : σ} {r : Except CommandFault Json}
  {fetch : Fetcher (Did.Cache × σ)}

variable (s settings o)

def Loads (st : σ) (r : Except CommandFault Json) (between : σ) : Prop :=
  (Source.load s (o.timeout.getD settings.httpTimeout) o.source).run.run st = (r, between)

def Keyed (r : Except CommandFault (Fetcher (Did.Cache × σ))) : Prop :=
  fetcher s settings (o.timeout.getD settings.httpTimeout) o = r

/-- The checks of a run end in this way, whether one worker carries them out or several share them
in the order of their steps. -/
def Checks (fetch : Fetcher (Did.Cache × σ)) (document : Json) (between : σ)
    (r : Outcome (List Verdict)) (after : Did.Cache × σ) : Prop :=
  (Verification.shared s.table fetch (suites s o.types) settings.workers s.schedule
    document).Ends ([], between) r after

def Judged (st : σ) (found : List Verdict) : Prop := ∃ document between fetch after,
  Loads s settings o st (.ok document) between ∧ Keyed s settings o (.ok fetch) ∧
    Checks s settings o fetch document between (.ok found) after

/-- The run comes to no verdicts: its source, a key or the checks end it with a fault. -/
inductive Faulted (st : σ) : CommandFault → Prop
  | source {fault : CommandFault} {between : σ}
    (stopped : Loads s settings o st (.error fault) between) : Faulted st fault
  | key {fault : CommandFault} {document : Json} {between : σ}
    (loaded : Loads s settings o st (.ok document) between)
    (stopped : Keyed s settings o (.error fault)) : Faulted st fault
  | check {failure : Failure} {document : Json} {between : σ} {fetch : Fetcher (Did.Cache × σ)}
    {after : Did.Cache × σ} (loaded : Loads s settings o st (.ok document) between)
    (keys : Keyed s settings o (.ok fetch))
    (stopped : Checks s settings o fetch document between (.error failure) after) :
    Faulted st (.failure failure)

variable {s settings o}

/-- A run comes to verdicts or to a fault by its source, then its keys, then the checks. -/
private theorem verdicts_eq (loads : Loads s settings o st r between) :
    ((verdicts s settings o).run.run st).1 = (do
      let document ← r
      let fetch ← fetcher s settings (o.timeout.getD settings.httpTimeout) o
      ((Verification.shared s.table fetch (suites s o.types) settings.workers s.schedule
        document).run.run ([], between)).1.mapError .failure) := by
  rw [verdicts, run_bind, show _ = _ from loads]
  cases r with
  | error fault => rfl
  | ok document =>
    refine (congrArg Prod.fst (run_bind _ _ between)).trans ?_
    change _ = fetcher s settings (o.timeout.getD settings.httpTimeout) o >>= _
    change Prod.fst (Except.casesOn (fetcher s settings (o.timeout.getD settings.httpTimeout) o)
      _ _) = _
    cases fetcher s settings (o.timeout.getD settings.httpTimeout) o <;> rfl

theorem verdicts_ok : ((verdicts s settings o).run.run st).1 = .ok found ↔
    Judged s settings o st found := by
  constructor
  · intro ended
    rw [verdicts_eq rfl, bind_ok] at ended
    obtain ⟨document, loaded, ended⟩ := ended
    obtain ⟨fetch, keys, ended⟩ := bind_ok.mp ended
    exact ⟨document, _, fetch, _, Prod.ext loaded rfl, keys, Prod.ext (mapError_ok.mp ended) rfl⟩
  · rintro ⟨document, between, fetch, after, loaded, keys, ended⟩
    rw [verdicts_eq loaded, bind_ok]
    refine ⟨document, rfl, bind_ok.mpr ⟨fetch, keys, mapError_ok.mpr ?_⟩⟩
    exact congrArg Prod.fst ended

theorem verdicts_error : ((verdicts s settings o).run.run st).1 = .error fault ↔
    Faulted s settings o st fault := by
  constructor
  · intro ended
    rw [verdicts_eq rfl, bind_error] at ended
    rcases ended with stopped | ⟨document, loaded, ended⟩
    · exact .source (Prod.ext stopped rfl)
    · rcases bind_error.mp ended with stopped | ⟨fetch, keys, ended⟩
      · exact .key (Prod.ext loaded rfl) stopped
      · obtain ⟨failure, stopped, rfl⟩ := mapError_error.mp ended
        exact .check (Prod.ext loaded rfl) keys (Prod.ext stopped rfl)
  · intro faulted
    cases faulted with
    | source stopped =>
      rw [verdicts_eq stopped]
      rfl
    | key loaded stopped =>
      rw [verdicts_eq loaded]
      exact bind_error.mpr (.inr ⟨_, rfl, bind_error.mpr (.inl stopped)⟩)
    | check loaded keys stopped =>
      rw [verdicts_eq loaded]
      refine bind_error.mpr (.inr ⟨_, rfl, bind_error.mpr (.inr ⟨_, keys, ?_⟩)⟩)
      exact mapError_error.mpr ⟨_, congrArg Prod.fst stopped, rfl⟩

/-- The options name no keys when the first one that is refused has this fault. -/
private theorem keyed_error : Keyed s settings o (.error fault) ↔
    ∃ before value after, o.keys = before ++ value :: after ∧
      (∀ option ∈ before, ∃ key, Source.keyOption (s.room .keyFile) s.files option = .ok key) ∧
        Source.keyOption (s.room .keyFile) s.files value = .error fault := by
  rw [← mapM_error, Keyed, fetcher]
  cases keys : o.keys with
  | nil => exact iff_of_false nofun nofun
  | cons value rest =>
    rw [if_neg nofun, Source.keyTable]
    cases (value :: rest).mapM (Source.keyOption (s.room .keyFile) s.files) with
    | error refused =>
      constructor
      · rintro ⟨⟩
        rfl
      · rintro ⟨⟩
        rfl
    | ok table => exact iff_of_false nofun nofun

private theorem checks_value (notObject : document.object? = none) :
    Checks s settings o fetch document between
      (.error (.wrongKind (.noMember document.kindWord "get"))) ([], between) := by
  refine Action.ends_bind_error.mpr (.inl (Action.ends_ofOutcome.mpr ⟨?_, rfl⟩))
  cases document with
  | object d => cases notObject
  | _ => rfl

/-- The checks end with what the command does not answer for when the document is no object, or when
one of them comes to what lies too deep to be written. -/
private theorem checks_escape {after : Did.Cache × σ}
    (stopped : Checks s settings o fetch document between (.error failure) after) :
    verifyReports (.failure failure) = false ↔
      document.object? = none ∨ failure = .unwritable := by
  cases object : document.object? with
  | none =>
    obtain rfl := Except.error.inj (stopped.unique (checks_value object)).1
    exact iff_of_true rfl (.inl rfl)
  | some d =>
    obtain rfl : document = .object d := by
      cases document with
      | object d' =>
        obtain rfl := Option.some.inj object
        rfl
      | _ => cases object
    obtain ⟨steps, called⟩ := Verification.Called.of_shared stopped
    rcases called.stuck.2 with rfl | ⟨fault, rfl⟩
    · exact iff_of_true rfl (.inr rfl)
    · exact iff_of_false nofun nofun

end Runs

section Statuses

variable {found : List Verdict}

/-- What was found can be printed: as JSON without half of a surrogate pair, or in a table that the
console makes, without such a half. -/
def Shown (console : Console) (asJson : Bool) (policy : Policy) (found : List Verdict) : Prop :=
  if asJson = true then
    ∀ v ∈ found, ¬Broken v.type ∧ ¬Broken v.method ∧
      ∀ cause, v.error = some cause → ¬Broken cause.message
  else ∃ t, Report.table console policy found = .ok t ∧ ¬Broken t

variable (s settings o)

/-- The input of a run holds what the command does not answer for. -/
inductive Unanswered (st : σ) : Prop
  | source (escapes : SourceEscapes s (o.timeout.getD settings.httpTimeout) o.source st)
  | key {document : Json} {between : σ} {before after : List Text} {value : Text}
    (loaded : Loads s settings o st (.ok document) between)
    (options : o.keys = before ++ value :: after)
    (passed : ∀ option ∈ before, ∃ key,
      Source.keyOption (s.room .keyFile) s.files option = .ok key)
    (escapes : KeyEscapes (s.room .keyFile) s.files value)
  | document {document : Json} {between : σ} {fetch : Fetcher (Did.Cache × σ)}
    (loaded : Loads s settings o st (.ok document) between)
    (keys : Keyed s settings o (.ok fetch)) (notObject : document.object? = none)
  | check {document : Json} {between : σ} {fetch : Fetcher (Did.Cache × σ)}
    {after : Did.Cache × σ} (loaded : Loads s settings o st (.ok document) between)
    (keys : Keyed s settings o (.ok fetch))
    (tooDeep : Checks s settings o fetch document between (.error .unwritable) after)

/-- A run ends by what no part of the command answers for: something in its input, or a report that
cannot be printed. -/
inductive Escapes (st : σ) : Prop
  | input (unanswered : Unanswered s settings o st)
  | verdicts {found : List Verdict} (judged : Judged s settings o st found)
    (unshown : ¬Shown s.console o.asJson (o.policy.getD settings.policy) found)
  | fault {fault : CommandFault} (faulted : Faulted s settings o st fault)
    (asJson : o.asJson = true) (broken : Broken fault.message)

def status (st : σ) : Nat := ((verify s settings o).run st).1.ending.code

variable {s settings o}

private theorem unanswered_iff : Unanswered s settings o st ↔
    ∃ fault, Faulted s settings o st fault ∧ verifyReports fault = false := by
  constructor
  · intro unanswered
    cases unanswered with
    | source escapes =>
      obtain ⟨fault, after, stopped, silent⟩ := load_escapes.mpr escapes
      exact ⟨fault, .source stopped, silent⟩
    | key loaded options passed escapes =>
      obtain ⟨fault, refused, silent⟩ := keyOption_escapes.mpr escapes
      have stopped : Keyed s settings o (.error fault) :=
        keyed_error.mpr ⟨_, _, _, options, passed, refused⟩
      exact ⟨fault, .key loaded stopped, silent⟩
    | document loaded keys notObject =>
      exact ⟨_, .check loaded keys (checks_value notObject), rfl⟩
    | check loaded keys tooDeep => exact ⟨_, .check loaded keys tooDeep, rfl⟩
  · rintro ⟨_, faulted, silent⟩
    cases faulted with
    | source stopped => exact .source (load_escapes.mp ⟨_, _, stopped, silent⟩)
    | key loaded stopped =>
      obtain ⟨before, value, after, options, passed, refused⟩ := keyed_error.mp stopped
      exact .key loaded options passed (keyOption_escapes.mp ⟨_, refused, silent⟩)
    | check loaded keys stopped =>
      rcases (checks_escape stopped).mp silent with notObject | rfl
      · exact .document loaded keys notObject
      · exact .check loaded keys stopped

def told (s : Surroundings σ) (asJson : Bool) (policy : Policy) (found : List Verdict) :
    RunResult :=
  let code := if policy.accepts found then accepted else rejected
  if asJson then
    printing s.files code ((Report.value policy found).render .pretty ++ Text.ofString "\n")
  else match Report.table s.console policy found with
    | .ok t => printing s.files code t
    | .error failure => failing s.files failure

theorem verify_judged (judged : Judged s settings o st found) :
    ((verify s settings o).run st).1 = told s o.asJson (o.policy.getD settings.policy) found := by
  have ended := verdicts_ok.mpr judged
  rw [verify, StateT.run_bind, told]
  generalize (verdicts s settings o).run.run st = result at ended
  obtain ⟨r, after⟩ := result
  obtain rfl : r = .ok found := ended
  simp only [bind]
  cases o.asJson with
  | true => rfl
  | false => cases Report.table s.console (o.policy.getD settings.policy) found <;> rfl

private theorem status_judged (judged : Judged s settings o st found) :
    status s settings o st =
      (told s o.asJson (o.policy.getD settings.policy) found).ending.code := by
  rw [status, verify_judged judged]

private theorem status_faulted (faulted : Faulted s settings o st fault) :
    status s settings o st = (verifyFailed s o.asJson fault).ending.code := by
  have ended := verdicts_error.mpr faulted
  rw [status, verify, StateT.run_bind]
  generalize (verdicts s settings o).run.run st = result at ended
  obtain ⟨r, after⟩ := result
  obtain rfl : r = .error fault := ended
  rfl

private theorem told_code (s : Surroundings σ) (asJson : Bool) (policy : Policy)
    (found : List Verdict) :
    (Shown s.console asJson policy found ∧ (told s asJson policy found).ending.code =
      if policy.accepts found then accepted else rejected) ∨
    (¬Shown s.console asJson policy found ∧
      (told s asJson policy found).ending.code = rejected) := by
  cases asJson with
  | true =>
    have carried : Shown s.console true policy found ↔
        ¬HoldsBroken (Report.value policy found) := by
      simp only [Report.holdsBroken_value, Shown, if_true, not_exists, not_and, not_or]
    rw [carried, told, if_pos rfl, printing_value_code]
    by_cases broken : HoldsBroken (Report.value policy found)
    · exact .inr ⟨not_not_intro broken, if_pos broken⟩
    · exact .inl ⟨broken, if_neg broken⟩
  | false =>
    rw [Shown, if_neg nofun, told, if_neg nofun]
    cases table : Report.table s.console policy found with
    | error failure => exact .inr ⟨nofun, rfl⟩
    | ok t =>
      simp only [printing_code, Except.ok.injEq, exists_eq_left']
      by_cases broken : Broken t
      · exact .inr ⟨not_not_intro broken, if_pos broken⟩
      · exact .inl ⟨broken, if_neg broken⟩

private theorem verifyFailed_unanswered {asJson : Bool} (stopped : verifyReports fault = false) :
    (verifyFailed s asJson fault).ending.code = rejected := by
  cases fault with
  | failure failure =>
    rw [verifyFailed.eq_def, stopped]
    rfl
  | _ => cases stopped

private theorem verifyFailed_answered {asJson : Bool} (reports : verifyReports fault = true) :
    verifyFailed s asJson fault =
      if asJson then printing s.files unable
        ((Json.object [("error", .text fault.message)]).render .pretty ++ Text.ofString "\n")
      else showing s.files unable s.console
        ("[red]Error:[/] " ++ s.console.escape fault.message) [] := by
  cases fault with
  | failure failure =>
    rw [verifyFailed.eq_def, reports]
  | _ => rfl

private theorem failed_code (reports : s.console.Reports) {asJson : Bool} :
    (verifyFailed s asJson fault).ending.code =
      if verifyReports fault = false ∨ asJson = true ∧ Broken fault.message then rejected
      else unable := by
  cases answers : verifyReports fault with
  | false => rw [verifyFailed_unanswered answers, if_pos (.inl rfl)]
  | true =>
    rw [verifyFailed_answered answers]
    cases asJson with
    | true =>
      have single : HoldsBroken (.object [("error", .text fault.message)]) ↔
          Broken fault.message := by
        have name : ¬Broken (Text.ofString "error") := by decide
        simp [Json.holdsBroken_object, name]
      rw [if_pos rfl, printing_value_code]
      exact if_congr (by simp [single]) rfl rfl
    | false => rw [if_neg nofun, showing_printed (reports _), if_neg (by simp)]

private theorem judged_unique {found' : List Verdict} (judged : Judged s settings o st found)
    (judged' : Judged s settings o st found') : found = found' :=
  Except.ok.inj ((verdicts_ok.mpr judged).symm.trans (verdicts_ok.mpr judged'))

private theorem faulted_unique {fault' : CommandFault} (faulted : Faulted s settings o st fault)
    (faulted' : Faulted s settings o st fault') : fault = fault' :=
  Except.error.inj ((verdicts_error.mpr faulted).symm.trans (verdicts_error.mpr faulted'))

private theorem not_faulted (judged : Judged s settings o st found) :
    ¬Faulted s settings o st fault := by
  intro faulted
  cases (verdicts_ok.mpr judged).symm.trans (verdicts_error.mpr faulted)

private theorem judged_or_faulted (s : Surroundings σ) (settings : Settings) (o : VerifyOptions)
    (st : σ) : (∃ found, Judged s settings o st found) ∨
      ∃ fault, Faulted s settings o st fault := by
  cases ended : ((verdicts s settings o).run.run st).1 with
  | ok found => exact .inl ⟨found, verdicts_ok.mp ended⟩
  | error fault => exact .inr ⟨fault, verdicts_error.mp ended⟩

private theorem exists_judged (judged : Judged s settings o st found) (b : Bool) :
    (∃ found, Judged s settings o st found ∧ (o.policy.getD settings.policy).accepts found = b) ↔
      (o.policy.getD settings.policy).accepts found = b := by
  constructor
  · rintro ⟨found', judged', accepts⟩
    rw [judged_unique judged judged']
    exact accepts
  · exact fun accepts => ⟨found, judged, accepts⟩

private theorem judged_status (judged : Judged s settings o st found) :
    (¬Escapes s settings o st ∧ status s settings o st =
      if (o.policy.getD settings.policy).accepts found then accepted else rejected) ∨
    (Escapes s settings o st ∧ status s settings o st = rejected) := by
  rw [status_judged judged]
  rcases told_code s o.asJson (o.policy.getD settings.policy) found with
    ⟨shown, code⟩ | ⟨unshown, code⟩
  · refine .inl ⟨fun escapes => ?_, code⟩
    cases escapes with
    | input unanswered =>
      obtain ⟨fault, faulted, _⟩ := unanswered_iff.mp unanswered
      exact not_faulted judged faulted
    | verdicts judged' unshown =>
      rw [judged_unique judged' judged] at unshown
      exact unshown shown
    | fault faulted _ _ => exact not_faulted judged faulted
  · exact .inr ⟨.verdicts judged unshown, code⟩

private theorem faulted_status (reports : s.console.Reports)
    (faulted : Faulted s settings o st fault) :
    (¬Escapes s settings o st ∧ status s settings o st = unable) ∨
    (Escapes s settings o st ∧ status s settings o st = rejected) := by
  rw [status_faulted faulted, failed_code reports]
  split
  · rename_i lost
    refine .inr ⟨?_, rfl⟩
    rcases lost with silent | ⟨asJson, broken⟩
    · exact .input (unanswered_iff.mpr ⟨fault, faulted, silent⟩)
    · exact .fault faulted asJson broken
  · rename_i said
    refine .inl ⟨fun escapes => ?_, rfl⟩
    cases escapes with
    | input unanswered =>
      obtain ⟨fault', faulted', silent⟩ := unanswered_iff.mp unanswered
      rw [faulted_unique faulted' faulted] at silent
      exact said (.inl silent)
    | verdicts judged _ => exact not_faulted judged faulted
    | fault faulted' asJson broken =>
      rw [faulted_unique faulted' faulted] at broken
      exact said (.inr ⟨asJson, broken⟩)

private theorem judged_ended (ended : ¬Escapes s settings o st)
    (judged : Judged s settings o st found) : status s settings o st =
      if (o.policy.getD settings.policy).accepts found then accepted else rejected := by
  rcases judged_status judged with ⟨_, code⟩ | ⟨escapes, _⟩
  · exact code
  · exact absurd escapes ended

private theorem faulted_ended (reports : s.console.Reports) (ended : ¬Escapes s settings o st)
    (faulted : Faulted s settings o st fault) : status s settings o st = unable := by
  rcases faulted_status reports faulted with ⟨_, code⟩ | ⟨escapes, _⟩
  · exact code
  · exact absurd escapes ended

private theorem status_asJson (reports : s.console.Reports) (asJson : Bool)
    (ended : ¬Escapes s settings o st) (ended' : ¬Escapes s settings { o with asJson } st) :
    status s settings { o with asJson } st = status s settings o st := by
  rcases judged_or_faulted s settings o st with ⟨found, judged⟩ | ⟨fault, faulted⟩
  · have judged' : Judged s settings { o with asJson } st found := judged
    exact (judged_ended ended' judged').trans (judged_ended ended judged).symm
  · have faulted' : Faulted s settings { o with asJson } st fault := by
      rw [← verdicts_error] at faulted ⊢
      exact faulted
    exact (faulted_ended reports ended' faulted').trans
      (faulted_ended reports ended faulted).symm

/-- The exit status says what became of the document, however many workers check its proofs and in
whatever order, but for the runs that end by what no part of the command answers for. Those have the
status of a rejection. -/
theorem status_iff (s : Surroundings σ) (settings : Settings) (o : VerifyOptions) (st : σ)
    (reports : s.console.Reports) :
    (status s settings o st = accepted ↔ (∃ found, Judged s settings o st found ∧
      (o.policy.getD settings.policy).accepts found = true) ∧ ¬Escapes s settings o st) ∧
    (status s settings o st = rejected ↔ (∃ found, Judged s settings o st found ∧
      (o.policy.getD settings.policy).accepts found = false) ∨ Escapes s settings o st) ∧
    (status s settings o st = unable ↔
      (¬∃ found, Judged s settings o st found) ∧ ¬Escapes s settings o st) ∧
    ∀ asJson, ¬Escapes s settings o st → ¬Escapes s settings { o with asJson } st →
      status s settings { o with asJson } st = status s settings o st := by
  have apart : accepted ≠ rejected ∧ rejected ≠ unable ∧ accepted ≠ unable := by decide
  rw [← and_assoc, ← and_assoc]
  refine ⟨?_, fun asJson => status_asJson reports asJson⟩
  rcases judged_or_faulted s settings o st with ⟨found, judged⟩ | ⟨fault, faulted⟩
  · have none : ¬¬∃ found, Judged s settings o st found := not_not_intro ⟨found, judged⟩
    simp only [exists_judged judged, none, false_and, iff_false]
    rcases judged_status judged with ⟨ended, code⟩ | ⟨escapes, code⟩
    · rw [code]
      cases (o.policy.getD settings.policy).accepts found <;> simp [ended, apart, apart.1.symm]
    · simp [code, escapes, apart, apart.1.symm]
  · have none (found : List Verdict) : ¬Judged s settings o st found :=
      fun judged => not_faulted judged faulted
    rcases faulted_status reports faulted with ⟨ended, code⟩ | ⟨escapes, code⟩
    · simp [code, ended, none, apart.2.1.symm, apart.2.2.symm]
    · simp [code, escapes, none, apart, apart.1.symm]

def piped (input : Bytes) : Surroundings Unit where
  table := .initial
  primitive := .deterministic
  generator _ := .error (.overflow [])
  client _ := pure (.failed (.external .connect []))
  now := ⟨⟨2020, 2, 29, 12, 0, 0, 0, by decide⟩, none⟩
  environment := []
  input
  files := []
  console := .plain 80 fun _ => none
  schedule := []
  room _ := Json.usualRoom
  wording _ := []

def plainOptions (source : Text) : VerifyOptions := ⟨source, [], [], none, true, none, false⟩

private theorem missing_status (asJson : Bool) : status (piped []) .standard
    { plainOptions "d" with asJson } () = unable := by
  have stopped : Loads (piped []) .standard { plainOptions "d" with asJson } ()
      (.error (.noDocument "d")) () := by
    rfl
  rw [status_faulted (.source stopped), failed_code (Console.plain_reports _ _), if_neg]
  rintro (silent | ⟨_, broken⟩)
  · cases silent
  · exact absurd broken (by decide)

theorem status_iff_missing : status (piped []) .standard (plainOptions "d") () = unable ∧
    ¬Escapes (piped []) .standard (plainOptions "d") () ∧
    status (piped []) .standard { plainOptions "d" with asJson := true } () =
      status (piped []) .standard (plainOptions "d") () := by
  have reports : (piped []).console.Reports := Console.plain_reports _ _
  obtain ⟨_, _, error, same⟩ := status_iff (piped []) .standard (plainOptions "d") () reports
  obtain ⟨_, _, error', _⟩ :=
    status_iff (piped []) .standard { plainOptions "d" with asJson := true } () reports
  have ended := (error.mp (missing_status false)).2
  exact ⟨missing_status false, ended, same true ended (error'.mp (missing_status true)).2⟩

/-- A document that is an array has the status of a rejected one, and no proof of it was judged. -/
theorem array_rejected : ¬∀ (s : Surroundings Unit) (settings : Settings) (o : VerifyOptions),
    (status s settings o () = accepted ↔ ∃ found, Judged s settings o () found ∧
      (o.policy.getD settings.policy).accepts found = true) ∧
    (status s settings o () = rejected ↔ ∃ found, Judged s settings o () found ∧
      (o.policy.getD settings.policy).accepts found = false) ∧
    (status s settings o () = unable ↔ ¬∃ found, Judged s settings o () found) := by
  intro claimed
  have loaded : Loads (piped [0x5B, 0x5D]) .standard (plainOptions "-") ()
      (.ok (.array [])) () := by
    rfl
  have faulted : Faulted (piped [0x5B, 0x5D]) .standard (plainOptions "-") ()
      (.failure (.wrongKind (.noMember "list" "get"))) :=
    .check loaded rfl (checks_value rfl)
  have code : status (piped [0x5B, 0x5D]) .standard (plainOptions "-") () = rejected := by
    rw [status_faulted faulted, failed_code (Console.plain_reports _ _), if_pos (.inl rfl)]
  obtain ⟨_, judged, _⟩ := (claimed _ _ _).2.1.mp code
  exact not_faulted judged faulted

end Statuses

end LinkedProof.CommandLine
