import Mathlib.Data.List.Forall2
import LinkedProof.Action

/-! Opening the sequences of steps that may fail: what a whole sequence ends with, by what each of
its steps ends with. -/
namespace LinkedProof

section Steps

variable {ε α β γ : Type}

theorem bind_ok {first : Except ε α} {next : α → Except ε β} {result : β} :
    (first >>= next) = .ok result ↔ ∃ value, first = .ok value ∧ next value = .ok result := by
  cases first with
  | error fault => simp [bind, Except.bind]
  | ok value => simp [bind, Except.bind]

theorem bind_error {first : Except ε α} {next : α → Except ε β} {fault : ε} :
    (first >>= next) = .error fault ↔
      first = .error fault ∨ ∃ value, first = .ok value ∧ next value = .error fault := by
  cases first with
  | error fault => simp [bind, Except.bind]
  | ok value => simp [bind, Except.bind]

/-- A guard lets the rest go on exactly where it does not hold. -/
theorem guard_ok {c : Prop} [Decidable c] {fault : ε} {next : Except ε β} {result : β} :
    (if c then (throw fault : Except ε PUnit) >>= fun _ => next else next) = .ok result ↔
      ¬c ∧ next = .ok result := by
  by_cases stops : c
  · simp [stops, bind, Except.bind, throw, throwThe, MonadExceptOf.throw]
  · simp [stops]

@[simp] theorem ok_mapError {ε' : Type} (f : ε → ε') (value : α) :
    (Except.ok value : Except ε α).mapError f = .ok value := rfl

@[simp] theorem error_mapError {ε' : Type} (f : ε → ε') (fault : ε) :
    (Except.error fault : Except ε α).mapError f = .error (f fault) := rfl

theorem mapError_ok {ε' : Type} {f : ε → ε'} {r : Except ε α} {result : α} :
    r.mapError f = .ok result ↔ r = .ok result := by
  cases r with
  | ok value => simp
  | error cause => simp

theorem mapError_error {ε' : Type} {f : ε → ε'} {r : Except ε α} {fault : ε'} :
    r.mapError f = .error fault ↔ ∃ cause, r = .error cause ∧ f cause = fault := by
  cases r with
  | ok value => simp
  | error cause => simp

/-- A step for each member of a list passes when it passes for each member. -/
theorem mapM_ok {f : α → Except ε β} {xs : List α} {ys : List β} :
    xs.mapM f = .ok ys ↔ List.Forall₂ (fun x y => f x = .ok y) xs ys := by
  induction xs generalizing ys with
  | nil => simp [pure, Except.pure, eq_comm]
  | cons x rest ih =>
    simp only [List.mapM_cons, bind_ok, ih, List.forall₂_cons_left_iff]
    constructor
    · rintro ⟨y, first, ys, others, ⟨⟩⟩
      exact ⟨y, ys, first, others, rfl⟩
    · rintro ⟨y, ys, first, others, rfl⟩
      exact ⟨y, first, ys, others, rfl⟩

/-- The first member whose step fails decides. -/
theorem mapM_error {f : α → Except ε β} {xs : List α} {fault : ε} :
    xs.mapM f = .error fault ↔ ∃ before x after, xs = before ++ x :: after ∧
      (∀ y ∈ before, ∃ value, f y = .ok value) ∧ f x = .error fault := by
  induction xs with
  | nil => simp [pure, Except.pure]
  | cons x rest ih =>
    rw [List.mapM_cons, bind_error]
    constructor
    · rintro (first | ⟨value, passed, behind⟩)
      · exact ⟨[], x, rest, rfl, nofun, first⟩
      · rcases bind_error.mp behind with later | ⟨_, _, done⟩
        · obtain ⟨before, y, after, rfl, earlier, stopped⟩ := ih.mp later
          refine ⟨x :: before, y, after, rfl, ?_, stopped⟩
          exact List.forall_mem_cons.mpr ⟨⟨value, passed⟩, earlier⟩
        · cases done
    · rintro ⟨before, y, after, shape, earlier, stopped⟩
      cases before with
      | nil =>
        obtain ⟨rfl, rfl⟩ := List.cons.inj shape
        exact .inl stopped
      | cons z before =>
        obtain ⟨rfl, rfl⟩ := List.cons.inj shape
        obtain ⟨⟨value, passed⟩, earlier⟩ := List.forall_mem_cons.mp earlier
        exact .inr ⟨value, passed,
          bind_error.mpr (.inl (ih.mpr ⟨before, y, after, rfl, earlier, stopped⟩))⟩

theorem run_bind {σ : Type} (a : ExceptT ε (StateM σ) α) (f : α → ExceptT ε (StateM σ) β) (s : σ) :
    (a >>= f).run.run s = Except.casesOn (a.run.run s).1
      (fun fault => (.error fault, (a.run.run s).2))
      (fun value => (f value).run.run (a.run.run s).2) := by
  change (ExceptT.bindCont f (a.run.run s).1).run (a.run.run s).2 = _
  cases (a.run.run s).1 <;> rfl

end Steps

section Outcomes

variable {α β : Type}

theorem Outcome.bind_ok {first : Outcome α} {next : α → Outcome β} {result : β} :
    (first >>= next) = .ok result ↔ ∃ value, first = .ok value ∧ next value = .ok result :=
  LinkedProof.bind_ok

theorem Outcome.bind_error {first : Outcome α} {next : α → Outcome β} {failure : Failure} :
    (first >>= next) = .error failure ↔
      first = .error failure ∨ ∃ value, first = .ok value ∧ next value = .error failure :=
  LinkedProof.bind_error

@[simp] theorem Outcome.pure_ok {value result : α} :
    (pure value : Outcome α) = .ok result ↔ value = result := by
  simp [pure, Except.pure]

@[simp] theorem Outcome.throw_ok {failure : Failure} {result : α} :
    (throw failure : Outcome α) = .ok result ↔ False := by
  simp [throw, throwThe, MonadExceptOf.throw]

@[simp] theorem Outcome.mapError_ok {ε : Type} {f : ε → Failure} {r : Except ε α} {result : α} :
    r.mapError f = .ok result ↔ r = .ok result := LinkedProof.mapError_ok

@[simp] theorem Outcome.rename_ok {f : Failure → Failure} {r : Outcome α} {result : α} :
    r.rename f = .ok result ↔ r = .ok result := LinkedProof.mapError_ok

theorem Outcome.rename_error {f : Failure → Failure} {r : Outcome α} {failure : Failure} :
    r.rename f = .error failure ↔ ∃ cause, r = .error cause ∧ f cause = failure :=
  LinkedProof.mapError_error

theorem Outcome.guard_ok {c : Prop} [Decidable c] {failure : Failure} {next : Outcome β}
    {result : β} :
    (if c then (throw failure : Outcome PUnit) >>= fun _ => next else next) = .ok result ↔
      ¬c ∧ next = .ok result := LinkedProof.guard_ok

theorem Outcome.discard_ok {first : Outcome α} {result : PUnit} :
    discard first = .ok result ↔ ∃ value, first = .ok value := by
  cases first <;> simp [Functor.discard, Functor.mapConst, Except.map]

end Outcomes

namespace Action

variable {σ α β : Type}

/-- An action begun in the state `s` ends with the result `r` in the state `t`. -/
def Ends (a : Action σ α) (s : σ) (r : Outcome α) (t : σ) : Prop := a.run.run s = (r, t)

theorem ends_some (a : Action σ α) (s : σ) : ∃ r t, Ends a s r t := ⟨_, _, rfl⟩

theorem Ends.unique {a : Action σ α} {s t t' : σ} {r r' : Outcome α}
    (first : Ends a s r t) (second : Ends a s r' t') : r = r' ∧ t = t' := by
  have same := first.symm.trans second
  exact ⟨congrArg Prod.fst same, congrArg Prod.snd same⟩

theorem ends_ofOutcome {o r : Outcome α} {s t : σ} : Ends (ofOutcome o) s r t ↔ o = r ∧ s = t :=
  Prod.ext_iff

theorem ends_pure {value : α} {r : Outcome α} {s t : σ} :
    Ends (pure value : Action σ α) s r t ↔ .ok value = r ∧ s = t := Prod.ext_iff

theorem ends_throw {failure : Failure} {r : Outcome α} {s t : σ} :
    Ends (throw failure : Action σ α) s r t ↔ .error failure = r ∧ s = t := Prod.ext_iff

theorem ends_get {r : Outcome σ} {s t : σ} :
    Ends (get : Action σ σ) s r t ↔ .ok s = r ∧ s = t := Prod.ext_iff

theorem ends_modify {f : σ → σ} {r : Outcome PUnit} {s t : σ} :
    Ends (modify f : Action σ PUnit) s r t ↔ .ok ⟨⟩ = r ∧ f s = t := Prod.ext_iff

/-- An action on the second part of a pair leaves the first part as it is. -/
theorem ends_onSecond {τ : Type} {a : Action τ α} {s : σ} {t : τ} {r : Outcome α} {u : σ × τ} :
    Ends (onSecond a : Action (σ × τ) α) (s, t) r u ↔ Ends a t r u.2 ∧ s = u.1 := by
  obtain ⟨o, t', ended⟩ := ends_some a t
  have unfolded : (onSecond a : Action (σ × τ) α).run.run (s, t) = (o, (s, t')) := by
    change ((a.run.run t).1, (s, (a.run.run t).2)) = _
    rw [ended]
  constructor
  · intro second
    obtain ⟨rfl, rfl⟩ := Prod.ext_iff.mp (unfolded.symm.trans second)
    exact ⟨ended, rfl⟩
  · rintro ⟨ended', rfl⟩
    obtain ⟨rfl, same⟩ := ended.unique ended'
    rw [Ends, unfolded, same]

/-- A sequence of two steps ends where the first one fails, or where the second one ends. -/
theorem ends_bind {a : Action σ α} {f : α → Action σ β} {s u : σ} {r : Outcome β} :
    Ends (a >>= f) s r u ↔
      (∃ value t, Ends a s (.ok value) t ∧ Ends (f value) t r u) ∨
      (∃ failure, Ends a s (.error failure) u ∧ r = .error failure) := by
  obtain ⟨o, t, first⟩ := ends_some a s
  have opened := run_bind a f s
  rw [first] at opened
  cases o with
  | ok value =>
    constructor
    · intro ended
      exact .inl ⟨value, t, first, opened.symm.trans ended⟩
    · rintro (⟨value', t', first', second⟩ | ⟨failure, first', _⟩)
      · obtain ⟨same, rfl⟩ := first.unique first'
        obtain rfl := Except.ok.inj same
        exact opened.trans second
      · cases (first.unique first').1
  | error failure =>
    constructor
    · intro ended
      obtain ⟨same, rfl⟩ := Prod.ext_iff.mp (opened.symm.trans ended)
      exact .inr ⟨failure, first, same.symm⟩
    · rintro (⟨value', t', first', second⟩ | ⟨failure', first', rfl⟩)
      · cases (first.unique first').1
      · obtain ⟨same, rfl⟩ := first.unique first'
        obtain rfl := Except.error.inj same
        exact opened

theorem ends_bind_ok {a : Action σ α} {f : α → Action σ β} {s u : σ} {result : β} :
    Ends (a >>= f) s (.ok result) u ↔
      ∃ value t, Ends a s (.ok value) t ∧ Ends (f value) t (.ok result) u := by
  simp [ends_bind]

theorem ends_bind_error {a : Action σ α} {f : α → Action σ β} {s u : σ} {failure : Failure} :
    Ends (a >>= f) s (.error failure) u ↔ Ends a s (.error failure) u ∨
      ∃ value t, Ends a s (.ok value) t ∧ Ends (f value) t (.error failure) u := by
  rw [ends_bind, or_comm]
  simp

/-- A value that is there already takes no step. -/
theorem ends_bind_value {value : α} {f : α → Action σ β} {s t : σ} {r : Outcome β} :
    Ends (ofOutcome (.ok value) >>= f) s r t ↔ Ends (f value) s r t := Iff.rfl

theorem ends_rename {f : Failure → Failure} {a : Action σ α} {s t : σ} {r : Outcome α} :
    Ends (rename f a) s r t ↔ ∃ o, Ends a s o t ∧ o.mapError f = r := by
  obtain ⟨o, t', ended⟩ := ends_some a s
  have unfolded : (rename f a).run.run s = (o.mapError f, t') := by
    change ((a.run.run s).1.mapError f, (a.run.run s).2) = _
    rw [ended]
  constructor
  · intro renamed
    obtain ⟨same, rfl⟩ := Prod.ext_iff.mp (unfolded.symm.trans renamed)
    exact ⟨o, ended, same⟩
  · rintro ⟨o', ended', rfl⟩
    obtain ⟨rfl, rfl⟩ := ended.unique ended'
    exact unfolded

theorem ends_rename_ok {f : Failure → Failure} {a : Action σ α} {s t : σ} {value : α} :
    Ends (rename f a) s (.ok value) t ↔ Ends a s (.ok value) t := by
  simp [ends_rename, Outcome.mapError_ok]

theorem ends_rename_error {f : Failure → Failure} {a : Action σ α} {s t : σ} {failure : Failure} :
    Ends (rename f a) s (.error failure) t ↔
      ∃ cause, Ends a s (.error cause) t ∧ f cause = failure := by
  rw [ends_rename]
  constructor
  · rintro ⟨o, ended, same⟩
    cases o with
    | ok value => cases same
    | error cause => exact ⟨cause, ended, Except.error.inj same⟩
  · rintro ⟨cause, ended, rfl⟩
    exact ⟨_, ended, rfl⟩

def Settles (I : σ → Prop) (a : Action σ α) (r : Outcome α) : Prop :=
  ∀ s, I s → ∃ t, a.Ends s r t ∧ I t

theorem Settles.ends {I : σ → Prop} {a : Action σ α} {r o : Outcome α} {s t : σ}
    (settles : a.Settles I r) (holds : I s) (ended : a.Ends s o t) : o = r ∧ I t := by
  obtain ⟨t', ended', holds'⟩ := settles s holds
  obtain ⟨rfl, rfl⟩ := ended.unique ended'
  exact ⟨rfl, holds'⟩

/-- Actions that end with one result, each of them in all states of its own. -/
def Agree {ι : Type} (I : ι → σ → Prop) (a : ι → Action σ α) : Prop :=
  ∃ r, ∀ i, (a i).Settles (I i) r

section Agreement

variable {ι : Type} {I : ι → σ → Prop}

theorem agree_ofOutcome (o : Outcome α) : Agree I fun _ => (ofOutcome o : Action σ α) :=
  ⟨o, fun _ s holds => ⟨s, ends_ofOutcome.mpr ⟨rfl, rfl⟩, holds⟩⟩

theorem agree_pure (value : α) : Agree I fun _ => (pure value : Action σ α) :=
  ⟨.ok value, fun _ s holds => ⟨s, ends_pure.mpr ⟨rfl, rfl⟩, holds⟩⟩

theorem Agree.bind {a : ι → Action σ α} {f : ι → α → Action σ β} (first : Agree I a)
    (second : ∀ value, Agree I fun i => f i value) : Agree I fun i => a i >>= f i := by
  obtain ⟨o, always⟩ := first
  cases o with
  | error failure =>
    refine ⟨.error failure, fun i s holds => ?_⟩
    obtain ⟨t, stopped, held⟩ := always i s holds
    exact ⟨t, ends_bind.mpr (.inr ⟨failure, stopped, rfl⟩), held⟩
  | ok value =>
    obtain ⟨r, next⟩ := second value
    refine ⟨r, fun i s holds => ?_⟩
    obtain ⟨t, passed, held⟩ := always i s holds
    obtain ⟨u, ended, held'⟩ := next i t held
    exact ⟨u, ends_bind.mpr (.inl ⟨value, t, passed, ended⟩), held'⟩

theorem Agree.rename {a : ι → Action σ α} (agree : Agree I a) (f : Failure → Failure) :
    Agree I fun i => (a i).rename f := by
  obtain ⟨o, always⟩ := agree
  refine ⟨o.mapError f, fun i s holds => ?_⟩
  obtain ⟨t, ended, held⟩ := always i s holds
  exact ⟨t, ends_rename.mpr ⟨o, ended, rfl⟩, held⟩

end Agreement

def Inert (a : Action σ α) : Prop := ∃ r, ∀ s, a.Ends s r s

theorem Inert.agree {ι : Type} {I : ι → σ → Prop} {a : Action σ α} (inert : a.Inert) :
    Agree I fun _ => a := by
  obtain ⟨r, always⟩ := inert
  exact ⟨r, fun _ s holds => ⟨s, always s, holds⟩⟩

/-- An action that ends with one result, whatever state it begins in. -/
def Steady (a : Action σ α) : Prop := ∃ r, ∀ s, ∃ t, a.Ends s r t

theorem Steady.unique {a : Action σ α} {s s' t t' : σ} {r r' : Outcome α} (steady : a.Steady)
    (first : Ends a s r t) (second : Ends a s' r' t') : r = r' := by
  obtain ⟨o, always⟩ := steady
  obtain ⟨_, ended⟩ := always s
  obtain ⟨_, ended'⟩ := always s'
  rw [(first.unique ended).1, (second.unique ended').1]

theorem steady_iff {a : Action σ α} :
    a.Steady ↔ Agree (fun (_ : Unit) (_ : σ) => True) fun _ => a := by
  constructor
  · rintro ⟨r, always⟩
    refine ⟨r, fun _ s _ => ?_⟩
    obtain ⟨t, ended⟩ := always s
    exact ⟨t, ended, trivial⟩
  · rintro ⟨r, always⟩
    refine ⟨r, fun s => ?_⟩
    obtain ⟨t, ended, _⟩ := always () s trivial
    exact ⟨t, ended⟩

theorem steady_pure (value : α) : (pure value : Action σ α).Steady :=
  ⟨.ok value, fun s => ⟨s, ends_pure.mpr ⟨rfl, rfl⟩⟩⟩

end Action

end LinkedProof
