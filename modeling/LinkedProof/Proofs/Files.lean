import LinkedProof.Files
import LinkedProof.Proofs.Action

/-! Files are read as they were written: putting bytes into the file at a path changes no directory
on the way there, so the same path leads to them. -/
namespace LinkedProof.Files

variable {fs fs' : Files} {p : Path} {content : Bytes} {place here there : Location} {n : Node}
  {names : List Text} {name : Text}

private theorem find?_put (fs : Files) (place other : Location) (n : Node) :
    (fs.put place n).find? (·.1 = other) =
      if place = other then some (place, n) else fs.find? (·.1 = other) := by
  induction fs with
  | nil => by_cases same : place = other <;> simp [put, same]
  | cons first rest ih =>
    by_cases found : first.1 = place
    · by_cases same : place = other
      · simp [put, found, same]
      · simp [put, found, same]
    · by_cases same : place = other
      · rw [if_pos same] at ih ⊢
        subst same
        simpa [put, found] using ih
      · rw [if_neg same] at ih ⊢
        by_cases first' : first.1 = other
        · rw [put, if_neg found]
          simp [first']
        · rw [put, if_neg found]
          simpa [first'] using ih

theorem node?_put_self (free : fs.node? place ≠ some .directory) (n : Node) :
    (fs.put place n).node? place = some n := by
  unfold node? at free ⊢
  split at free
  · exact absurd rfl free
  · rename_i inside
    rw [if_neg inside, find?_put, if_pos rfl]
    rfl

theorem node?_put_other (other : place ≠ here) (n : Node) :
    (fs.put place n).node? here = fs.node? here := by
  unfold node?
  rw [find?_put, if_neg other]

theorem node?_of_follow (followed : fs.follow here names = .ok (there, n)) :
    fs.node? there = some n := by
  induction names generalizing here with
  | nil =>
    rw [follow] at followed
    split at followed
    · rename_i found
      obtain ⟨rfl, rfl⟩ := Prod.mk.inj (Except.ok.inj followed)
      exact found
    · cases followed
  | cons name rest ih =>
    rw [follow] at followed
    split at followed
    · cases followed
    · cases followed
    · split at followed
      · cases followed
      · exact ih followed

/-- A way to a directory goes on behind it. -/
theorem follow_append (followed : fs.follow here names = .ok (there, .directory))
    (rest : List Text) : fs.follow here (names ++ rest) = fs.follow there rest := by
  induction names generalizing here with
  | nil =>
    rw [follow] at followed
    split at followed
    · obtain ⟨rfl, _⟩ := Prod.mk.inj (Except.ok.inj followed)
      rfl
    · cases followed
  | cons name names ih =>
    rw [follow] at followed
    rw [List.cons_append, follow]
    split at followed
    · cases followed
    · cases followed
    · split at followed
      · cases followed
      · rename_i long
        exact (if_neg long).trans (ih followed)

/-- Where no directory stands, something else can be put and all ways to directories stay. -/
theorem follow_put (free : fs.node? place ≠ some .directory) (n : Node)
    (followed : fs.follow here names = .ok (there, .directory)) :
    (fs.put place n).follow here names = .ok (there, .directory) := by
  have apart {here : Location} (found : fs.node? here = some .directory) :
      (fs.put place n).node? here = some .directory := by
    have other : place ≠ here := by
      rintro rfl
      exact free found
    rw [node?_put_other other, found]
  induction names generalizing here with
  | nil =>
    have found := node?_of_follow followed
    rw [follow] at followed ⊢
    split at followed
    · rename_i found'
      obtain ⟨rfl, rfl⟩ := Prod.mk.inj (Except.ok.inj followed)
      rw [apart found']
    · cases followed
  | cons name rest ih =>
    rw [follow] at followed ⊢
    split at followed
    · cases followed
    · cases followed
    · rename_i found
      rw [apart found]
      split at followed
      · cases followed
      · rename_i long
        exact (if_neg long).trans (ih followed)

/-- The files with bytes put at a path: into a directory that the path leads to, under its last
name, where no directory stands. -/
inductive Puts (fs : Files) (p : Path) (content : Bytes) : Files → Prop
  | intro {names : List Text} {name : Text} {here : Location} {f : File}
    (shape : p.names = names ++ [name]) (checked : checkText p.text = .ok ())
    (followed : fs.follow (Location.start p.isAbsolute) names = .ok (here, .directory))
    (short : isTooLong name = false) (free : fs.node? (here.enter name) ≠ some .directory)
    (filled : f.content = content) : Puts fs p content (fs.put (here.enter name) (.file f))

theorem write_ok (written : fs.write p content = .ok fs') : Puts fs p content fs' := by
  obtain ⟨_, checked, written⟩ := Outcome.bind_ok.mp written
  dsimp only at written
  split at written
  · cases written
  rename_i name last
  obtain ⟨names, shape⟩ := List.getLast?_eq_some_iff.mp last
  split at written
  · cases written
  · cases written
  rename_i here followed
  rw [shape, List.dropLast_concat] at followed
  split at written
  · cases written
  rename_i long
  have short := Bool.eq_false_iff.mpr long
  split at written
  · cases written
  · rename_i f found
    obtain rfl := Except.ok.inj written
    exact .intro shape checked followed short (by rw [found]; nofun) rfl
  · rename_i missing
    obtain rfl := Except.ok.inj written
    exact .intro shape checked followed short (by rw [missing]; nofun) rfl

/-- The path leads to the bytes that were put there. -/
theorem Puts.followPath (puts : Puts fs p content fs') : ∃ place f,
    fs'.followPath p = .ok (place, .file f) ∧ f.content = content ∧
      ∀ other, other ≠ place → fs'.node? other = fs.node? other := by
  obtain @⟨names, name, here, f, shape, checked, followed, short, free, filled⟩ := puts
  have way := follow_put free (.file f) followed
  have last : (fs.put (here.enter name) (.file f)).follow here [name] =
      .ok (here.enter name, .file f) := by
    rw [follow, node?_of_follow way]
    simp only [short, Bool.false_eq_true, if_false]
    rw [follow, node?_put_self free]
  refine ⟨here.enter name, f, ?_, filled, fun other apart => node?_put_other (Ne.symm apart) _⟩
  rw [Files.followPath, checked, shape, follow_append way, last]
  rfl

/-- What was written at a path is read there. -/
theorem read_write (written : fs.write p content = .ok fs') : fs'.read p = .ok content := by
  obtain ⟨place, f, found, rfl, _⟩ := (write_ok written).followPath
  rw [read, found]
  rfl

structure Replaced (before after : Files) (p : Path) (content : Bytes) : Prop where
  read : after.read p = .ok content
  others : ∃ place f, after.followPath p = .ok (place, .file f) ∧
    ∀ other, other ≠ place → after.node? other = before.node? other

theorem replaced_of_write (written : fs.write p content = .ok fs') :
    Replaced fs fs' p content := by
  obtain ⟨place, f, found, _, others⟩ := (write_ok written).followPath
  exact ⟨read_write written, place, f, found, others⟩

/-- Whether bytes can be put at a path does not depend on them. -/
theorem write_error {failure : Failure} (failed : fs.write p content = .error failure)
    (other : Bytes) : fs.write p other = .error failure := by
  simp only [write, bind, Except.bind] at failed ⊢
  split at failed
  · exact failed
  · split at failed
    · exact failed
    · split at failed
      · exact failed
      · exact failed
      · split at failed
        · rename_i long
          rw [if_pos long]
          exact failed
        · rename_i long
          rw [if_neg long]
          split at failed
          · exact failed
          · cases failed
          · cases failed

/-- A path at which something is read holds something. -/
theorem holds_of_read (found : fs.read p = .ok content) : fs.holds p = .ok true := by
  obtain ⟨there, followed, _⟩ := Outcome.bind_ok.mp found
  rw [holds, followed]

end LinkedProof.Files
