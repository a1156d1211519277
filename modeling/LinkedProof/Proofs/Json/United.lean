import LinkedProof.Json.Reader
import LinkedProof.Proofs.Action
import LinkedProof.Proofs.Json.Ordered
import LinkedProof.Proofs.Number.Rounding

/-! What comes out of reading. Members of one name are united, so every value that is read has
distinct names at every depth, and members of distinct names stay as they were written. Nothing in
such a value lies too deep or is too long to be read once more. -/
namespace LinkedProof

namespace Members

variable {ms : Members} {key : Text} {value : Json} {m : Text × Json}

theorem set_fresh (fresh : key ∉ ms.keys) : ms.set key value = ms ++ [(key, value)] := by
  induction ms with
  | nil => rfl
  | cons m rest ih =>
    obtain ⟨other, fresh⟩ := not_or.mp (fun member => fresh (List.mem_cons.mpr member))
    rw [set, if_neg (Ne.symm other), ih fresh, List.cons_append]

theorem keys_set_known (known : key ∈ ms.keys) : (ms.set key value).keys = ms.keys := by
  induction ms with
  | nil => cases known
  | cons m rest ih =>
    by_cases same : m.1 = key
    · rw [set, if_pos same, keys, keys, List.map_cons, List.map_cons, same]
    · have later : key ∈ keys rest := (List.mem_cons.mp known).resolve_left (Ne.symm same)
      rw [set, if_neg same]
      exact congrArg (m.1 :: ·) (ih later)

theorem Distinct.set (distinct : ms.Distinct) : (ms.set key value).Distinct := by
  by_cases known : key ∈ ms.keys
  · rw [Distinct, keys_set_known known]
    exact distinct
  · have apart : Members.Distinct ((key, value) :: ms) := List.nodup_cons.mpr ⟨known, distinct⟩
    rw [set_fresh known]
    exact apart.perm (List.perm_append_singleton _ _).symm

theorem mem_set (member : m ∈ ms.set key value) : m = (key, value) ∨ m ∈ ms := by
  induction ms with
  | nil => exact .inl (List.mem_singleton.mp member)
  | cons other rest ih =>
    rw [set] at member
    split at member
    · rcases List.mem_cons.mp member with rfl | later
      · exact .inl rfl
      · exact .inr (List.mem_cons_of_mem _ later)
    · rcases List.mem_cons.mp member with rfl | later
      · exact .inr List.mem_cons_self
      · exact (ih later).imp_right (List.mem_cons_of_mem _)

end Members

namespace Json

section Uniting

variable {ms done : Members}

private def unitedWith (done ms : Members) : Members :=
  ms.foldl (fun united m => united.set m.1 m.2) done

private theorem unitedWith_cons (done : Members) (m : Text × Json) (rest : Members) :
    unitedWith done (m :: rest) = unitedWith (done.set m.1 m.2) rest := rfl

private theorem unitedWith_distinct (distinct : done.Distinct) :
    (unitedWith done ms).Distinct := by
  induction ms generalizing done with
  | nil => exact distinct
  | cons m rest ih => exact ih distinct.set

private theorem mem_unitedWith {m : Text × Json} (member : m ∈ unitedWith done ms) :
    m ∈ ms ∨ m ∈ done := by
  induction ms generalizing done with
  | nil => exact .inr member
  | cons n rest ih =>
    rcases ih member with later | here
    · exact .inl (List.mem_cons_of_mem _ later)
    · rcases Members.mem_set here with rfl | before
      · exact .inl List.mem_cons_self
      · exact .inr before

private theorem unitedWith_self (apart : Members.Distinct (done ++ ms)) :
    unitedWith done ms = done ++ ms := by
  induction ms generalizing done with
  | nil => exact (List.append_nil done).symm
  | cons m rest ih =>
    have fresh : m.1 ∉ Members.keys done := by
      have first := apart.perm List.perm_middle
      intro known
      apply (List.nodup_cons.mp first).1
      rw [List.map_append]
      exact List.mem_append_left _ known
    have next : Members.Distinct (done ++ [m] ++ rest) := by simpa using apart
    rw [unitedWith_cons, Members.set_fresh fresh, ih next]
    simp

theorem uniteMembers_distinct (ms : Members) : (uniteMembers ms).Distinct :=
  unitedWith_distinct List.nodup_nil

theorem mem_uniteMembers {m : Text × Json} (member : m ∈ uniteMembers ms) : m ∈ ms :=
  (mem_unitedWith member).resolve_right List.not_mem_nil

theorem uniteMembers_self (distinct : ms.Distinct) : uniteMembers ms = ms :=
  unitedWith_self distinct

end Uniting

/-- A value as it comes out of the reader that had so much room: containers no deeper than that with
distinct names, integers of so many digits as are allowed, and one value for what is no number. -/
inductive Settled : Nat → Json → Prop
  | null {room : Nat} : Settled room null
  | bool {room : Nat} (b : Bool) : Settled room (bool b)
  | int {room : Nat} {i : Int} (short : i.natAbs < leastLong) : Settled room (int i)
  | float {room : Nat} {x : Binary64} (single : x.isNaN = true → x = .nan) : Settled room (float x)
  | text {room : Nat} (t : Text) : Settled room (text t)
  | array {room : Nat} {items : List Json} (each : ∀ item ∈ items, Settled room item) :
    Settled (room + 1) (array items)
  | object {room : Nat} {ms : Members} (distinct : ms.Distinct)
    (each : ∀ m ∈ ms, Settled room m.2) : Settled (room + 1) (object ms)

theorem Settled.distinct {room : Nat} {ms : Members} (settled : Settled room (.object ms)) :
    ms.Distinct := by
  cases settled with
  | object distinct _ => exact distinct

section Reading

variable {t : Text} {room : Nat}

private theorem word?_settled {r : Json × Text} (found : word? t = some r) : Settled room r.1 := by
  have each : ∀ w ∈ words, Settled room w.2 := by
    simp only [words, List.forall_mem_cons]
    exact ⟨.null, .bool _, .bool _, .float fun _ => rfl, .float nofun, .float nofun,
      List.forall_mem_nil _⟩
  obtain ⟨w, first, rfl⟩ := Option.map_eq_some_iff.mp found
  exact each w (List.mem_of_find?_eq_some first)

/-- A numeral is an integer, which may still be too long, or what its digits are rounded to. -/
private theorem number?_cases {r : Json × Text} (found : number? t = some r) :
    (∃ i, r.1 = .int i) ∨ ∃ negative digits e, r.1 = .float (.ofDecimal negative digits e) := by
  have unsigned {negative : Bool} {u : Text} (read : unsignedNumber? negative u = some r) :
      (∃ i, r.1 = .int i) ∨ ∃ negative digits e, r.1 = .float (.ofDecimal negative digits e) := by
    unfold unsignedNumber? at read
    obtain ⟨⟨whole, rest⟩, _, read⟩ := Option.bind_eq_some_iff.mp read
    dsimp only at read
    split at read
    · obtain rfl := Option.some.inj read
      exact .inr ⟨_, _, _, rfl⟩
    · split at read
      · obtain rfl := Option.some.inj read
        exact .inl ⟨_, rfl⟩
      · obtain rfl := Option.some.inj read
        exact .inr ⟨_, _, _, rfl⟩
  unfold number? at found
  split at found
  · split at found
    · exact unsigned found
    · exact unsigned found
  · cases found

private theorem checkDigits_settled {found r : Json × Text} (read : number? t = some found)
    (passed : checkDigits found = .ok r) : Settled room r.1 := by
  obtain ⟨v, rest⟩ := found
  rcases number?_cases read with ⟨i, rfl⟩ | ⟨negative, digits, e, rfl⟩
  · by_cases long : leastLong ≤ i.natAbs
    · simp only [checkDigits, if_pos long] at passed
      cases passed
    · simp only [checkDigits, if_neg long] at passed
      obtain rfl := Except.ok.inj passed
      exact .int (Nat.lt_of_not_le long)
  · obtain rfl := Except.ok.inj passed
    refine .float fun number => ?_
    rw [Binary64.isNaN_ofDecimal] at number
    cases number

-- What a reader gives back with this much fuel. How much it leaves unread plays no part.
private def ReadsValues (fuel : Nat) : Prop :=
  ∀ (room : Nat) (t : Text) (r : Json × Text), value room fuel t = .ok r → Settled room r.1

private def ReadsItems (fuel : Nat) : Prop :=
  ∀ (room : Nat) (t : Text) (r : List Json × Text), elements room fuel t = .ok r →
    ∀ item ∈ r.1, Settled room item

private def ReadsMembers (fuel : Nat) : Prop :=
  ∀ (room : Nat) (t : Text) (r : Members × Text), members room fuel t = .ok r →
    ∀ m ∈ r.1, Settled room m.2

variable {fuel : Nat}

private theorem readsValues_succ (lists : ReadsItems fuel) (objects : ReadsMembers fuel) :
    ReadsValues (fuel + 1) := by
  intro room t r read
  cases t with
  | nil => cases read
  | cons c t =>
    rw [value] at read
    split at read
    · obtain ⟨⟨s, after⟩, _, done⟩ := bind_ok.mp read
      obtain rfl := Except.ok.inj done
      exact .text s
    split at read
    · split at read
      · cases read
      rename_i open'
      obtain ⟨room, rfl⟩ := Nat.exists_eq_succ_of_ne_zero open'
      split at read
      · split at read
        · obtain rfl := Except.ok.inj read
          exact .array (List.forall_mem_nil _)
        · obtain ⟨⟨items, after⟩, found, done⟩ := bind_ok.mp read
          obtain rfl := Except.ok.inj done
          exact .array (lists _ _ _ found)
      · cases read
    split at read
    · split at read
      · cases read
      rename_i open'
      obtain ⟨room, rfl⟩ := Nat.exists_eq_succ_of_ne_zero open'
      split at read
      · split at read
        · obtain rfl := Except.ok.inj read
          exact .object List.nodup_nil (List.forall_mem_nil _)
        · -- Here the names may repeat in the text; it is the uniting that makes them distinct.
          obtain ⟨⟨ms, after⟩, found, done⟩ := bind_ok.mp read
          obtain rfl := Except.ok.inj done
          exact .object (uniteMembers_distinct ms) fun m member =>
            objects _ _ _ found m (mem_uniteMembers member)
      · cases read
    split at read
    · rename_i found
      obtain rfl := Except.ok.inj read
      exact word?_settled found
    split at read
    · rename_i found
      exact checkDigits_settled found read
    · cases read

private theorem readsItems_succ (values : ReadsValues fuel) (lists : ReadsItems fuel) :
    ReadsItems (fuel + 1) := by
  intro room t r read
  rw [elements] at read
  obtain ⟨⟨item, after⟩, first, read⟩ := bind_ok.mp read
  dsimp only at read
  split at read
  · split at read
    · obtain rfl := Except.ok.inj read
      exact List.forall_mem_singleton.mpr (values _ _ _ first)
    split at read
    · obtain ⟨⟨items, after⟩, others, done⟩ := bind_ok.mp read
      obtain rfl := Except.ok.inj done
      exact List.forall_mem_cons.mpr ⟨values _ _ _ first, lists _ _ _ others⟩
    · cases read
  · cases read

private theorem readsMembers_succ (values : ReadsValues fuel) (objects : ReadsMembers fuel) :
    ReadsMembers (fuel + 1) := by
  intro room t r read
  cases t with
  | nil => cases read
  | cons quote t =>
    rw [members] at read
    split at read
    · cases read
    obtain ⟨⟨key, afterKey⟩, _, read⟩ := bind_ok.mp read
    dsimp only at read
    split at read
    · split at read
      · cases read
      obtain ⟨⟨item, afterItem⟩, first, read⟩ := bind_ok.mp read
      dsimp only at read
      split at read
      · split at read
        · obtain rfl := Except.ok.inj read
          exact List.forall_mem_singleton.mpr (values _ _ _ first)
        split at read
        · obtain ⟨⟨ms, after⟩, others, done⟩ := bind_ok.mp read
          obtain rfl := Except.ok.inj done
          exact List.forall_mem_cons.mpr ⟨values _ _ _ first, objects _ _ _ others⟩
        · cases read
      · cases read
    · cases read

private theorem reads_settled (fuel : Nat) :
    ReadsValues fuel ∧ ReadsItems fuel ∧ ReadsMembers fuel := by
  induction fuel with
  | zero => exact ⟨nofun, nofun, nofun⟩
  | succ fuel ih =>
    obtain ⟨values, lists, objects⟩ := ih
    exact ⟨readsValues_succ lists objects, readsItems_succ values lists,
      readsMembers_succ values objects⟩

private theorem document_settled {v : Json} (read : document room t = .ok v) : Settled room v := by
  unfold document at read
  obtain ⟨⟨found, rest⟩, first, read⟩ := bind_ok.mp read
  dsimp only at read
  split at read
  · obtain rfl := Except.ok.inj read
    exact (reads_settled _).1 _ _ _ first
  · cases read

private theorem read_settled {v : Json} (read : parse.read room t = .ok v) : Settled room v := by
  unfold parse.read at read
  split at read
  · rename_i found
    obtain rfl := Except.ok.inj read
    exact document_settled found
  · cases read

/-- Every value that is read from a text is one that can be read again as it is. -/
theorem parse_settled {v : Json} (read : parse room t = .ok v) : Settled room v := by
  unfold parse at read
  split at read
  · split at read
    · cases read
    · exact read_settled read
  · exact read_settled read

theorem parseBytes_settled {bytes : Bytes} {v : Json} (read : parseBytes room bytes = .ok v) :
    Settled room v := by
  unfold parseBytes at read
  split at read
  · cases read
  · exact read_settled (mapError_ok.mp read)

end Reading

end Json

end LinkedProof
