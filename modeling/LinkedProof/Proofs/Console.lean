import Mathlib.Data.List.TakeWhile
import LinkedProof.Console.Plain
import LinkedProof.Proofs.Action

/-! What a console has to show. The console without colours shows whatever is escaped: each tag of
an escaped text has an odd number of backslashes in front of it, so reading the text opens and
closes nothing. -/
namespace LinkedProof.Console

def Prints (c : Console) (markup : Text) : Prop := ∃ shown, c.print markup = .ok shown

/-- Whatever stands in a text, a console can show it behind the mark of an error once it is
escaped. -/
def Reports (c : Console) : Prop := ∀ t, c.Prints ("[red]Error:[/] " ++ c.escape t)

namespace Plain

section Content

variable {c first : CodePoint} {t rest content : Text}

def isBracket (c : CodePoint) : Bool := c = opening || c = closing

inductive Content : Text → Prop
  | intro {first : CodePoint} {inside : Text} (starts : startsTag first = true)
    (clear : ∀ c ∈ inside, isBracket c = false) : Content (first :: inside)

private theorem noBracket_eq : (fun c => decide (c ≠ opening) && decide (c ≠ closing)) =
    fun c => !isBracket c := by
  funext c
  simp [isBracket]

private theorem head?_drop (p : CodePoint → Bool) (t : Text) :
    (t.drop (t.takeWhile (!p ·)).length).head? = t.find? p := by
  have behind := @List.drop_left _ (t.takeWhile (!p ·)) (t.dropWhile (!p ·))
  rw [List.takeWhile_append_dropWhile] at behind
  rw [behind, List.find?_eq_head?_dropWhile_not]

private theorem content?_other (other : c ≠ opening) (rest : Text) :
    content? (c :: rest) = none := by
  cases rest with
  | nil => rfl
  | cons first rest => simp [content?, other]

private theorem content?_opening (first : CodePoint) (rest : Text) :
    content? (opening :: first :: rest) =
      if startsTag first = true ∧ rest.find? isBracket = some closing then
        some (first :: rest.takeWhile (!isBracket ·)) else none := by
  simp only [content?, noBracket_eq, head?_drop]
  simp

private theorem takeWhile_inside {inside : Text} (clear : ∀ c ∈ inside, isBracket c = false)
    (rest : Text) : (inside ++ closing :: rest).takeWhile (!isBracket ·) = inside := by
  rw [List.takeWhile_append_of_pos fun c member => by simpa using clear c member]
  simp [isBracket]

private theorem content?_eq_some : content? t = some content ↔
    Content content ∧ ∃ rest, t = bracketed content ++ rest := by
  constructor
  · intro found
    match t with
    | [] => cases found
    | [_] => cases found
    | c :: first :: rest =>
      by_cases opens : c = opening
      · subst opens
        rw [content?_opening] at found
        split at found
        · rename_i both
          obtain ⟨starts, closes⟩ := both
          obtain rfl := Option.some.inj found
          obtain ⟨_, inside, after, rfl, before⟩ := List.find?_eq_some_iff_append.mp closes
          have clear : ∀ c ∈ inside, isBracket c = false := by simpa using before
          rw [takeWhile_inside clear]
          exact ⟨.intro starts clear, after, by simp [bracketed, Text.concat]⟩
        · cases found
      · rw [content?_other opens] at found
        cases found
  · rintro ⟨⟨starts, clear⟩, rest, rfl⟩
    rename_i first inside
    have shape : bracketed (first :: inside) ++ rest =
        opening :: first :: (inside ++ closing :: rest) := by simp [bracketed, Text.concat]
    have closes : (inside ++ closing :: rest).find? isBracket = some closing :=
      List.find?_eq_some_iff_append.mpr
        ⟨by decide, inside, rest, rfl, by simpa using clear⟩
    rw [shape, content?_opening, if_pos ⟨starts, closes⟩, takeWhile_inside clear]

end Content

section Chunks

variable {c : CodePoint} {t rest content : Text} {n : Nat}

def lead (t : Text) : Nat := (t.takeWhile (· = backslash)).length

private theorem lead_backslashes (n : Nat) (t : Text) : lead (backslashes n ++ t) = n + lead t := by
  rw [lead, List.takeWhile_append_of_pos fun c member => by
    rw [List.eq_of_mem_replicate member]
    rfl]
  simp [backslashes, lead]

private theorem drop_backslashes (n : Nat) (t : Text) : (backslashes n ++ t).drop n = t :=
  List.drop_left' List.length_replicate

private theorem lead_cons (other : c ≠ backslash) (rest : Text) : lead (c :: rest) = 0 := by
  simp [lead, other]

private theorem behind_lead (t : Text) : ∃ n rest, t = backslashes n ++ rest ∧
    ∀ c after, rest = c :: after → c ≠ backslash := by
  induction t with
  | nil => exact ⟨0, [], rfl, nofun⟩
  | cons c t ih =>
    by_cases same : c = backslash
    · obtain ⟨n, rest, rfl, other⟩ := ih
      exact ⟨n + 1, rest, by rw [same]; rfl, other⟩
    · refine ⟨0, c :: t, rfl, ?_⟩
      rintro _ _ ⟨⟩
      exact same

/-- A text is read chunk by chunk: backslashes with a tag behind them, with something else, or with
nothing. -/
theorem chunks {motive : Text → Prop} (ends : ∀ n, motive (backslashes n))
    (tag : ∀ n content rest, Content content → motive rest →
      motive (backslashes n ++ (bracketed content ++ rest)))
    (plain : ∀ n c rest, c ≠ backslash → content? (c :: rest) = none → motive rest →
      motive (backslashes n ++ c :: rest)) (t : Text) : motive t := by
  induction size : t.length using Nat.strongRecOn generalizing t with
  | ind size ih =>
    obtain ⟨n, x, rfl, other⟩ := behind_lead t
    cases x with
    | nil =>
      rw [List.append_nil]
      exact ends n
    | cons c rest =>
      cases found : content? (c :: rest) with
      | none =>
        refine plain n c rest (other c rest rfl) found (ih rest.length ?_ rest rfl)
        rw [← size, List.length_append, List.length_cons]
        omega
      | some content =>
        obtain ⟨valid, after, shape⟩ := content?_eq_some.mp found
        rw [shape] at size ⊢
        refine tag n content after valid (ih after.length ?_ after rfl)
        simp only [List.length_append, bracketed, Text.concat, List.flatten_cons] at size
        simp only [List.length_cons, List.length_nil] at size
        omega

private theorem piecesFrom_drop (skip : Nat) (t : Text) :
    piecesFrom skip t = piecesFrom 0 (t.drop skip) := by
  induction t generalizing skip with
  | nil => cases skip <;> rfl
  | cons c rest ih =>
    cases skip with
    | zero => rfl
    | succ skip => exact ih skip

def putPlain (c : CodePoint) : List Piece → List Piece
  | .plain t :: others => .plain (c :: t) :: others
  | others => .plain [c] :: others

private theorem pieces_cons (none : content? ((c :: rest).drop (lead (c :: rest))) = none) :
    piecesFrom 0 (c :: rest) = putPlain c (piecesFrom 0 rest) := by
  rw [lead] at none
  rw [piecesFrom]
  simp only [none]
  rfl

/-- A backslash in front of backslashes with no tag behind them. -/
private theorem pieces_backslash (n : Nat) (other : ∀ c rest, t = c :: rest → c ≠ backslash)
    (none : content? t = none) : piecesFrom 0 (backslashes (n + 1) ++ t) =
      putPlain backslash (piecesFrom 0 (backslashes n ++ t)) := by
  refine @pieces_cons backslash (backslashes n ++ t) ?_
  have count : lead t = 0 := by
    cases t with
    | nil => rfl
    | cons c rest => exact lead_cons (other c rest rfl) rest
  change content? ((backslashes (n + 1) ++ t).drop (lead (backslashes (n + 1) ++ t))) = Option.none
  rw [lead_backslashes, count, Nat.add_zero, drop_backslashes, none]

private theorem pieces_tag (n : Nat) (valid : Content content) (rest : Text) :
    piecesFrom 0 (backslashes n ++ (bracketed content ++ rest)) =
      .tag n content :: piecesFrom 0 rest := by
  have found : content? (bracketed content ++ rest) = some content :=
    content?_eq_some.mpr ⟨valid, rest, rfl⟩
  have first : lead (backslashes n ++ (bracketed content ++ rest)) = n := by
    rw [lead_backslashes]
    exact congrArg (n + ·) (lead_cons (by decide) _)
  have tagged := drop_backslashes n (bracketed content ++ rest)
  have behind : (backslashes n ++ (bracketed content ++ rest)).drop (n + content.length + 2) =
      rest := by
    rw [Nat.add_assoc, ← List.drop_drop, tagged]
    exact List.drop_left' (by simp [bracketed, Text.concat])
  cases whole : backslashes n ++ (bracketed content ++ rest) with
  | nil => simp [bracketed, Text.concat] at whole
  | cons c after =>
    rw [whole] at first tagged behind
    rw [lead] at first
    rw [piecesFrom]
    simp only [first, tagged, found, piecesFrom_drop (n + content.length + 1) after]
    exact congrArg _ (congrArg (piecesFrom 0) behind)

private theorem pieces_backslashes (n : Nat) :
    piecesFrom 0 (backslashes n) = (backslashes n).foldr putPlain [] := by
  induction n with
  | zero => rfl
  | succ n ih =>
    have step := pieces_backslash n (t := []) nofun rfl
    rw [List.append_nil, List.append_nil, ih] at step
    exact step

private theorem pieces_plain (n : Nat) (other : c ≠ backslash)
    (none : content? (c :: rest) = none) : piecesFrom 0 (backslashes n ++ c :: rest) =
      (backslashes n ++ [c]).foldr putPlain (piecesFrom 0 rest) := by
  induction n with
  | zero => exact pieces_cons (by rw [lead_cons other]; exact none)
  | succ n ih =>
    rw [pieces_backslash n (fun _ _ same => by cases same; exact other) none, ih]
    rfl

def marked (t : Text) : Text := (piecesFrom 0 t).flatMap Piece.escaped

private theorem escaped_putPlain (c : CodePoint) (ps : List Piece) :
    (putPlain c ps).flatMap Piece.escaped = c :: ps.flatMap Piece.escaped := by
  unfold putPlain
  split <;> rfl

private theorem escaped_put (t : Text) (ps : List Piece) :
    (t.foldr putPlain ps).flatMap Piece.escaped = t ++ ps.flatMap Piece.escaped := by
  induction t with
  | nil => rfl
  | cons c rest ih => rw [List.foldr_cons, escaped_putPlain, ih, List.cons_append]

private theorem marked_backslashes (n : Nat) : marked (backslashes n) = backslashes n := by
  rw [marked, pieces_backslashes, escaped_put, List.flatMap_nil, List.append_nil]

private theorem marked_tag (n : Nat) (valid : Content content) (rest : Text) :
    marked (backslashes n ++ (bracketed content ++ rest)) =
      backslashes (2 * n + 1) ++ (bracketed content ++ marked rest) := by
  rw [marked, pieces_tag n valid, List.flatMap_cons, Piece.escaped, List.append_assoc]
  rfl

private theorem marked_plain (n : Nat) (other : c ≠ backslash)
    (none : content? (c :: rest) = none) :
    marked (backslashes n ++ c :: rest) = backslashes n ++ c :: marked rest := by
  rw [marked, pieces_plain n other none, escaped_put, List.append_assoc]
  rfl

end Chunks

section Showing

variable {c : CodePoint} {t rest content : Text} {n : Nat} {glyph? : Text → Option Text}
  {unclosed : List (List Text × Text)}

def Shows (glyph? : Text → Option Text) (unclosed : List (List Text × Text)) (t : Text) : Prop :=
  ∃ seen, shown glyph? (piecesFrom 0 t) unclosed = .ok seen

private theorem shown_putPlain (c : CodePoint) {ps : List Piece}
    (shows : ∃ seen, shown glyph? ps unclosed = .ok seen) :
    ∃ seen, shown glyph? (putPlain c ps) unclosed = .ok seen := by
  obtain ⟨seen, before⟩ := shows
  unfold putPlain
  split
  · obtain ⟨seen, behind, _⟩ := bind_ok.mp before
    exact ⟨_, bind_ok.mpr ⟨seen, behind, rfl⟩⟩
  · exact ⟨_, bind_ok.mpr ⟨seen, before, rfl⟩⟩

private theorem shown_put (t : Text) {ps : List Piece}
    (shows : ∃ seen, shown glyph? ps unclosed = .ok seen) :
    ∃ seen, shown glyph? (t.foldr putPlain ps) unclosed = .ok seen := by
  induction t with
  | nil => exact shows
  | cons c rest ih => exact shown_putPlain c ih

private theorem shows_backslashes (n : Nat) : Shows glyph? unclosed (backslashes n) := by
  rw [Shows, pieces_backslashes]
  exact shown_put _ ⟨_, rfl⟩

private theorem shows_plain (n : Nat) (other : c ≠ backslash) (none : content? (c :: rest) = none)
    (shows : Shows glyph? unclosed rest) : Shows glyph? unclosed (backslashes n ++ c :: rest) := by
  rw [Shows, pieces_plain n other none]
  exact shown_put _ shows

private theorem shows_clear {s : Text} (clear : ∀ c ∈ s, c ≠ backslash ∧ c ≠ opening)
    (shows : Shows glyph? unclosed t) : Shows glyph? unclosed (s ++ t) := by
  induction s with
  | nil => exact shows
  | cons c rest ih =>
    obtain ⟨other, opens⟩ := clear c List.mem_cons_self
    exact shows_plain 0 other (content?_other opens _)
      (ih fun d member => clear d (List.mem_cons_of_mem _ member))

/-- A tag behind an odd number of backslashes opens and closes nothing. -/
private theorem shows_odd (odd : n % 2 = 1) (valid : Content content)
    (shows : Shows glyph? unclosed rest) :
    Shows glyph? unclosed (backslashes n ++ (bracketed content ++ rest)) := by
  obtain ⟨seen, behind⟩ := shows
  rw [Shows, pieces_tag n valid, shown, if_pos odd]
  exact ⟨_, bind_ok.mpr ⟨seen, behind, rfl⟩⟩

private theorem shows_tag {open' : List (List Text × Text)} (valid : Content content)
    (opened : behind content unclosed = .ok open') (shows : Shows glyph? open' rest) :
    Shows glyph? unclosed (bracketed content ++ rest) := by
  obtain ⟨seen, ended⟩ := shows
  have pieces : piecesFrom 0 (bracketed content ++ rest) = _ := pieces_tag 0 valid rest
  rw [Shows, pieces, shown, if_neg (by decide)]
  exact ⟨_, bind_ok.mpr ⟨open', opened, bind_ok.mpr ⟨seen, ended, rfl⟩⟩⟩

end Showing

section Escape

variable {c : CodePoint} {t rest : Text} {glyph? : Text → Option Text}
  {unclosed : List (List Text × Text)}

private theorem find?_backslashes (n : Nat) (t : Text) :
    (backslashes n ++ t).find? isBracket = t.find? isBracket := by
  have clear : (backslashes n).find? isBracket = none := by
    rw [List.find?_eq_none]
    intro c member
    rw [List.eq_of_mem_replicate member]
    decide
  rw [List.find?_append, clear, Option.none_or]

/-- Marking the tags of a text puts in no bracket. -/
private theorem find?_marked (t : Text) : (marked t).find? isBracket = t.find? isBracket := by
  induction t using chunks with
  | ends n => rw [marked_backslashes]
  | tag n content rest valid _ =>
    rw [marked_tag n valid, find?_backslashes, find?_backslashes]
    rfl
  | plain n c rest other none ih =>
    rw [marked_plain n other none, find?_backslashes, find?_backslashes, List.find?_cons,
      List.find?_cons, ih]

private theorem content?_backslash (n : Nat) (t : Text) :
    content? (opening :: (backslashes (n + 1) ++ t)) = none := by
  have shape : backslashes (n + 1) ++ t = backslash :: (backslashes n ++ t) := rfl
  rw [shape, content?_opening, if_neg]
  exact fun both => absurd both.1 (by decide)

private theorem content?_last (n : Nat) : content? (opening :: backslashes n) = none := by
  cases n with
  | zero => rfl
  | succ n =>
    have stops := content?_backslash n []
    rwa [List.append_nil] at stops

private theorem backslashes_append (n k : Nat) :
    backslashes n ++ backslashes k = backslashes (n + k) := List.replicate_append_replicate

/-- What began no tag begins none when the tags behind it are marked. -/
private theorem content?_marked (k : Nat) (none : content? (c :: rest) = none) :
    content? (c :: (marked rest ++ backslashes k)) = Option.none := by
  by_cases opens : c = opening
  · subst opens
    induction rest using chunks with
    | ends n =>
      rw [marked_backslashes, backslashes_append]
      exact content?_last _
    | tag n content rest valid _ =>
      rw [marked_tag n valid, List.append_assoc]
      exact content?_backslash (2 * n) _
    | plain n d rest other stops _ =>
      rw [marked_plain n other stops, List.append_assoc]
      cases n with
      | zero =>
        have bracket : (marked rest ++ backslashes k).find? isBracket = rest.find? isBracket := by
          have last := find?_backslashes k []
          rw [List.append_nil] at last
          rw [List.find?_append, find?_marked, last, List.find?_nil, Option.or_none]
        change content? (opening :: d :: rest) = Option.none at none
        change content? (opening :: d :: (marked rest ++ backslashes k)) = Option.none
        rw [content?_opening] at none ⊢
        rw [bracket]
        split at none
        · cases none
        · rw [if_neg ‹_›]
      | succ n => exact content?_backslash n _
  · exact content?_other opens _

private theorem shows_marked (t : Text) (k : Nat) :
    Shows glyph? unclosed (marked t ++ backslashes k) := by
  induction t using chunks with
  | ends n =>
    rw [marked_backslashes, backslashes_append]
    exact shows_backslashes _
  | tag n content rest valid ih =>
    rw [marked_tag n valid, List.append_assoc, List.append_assoc]
    exact shows_odd (by omega) valid ih
  | plain n c rest other stops ih =>
    rw [marked_plain n other stops, List.append_assoc, List.cons_append]
    exact shows_plain n other (content?_marked k stops) ih

/-- An escaped text can be shown whatever it is and whatever is open in front of it. -/
theorem shows_escape (t : Text) : Shows glyph? unclosed (escape t) := by
  by_cases lone : ((marked t).reverse.takeWhile (· = backslash)).length = 1
  · have escaped : escape t = marked t ++ backslashes 1 := if_pos lone
    rw [escaped]
    exact shows_marked t 1
  · have escaped : escape t = marked t ++ backslashes 0 :=
      (if_neg lone).trans (List.append_nil _).symm
    rw [escaped]
    exact shows_marked t 0

end Escape

end Plain

private theorem Plain.behind_close (name : List Text) : behind "/" [(name, [])] = .ok [] := by
  have none : words [] = [] := by simp [words, Text.split, Text.toLowerAscii]
  have whole : Text.cut? '=' [CodePoint.ofChar '/'] = Option.none := by rfl
  change behind [CodePoint.ofChar '/'] [(name, [])] = .ok []
  simp [behind, whole, none]

/-- The console without colours can show every report of an error. -/
theorem plain_reports (width : Nat) (glyph? : Text → Option Text) :
    (plain width glyph?).Reports := by
  intro t
  have mark : Plain.Content "red" := .intro (by decide) (by decide)
  have slash : Plain.Content "/" := .intro (by decide) nofun
  have opened : Plain.behind "red" [] = .ok [(Plain.words "red", [])] := rfl
  have shows : Plain.Shows glyph? [] ("[red]Error:[/] " ++ Plain.escape t) :=
    Plain.shows_tag mark opened <| Plain.shows_clear (s := "Error:") (by decide) <|
      Plain.shows_tag slash (Plain.behind_close _) <|
        Plain.shows_clear (s := " ") (by decide) (Plain.shows_escape t)
  obtain ⟨seen, rendered⟩ := shows
  exact ⟨_, bind_ok.mpr ⟨_, bind_ok.mpr ⟨seen, rendered, rfl⟩, rfl⟩⟩

end LinkedProof.Console
