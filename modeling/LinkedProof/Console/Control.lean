import LinkedProof.Text.CodePoint

/-! What in a text is meant for the terminal and not for its reader: controls that move the cursor,
and the sequences behind the escape control that set colours and the like. -/
namespace LinkedProof.Console

def movesCursor (c : CodePoint) : Bool :=
  c.val = 0x07 || c.val = 0x08 || c.val = 0x0B || c.val = 0x0C || c.val = 0x0D

def visible (t : Text) : Text := t.filter fun c => !movesCursor c

def isParameter (c : CodePoint) : Bool := c.isDigit || c.val = 0x3B || c.val = 0x3F

def isLetter (c : CodePoint) : Bool :=
  (0x41 ≤ c.val && c.val ≤ 0x5A) || (0x61 ≤ c.val && c.val ≤ 0x7A)

def sequenceLength? : Text → Option Nat
  | escape :: bracket :: rest =>
    let parameters := rest.takeWhile isParameter
    if escape.val = 0x1B && bracket = ('[' : CodePoint)
        && ((rest.drop parameters.length).head?.map isLetter).getD false then
      some (parameters.length + 3)
    else none
  | _ => none

def withoutSequencesFrom : Nat → Text → Text
  | _, [] => []
  | skip + 1, _ :: rest => withoutSequencesFrom skip rest
  | 0, c :: rest =>
    match sequenceLength? (c :: rest) with
    | some length => withoutSequencesFrom (length - 1) rest
    | none => c :: withoutSequencesFrom 0 rest

def withoutSequences (t : Text) : Text := withoutSequencesFrom 0 t

end LinkedProof.Console
