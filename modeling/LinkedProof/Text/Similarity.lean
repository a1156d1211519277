import LinkedProof.Text.CodePoint

/-! How alike two texts are: the share of their code points that lie in common runs, where the
longest common run is taken first and then what lies on its two sides in the same way. -/
namespace LinkedProof.Text

def commonStart : Text → Text → Nat
  | a :: s, b :: t => if a = b then commonStart s t + 1 else 0
  | _, _ => 0

structure CommonRun where
  first : Nat
  second : Nat
  length : Nat

/-- The longest common run; of several the one that comes first in the first text, and of those the
one that comes first in the second. -/
def longestRun (s t : Text) : CommonRun :=
  (List.range s.length).foldl (fun best i =>
    (List.range t.length).foldl (fun best j =>
      let length := commonStart (s.drop i) (t.drop j)
      if best.length < length then ⟨i, j, length⟩ else best) best) ⟨0, 0, 0⟩

/-- The count of code points in common runs. Each run shortens what is left of the first text, so
its length bounds the depth. -/
def commonWithin : Nat → Text → Text → Nat
  | 0, _, _ => 0
  | depth + 1, s, t =>
    let run := longestRun s t
    if run.length = 0 then 0
    else run.length + commonWithin depth (s.take run.first) (t.take run.second)
      + commonWithin depth (s.drop (run.first + run.length)) (t.drop (run.second + run.length))

def common (s t : Text) : Nat := commonWithin s.length s t

def isAlike (s t : Text) : Bool := 3 * (s.length + t.length) ≤ 10 * common s t

def isMoreAlike (t s s' : Text) : Bool :=
  let left := common s t * (s'.length + t.length)
  let right := common s' t * (s.length + t.length)
  right < left || (left = right && lt s' s)

def insertAlike (t s : Text) : List Text → List Text
  | [] => [s]
  | other :: rest =>
    if isMoreAlike t s other then s :: other :: rest else other :: insertAlike t s rest

def alike (t : Text) (texts : List Text) : List Text :=
  ((texts.filter fun s => isAlike s t).foldl (fun found s => insertAlike t s found) []).take 3

end LinkedProof.Text
