import LinkedProof.Failure

/-! Steps that may fail and may touch a shared state: the caches, the connections and the recorded
calls of whoever runs them. A failing step keeps what it did to the state. -/
namespace LinkedProof

abbrev Outcome (α : Type) := Except Failure α

abbrev Action (σ : Type) := ExceptT Failure (StateM σ)

namespace Action

variable {σ τ α : Type}

def ofOutcome (r : Outcome α) : Action σ α := ExceptT.mk (pure r)

def onSecond (a : Action τ α) : Action (σ × τ) α := ExceptT.mk fun (s, t) =>
  let (r, t) := a.run.run t
  (r, (s, t))

def rename (f : Failure → Failure) (a : Action σ α) : Action σ α := ExceptT.mk fun s =>
  let (r, s) := a.run.run s
  (r.mapError f, s)

end Action

def Outcome.rename {α : Type} (f : Failure → Failure) (r : Outcome α) : Outcome α := r.mapError f

end LinkedProof
