/-! Runs of what takes one step after another, each of them where the one before it ended. -/
namespace LinkedProof

variable {α β γ : Type}

inductive Run {α β : Type} (step : α → β → α → Prop) : α → List β → α → Prop
  | nil {a : α} : Run step a [] a
  | cons {a b c : α} {event : β} {events : List β} (first : step a event b)
    (rest : Run step b events c) : Run step a (event :: events) c

namespace Run

variable {step : α → β → α → Prop} {a b : α} {events : List β}

theorem map {step' : γ → β → γ → Prop} {f : α → γ}
    (each : ∀ a event b, step a event b → step' (f a) event (f b))
    (run : Run step a events b) : Run step' (f a) events (f b) := by
  induction run with
  | nil => exact .nil
  | cons first _ ih => exact .cons (each _ _ _ first) ih

/-- What holds behind a past and is kept by each step holds behind every run from there. -/
theorem keeps (holds : List β → α → Prop)
    (each : ∀ past a event b, holds past a → step a event b → holds (past ++ [event]) b)
    (past : List β) (start : holds past a) (run : Run step a events b) :
    holds (past ++ events) b := by
  induction run generalizing past with
  | nil =>
    rw [List.append_nil]
    exact start
  | cons first _ ih =>
    have behind := ih _ (each _ _ _ _ start first)
    rwa [List.append_assoc] at behind

/-- Where each kind of call can be made in each state, all lists of calls have a run. -/
theorem exists_of_calls {κ : Type} {call : β → κ}
    (each : ∀ a wanted, ∃ event b, call event = wanted ∧ step a event b) (calls : List κ) (a : α) :
    ∃ events b, events.map call = calls ∧ Run step a events b := by
  induction calls generalizing a with
  | nil => exact ⟨[], a, rfl, .nil⟩
  | cons wanted calls ih =>
    obtain ⟨event, b, same, first⟩ := each a wanted
    obtain ⟨events, c, others, rest⟩ := ih b
    refine ⟨event :: events, c, ?_, .cons first rest⟩
    rw [List.map_cons, same, others]

end Run

end LinkedProof
