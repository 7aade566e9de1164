import YarnCopilot.Common.Run

/-!
# Simulations

One system simulates another when every action of the second can be answered by actions of the first
that keep the two states related. What is known of the runs of the first then holds of the runs of
the second: `Simulation.run_rel` gives the run that answers a whole run.

What a step lets the outside see can be part of the state: `logged` is the system that keeps a log
of it, and a simulation of logged systems is one that keeps the logs equal.
-/

namespace YarnCopilot

variable {σ α τ β : Type*} {step : σ → α → σ} {step' : τ → β → τ}

/-- The system `step` is simulated by the system `step'`. The actions that answer an action may
depend on the state it is taken in. -/
structure Simulation (step : σ → α → σ) (step' : τ → β → τ) where
  Rel : σ → τ → Prop
  answer : σ → α → List β
  step_rel : ∀ {s t} (a : α), Rel s t → Rel (step s a) (run step' t (answer s a))

namespace Simulation

variable (sim : Simulation step step')

/-- The actions that answer a run. -/
def answers : σ → List α → List β
  | _, [] => []
  | s, a :: acts => sim.answer s a ++ answers (step s a) acts

/-- Every run is answered by a run to a related state. -/
theorem run_rel {t : τ} : ∀ (acts : List α) {s : σ}, sim.Rel s t →
    sim.Rel (run step s acts) (run step' t (sim.answers s acts)) := by
  intro acts
  induction acts generalizing t with
  | nil => exact fun h => h
  | cons a acts ih =>
    intro s h
    rw [run_cons, answers, run_append]
    exact ih (sim.step_rel a h)

end Simulation

/-! ## Logs -/

variable {ω : Type*}

/-- The system with a log of what its steps output. -/
def logged (step : σ → α → σ) (out : σ → α → List ω) (s : σ × List ω) (a : α) : σ × List ω :=
  (step s.1 a, s.2 ++ out s.1 a)

/-- The log does not change the run. -/
theorem run_logged_fst {out : σ → α → List ω} (acts : List α) (s : σ × List ω) :
    (run (logged step out) s acts).1 = run step s.1 acts := by
  induction acts generalizing s with
  | nil => rfl
  | cons a acts ih => exact ih (logged step out s a)

end YarnCopilot
