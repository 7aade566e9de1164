import Mathlib

/-!
# Runs of a system

A system is a step function on states; what is outside the program's control is part of the action.
A run is a list of actions. `run_invariant` is the induction every safety theorem goes through, and
`run_invariant_of_meets` the same for runs whose steps all meet a condition. `run_origin` is the
induction behind every statement on where something comes from.
-/

namespace YarnCopilot

variable {σ α : Type*} {step : σ → α → σ}

/-- The state after a run. -/
def run (step : σ → α → σ) (s : σ) (acts : List α) : σ := acts.foldl step s

@[simp] theorem run_nil (s : σ) : run step s [] = s := rfl

@[simp] theorem run_cons (s : σ) (a : α) (acts : List α) :
    run step s (a :: acts) = run step (step s a) acts := rfl

theorem run_append (s : σ) (xs ys : List α) :
    run step s (xs ++ ys) = run step (run step s xs) ys := List.foldl_append

/-- What holds at the start and is kept by every step holds after every run. -/
theorem run_invariant {Inv : σ → Prop} (hstep : ∀ s a, Inv s → Inv (step s a)) :
    ∀ (acts : List α) {s : σ}, Inv s → Inv (run step s acts)
  | [], _, h => h
  | a :: acts, s, h => run_invariant hstep acts (hstep s a h)

/-- What holds of every element of a list and what stands before it. -/
theorem forall_split_cons {P : List α → α → Prop} {c : α} {l : List α} :
    (∀ pre a post, c :: l = pre ++ a :: post → P pre a) ↔
      P [] c ∧ ∀ pre a post, l = pre ++ a :: post → P (c :: pre) a := by
  constructor
  · intro h
    refine ⟨h [] c l rfl, fun pre a post hsplit => ?_⟩
    exact h (c :: pre) a post (by rw [hsplit, List.cons_append])
  · rintro ⟨hc, hrest⟩ pre a post hsplit
    cases pre with
    | nil =>
      obtain ⟨rfl, -⟩ := List.cons.inj hsplit
      exact hc
    | cons d pre =>
      obtain ⟨rfl, htail⟩ := List.cons.inj hsplit
      exact hrest pre a post htail

/-- Every step of a run, taken in the state the run has then reached, meets `ok`. -/
def Meets (step : σ → α → σ) (ok : σ → α → Prop) (s : σ) (acts : List α) : Prop :=
  ∀ pre a post, acts = pre ++ a :: post → ok (run step s pre) a

variable {ok : σ → α → Prop}

theorem meets_nil {s : σ} : Meets step ok s [] := by
  intro pre a post hsplit
  simp at hsplit

theorem meets_cons {s : σ} {a : α} {acts : List α} :
    Meets step ok s (a :: acts) ↔ ok s a ∧ Meets step ok (step s a) acts :=
  forall_split_cons

/-- The part of a run up to some point meets what the whole run meets. -/
theorem Meets.of_append {s : σ} {xs ys : List α} (h : Meets step ok s (xs ++ ys)) :
    Meets step ok s xs := by
  intro pre a post hsplit
  exact h pre a (post ++ ys) (by rw [hsplit]; simp)

/-- What holds at the start and is kept by every step that meets `ok` holds after every run whose
steps meet `ok`. -/
theorem run_invariant_of_meets {Inv : σ → Prop} (hstep : ∀ s a, ok s a → Inv s → Inv (step s a)) :
    ∀ (acts : List α) {s : σ}, Meets step ok s acts → Inv s → Inv (run step s acts)
  | [], _, _, h => h
  | a :: acts, s, hmeets, h => by
    obtain ⟨ha, hrest⟩ := meets_cons.mp hmeets
    exact run_invariant_of_meets hstep acts hrest (hstep s a ha h)

/-- What a step can only keep or bring in was there at the start of a run, or some step of the run
brought it in. -/
theorem run_origin {s : σ} {P : σ → Prop} {B : List α → α → Prop} {acts : List α}
    (hstep : ∀ pre a post, acts = pre ++ a :: post → P (step (run step s pre) a) →
      P (run step s pre) ∨ B pre a)
    (h : P (run step s acts)) : P s ∨ ∃ pre a post, acts = pre ++ a :: post ∧ B pre a := by
  induction acts using List.reverseRecOn with
  | nil => exact .inl h
  | append_singleton acts a ih =>
    rw [run_append] at h
    rcases hstep acts a [] rfl h with hbefore | hborn
    · have hprefix : ∀ pre b post, acts = pre ++ b :: post → P (step (run step s pre) b) →
          P (run step s pre) ∨ B pre b := fun pre b post hsplit =>
        hstep pre b (post ++ [a]) (by rw [hsplit]; simp)
      rcases ih hprefix hbefore with hstart | ⟨pre, b, post, rfl, hborn⟩
      · exact .inl hstart
      · exact .inr ⟨pre, b, post ++ [a], by simp, hborn⟩
    · exact .inr ⟨acts, a, [], rfl, hborn⟩

end YarnCopilot
