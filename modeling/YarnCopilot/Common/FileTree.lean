import Mathlib

/-!
# Walks of a file tree

`filepath.Walk` and `filepath.WalkDir` call a function on every entry below a directory: a directory
before its entries, the entries of a directory in the order in which they are listed. An error of
the function ends the walk. `visits` is the order alone; `walk_eq_forM` reduces the recursion to a
loop over it, in whatever monad the function runs.
-/

namespace YarnCopilot

/-- The entries of a directory, in order: a file with what is known of it, or a directory with its
own entries. -/
inductive Entries (α : Type)
  | nil
  | file (name : String) (info : α) (rest : Entries α)
  | dir (name : String) (entries rest : Entries α)

/-- A visited entry: the names on the way down from the root, and what is known of it if it is a
file. -/
structure Visit (α : Type) where
  path : List String
  file : Option α
deriving DecidableEq

/-- The base name of an entry. -/
def Visit.name {α : Type} (v : Visit α) : String := v.path.getLast?.getD ""

namespace Entries

variable {α : Type}

/-- The entries below the directory `path` in the order of a walk. -/
def visitsBelow (path : List String) : Entries α → List (Visit α)
  | nil => []
  | file name info rest => ⟨path ++ [name], some info⟩ :: visitsBelow path rest
  | dir name entries rest =>
    ⟨path ++ [name], none⟩ :: (visitsBelow (path ++ [name]) entries ++ visitsBelow path rest)

/-- The order of a walk: the root itself, then everything below it. -/
def visits (t : Entries α) : List (Visit α) := ⟨[], none⟩ :: visitsBelow [] t

variable {m : Type → Type} [Monad m]

/-- The recursion of a walk below the directory `path`. -/
def walkBelow (f : Visit α → m Unit) (path : List String) : Entries α → m Unit
  | nil => pure ()
  | file name info rest => do
    f ⟨path ++ [name], some info⟩
    walkBelow f path rest
  | dir name entries rest => do
    f ⟨path ++ [name], none⟩
    walkBelow f (path ++ [name]) entries
    walkBelow f path rest

/-- `filepath.Walk` and `filepath.WalkDir` of a directory. -/
def walk (f : Visit α → m Unit) (t : Entries α) : m Unit := do
  f ⟨[], none⟩
  walkBelow f [] t

theorem walkBelow_eq_forM [LawfulMonad m] (f : Visit α → m Unit) (path : List String)
    (t : Entries α) : walkBelow f path t = forM (visitsBelow path t) f := by
  induction t generalizing path with
  | nil => rfl
  | file name info rest ih => simp only [walkBelow, visitsBelow, ih, List.forM_cons]
  | dir name entries rest ihEntries ihRest =>
    simp only [walkBelow, visitsBelow, ihEntries, ihRest, List.forM_cons, List.forM_append]

/-- A walk is a loop over the visited entries. -/
theorem walk_eq_forM [LawfulMonad m] (f : Visit α → m Unit) (t : Entries α) :
    walk f t = forM (visits t) f := by
  rw [walk, walkBelow_eq_forM, visits, List.forM_cons]

/-- A walk with a function that only keeps state: the state goes from entry to entry. -/
theorem run_walk {σ : Type} (f : Visit α → StateM σ Unit) (t : Entries α) (s : σ) :
    ((walk f t).run s).2 = t.visits.foldl (fun s v => ((f v).run s).2) s := by
  rw [walk_eq_forM]
  induction t.visits generalizing s with
  | nil => rfl
  | cons v vs ih => exact ih ((f v).run s).2

section Error

variable {σ ε : Type} (f : Visit α → ExceptT ε (StateM σ) Unit)

theorem run_forM_cons (v : Visit α) (vs : List (Visit α)) (s : σ) :
    (forM (v :: vs) f).run.run s =
      match (f v).run.run s with
      | (.ok _, s') => (forM vs f).run.run s'
      | (.error e, s') => (.error e, s') := by
  rw [List.forM_cons, ExceptT.run_bind, StateT.run_bind]
  cases h : (f v).run.run s with
  | mk r s' =>
    cases r <;> rfl

/-- A loop whose function fails nowhere. -/
theorem run_forM_of_ok {step : σ → Visit α → σ} {vs : List (Visit α)}
    (h : ∀ v ∈ vs, ∀ s, (f v).run.run s = (.ok (), step s v)) (s : σ) :
    (forM vs f).run.run s = (.ok (), vs.foldl step s) := by
  induction vs generalizing s with
  | nil => rfl
  | cons v vs ih =>
    rw [run_forM_cons, h v List.mem_cons_self]
    exact ih (fun v hv => h v (List.mem_cons_of_mem _ hv)) _

/-- A loop whose function fails at `v` first: nothing behind it is visited. -/
theorem run_forM_of_error {step : σ → Visit α → σ} {pre post : List (Visit α)} {v : Visit α} {e : ε}
    (hpre : ∀ v ∈ pre, ∀ s, (f v).run.run s = (.ok (), step s v))
    (hv : ∀ s, (f v).run.run s = (.error e, s)) (s : σ) :
    (forM (pre ++ v :: post) f).run.run s = (.error e, pre.foldl step s) := by
  induction pre generalizing s with
  | nil => rw [List.nil_append, run_forM_cons, hv, List.foldl_nil]
  | cons u pre ih =>
    rw [List.cons_append, run_forM_cons, hpre u List.mem_cons_self]
    exact ih (fun v hv => hpre v (List.mem_cons_of_mem _ hv)) _

end Error

end Entries

end YarnCopilot
