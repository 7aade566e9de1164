import Mathlib

/-!
# Merge patches

A merge patch of a map says for some keys what they become: a value, or nothing. `diff` is the patch
between two maps, as `CreateTwoWayMergePatch` computes it, and applying it needs no knowledge of the
map it was computed from.
-/

namespace YarnCopilot

/-- What becomes of each key; `none` leaves it alone. -/
abbrev MergePatch (κ ν : Type*) := κ → Option (Option ν)

namespace MergePatch

variable {κ ν : Type*}

/-- The two-way merge patch from `old` to `new`. -/
def diff [DecidableEq ν] (old new : κ → Option ν) : MergePatch κ ν :=
  fun k => if old k = new k then none else some (new k)

/-- Apply a patch, whatever the map is now. -/
def apply (patch : MergePatch κ ν) (current : κ → Option ν) : κ → Option ν :=
  fun k => (patch k).getD (current k)

variable [DecidableEq ν] {old new current : κ → Option ν} {k : κ}

/-- A key the two maps agree on keeps its current value. -/
theorem apply_diff_of_eq (h : old k = new k) : (diff old new).apply current k = current k := by
  simp [diff, apply, h]

/-- A key the two maps differ on gets its new value. -/
theorem apply_diff_of_ne (h : old k ≠ new k) : (diff old new).apply current k = new k := by
  simp [diff, apply, h]

/-- A key that has not changed since gets its new value in any case. -/
theorem apply_diff_of_fresh (h : current k = old k) : (diff old new).apply current k = new k := by
  by_cases heq : old k = new k
  · rw [apply_diff_of_eq heq, h, heq]
  · exact apply_diff_of_ne heq

/-- Applied to the map it was computed from, a patch gives the new map. -/
@[simp] theorem apply_diff : (diff old new).apply old = new :=
  funext fun _ => apply_diff_of_fresh rfl

end MergePatch

end YarnCopilot
