import Mathlib

/-!
# Replacing text

`strings.ReplaceAll` with a pattern that is not empty: the occurrences are found from the left and
do not overlap. The main result is about cutting a suffix off by replacing it with nothing:
`replaceAll_append_self_iff`.
-/

namespace YarnCopilot

variable {α : Type*} {old new : List α}

/-! ## Occurrences -/

/-- An occurrence behind `a` is the first one: none starts inside of `a`. -/
def First (old a : List α) : Prop := ∀ t, t ≠ [] → t <:+ a → ¬ old <+: t ++ old

theorem First.of_cons {c : α} {a : List α} (h : First old (c :: a)) : First old a :=
  fun t hne hsuffix => h t hne (hsuffix.trans (List.suffix_cons c a))

/-- What follows an occurrence has no part in whether one starts before it. -/
theorem prefix_append_append_iff (t b : List α) : old <+: t ++ old ++ b ↔ old <+: t ++ old := by
  constructor
  · intro h
    exact List.prefix_of_prefix_length_le h (List.prefix_append _ _) (by simp)
  · intro h
    exact h.trans (List.prefix_append _ _)

theorem exists_first {s : List α} (h : old <:+: s) : ∃ a b, s = a ++ old ++ b ∧ First old a := by
  induction s with
  | nil =>
    obtain rfl := List.infix_nil.mp h
    exact ⟨[], [], rfl, fun t hne hsuffix => absurd (List.suffix_nil.mp hsuffix) hne⟩
  | cons c s ih =>
    by_cases hstart : old <+: c :: s
    · obtain ⟨b, hb⟩ := hstart
      exact ⟨[], b, hb.symm, fun t hne hsuffix => absurd (List.suffix_nil.mp hsuffix) hne⟩
    · obtain ⟨a, b, rfl, hfirst⟩ := ih ((List.infix_cons_iff.mp h).resolve_left hstart)
      refine ⟨c :: a, b, rfl, fun t hne hsuffix => ?_⟩
      rcases List.suffix_cons_iff.mp hsuffix with rfl | hsuffix
      · rw [← prefix_append_append_iff (c :: a) b]
        exact hstart
      · exact hfirst t hne hsuffix

/-- No proper end of the text is also a start of it. -/
def Borderless (old : List α) : Prop :=
  ∀ t u, old = t ++ u → t ≠ [] → u ≠ [] → ¬ u <+: old

/-- The text before a suffix without borders has no occurrence that reaches into it. -/
theorem Borderless.first (h : Borderless old) {s : List α} (hs : ¬ old <:+: s) : First old s := by
  intro t hne hsuffix hprefix
  rcases le_or_gt old.length t.length with hlen | hlen
  · have hstart : old <+: t := List.prefix_of_prefix_length_le hprefix (List.prefix_append _ _) hlen
    exact hs (hstart.isInfix.trans hsuffix.isInfix)
  · obtain ⟨u, hu⟩ := List.prefix_of_prefix_length_le (List.prefix_append t old) hprefix hlen.le
    have hune : u ≠ [] := by
      rintro rfl
      rw [List.append_nil] at hu
      rw [hu] at hlen
      exact lt_irrefl _ hlen
    refine h t u hu.symm hne hune ?_
    rw [← hu] at hprefix
    rw [← hu]
    exact (List.prefix_append_right_inj t).mp hprefix

/-! ## ReplaceAll -/

variable [DecidableEq α]

/-- The loop of `ReplaceAll`; the first `skip` characters belong to an occurrence. -/
def replaceFrom (old new : List α) : ℕ → List α → List α
  | _, [] => []
  | skip + 1, _ :: cs => replaceFrom old new skip cs
  | 0, c :: cs =>
    if old <+: c :: cs then new ++ replaceFrom old new (old.length - 1) cs
    else c :: replaceFrom old new 0 cs

/-- `ReplaceAll` on characters. -/
def replaceAll (old new s : List α) : List α := replaceFrom old new 0 s

/-- `strings.ReplaceAll`. -/
def replaceAllText (s old new : String) : String :=
  .ofList (replaceAll old.toList new.toList s.toList)

@[simp] theorem replaceAll_nil : replaceAll old new [] = [] := by
  simp [replaceAll, replaceFrom]

theorem replaceFrom_eq_drop (skip : ℕ) (s : List α) :
    replaceFrom old new skip s = replaceAll old new (s.drop skip) := by
  induction s generalizing skip with
  | nil => cases skip <;> simp [replaceAll, replaceFrom]
  | cons c cs ih =>
    cases skip with
    | zero => rfl
    | succ skip => rw [replaceFrom, ih, List.drop_succ_cons]

/-- At an occurrence it is replaced. -/
theorem replaceAll_append (hold : old ≠ []) (b : List α) :
    replaceAll old new (old ++ b) = new ++ replaceAll old new b := by
  obtain ⟨c, cs, rfl⟩ := List.exists_cons_of_ne_nil hold
  rw [replaceAll, List.cons_append, replaceFrom, if_pos ⟨b, rfl⟩, replaceFrom_eq_drop]
  simp

/-- Elsewhere a character is kept. -/
theorem replaceAll_cons {c : α} {cs : List α} (h : ¬ old <+: c :: cs) :
    replaceAll old new (c :: cs) = c :: replaceAll old new cs := by
  rw [replaceAll, replaceFrom, if_neg h, replaceAll]

theorem replaceAll_of_first (hold : old ≠ []) {a : List α} (h : First old a) (b : List α) :
    replaceAll old new (a ++ old ++ b) = a ++ new ++ replaceAll old new b := by
  induction a with
  | nil => exact replaceAll_append hold b
  | cons c a ih =>
    have hfirst : ¬ old <+: c :: a ++ old ++ b := by
      rw [prefix_append_append_iff]
      exact h _ (List.cons_ne_nil _ _) (List.suffix_refl _)
    rw [List.cons_append, List.cons_append] at hfirst ⊢
    rw [replaceAll_cons hfirst, ih h.of_cons]
    rfl

/-! ## Cutting a suffix off -/

theorem length_replaceFrom_le (skip : ℕ) (s : List α) :
    (replaceFrom old [] skip s).length ≤ s.length := by
  induction s generalizing skip with
  | nil => simp [replaceFrom]
  | cons c cs ih =>
    cases skip with
    | zero =>
      rw [replaceFrom]
      split
      · exact (ih _).trans (Nat.le_succ _)
      · exact Nat.succ_le_succ (ih 0)
    | succ skip => exact (ih skip).trans (Nat.le_succ _)

/-- Cutting out the occurrences of a pattern that occurs takes at least its length. -/
theorem length_replaceAll_add_le (hold : old ≠ []) {s : List α} (h : old <:+: s) :
    (replaceAll old [] s).length + old.length ≤ s.length := by
  obtain ⟨a, b, rfl, hfirst⟩ := exists_first h
  have hrest : (replaceAll old [] b).length ≤ b.length := length_replaceFrom_le 0 b
  rw [replaceAll_of_first hold hfirst]
  simp only [List.length_append, List.length_nil]
  omega

/-- Replacing a suffix without borders by nothing cuts off just the suffix exactly when it occurs
nowhere before. -/
theorem replaceAll_append_self_iff (hold : old ≠ []) (hborder : Borderless old) (s : List α) :
    replaceAll old [] (s ++ old) = s ↔ ¬ old <:+: s := by
  constructor
  · intro heq hinfix
    obtain ⟨a, b, rfl, hfirst⟩ := exists_first hinfix
    have hrest := length_replaceAll_add_le hold (s := b ++ old) (List.suffix_append b old).isInfix
    have hpos := List.length_pos_of_ne_nil hold
    have hlen := congrArg List.length heq
    rw [List.append_assoc, replaceAll_of_first hold hfirst] at hlen
    simp only [List.length_append, List.length_nil] at hlen hrest
    omega
  · intro hs
    have hcut : replaceAll old [] (s ++ old ++ []) = s ++ [] ++ replaceAll old [] [] :=
      replaceAll_of_first hold (hborder.first hs) []
    simpa using hcut

end YarnCopilot
