import Mathlib

/-!
# Ranges over maps

A `range` over a Go map visits every key once, in an order the language leaves open. `RangeOrder` is
such an order for maps with listed keys; `Ranges` says that a list of keys is one for a map that is
given by its values. What a loop over the map does is stated over the visited entries.
-/

namespace YarnCopilot

/-- The order in which one `range` visits the keys of a map: any order will do. -/
structure RangeOrder (α : Type*) where
  visit : List α → List α
  perm : ∀ keys, (visit keys).Perm keys

namespace RangeOrder

variable {α : Type*}

@[simp] theorem mem_visit (o : RangeOrder α) {keys : List α} {a : α} :
    a ∈ o.visit keys ↔ a ∈ keys :=
  (o.perm keys).mem_iff

/-- The keys in the order in which they are listed. -/
def listed : RangeOrder α := ⟨id, fun _ => .refl _⟩

end RangeOrder

/-- The keys that one `range` visits of a map that is given by its values: each of them once. -/
structure Ranges {α β : Type*} (m : α → Option β) (keys : List α) : Prop where
  nodup : keys.Nodup
  mem_iff : ∀ k, k ∈ keys ↔ (m k).isSome

/-- The entries of a map in the order of its keys. -/
def entriesOf {α β : Type*} (m : α → Option β) (keys : List α) : List (α × β) :=
  keys.filterMap fun k => (m k).map fun v => (k, v)

/-- The entries of a map whose values are computed from those of another. -/
theorem entriesOf_map {α β γ : Type*} (m : α → Option β) (f : α → β → γ) (keys : List α) :
    entriesOf (fun k => (m k).map (f k)) keys =
      (entriesOf m keys).map fun entry => (entry.1, f entry.1 entry.2) := by
  rw [entriesOf, entriesOf, List.map_filterMap]
  congr 1
  funext k
  cases m k <;> rfl

namespace Ranges

variable {α β γ : Type*} {m : α → Option β} {keys : List α}

theorem mem_entriesOf (h : Ranges m keys) {k : α} {v : β} :
    (k, v) ∈ entriesOf m keys ↔ m k = some v := by
  simp only [entriesOf, List.mem_filterMap, Option.map_eq_some_iff, Prod.mk.injEq]
  constructor
  · rintro ⟨k', -, v', hv, rfl, rfl⟩
    exact hv
  · intro hv
    exact ⟨k, (h.mem_iff k).mpr (by rw [hv]; rfl), v, hv, rfl, rfl⟩

/-- The keys of the entries are the visited keys. -/
theorem map_fst_entriesOf (h : Ranges m keys) : (entriesOf m keys).map Prod.fst = keys := by
  have hkeys : ∀ ks : List α, (∀ k ∈ ks, (m k).isSome) → (entriesOf m ks).map Prod.fst = ks := by
    intro ks hks
    induction ks with
    | nil => rfl
    | cons k ks ih =>
      obtain ⟨v, hv⟩ := Option.isSome_iff_exists.mp (hks k List.mem_cons_self)
      have hcons : entriesOf m (k :: ks) = (k, v) :: entriesOf m ks := by simp [entriesOf, hv]
      rw [hcons, List.map_cons, ih fun k' hk' => hks k' (List.mem_cons_of_mem _ hk')]
  exact hkeys keys fun k hk => (h.mem_iff k).mp hk

/-- A value that is computed for every entry is met once exactly when no two entries have it. -/
theorem nodup_map_iff (h : Ranges m keys) (f : α × β → γ) :
    ((entriesOf m keys).map f).Nodup ↔
      ∀ k k' v v', m k = some v → m k' = some v' → f (k, v) = f (k', v') → k = k' := by
  have hentries : (entriesOf m keys).map f =
      keys.filterMap fun k => (m k).map fun v => f (k, v) := by
    rw [entriesOf, List.map_filterMap]
    congr 1
    funext k
    rw [Option.map_map]
    rfl
  rw [hentries, List.Nodup, List.pairwise_filterMap]
  simp only [Option.map_eq_some_iff]
  constructor
  · intro hpair k k' v v' hv hv' hf
    by_contra hne
    have hsymm : Std.Symm fun a a' => ∀ b, (∃ v, m a = some v ∧ f (a, v) = b) →
        ∀ b', (∃ v, m a' = some v ∧ f (a', v) = b') → b ≠ b' :=
      ⟨fun a a' hab b hb b' hb' => (hab b' hb' b hb).symm⟩
    refine hpair.forall ((h.mem_iff k).mpr ?_) ((h.mem_iff k').mpr ?_) hne (f (k, v)) ⟨v, hv, rfl⟩
      (f (k', v')) ⟨v', hv', rfl⟩ hf
    · rw [hv]
      rfl
    · rw [hv']
      rfl
  · intro hinj
    refine h.nodup.imp fun {k k'} hne b ⟨v, hv, hb⟩ b' ⟨v', hv', hb'⟩ heq => ?_
    exact hne (hinj k k' v v' hv hv' (by rw [hb, hb', heq]))

end Ranges

/-- A loop in which any step can panic goes through exactly when every step does. -/
theorem isSome_mapM {α β : Type*} {f : α → Option β} {l : List α} :
    (l.mapM f).isSome ↔ ∀ a ∈ l, (f a).isSome := by
  induction l with
  | nil => simp
  | cons a l ih =>
    rw [List.mapM_cons, List.forall_mem_cons, ← ih]
    cases f a with
    | none => simp
    | some b => cases l.mapM f <;> simp

end YarnCopilot
