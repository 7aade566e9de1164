import YarnCopilot.Common.KeyedList

/-!
# Loops that write into a map

`for k, v := range m { s[k] = f(k, v) }` visits the entries of `m` in some order. The keys of `m`
are distinct, so every order leaves the same map. A loop that writes keys more than once leaves the
last write of each.
-/

namespace YarnCopilot

variable {α β : Type*} [DecidableEq α]

/-- The loop over the entries in the order given. -/
def insertAll (f : α → β → β) (entries : List (Sigma fun _ : α => β)) (s : Finmap fun _ : α => β) :
    Finmap fun _ : α => β :=
  entries.foldl (fun s e => s.insert e.1 (f e.1 e.2)) s

variable {f : α → β → β} {k : α}

/-- A key of the entries gets the value made from its entry, and the others keep theirs. -/
theorem lookup_insertAll {entries : List (Sigma fun _ : α => β)} (h : entries.NodupKeys)
    (s : Finmap fun _ : α => β) :
    (insertAll f entries s).lookup k = ((entries.dlookup k).map (f k)).or (s.lookup k) := by
  induction entries generalizing s with
  | nil => simp [insertAll]
  | cons e entries ih =>
    obtain ⟨hnew, hrest⟩ := List.nodupKeys_cons.mp h
    rw [insertAll, List.foldl_cons, ← insertAll, ih hrest]
    by_cases hk : e.1 = k
    · subst hk
      -- no later entry has the key
      rw [List.dlookup_eq_none.mpr hnew, Finmap.lookup_insert, List.dlookup_cons_eq]
      rfl
    · rw [Finmap.lookup_insert_of_ne _ (Ne.symm hk), List.dlookup_cons_ne _ _ (Ne.symm hk)]

/-- After any assignments a key has the value it was assigned last. -/
theorem lookup_foldl_insert (writes : List (α × β)) (s : AList fun _ : α => β) :
    (writes.foldl (fun s w => s.insert w.1 w.2) s).lookup k =
      ((KeyedList.lastWrite Prod.fst writes k).map Prod.snd).or (s.lookup k) := by
  induction writes using List.reverseRecOn with
  | nil => rfl
  | append_singleton writes w ih =>
    rw [List.foldl_concat, KeyedList.lastWrite_append_singleton]
    by_cases hk : w.1 = k
    · rw [if_pos hk, ← hk, AList.lookup_insert]
      rfl
    · rw [if_neg hk, AList.lookup_insert_ne (Ne.symm hk), ih]

/-- An assignment adds at most one key. -/
theorem length_keys_insert_le (k : α) (v : β) (s : AList fun _ : α => β) :
    (s.insert k v).keys.length ≤ s.keys.length + 1 := by
  rw [AList.keys_insert, List.length_cons]
  exact Nat.succ_le_succ List.length_erase_le

/-! ## Entries by key -/

section Sorted

variable {α β : Type*} [LinearOrder α]

/-- The keys of a map in their order. -/
def sortedKeys (m : Finmap fun _ : α => β) : List α :=
  Quot.liftOn m.keys.val (List.insertionSort (· ≤ ·)) fun keys keys' h =>
    ((keys.perm_insertionSort _).trans (h.trans (keys'.perm_insertionSort _).symm)).eq_of_pairwise'
      (keys.pairwise_insertionSort _) (keys'.pairwise_insertionSort _)

/-- The entries of a map in the order of their keys. -/
def sortedEntries (m : Finmap fun _ : α => β) : List (Sigma fun _ : α => β) :=
  (sortedKeys m).filterMap fun k => (m.lookup k).map fun v => ⟨k, v⟩

variable {m : Finmap fun _ : α => β}

theorem sortedKeys_perm (a : AList fun _ : α => β) : (sortedKeys a.toFinmap).Perm a.keys :=
  List.perm_insertionSort _ _

theorem mem_sortedEntries {k : α} {v : β} : ⟨k, v⟩ ∈ sortedEntries m ↔ m.lookup k = some v := by
  have hkeys : k ∈ sortedKeys m ↔ k ∈ m := by
    induction m using Finmap.induction_on with
    | H a => exact (sortedKeys_perm a).mem_iff
  simp only [sortedEntries, List.mem_filterMap, Option.map_eq_some_iff]
  constructor
  · rintro ⟨k', -, v', hv, heq⟩
    cases heq
    exact hv
  · intro hv
    exact ⟨k, hkeys.mpr (Finmap.mem_of_lookup_eq_some hv), v, hv, rfl⟩

theorem nodupKeys_sortedEntries (m : Finmap fun _ : α => β) : (sortedEntries m).NodupKeys := by
  have hnodup : (sortedKeys m).Nodup := by
    induction m using Finmap.induction_on with
    | H a => exact (sortedKeys_perm a).nodup_iff.mpr a.keys_nodup
  rw [List.NodupKeys, List.keys, sortedEntries, List.map_filterMap]
  -- the keys of the entries are among the sorted ones
  refine hnodup.filterMap fun k k' k₀ hk hk' => ?_
  simp only [Option.mem_def, Option.map_map, Option.map_eq_some_iff, Function.comp] at hk hk'
  obtain ⟨_, -, rfl⟩ := hk
  obtain ⟨_, -, h⟩ := hk'
  exact h.symm

theorem dlookup_sortedEntries (m : Finmap fun _ : α => β) (k : α) :
    (sortedEntries m).dlookup k = m.lookup k := by
  apply Option.ext
  intro v
  rw [← Option.mem_def, List.mem_dlookup_iff (nodupKeys_sortedEntries m), mem_sortedEntries]

/-- The entries determine the map. -/
theorem toFinmap_sortedEntries (m : Finmap fun _ : α => β) : (sortedEntries m).toFinmap = m := by
  apply Finmap.ext_lookup
  intro k
  rw [Finmap.dlookup_list_toFinmap, dlookup_sortedEntries]

theorem sortedEntries_eq_nil_iff : sortedEntries m = [] ↔ m = ∅ := by
  constructor
  · intro h
    rw [← toFinmap_sortedEntries m, h]
    rfl
  · rintro rfl
    rfl

/-- Copying the entries of a map, in any order, is the union in which they win. -/
theorem insertAll_union {entries : List (Sigma fun _ : α => β)}
    (h : entries.Perm (sortedEntries m)) (s : Finmap fun _ : α => β) :
    insertAll (fun _ v => v) entries s = m ∪ s := by
  have hnodup : entries.NodupKeys := (List.perm_nodupKeys h).mpr (nodupKeys_sortedEntries m)
  apply Finmap.ext_lookup
  intro k
  rw [lookup_insertAll hnodup, List.perm_dlookup k hnodup h, dlookup_sortedEntries, Option.map_id']
  by_cases hk : k ∈ m
  · obtain ⟨v, hv⟩ := Finmap.mem_iff.mp hk
    rw [Finmap.lookup_union_left hk, hv, Option.some_or]
  · rw [Finmap.lookup_union_right hk, Finmap.lookup_eq_none.mpr hk, Option.none_or]

end Sorted

end YarnCopilot
