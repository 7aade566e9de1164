import Mathlib
import YarnCopilot.Common.Run

/-!
# Lists used as maps

A list whose elements carry a key, written by `upsert`: the first element of the key is replaced,
and an element of a new key goes to the end. After any sequence of writes into an empty list, the
list holds the last write of every key, in the order in which the keys were first written.
-/

namespace YarnCopilot.KeyedList

variable {α κ : Type*} [DecidableEq κ] (key : α → κ)

/-- Replace the first element with the key of `a`, or append `a`. -/
def upsert (a : α) : List α → List α
  | [] => [a]
  | b :: bs => if key b = key a then a :: bs else b :: upsert a bs

/-- The last of the writes with the key. -/
def lastWrite (writes : List α) (k : κ) : Option α := writes.reverse.find? fun a => key a = k

/-- The last write of every key, in the order of the first ones. -/
def lastWrites (writes : List α) : List α :=
  (writes.map key).eraseDups.filterMap (lastWrite key writes)

variable {key} {a b : α} {k : κ} {l writes : List α}

/-! ## One write -/

/-- A second write of the same element finds it in place. -/
theorem upsert_upsert : ∀ l : List α, upsert key a (upsert key a l) = upsert key a l
  | [] => by simp [upsert]
  | b :: bs => by
    by_cases h : key b = key a
    · simp [upsert, h]
    · simp [upsert, h, upsert_upsert bs]

/-- The keys keep their places, and a new one goes to the end. -/
theorem map_key_upsert :
    (upsert key a l).map key =
      if key a ∈ l.map key then l.map key else l.map key ++ [key a] := by
  induction l with
  | nil => simp [upsert]
  | cons b bs ih =>
    by_cases h : key b = key a
    · simp [upsert, h]
    · rw [upsert, if_neg h, List.map_cons, ih, List.map_cons]
      by_cases hmem : key a ∈ bs.map key
      · rw [if_pos hmem, if_pos (List.mem_cons_of_mem _ hmem)]
      · have hnew : key a ∉ key b :: bs.map key := by
          rw [List.mem_cons]
          exact not_or.mpr ⟨Ne.symm h, hmem⟩
        rw [if_neg hmem, if_neg hnew, List.cons_append]

/-- The list `new` is `old` with the first element of the key of `a` replaced by `a`, or with `a` at
the end when there is none. -/
inductive Replaces (key : α → κ) (a : α) : List α → List α → Prop
  | replaced (pre : List α) (b : α) (post : List α) (hkey : key b = key a)
      (hfirst : ∀ c ∈ pre, key c ≠ key a) : Replaces key a (pre ++ b :: post) (pre ++ a :: post)
  | appended {old : List α} (hnew : ∀ c ∈ old, key c ≠ key a) : Replaces key a old (old ++ [a])

theorem replaces_upsert (l : List α) : Replaces key a l (upsert key a l) := by
  induction l with
  | nil => exact .appended (by simp)
  | cons b bs ih =>
    by_cases h : key b = key a
    · rw [upsert, if_pos h]
      exact .replaced [] b bs h (by simp)
    · rw [upsert, if_neg h]
      generalize upsert key a bs = new at ih ⊢
      cases ih with
      | replaced pre c post hkey hfirst =>
        refine .replaced (b :: pre) c post hkey fun d hd => ?_
        rcases List.mem_cons.mp hd with rfl | hd
        · exact h
        · exact hfirst d hd
      | appended hnew =>
        refine .appended fun d hd => ?_
        rcases List.mem_cons.mp hd with rfl | hd
        · exact h
        · exact hnew d hd

/-- Where every key stands once, a write removes what stood under its key and nothing else. -/
theorem mem_upsert (h : (l.map key).Nodup) :
    b ∈ upsert key a l ↔ b = a ∨ b ∈ l ∧ key b ≠ key a := by
  induction l with
  | nil => simp [upsert]
  | cons c cs ih =>
    rw [List.map_cons, List.nodup_cons] at h
    by_cases hkey : key c = key a
    · -- no later element has the key, since `c` has it
      have hrest : b ∈ cs → key b ≠ key a := fun hb heq =>
        h.1 (hkey ▸ heq ▸ List.mem_map_of_mem hb)
      rw [upsert, if_pos hkey]
      simp only [List.mem_cons]
      constructor
      · rintro (rfl | hb)
        · exact .inl rfl
        · exact .inr ⟨.inr hb, hrest hb⟩
      · rintro (rfl | ⟨rfl | hb, hne⟩)
        · exact .inl rfl
        · exact absurd hkey hne
        · exact .inr hb
    · rw [upsert, if_neg hkey, List.mem_cons, ih h.2, List.mem_cons]
      constructor
      · rintro (rfl | rfl | ⟨hb, hne⟩)
        · exact .inr ⟨.inl rfl, hkey⟩
        · exact .inl rfl
        · exact .inr ⟨.inr hb, hne⟩
      · rintro (rfl | ⟨rfl | hb, hne⟩)
        · exact .inr (.inl rfl)
        · exact .inl rfl
        · exact .inr (.inr ⟨hb, hne⟩)

/-! ## Sequences of writes -/

@[simp] theorem lastWrite_nil : lastWrite key [] k = none := rfl

/-- The writes of a second list hide those of the first. -/
theorem lastWrite_append (xs ys : List α) :
    lastWrite key (xs ++ ys) k = (lastWrite key ys k).or (lastWrite key xs k) := by
  rw [lastWrite, List.reverse_append, List.find?_append]
  rfl

/-- A later write hides the earlier ones of its key. -/
theorem lastWrite_append_singleton :
    lastWrite key (writes ++ [a]) k = if key a = k then some a else lastWrite key writes k := by
  rw [lastWrite_append]
  by_cases h : key a = k
  · simp [lastWrite, h]
  · simp [lastWrite, h]

/-- An earlier write counts only without a later one of its key. -/
theorem lastWrite_cons :
    lastWrite key (a :: writes) k =
      (lastWrite key writes k).or (if key a = k then some a else none) := by
  rw [← List.singleton_append, lastWrite_append]
  by_cases h : key a = k
  · simp [lastWrite, h]
  · simp [lastWrite, h]

theorem lastWrite_map {β : Type*} (f : β → α) (l : List β) :
    lastWrite key (l.map f) k = (lastWrite (key ∘ f) l k).map f := by
  rw [lastWrite, ← List.map_reverse, List.find?_map]
  rfl

/-- A map that is written entry by entry holds the last write of every key. -/
theorem foldl_update {β : Type*} (writes : List (κ × β)) (m : κ → Option β) (k : κ) :
    writes.foldl (fun (m : κ → Option β) w => Function.update m w.1 (some w.2)) m k =
      ((lastWrite Prod.fst writes k).map Prod.snd).or (m k) := by
  induction writes generalizing m with
  | nil => rfl
  | cons w writes ih =>
    rw [List.foldl_cons, ih, lastWrite_cons, Option.map_or, Option.or_assoc]
    by_cases h : w.1 = k
    · subst h
      simp
    · simp [h, Function.update_of_ne (Ne.symm h)]

/-- When all writes have one key, its last write is the last of them. -/
theorem lastWrite_of_forall_eq (h : ∀ a ∈ writes, key a = k) :
    lastWrite key writes k = writes.getLast? := by
  rcases List.eq_nil_or_concat writes with rfl | ⟨init, a, rfl⟩
  · rfl
  · rw [List.concat_eq_append, lastWrite_append_singleton, if_pos (h a (by simp)),
      List.getLast?_concat]

theorem lastWrite_of_forall_ne (h : ∀ a ∈ writes, key a ≠ k) : lastWrite key writes k = none := by
  rw [lastWrite, List.find?_eq_none]
  simpa using h

theorem lastWrite_eq_none_iff : lastWrite key writes k = none ↔ ∀ a ∈ writes, key a ≠ k := by
  simp [lastWrite]

/-- The last write of a key is one behind which there is no other. -/
theorem lastWrite_eq_some_iff : lastWrite key writes k = some a ↔
    key a = k ∧ ∃ pre post, writes = pre ++ a :: post ∧ ∀ b ∈ post, key b ≠ k := by
  rw [lastWrite, List.find?_eq_some_iff_append]
  simp only [decide_eq_true_eq, Bool.not_eq_true', decide_eq_false_iff_not]
  refine and_congr_right fun _ => ?_
  constructor
  · rintro ⟨post, pre, hsplit, hpost⟩
    refine ⟨pre.reverse, post.reverse, ?_, fun b hb => hpost b (List.mem_reverse.mp hb)⟩
    rw [← List.reverse_reverse writes, hsplit]
    simp
  · rintro ⟨pre, post, rfl, hpost⟩
    exact ⟨post.reverse, pre.reverse, by simp, fun b hb => hpost b (List.mem_reverse.mp hb)⟩

theorem key_of_lastWrite (h : lastWrite key writes k = some a) : key a = k := by
  simpa using List.find?_some h

/-- Of the elements with one of two properties, the first has the first property exactly when every
element with the second comes after one with the first. -/
theorem find?_or_iff {p q : α → Bool} (hdisj : ∀ a, q a → p a = false) (l : List α) :
    l.find? (fun a => p a || q a) = l.find? p ↔
      ∀ pre a post, l = pre ++ a :: post → q a → ∃ b ∈ pre, p b := by
  induction l with
  | nil => simp
  | cons c l ih =>
    rw [forall_split_cons]
    cases hp : p c with
    | true =>
      have hq : q c = false := by
        by_contra hq
        rw [hdisj c (Bool.eq_true_of_not_eq_false hq)] at hp
        cases hp
      simp [hp, hq]
    | false =>
      cases hq : q c with
      | true =>
        refine iff_of_false (fun heq => ?_) (by simp)
        rw [List.find?_cons, List.find?_cons, hp, hq] at heq
        rw [List.find?_some heq.symm] at hp
        cases hp
      | false => simp [hp, hq, ih]

/-- The same from the other end. -/
theorem find?_reverse_or_iff {p q : α → Bool} (hdisj : ∀ a, q a → p a = false) (l : List α) :
    l.reverse.find? (fun a => p a || q a) = l.reverse.find? p ↔
      ∀ pre a post, l = pre ++ a :: post → q a → ∃ b ∈ post, p b := by
  rw [find?_or_iff hdisj]
  constructor
  · intro h pre a post hsplit ha
    have hrev : l.reverse = post.reverse ++ a :: pre.reverse := by simp [hsplit]
    simpa using h _ a _ hrev ha
  · intro h pre a post hsplit ha
    have hrev : l = post.reverse ++ a :: pre.reverse := by
      rw [← List.reverse_reverse l, hsplit]
      simp
    simpa using h _ a _ hrev ha

/-- The list `l` stands for the map that the writes leave. -/
structure Represents (key : α → κ) (writes l : List α) : Prop where
  keys : l.map key = (writes.map key).eraseDups
  nodup : (l.map key).Nodup
  mem : ∀ a, a ∈ l ↔ lastWrite key writes (key a) = some a

theorem represents_nil : Represents key [] [] where
  keys := rfl
  nodup := List.nodup_nil
  mem := by simp

/-- One more write. -/
theorem Represents.upsert (h : Represents key writes l) (a : α) :
    Represents key (writes ++ [a]) (upsert key a l) := by
  have hmem : key a ∈ l.map key ↔ key a ∈ writes.map key := by
    rw [h.keys, List.mem_eraseDups]
  have hkeys : (KeyedList.upsert key a l).map key = ((writes ++ [a]).map key).eraseDups := by
    rw [map_key_upsert, List.map_append, List.eraseDups_append, ← h.keys, List.map_singleton]
    by_cases hold : key a ∈ writes.map key
    · have hgone : [key a].removeAll (writes.map key) = [] := by
        simp only [List.removeAll, List.filter_cons, List.filter_nil]
        simpa using hold
      rw [if_pos (hmem.mpr hold), hgone, List.eraseDups_nil, List.append_nil]
    · have hkept : [key a].removeAll (writes.map key) = [key a] := by
        simp only [List.removeAll, List.filter_cons, List.filter_nil]
        simpa using hold
      rw [if_neg (mt hmem.mp hold), hkept]
      rfl
  refine ⟨hkeys, ?_, fun b => ?_⟩
  · rw [map_key_upsert]
    split
    · exact h.nodup
    · next hnew => exact List.nodup_append_comm.mp (List.nodup_cons.mpr ⟨hnew, h.nodup⟩)
  · rw [mem_upsert h.nodup, lastWrite_append_singleton, h.mem b]
    by_cases heq : key a = key b
    · simp [heq, eq_comm]
    · rw [if_neg heq]
      constructor
      · rintro (rfl | ⟨hb, _⟩)
        · exact absurd rfl heq
        · exact hb
      · intro hb
        exact .inr ⟨hb, Ne.symm heq⟩

variable (key)

/-- Any number of writes into an empty list. -/
theorem represents_foldl (writes : List α) :
    Represents key writes (writes.foldl (fun l a => KeyedList.upsert key a l) []) := by
  induction writes using List.reverseRecOn with
  | nil => exact represents_nil
  | append_singleton writes a ih =>
    rw [List.foldl_concat]
    exact ih.upsert a

variable {key} in
/-- The list is determined by the writes. -/
theorem Represents.eq_lastWrites (h : Represents key writes l) : l = lastWrites key writes := by
  have hself : ∀ a ∈ l, lastWrite key writes (key a) = some a := fun a ha => (h.mem a).mp ha
  calc l = l.filterMap some := List.filterMap_some.symm
    _ = l.filterMap (lastWrite key writes ∘ key) := by
        apply List.filterMap_congr
        intro a ha
        exact (hself a ha).symm
    _ = (l.map key).filterMap (lastWrite key writes) := List.filterMap_map.symm
    _ = lastWrites key writes := by rw [h.keys, lastWrites]

/-- The writes, one by one, leave the last write of every key. -/
theorem foldl_upsert (writes : List α) :
    writes.foldl (fun l a => KeyedList.upsert key a l) [] = lastWrites key writes :=
  (represents_foldl key writes).eq_lastWrites

theorem represents_lastWrites (writes : List α) :
    Represents key writes (lastWrites key writes) :=
  foldl_upsert key writes ▸ represents_foldl key writes

end YarnCopilot.KeyedList
