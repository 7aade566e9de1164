import YarnCopilot.Common.Strings

/-!
# File paths

Paths in the normal form of `filepath.Clean`: whether they start at the root, and the names on the
way down. `push` is one step of cleaning, `append` is `filepath.Join` with one more element.
-/

namespace YarnCopilot

/-- A cleaned path. -/
structure Path where
  rooted : Bool
  names : List String
deriving DecidableEq, Repr

namespace Path

/-- The entry `name` of a directory. -/
def child (p : Path) (name : String) : Path := ⟨p.rooted, p.names ++ [name]⟩

/-- The directory of an entry. -/
def parent (p : Path) : Path := ⟨p.rooted, p.names.dropLast⟩

/-- `filepath.Base`. -/
def base (p : Path) : String := p.names.getLast?.getD (if p.rooted then "/" else ".")

/-- One step of `filepath.Clean`: empty names and `.` are dropped, `..` goes up when it can, stays
at the root of a rooted path, and is kept at the start of a relative one. -/
def push (p : Path) (name : String) : Path :=
  if name = "" ∨ name = "." then p
  else if name = ".." then
    match p.names.getLast? with
    | none => if p.rooted then p else p.child ".."
    | some last => if last = ".." then p.child ".." else p.parent
  else p.child name

/-- `filepath.Join` of a path with one more element. -/
def append (p : Path) (elem : String) : Path := (splitOn '/' elem).foldl push p

/-- `filepath.Clean`. -/
def ofString (s : String) : Path := append ⟨hasPrefix s "/", []⟩ s

/-- `q` is `p` or lies below it. -/
def IsUnder (p q : Path) : Prop := p.rooted = q.rooted ∧ p.names <+: q.names

instance (p q : Path) : Decidable (IsUnder p q) := inferInstanceAs (Decidable (_ ∧ _))

@[simp] theorem base_child (p : Path) (name : String) : (p.child name).base = name := by
  simp [base, child]

@[simp] theorem parent_child (p : Path) (name : String) : (p.child name).parent = p := by
  simp [parent, child]

theorem child_inj {p q : Path} {a b : String} : p.child a = q.child b ↔ p = q ∧ a = b := by
  constructor
  · intro h
    exact ⟨by rw [← parent_child p a, h, parent_child], by rw [← base_child p a, h, base_child]⟩
  · rintro ⟨rfl, rfl⟩
    rfl

/-- An entry lies below another entry of the same directory only when they are the same. -/
theorem child_isUnder_child {p : Path} {a b : String} :
    (p.child a).IsUnder (p.child b) ↔ a = b := by
  constructor
  · rintro ⟨_, h⟩
    have := h.eq_of_length (by simp [child])
    exact (child_inj.mp (show p.child a = p.child b by simpa [child] using this)).2
  · rintro rfl
    exact ⟨rfl, List.prefix_refl _⟩

theorem IsUnder.of_parent {p q : Path} (h : p.IsUnder q.parent) : p.IsUnder q :=
  ⟨h.1, h.2.trans (List.dropLast_prefix _)⟩

theorem IsUnder.trans {p q r : Path} (h : p.IsUnder q) (h' : q.IsUnder r) : p.IsUnder r :=
  ⟨h.1.trans h'.1, h.2.trans h'.2⟩

theorem isUnder_child (p : Path) (name : String) : p.IsUnder (p.child name) :=
  ⟨rfl, List.prefix_append _ _⟩

/-- Of two paths above a third, one is above the other. -/
theorem IsUnder.total {p q r : Path} (h : p.IsUnder r) (h' : q.IsUnder r) :
    p.IsUnder q ∨ q.IsUnder p :=
  (List.prefix_or_prefix_of_prefix h.2 h'.2).imp (fun hle => ⟨h.1.trans h'.1.symm, hle⟩)
    fun hle => ⟨h'.1.trans h.1.symm, hle⟩

/-- A path lies in at most one entry of a directory. -/
theorem child_inj_of_isUnder {p q : Path} {a b : String} (ha : (p.child a).IsUnder q)
    (hb : (p.child b).IsUnder q) : a = b := by
  rcases ha.total hb with h | h
  · exact child_isUnder_child.mp h
  · exact (child_isUnder_child.mp h).symm

@[simp] theorem push_up (p : Path) {name : String} (h : name ≠ "..") :
    (p.child name).push ".." = p := by
  simp [push, child, parent, h]

/-! ## Two branches of a tree -/

/-- `a` and `b` are the same way down from the entries `x` and `y` of `p`. -/
def Parallel (p : Path) (x y : String) (a b : Path) : Prop :=
  ∃ down : List String, (∀ name ∈ down, name ≠ "..") ∧
    a = ⟨p.rooted, p.names ++ x :: down⟩ ∧ b = ⟨p.rooted, p.names ++ y :: down⟩

variable {p a b : Path} {x y : String}

/-- Parallel paths stay parallel under a step, or meet when the step leaves both entries. -/
theorem Parallel.push (h : Parallel p x y a b) (hx : x ≠ "..") (hy : y ≠ "..") (name : String) :
    a.push name = b.push name ∨ Parallel p x y (a.push name) (b.push name) := by
  obtain ⟨down, hdown, rfl, rfl⟩ := h
  by_cases hup : name = ".."
  · subst hup
    rcases List.eq_nil_or_concat down with rfl | ⟨init, last, rfl⟩
    · left
      have hroot : ∀ z, (⟨p.rooted, p.names ++ [z]⟩ : Path) = p.child z := fun _ => rfl
      rw [hroot, hroot, push_up p hx, push_up p hy]
    · right
      have hlast : last ≠ ".." := hdown last (by simp)
      have hinit : ∀ z, (⟨p.rooted, p.names ++ z :: (init ++ [last])⟩ : Path) =
          (⟨p.rooted, p.names ++ z :: init⟩ : Path).child last := by
        intro z
        simp [child]
      rw [List.concat_eq_append, hinit, hinit, push_up _ hlast, push_up _ hlast]
      exact ⟨init, fun n hn => hdown n (by simp [hn]), rfl, rfl⟩
  · right
    unfold Path.push
    by_cases hskip : name = "" ∨ name = "."
    · rw [if_pos hskip, if_pos hskip]
      exact ⟨down, hdown, rfl, rfl⟩
    · rw [if_neg hskip, if_neg hskip, if_neg hup, if_neg hup]
      refine ⟨down ++ [name], ?_, by simp [child], by simp [child]⟩
      intro n hn
      rcases List.mem_append.mp hn with hn | hn
      · exact hdown n hn
      · exact List.mem_singleton.mp hn ▸ hup

/-- Going the same way from two entries of a directory ends in the same place, or in parallel. -/
theorem foldl_push_parallel (hx : x ≠ "..") (hy : y ≠ "..") :
    ∀ (names : List String) {a b : Path}, a = b ∨ Parallel p x y a b →
      names.foldl Path.push a = names.foldl Path.push b ∨
        Parallel p x y (names.foldl Path.push a) (names.foldl Path.push b)
  | [], _, _, h => h
  | name :: names, a, b, h => by
    refine foldl_push_parallel hx hy names ?_
    rcases h with rfl | h
    · exact .inl rfl
    · exact h.push hx hy name

/-- Neither of two parallel paths lies below the other. -/
theorem Parallel.not_isUnder (h : Parallel p x y a b) (hxy : x ≠ y) (n m : String) :
    ¬ (a.child n).IsUnder (b.child m) := by
  obtain ⟨down, _, rfl, rfl⟩ := h
  rintro ⟨_, hprefix⟩
  simp only [child, List.append_assoc, List.prefix_append_right_inj, List.cons_append] at hprefix
  exact hxy (List.cons_prefix_cons.mp hprefix).1

theorem Parallel.symm (h : Parallel p x y a b) : Parallel p y x b a := by
  obtain ⟨down, hdown, ha, hb⟩ := h
  exact ⟨down, hdown, hb, ha⟩

/-- No path lies below both of two parallel paths. -/
theorem Parallel.not_isUnder_both (h : Parallel p x y a b) (hxy : x ≠ y) {n m : String} {q : Path}
    (ha : (a.child n).IsUnder q) (hb : (b.child m).IsUnder q) : False := by
  rcases ha.total hb with hab | hba
  · exact h.not_isUnder hxy n m hab
  · exact h.symm.not_isUnder hxy.symm m n hba

end Path

end YarnCopilot
