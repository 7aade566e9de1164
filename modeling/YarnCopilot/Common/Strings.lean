import Mathlib

/-!
# Strings of Go

Splitting a string, and decimal numbers.
-/

namespace YarnCopilot

/-- `strings.Split` on a one-character separator. -/
def splitOn (sep : Char) (s : String) : List String := (s.toList.splitOn sep).map String.ofList

/-- `strings.HasPrefix`. -/
def hasPrefix (s start : String) : Bool := start.toList.isPrefixOf s.toList

/-- `strings.HasSuffix`. -/
def hasSuffix (s ending : String) : Bool := ending.toList.isSuffixOf s.toList

/-! ## Pieces -/

/-- No piece of a split holds the separator. -/
theorem not_mem_of_mem_splitOn {α : Type*} [DecidableEq α] {sep : α} {s piece : List α}
    (h : piece ∈ s.splitOn sep) : sep ∉ piece := by
  induction s generalizing piece with
  | nil =>
    rw [List.splitOn_nil, List.mem_singleton] at h
    simp [h]
  | cons b s ih =>
    rw [List.splitOn_cons_eq_if_modifyHead] at h
    obtain ⟨first, rest, hpieces⟩ := List.exists_cons_of_ne_nil (List.splitOn_ne_nil sep s)
    rw [hpieces] at h ih
    split at h
    · rcases List.mem_cons.mp h with rfl | h
      · exact List.not_mem_nil
      · exact ih h
    · next hb =>
      rcases List.mem_cons.mp h with rfl | h
      · rw [List.mem_cons]
        exact not_or.mpr ⟨fun heq => hb (by simp [heq]), ih List.mem_cons_self⟩
      · exact ih (List.mem_cons_of_mem _ h)

/-- Two pieces: what stands before and behind the one separator. -/
theorem splitOn_eq_pair_iff {sep : Char} {s a b : String} :
    splitOn sep s = [a, b] ↔
      s.toList = a.toList ++ sep :: b.toList ∧ sep ∉ a.toList ∧ sep ∉ b.toList := by
  have hpair : splitOn sep s = [a, b] ↔ s.toList.splitOn sep = [a.toList, b.toList] := by
    simp only [splitOn, List.map_eq_cons_iff, List.map_eq_nil_iff]
    constructor
    · rintro ⟨x, l, hsplit, rfl, y, l', rfl, rfl, rfl⟩
      simpa using hsplit
    · intro hsplit
      exact ⟨_, _, hsplit, by simp, _, _, rfl, by simp, rfl⟩
  rw [hpair]
  constructor
  · intro hsplit
    have hclear : ∀ piece ∈ [a.toList, b.toList], sep ∉ piece := by
      intro piece hpiece
      rw [← hsplit] at hpiece
      exact not_mem_of_mem_splitOn hpiece
    refine ⟨?_, hclear _ (by simp), hclear _ (by simp)⟩
    have hjoin : [sep].intercalate (s.toList.splitOn sep) = s.toList := List.intercalate_splitOn sep
    rw [hsplit] at hjoin
    simpa using hjoin.symm
  · rintro ⟨hs, ha, hb⟩
    rw [hs, List.splitOn_append_cons_self_of_not_mem ha, List.splitOn_eq_singleton hb]

/-! ## Decimal numbers -/

/-- A number in decimal digits. -/
def parseNat (cs : List Char) : Option ℕ :=
  if cs ≠ [] ∧ cs.all Char.isDigit then some (Nat.ofDigitChars 10 cs 0) else none

/-- An optionally signed number in decimal digits. -/
def parseInt (cs : List Char) : Option ℤ :=
  if cs.head? = some '-' then (parseNat cs.tail).map fun n : ℕ => -(n : ℤ)
  else if cs.head? = some '+' then (parseNat cs.tail).map fun n : ℕ => (n : ℤ)
  else (parseNat cs).map fun n : ℕ => (n : ℤ)

/-- `strconv.Atoi`: out of the range of an `int` is an error. -/
def atoi (s : String) : Option ℤ :=
  (parseInt s.toList).filter fun x => -2 ^ 63 ≤ x ∧ x < 2 ^ 63

/-- A word of decimal digits. -/
def IsDigits (cs : List Char) : Prop := cs ≠ [] ∧ ∀ c ∈ cs, c.isDigit

/-- The value of a word of digits, the highest of them first. -/
def digitsValue (cs : List Char) : ℕ :=
  Nat.ofDigits 10 (cs.reverse.map fun c => c.toNat - '0'.toNat)

/-- The integer that an optionally signed decimal numeral stands for. -/
inductive Decimal : List Char → ℤ → Prop
  | unsigned {cs : List Char} (h : IsDigits cs) : Decimal cs (digitsValue cs)
  | plus {cs : List Char} (h : IsDigits cs) : Decimal ('+' :: cs) (digitsValue cs)
  | minus {cs : List Char} (h : IsDigits cs) : Decimal ('-' :: cs) (-digitsValue cs)

/-- Reading digit by digit gives the value of the word. -/
theorem ofDigitChars_eq_digitsValue (cs : List Char) :
    Nat.ofDigitChars 10 cs 0 = digitsValue cs := by
  induction cs using List.reverseRecOn with
  | nil => rfl
  | append_singleton cs c ih =>
    rw [Nat.ofDigitChars_append, ih, digitsValue, digitsValue, List.reverse_concat, List.map_cons,
      Nat.ofDigits_cons]
    simp [Nat.ofDigitChars_cons, add_comm]

theorem parseNat_eq_some_iff {cs : List Char} {n : ℕ} :
    parseNat cs = some n ↔ IsDigits cs ∧ n = digitsValue cs := by
  rw [← ofDigitChars_eq_digitsValue, IsDigits, ← List.all_eq_true]
  by_cases h : cs ≠ [] ∧ cs.all Char.isDigit = true
  · rw [parseNat, if_pos h, Option.some.injEq, eq_comm]
    exact (and_iff_right h).symm
  · rw [parseNat, if_neg h]
    exact iff_of_false nofun fun hdigits => h hdigits.1

/-- A sign is not a digit. -/
theorem IsDigits.head?_ne {cs : List Char} (h : IsDigits cs) {c : Char} (hc : c.isDigit = false) :
    cs.head? ≠ some c := by
  intro hhead
  rw [h.2 c (List.mem_of_mem_head? hhead)] at hc
  cases hc

/-- `parseInt` reads the numerals and nothing else. -/
theorem parseInt_eq_some_iff {cs : List Char} {x : ℤ} : parseInt cs = some x ↔ Decimal cs x := by
  constructor
  · intro h
    rw [parseInt] at h
    split at h
    · rename_i hminus
      obtain ⟨n, hn, rfl⟩ := Option.map_eq_some_iff.mp h
      obtain ⟨hdigits, rfl⟩ := parseNat_eq_some_iff.mp hn
      rw [← List.cons_head?_tail hminus]
      exact .minus hdigits
    · split at h
      · rename_i hplus
        obtain ⟨n, hn, rfl⟩ := Option.map_eq_some_iff.mp h
        obtain ⟨hdigits, rfl⟩ := parseNat_eq_some_iff.mp hn
        rw [← List.cons_head?_tail hplus]
        exact .plus hdigits
      · obtain ⟨n, hn, rfl⟩ := Option.map_eq_some_iff.mp h
        obtain ⟨hdigits, rfl⟩ := parseNat_eq_some_iff.mp hn
        exact .unsigned hdigits
  · intro h
    cases h with
    | unsigned h =>
      rw [parseInt, if_neg (h.head?_ne (by decide)), if_neg (h.head?_ne (by decide)),
        parseNat_eq_some_iff.mpr ⟨h, rfl⟩, Option.map_some]
    | plus h =>
      rw [parseInt, List.head?_cons, if_neg (by decide), if_pos rfl, List.tail_cons,
        parseNat_eq_some_iff.mpr ⟨h, rfl⟩, Option.map_some]
    | minus h =>
      rw [parseInt, List.head?_cons, if_pos rfl, List.tail_cons,
        parseNat_eq_some_iff.mpr ⟨h, rfl⟩, Option.map_some]

theorem Decimal.unique {cs : List Char} {x y : ℤ} (hx : Decimal cs x) (hy : Decimal cs y) :
    x = y := by
  rw [← parseInt_eq_some_iff] at hx hy
  exact Option.some.inj (hx.symm.trans hy)

/-- `Atoi` reads the numerals whose integer an `int` holds. -/
theorem atoi_eq_some_iff {s : String} {x : ℤ} :
    atoi s = some x ↔ Decimal s.toList x ∧ -2 ^ 63 ≤ x ∧ x < 2 ^ 63 := by
  rw [atoi, Option.filter_eq_some_iff, parseInt_eq_some_iff]
  simp

theorem parseNat_toDigits (n : ℕ) : parseNat (Nat.toDigits 10 n) = some n := by
  have hne : Nat.toDigits 10 n ≠ [] := Nat.toDigits_ne_nil
  have hall : (Nat.toDigits 10 n).all Char.isDigit :=
    List.all_eq_true.mpr fun _ hc => Nat.isDigit_of_mem_toDigits (by decide) (by decide) hc
  rw [parseNat, if_pos ⟨hne, hall⟩, Nat.ofDigitChars_toDigits (by decide) (by decide)]

/-- A digit is not a sign. -/
theorem not_mem_toDigits (n : ℕ) {c : Char} (hc : c.isDigit = false) : c ∉ Nat.toDigits 10 n := by
  intro h
  have hdigit := Nat.isDigit_of_mem_toDigits (by decide) (by decide) h
  rw [hc] at hdigit
  cases hdigit

theorem head?_toDigits_ne (n : ℕ) {c : Char} (hc : c.isDigit = false) :
    (Nat.toDigits 10 n).head? ≠ some c := fun h =>
  not_mem_toDigits n hc (List.mem_of_mem_head? h)

/-- The characters of a printed integer. -/
theorem toList_repr_ofNat (n : ℕ) : (Int.ofNat n).repr.toList = Nat.toDigits 10 n :=
  Nat.toList_repr

theorem toList_repr_negSucc (n : ℕ) :
    (Int.negSucc n).repr.toList = '-' :: Nat.toDigits 10 (n + 1) := by
  simp [Int.repr, Nat.toList_repr]

/-- A printed integer is its sign, if it is negative, and the digits of its absolute value. -/
theorem toList_repr (x : ℤ) :
    x.repr.toList = (if x < 0 then ['-'] else []) ++ Nat.toDigits 10 x.natAbs := by
  cases x with
  | ofNat n => rw [toList_repr_ofNat, if_neg (by simp)]; rfl
  | negSucc n => rw [toList_repr_negSucc, if_pos (Int.negSucc_lt_zero n)]; rfl

theorem toDigits_inj {m n : ℕ} : Nat.toDigits 10 m = Nat.toDigits 10 n ↔ m = n := by
  constructor
  · intro h
    have hread := congrArg parseNat h
    simpa [parseNat_toDigits] using hread
  · exact congrArg _

/-- Reading back a printed integer. -/
theorem parseInt_repr (x : ℤ) : parseInt x.repr.toList = some x := by
  cases x with
  | ofNat n =>
    rw [toList_repr_ofNat, parseInt, if_neg (head?_toDigits_ne n (by decide)),
      if_neg (head?_toDigits_ne n (by decide)), parseNat_toDigits]
    rfl
  | negSucc n =>
    rw [toList_repr_negSucc, parseInt, List.head?_cons, if_pos rfl, List.tail_cons,
      parseNat_toDigits]
    rfl

/-! ## Separators -/

/-- Two texts that are joined at their last separator have the same parts. -/
theorem append_cons_inj_of_last {α : Type*} {c : α} {xs ys xs' ys' : List α} (h : c ∉ ys)
    (h' : c ∉ ys') : xs ++ c :: ys = xs' ++ c :: ys' ↔ xs = xs' ∧ ys = ys' := by
  classical
  constructor
  · intro heq
    -- read backwards, the parts behind the separators are what stands before the first one
    have hlast : ∀ {zs ws : List α}, c ∉ ws →
        (zs ++ c :: ws).reverse.takeWhile (· ≠ c) = ws.reverse := by
      intro zs ws hws
      have hall : ∀ a ∈ ws.reverse, decide (a ≠ c) = true := by
        intro a ha
        rw [List.mem_reverse] at ha
        exact decide_eq_true (ne_of_mem_of_not_mem ha hws)
      rw [List.reverse_append, List.reverse_cons, List.append_assoc,
        List.takeWhile_append_of_pos hall]
      simp
    have hys : ys = ys' := by
      have hrev : (xs ++ c :: ys).reverse.takeWhile (· ≠ c) = ys.reverse := hlast h
      rw [heq, hlast h'] at hrev
      exact (List.reverse_injective hrev).symm
    subst hys
    exact ⟨List.append_cancel_right heq, rfl⟩
  · rintro ⟨rfl, rfl⟩
    rfl

end YarnCopilot
