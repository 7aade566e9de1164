import YarnCopilot.Common.Quantity
import YarnCopilot.Common.Strings

/-!
# Quantities as text

The canonical text of a quantity is a whole number of the largest unit of its format that divides
it, `1500m`, `2k`, `1Gi` or `3e6`. It is read back to the quantity it was printed from; texts with a
fraction are not read here.
-/

namespace YarnCopilot.Quantity

/-- A suffix: the unit it stands for, in units of 10⁻⁹, and its format. -/
structure Suffix where
  text : String
  nano : ℤ
  format : QuantityFormat
deriving DecidableEq

/-- The number without a suffix. -/
def Suffix.one : Suffix := ⟨"", 10 ^ 9, .decimalSI⟩

/-- The suffixes of each format, the smallest unit first. -/
def suffixes : List Suffix :=
  [⟨"n", 1, .decimalSI⟩, ⟨"u", 10 ^ 3, .decimalSI⟩, ⟨"m", 10 ^ 6, .decimalSI⟩, .one,
    ⟨"k", 10 ^ 12, .decimalSI⟩, ⟨"M", 10 ^ 15, .decimalSI⟩, ⟨"G", 10 ^ 18, .decimalSI⟩,
    ⟨"T", 10 ^ 21, .decimalSI⟩, ⟨"P", 10 ^ 24, .decimalSI⟩, ⟨"E", 10 ^ 27, .decimalSI⟩,
    ⟨"Ki", 2 ^ 10 * 10 ^ 9, .binarySI⟩, ⟨"Mi", 2 ^ 20 * 10 ^ 9, .binarySI⟩,
    ⟨"Gi", 2 ^ 30 * 10 ^ 9, .binarySI⟩, ⟨"Ti", 2 ^ 40 * 10 ^ 9, .binarySI⟩,
    ⟨"Pi", 2 ^ 50 * 10 ^ 9, .binarySI⟩, ⟨"Ei", 2 ^ 60 * 10 ^ 9, .binarySI⟩,
    ⟨"e-9", 1, .decimalExponent⟩, ⟨"e-6", 10 ^ 3, .decimalExponent⟩,
    ⟨"e-3", 10 ^ 6, .decimalExponent⟩, ⟨"e3", 10 ^ 12, .decimalExponent⟩,
    ⟨"e6", 10 ^ 15, .decimalExponent⟩, ⟨"e9", 10 ^ 18, .decimalExponent⟩,
    ⟨"e12", 10 ^ 21, .decimalExponent⟩, ⟨"e15", 10 ^ 24, .decimalExponent⟩,
    ⟨"e18", 10 ^ 27, .decimalExponent⟩]

/-- The suffix of a quantity: that of the largest unit which divides it. -/
def suffix (q : Quantity) : Suffix :=
  if q.nano = 0 then .one
  else (suffixes.filter fun s => s.format = q.format ∧ s.nano ∣ q.nano).getLast?.getD .one

/-- The canonical text. -/
def text (q : Quantity) : String := (q.nano / q.suffix.nano).repr ++ q.suffix.text

/-- The characters of a number. -/
def isNumeric (c : Char) : Bool := c.isDigit || c = '-'

/-- Read a text: a number, and a suffix that stands for a unit. -/
def read (text : String) : Option Quantity :=
  (suffixes.find? fun s => s.text.toList = text.toList.dropWhile isNumeric).bind fun s =>
    (parseInt (text.toList.takeWhile isNumeric)).map fun v => ofNano (v * s.nano) s.format

/-! ## Reading back -/

theorem suffix_spec (q : Quantity) :
    q.suffix ∈ suffixes ∧ q.suffix.format = q.format ∧ q.suffix.nano ∣ q.nano := by
  rw [suffix]
  split
  · rename_i hzero
    rw [eq_zero_iff.mpr hzero]
    decide
  · -- the smallest unit of the format divides, so there is a largest one
    have hsome : ∃ s ∈ suffixes, s.format = q.format ∧ s.nano ∣ q.nano := by
      rcases q with ⟨nano, _ | _ | _, hfits⟩
      · exact ⟨⟨"n", 1, .decimalSI⟩, by decide, rfl, one_dvd _⟩
      · exact ⟨⟨"Ki", 2 ^ 10 * 10 ^ 9, .binarySI⟩, by decide, rfl, hfits.2⟩
      · exact ⟨⟨"e-9", 1, .decimalExponent⟩, by decide, rfl, one_dvd _⟩
    obtain ⟨s, hs, hunit⟩ := hsome
    have hne : suffixes.filter (fun s => s.format = q.format ∧ s.nano ∣ q.nano) ≠ [] :=
      List.ne_nil_of_mem (List.mem_filter.mpr ⟨hs, by simpa using hunit⟩)
    have hlast := List.mem_filter.mp (List.getLast_mem hne)
    rw [List.getLast?_eq_some_getLast hne, Option.getD_some]
    exact ⟨hlast.1, by simpa using hlast.2⟩

/-- The text of a suffix determines it. -/
theorem find?_suffixes : ∀ s ∈ suffixes,
    suffixes.find? (fun s' => s'.text.toList = s.text.toList) = some s := by
  decide +kernel

/-- No suffix begins like a number. -/
theorem head?_suffixes : ∀ s ∈ suffixes, s.text.toList.head?.any isNumeric = false := by
  decide

theorem isNumeric_repr (x : ℤ) : ∀ c ∈ x.repr.toList, isNumeric c = true := by
  intro c hc
  rw [toList_repr, List.mem_append] at hc
  rw [isNumeric, Bool.or_eq_true]
  rcases hc with hsign | hdigit
  · right
    split at hsign
    · exact decide_eq_true (List.mem_singleton.mp hsign)
    · cases hsign
  · exact .inl (Nat.isDigit_of_mem_toDigits (by decide) (by decide) hdigit)

/-- What is printed is read back. -/
theorem read_text (q : Quantity) : read (text q) = some q := by
  obtain ⟨hmem, hformat, hdvd⟩ := suffix_spec q
  have hstop : q.suffix.text.toList.takeWhile isNumeric = [] ∧
      q.suffix.text.toList.dropWhile isNumeric = q.suffix.text.toList := by
    have hhead := head?_suffixes _ hmem
    cases hcs : q.suffix.text.toList with
    | nil => exact ⟨rfl, rfl⟩
    | cons c cs =>
      rw [hcs] at hhead
      have hc : isNumeric c = false := hhead
      simp [hc]
  have htext : (text q).toList = (q.nano / q.suffix.nano).repr.toList ++ q.suffix.text.toList := by
    rw [text, String.toList_append]
  rw [read, htext, List.takeWhile_append_of_pos (isNumeric_repr _),
    List.dropWhile_append_of_pos (isNumeric_repr _), hstop.1, hstop.2, find?_suffixes _ hmem,
    List.append_nil, parseInt_repr, Option.bind_some, Option.map_some, Int.ediv_mul_cancel hdvd,
    hformat, ofNano_nano_format]

example : text (new 4000) = "4k" ∧ text (newBinarySI (4096 * 1024 * 1024)) = "4Gi" ∧
    text (newMilli 1500) = "1500m" ∧ text 0 = "0" := by
  decide +kernel

end YarnCopilot.Quantity
