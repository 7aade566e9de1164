import YarnCopilot.Common.Session
import YarnCopilot.Common.Strings

/-!
# Go strings as bytes

Go strings are byte strings: `len`, slicing, `strings.Split` and comparison all work on bytes. Text
that comes from the wire is therefore a `Bytes` here, and a literal of the source is written
`ascii "…"`.
-/

namespace YarnCopilot

/-- The bytes of an ASCII literal of the source. -/
def ascii (s : String) : Bytes := s.toList.map fun c => UInt8.ofNat c.toNat

/-- A Go `error`: one a system or network call returned, one of the protobuf codec, or one the
code itself makes with `errors.New`. -/
inductive GoError
  | io
  | codec
  | text (msg : Bytes)
deriving DecidableEq, Repr

/-- `strings.SplitN(s, sep, 2)` for a one-byte separator: the text before and after its first
occurrence, or `none` when there is none. -/
def cutAt (sep : UInt8) (s : Bytes) : Option (Bytes × Bytes) :=
  match s.span (· ≠ sep) with
  | (_, []) => none
  | (before, _ :: after) => some (before, after)

theorem cutAt_nil (sep : UInt8) : cutAt sep [] = none := rfl

theorem cutAt_cons (sep b : UInt8) (s : Bytes) :
    cutAt sep (b :: s) =
      if b = sep then some ([], s) else (cutAt sep s).map fun kv => (b :: kv.1, kv.2) := by
  by_cases h : b = sep
  · simp [cutAt, List.span_eq_takeWhile_dropWhile, h]
  · simp only [cutAt, List.span_eq_takeWhile_dropWhile, List.takeWhile_cons, List.dropWhile_cons, h,
      ne_eq, not_false_eq_true, decide_true, if_true, if_false]
    cases s.dropWhile fun x => decide (¬ x = sep) <;> rfl

/-- The text is cut at the first separator. -/
theorem cutAt_eq_some_iff {sep : UInt8} {s key value : Bytes} :
    cutAt sep s = some (key, value) ↔ sep ∉ key ∧ s = key ++ sep :: value := by
  induction s generalizing key with
  | nil => simp [cutAt_nil]
  | cons b s ih =>
    rw [cutAt_cons]
    by_cases h : b = sep
    · subst h
      rw [if_pos rfl, Option.some.injEq, Prod.mk.injEq]
      constructor
      · rintro ⟨rfl, rfl⟩
        simp
      · rintro ⟨hkey, hs⟩
        cases key with
        | nil => exact ⟨rfl, (List.cons.inj hs).2⟩
        | cons c key =>
          obtain ⟨rfl, -⟩ := List.cons.inj hs
          exact absurd List.mem_cons_self hkey
    · rw [if_neg h, Option.map_eq_some_iff]
      constructor
      · rintro ⟨⟨key', value'⟩, hcut, heq⟩
        obtain ⟨rfl, rfl⟩ := Prod.mk.inj heq
        obtain ⟨hkey, rfl⟩ := ih.mp hcut
        exact ⟨by simp [hkey, Ne.symm h], rfl⟩
      · rintro ⟨hkey, hs⟩
        cases key with
        | nil =>
          obtain ⟨rfl, -⟩ := List.cons.inj hs
          exact absurd rfl h
        | cons c key =>
          obtain ⟨rfl, rfl⟩ := List.cons.inj hs
          exact ⟨(key, value), ih.mpr ⟨fun hmem => hkey (List.mem_cons_of_mem _ hmem), rfl⟩, rfl⟩

theorem cutAt_isSome_iff {sep : UInt8} {s : Bytes} : (cutAt sep s).isSome ↔ sep ∈ s := by
  induction s with
  | nil => simp [cutAt_nil]
  | cons b s ih =>
    rw [cutAt_cons, List.mem_cons]
    by_cases h : b = sep
    · simp [h]
    · rw [if_neg h, Option.isSome_map, ih]
      simp [Ne.symm h]

/-- The slice expression `s[lo:hi]` of a string, or of a buffer without spare capacity. -/
def sliceBytes {ε : Type} (s : Bytes) (lo hi : ℤ) : Except (Fault ε) Bytes :=
  if 0 ≤ lo ∧ lo ≤ hi ∧ hi ≤ s.length then .ok ((s.drop lo.toNat).take (hi - lo).toNat)
  else .error (.panic .sliceBounds)

/-- A slice expression inside its bounds. -/
theorem sliceBytes_ok {ε : Type} {s : Bytes} {lo hi : ℕ} (h : lo ≤ hi) (hs : hi ≤ s.length) :
    (sliceBytes s lo hi : Except (Fault ε) Bytes) = .ok ((s.drop lo).take (hi - lo)) := by
  rw [sliceBytes, if_pos ⟨by omega, by exact_mod_cast h, by exact_mod_cast hs⟩]
  rw [Int.toNat_natCast, show ((hi : ℤ) - lo).toNat = hi - lo by omega]

/-- A slice that shares memory with its backing array: `data` is what `len` covers, `spare` what
lies between `len` and `cap`. Slice expressions are bounded by `cap`. -/
structure GoSlice where
  data : Bytes
  spare : Bytes
deriving DecidableEq, Repr

/-- The capacity of a slice. -/
def GoSlice.cap (s : GoSlice) : ℕ := s.data.length + s.spare.length

/-- The slice expression `s[0:n]`. -/
def GoSlice.slicePrefix {ε : Type} (s : GoSlice) (n : ℕ) : Except (Fault ε) Bytes :=
  if n ≤ s.cap then .ok ((s.data ++ s.spare).take n) else .error (.panic .sliceBounds)

/-! ## `encoding/hex` and `encoding/base64` -/

/-- The lower-case hexadecimal digit of a value below 16. -/
def hexDigit (n : ℕ) : UInt8 := (ascii "0123456789abcdef").getD n 0

/-- `hex.EncodeToString`. -/
def hexEncode (bs : Bytes) : Bytes :=
  bs.flatMap fun b => [hexDigit (b.toNat / 16), hexDigit (b.toNat % 16)]

/-- The digit of the standard base-64 alphabet for a value below 64. -/
def base64Digit (n : ℕ) : UInt8 :=
  (ascii "ABCDEFGHIJKLMNOPQRSTUVWXYZabcdefghijklmnopqrstuvwxyz0123456789+/").getD n 0

/-- `base64.StdEncoding.EncodeToString`: three bytes make four digits, a shorter tail is padded
with `=`. -/
def base64Encode : Bytes → Bytes
  | [] => []
  | [a] =>
    let n := a.toNat * 16
    [base64Digit (n / 64), base64Digit (n % 64), 0x3D, 0x3D]
  | [a, b] =>
    let n := (a.toNat * 256 + b.toNat) * 4
    [base64Digit (n / 4096), base64Digit (n / 64 % 64), base64Digit (n % 64), 0x3D]
  | a :: b :: c :: rest =>
    let n := (a.toNat * 256 + b.toNat) * 256 + c.toNat
    base64Digit (n / 262144) :: base64Digit (n / 4096 % 64) :: base64Digit (n / 64 % 64) ::
      base64Digit (n % 64) :: base64Encode rest

/-- The hexadecimal digits. -/
theorem mem_hexEncode {b : UInt8} {bs : Bytes} (h : b ∈ hexEncode bs) :
    b ∈ ascii "0123456789abcdef" := by
  have hdigit : ∀ n < 16, hexDigit n ∈ ascii "0123456789abcdef" := by decide
  obtain ⟨a, -, hb⟩ := List.mem_flatMap.mp h
  have ha : a.toNat < 256 := a.toNat_lt
  rcases List.mem_pair.mp hb with rfl | rfl
  · exact hdigit _ (by omega)
  · exact hdigit _ (by omega)

/-- The base-64 digits and the padding. -/
theorem mem_base64Encode {b : UInt8} {bs : Bytes} (h : b ∈ base64Encode bs) :
    b ∈ ascii "ABCDEFGHIJKLMNOPQRSTUVWXYZabcdefghijklmnopqrstuvwxyz0123456789+/=" := by
  have hdigit : ∀ n < 64, base64Digit n ∈
      ascii "ABCDEFGHIJKLMNOPQRSTUVWXYZabcdefghijklmnopqrstuvwxyz0123456789+/=" := by
    decide +kernel
  have hpad : (0x3D : UInt8) ∈
      ascii "ABCDEFGHIJKLMNOPQRSTUVWXYZabcdefghijklmnopqrstuvwxyz0123456789+/=" := by decide
  have hbyte : ∀ a : UInt8, a.toNat < 256 := fun a => a.toNat_lt
  induction bs using base64Encode.induct with
  | case1 => cases h
  | case2 a =>
    have ha := hbyte a
    simp only [base64Encode, List.mem_cons, List.not_mem_nil, or_false] at h
    rcases h with rfl | rfl | rfl | rfl
    · exact hdigit _ (by omega)
    · exact hdigit _ (by omega)
    · exact hpad
    · exact hpad
  | case3 a a' =>
    have ha := hbyte a
    have ha' := hbyte a'
    simp only [base64Encode, List.mem_cons, List.not_mem_nil, or_false] at h
    rcases h with rfl | rfl | rfl | rfl
    · exact hdigit _ (by omega)
    · exact hdigit _ (by omega)
    · exact hdigit _ (by omega)
    · exact hpad
  | case4 a a' a'' rest ih =>
    have ha := hbyte a
    have ha' := hbyte a'
    have ha'' := hbyte a''
    simp only [base64Encode, List.mem_cons] at h
    rcases h with rfl | rfl | rfl | rfl | h
    · exact hdigit _ (by omega)
    · exact hdigit _ (by omega)
    · exact hdigit _ (by omega)
    · exact hdigit _ (by omega)
    · exact ih h

end YarnCopilot
