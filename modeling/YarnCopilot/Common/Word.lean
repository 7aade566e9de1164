import Mathlib

/-!
# Fixed-width integers and big-endian words

Go converts between `int`, `int32`, `int64` and byte buffers without checks. Integers are `ℤ`
here and every conversion is an explicit two's-complement truncation, so a wrap-around is visible
where it happens. A buffer is a list of bytes; `be32`/`ofBe32` are the 4-byte big-endian codec of
`encoding/binary`.
-/

namespace YarnCopilot

/-- A Go byte buffer. -/
abbrev Bytes := List UInt8

/-! ## Truncation -/

/-- Conversion to `int32`: the low 32 bits, read in two's complement. -/
def int32 (x : ℤ) : ℤ := Int.bmod x (2 ^ 32)

/-- Conversion to `int64`: the low 64 bits, read in two's complement. -/
def int64 (x : ℤ) : ℤ := Int.bmod x (2 ^ 64)

theorem int32_of_mem {x : ℤ} (hlo : -2 ^ 31 ≤ x) (hhi : x < 2 ^ 31) : int32 x = x := by
  simp only [int32, Int.bmod]
  omega

theorem int64_of_mem {x : ℤ} (hlo : -2 ^ 63 ≤ x) (hhi : x < 2 ^ 63) : int64 x = x := by
  simp only [int64, Int.bmod]
  omega

/-- The conversion keeps exactly the values of the type. -/
theorem int32_eq_self_iff {x : ℤ} : int32 x = x ↔ -2 ^ 31 ≤ x ∧ x < 2 ^ 31 := by
  constructor
  · intro h
    simp only [int32, Int.bmod] at h
    omega
  · rintro ⟨hlo, hhi⟩
    exact int32_of_mem hlo hhi

/-- A product of `int64` truncates once, at its end. -/
theorem int64_int64_mul (x y : ℤ) : int64 (int64 x * y) = int64 (x * y) :=
  Int.bmod_mul_bmod

/-- A conversion gives the number in range that differs by a multiple of the modulus. -/
theorem int32_eq_iff {x y : ℤ} : int32 x = y ↔ -2 ^ 31 ≤ y ∧ y < 2 ^ 31 ∧ 2 ^ 32 ∣ x - y := by
  simp only [int32, Int.bmod]
  omega

theorem int64_eq_iff {x y : ℤ} : int64 x = y ↔ -2 ^ 63 ≤ y ∧ y < 2 ^ 63 ∧ 2 ^ 64 ∣ x - y := by
  simp only [int64, Int.bmod]
  omega

theorem int64_mem (x : ℤ) : -2 ^ 63 ≤ int64 x ∧ int64 x < 2 ^ 63 := by
  simp only [int64, Int.bmod]
  omega

theorem int32_lt (x : ℤ) : int32 x < 2 ^ 31 := by
  simp only [int32, Int.bmod]
  omega

/-- Truncating a non-negative integer never increases it. -/
theorem int32_le_self {x : ℤ} (hx : 0 ≤ x) : int32 x ≤ x := by
  simp only [int32, Int.bmod]
  omega

/-- Truncation only looks at the low 32 bits. -/
theorem int32_emod (x : ℤ) : int32 (x % 2 ^ 32) = int32 x := by
  simp only [int32, Int.bmod]
  omega

/-- An `int` sum `n + int(v)` of an offset and a `uint64` either stays below the offset or did not
wrap. -/
theorem int64_add_of_le {n v : ℤ} (hn : 0 ≤ n) (hn' : n < 2 ^ 63) (hv : 0 ≤ v) (hv' : v < 2 ^ 64)
    (h : n ≤ int64 (n + int64 v)) : int64 (n + int64 v) = n + v := by
  by_cases hsmall : v < 2 ^ 63
  · rw [int64_of_mem (x := v) (by omega) hsmall] at h ⊢
    simp only [int64, Int.bmod] at h ⊢
    omega
  · -- the length reads as a negative `int`, so the sum falls below the offset
    have hwrap : int64 v = v - 2 ^ 64 := by
      simp only [int64, Int.bmod]
      omega
    rw [hwrap, int64_of_mem (by omega) (by omega)] at h
    omega

/-! ## Big-endian words -/

/-- The four big-endian bytes of an `int32` (`binary.Write` of a fixed-size value). -/
def be32 (x : ℤ) : Bytes :=
  let n := (x % 2 ^ 32).toNat
  [UInt8.ofNat (n / 2 ^ 24), UInt8.ofNat (n / 2 ^ 16), UInt8.ofNat (n / 2 ^ 8), UInt8.ofNat n]

/-- The unsigned value of a big-endian buffer. -/
def beNat (bs : Bytes) : ℕ := bs.foldl (fun acc b => 256 * acc + b.toNat) 0

/-- The `int32` stored in a big-endian buffer of four bytes (`binary.Read`). -/
def ofBe32 (bs : Bytes) : ℤ := int32 (beNat bs)

@[simp] theorem be32_length (x : ℤ) : (be32 x).length = 4 := rfl

theorem beNat_be32 (x : ℤ) : (beNat (be32 x) : ℤ) = x % 2 ^ 32 := by
  have hn : ((x % 2 ^ 32).toNat : ℤ) = x % 2 ^ 32 :=
    Int.toNat_of_nonneg (Int.emod_nonneg _ (by norm_num))
  have hlt : x % 2 ^ 32 < 2 ^ 32 := Int.emod_lt_of_pos _ (by norm_num)
  simp only [be32, beNat, List.foldl_cons, List.foldl_nil, UInt8.toNat_ofNat']
  omega

/-- Reading back a written word gives its truncation to 32 bits. -/
theorem ofBe32_be32 (x : ℤ) : ofBe32 (be32 x) = int32 x := by
  rw [ofBe32, beNat_be32, int32_emod]

/-- A word in range survives the round trip through its four bytes. -/
theorem ofBe32_be32_of_mem {x : ℤ} (hlo : -2 ^ 31 ≤ x) (hhi : x < 2 ^ 31) :
    ofBe32 (be32 x) = x := by
  rw [ofBe32_be32, int32_of_mem hlo hhi]

end YarnCopilot
