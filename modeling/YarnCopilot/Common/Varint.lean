import YarnCopilot.Common.Word

/-!
# Base-128 varints

The varint codec of `protowire`: seven payload bits per byte, lowest group first, continuation bit
on every byte but the last. A `uint64` takes at most ten bytes, and only the lowest bit of the tenth
carries payload, so `2 * 128 ^ k` bounds what `k + 1` bytes can hold; both directions recurse on
that `k`. `consume_encode` is the round trip with arbitrary trailing bytes; `consume_bounds` says
that a successful read takes at least one byte and never more than there are, and
`encode_of_consume` that it takes no fewer than the encoding.
-/

namespace YarnCopilot.Varint

/-- Why a varint could not be read. -/
inductive Error
  | truncated
  | overflow
deriving DecidableEq, Repr

/-- `protowire`'s code of an error, returned in place of the byte count. -/
def Error.code : Error → ℤ
  | .truncated => -1
  | .overflow => -3

/-- The encoding of `v` in at most `k` bytes. -/
def encodeAux : ℕ → ℕ → Bytes
  | 0, _ => []
  | k + 1, v =>
    if v < 128 then [UInt8.ofNat v]
    else UInt8.ofNat (v % 128 + 128) :: encodeAux k (v / 128)

/-- The varint of a `uint64`. -/
def encode (v : ℕ) : Bytes := encodeAux 10 v

/-- Read a varint whose first byte may be followed by at most `k` more. The last byte allowed
holds a single payload bit. -/
def consumeAux : ℕ → Bytes → Except Error (ℕ × ℕ)
  | _, [] => .error .truncated
  | 0, b :: _ => if b.toNat < 2 then .ok (b.toNat, 1) else .error .overflow
  | k + 1, b :: bs =>
    if b.toNat < 128 then .ok (b.toNat, 1)
    else (consumeAux k bs).map fun (v, n) => (b.toNat - 128 + 128 * v, n + 1)

/-- The value at the start of a buffer and the number of bytes it takes. -/
def consume (bs : Bytes) : Except Error (ℕ × ℕ) := consumeAux 9 bs

/-! ## Length of an encoding -/

theorem encodeAux_length_le : ∀ k v, (encodeAux k v).length ≤ k
  | 0, _ => le_rfl
  | k + 1, v => by
    rw [encodeAux]
    split
    · simp
    · simpa using encodeAux_length_le k (v / 128)

/-! ## Reading back -/

private theorem toNat_ofNat_of_lt {n : ℕ} (h : n < 256) : (UInt8.ofNat n).toNat = n := by
  rw [UInt8.toNat_ofNat']
  exact Nat.mod_eq_of_lt h

/-- The induction behind `consume_encode`: the reader's remaining budget tracks the writer's. -/
theorem consumeAux_encodeAux (rest : Bytes) : ∀ k v, v < 2 * 128 ^ k →
    consumeAux k (encodeAux (k + 1) v ++ rest) = .ok (v, (encodeAux (k + 1) v).length)
  | 0, v, hv => by
    have hv2 : v < 2 := by simpa using hv
    rw [encodeAux, if_pos (by omega)]
    simp only [List.cons_append, List.nil_append, consumeAux, List.length_singleton]
    rw [toNat_ofNat_of_lt (by omega), if_pos hv2]
  | k + 1, v, hv => by
    rw [encodeAux]
    by_cases hlt : v < 128
    · rw [if_pos hlt]
      simp only [List.cons_append, List.nil_append, consumeAux, List.length_singleton]
      rw [toNat_ofNat_of_lt (by omega), if_pos hlt]
    · rw [if_neg hlt]
      have hbyte : (UInt8.ofNat (v % 128 + 128)).toNat = v % 128 + 128 :=
        toNat_ofNat_of_lt (by omega)
      have hdiv : v / 128 < 2 * 128 ^ k := by
        rw [Nat.div_lt_iff_lt_mul (by norm_num)]
        calc v < 2 * 128 ^ (k + 1) := hv
          _ = 2 * 128 ^ k * 128 := by ring
      simp only [List.cons_append, consumeAux, hbyte, List.length_cons,
        consumeAux_encodeAux rest k (v / 128) hdiv, Except.map]
      rw [if_neg (by omega), show v % 128 + 128 - 128 + 128 * (v / 128) = v by omega]

/-- Reading an encoded `uint64` gives it back and stops exactly at its last byte. -/
theorem consume_encode {v : ℕ} (hv : v < 2 ^ 64) (rest : Bytes) :
    consume (encode v ++ rest) = .ok (v, (encode v).length) :=
  consumeAux_encodeAux rest 9 v (by norm_num; omega)

/-! ## What a successful read says -/

theorem consumeAux_bounds : ∀ {k : ℕ} {bs : Bytes} {v n : ℕ},
    consumeAux k bs = .ok (v, n) → (1 ≤ n ∧ n ≤ bs.length) ∧ v < 2 * 128 ^ k
  | _, [], _, _, h => by simp [consumeAux] at h
  | 0, b :: bs, v, n, h => by
    simp only [consumeAux] at h
    split at h
    · simp only [Except.ok.injEq, Prod.mk.injEq] at h
      simp only [List.length_cons]
      omega
    · simp at h
  | k + 1, b :: bs, v, n, h => by
    have hb := b.toNat_lt
    simp only [consumeAux] at h
    split at h
    · simp only [Except.ok.injEq, Prod.mk.injEq] at h
      have hpow : 1 ≤ 128 ^ k := Nat.one_le_pow _ _ (by norm_num)
      simp only [List.length_cons, pow_succ]
      omega
    · cases hrec : consumeAux k bs with
      | error e => rw [hrec] at h; simp [Except.map] at h
      | ok r =>
        obtain ⟨w, m⟩ := r
        have hm := consumeAux_bounds hrec
        rw [hrec] at h
        simp only [Except.map, Except.ok.injEq, Prod.mk.injEq] at h
        simp only [List.length_cons, pow_succ]
        omega

/-- A read varint occupies between one byte and the whole buffer. -/
theorem consume_bounds {bs : Bytes} {v n : ℕ} (h : consume bs = .ok (v, n)) :
    1 ≤ n ∧ n ≤ bs.length :=
  (consumeAux_bounds h).1

/-- A read varint is a `uint64`. -/
theorem consume_lt {bs : Bytes} {v n : ℕ} (h : consume bs = .ok (v, n)) : v < 2 ^ 64 := by
  have := (consumeAux_bounds h).2
  norm_num at this ⊢
  exact this

theorem encodeAux_of_consumeAux : ∀ {k : ℕ} {bs : Bytes} {v n : ℕ},
    consumeAux k bs = .ok (v, n) → (encodeAux (k + 1) v).length ≤ n ∧
      (n ≤ (encodeAux (k + 1) v).length → bs.take n = encodeAux (k + 1) v)
  | _, [], _, _, h => by simp [consumeAux] at h
  | 0, b :: bs, v, n, h => by
    simp only [consumeAux] at h
    split at h
    · simp only [Except.ok.injEq, Prod.mk.injEq] at h
      obtain ⟨rfl, rfl⟩ := h
      rw [encodeAux, if_pos (by omega)]
      simp
    · simp at h
  | k + 1, b :: bs, v, n, h => by
    have hb := b.toNat_lt
    simp only [consumeAux] at h
    split at h
    · simp only [Except.ok.injEq, Prod.mk.injEq] at h
      obtain ⟨rfl, rfl⟩ := h
      rw [encodeAux, if_pos (by omega)]
      simp
    · cases hrec : consumeAux k bs with
      | error e => rw [hrec] at h; simp [Except.map] at h
      | ok r =>
        obtain ⟨w, m⟩ := r
        have hm := (consumeAux_bounds hrec).1
        obtain ⟨hle, htake⟩ := encodeAux_of_consumeAux hrec
        rw [hrec] at h
        simp only [Except.map, Except.ok.injEq, Prod.mk.injEq] at h
        obtain ⟨rfl, rfl⟩ := h
        rw [encodeAux]
        by_cases hw : w = 0
        · -- a group of zeros that could have been left out
          rw [if_pos (by omega), List.length_singleton]
          omega
        · rw [if_neg (by omega), List.length_cons, List.take_succ_cons,
            show (b.toNat - 128 + 128 * w) % 128 + 128 = b.toNat by omega,
            show (b.toNat - 128 + 128 * w) / 128 = w by omega, UInt8.ofNat_toNat]
          exact ⟨by omega, fun h => by rw [htake (by omega)]⟩

/-- The encoding of a value is the shortest that can be read, and the only one of its length. -/
theorem encode_of_consume {bs : Bytes} {v n : ℕ} (h : consume bs = .ok (v, n)) :
    (encode v).length ≤ n ∧ (n ≤ (encode v).length → bs.take n = encode v) :=
  encodeAux_of_consumeAux h

/-- Nothing can be read from an empty buffer. -/
@[simp] theorem consume_nil : consume [] = .error .truncated := rfl

end YarnCopilot.Varint
