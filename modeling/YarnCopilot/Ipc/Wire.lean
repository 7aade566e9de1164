import YarnCopilot.Common.Text
import YarnCopilot.Common.Varint

/-!
# Hadoop RPC framing

Reference: `pkg/yarn/client/ipc/client.go` (`sizeVarint`, `writeDelimitedBytes`, `readDelimited`).

A frame is a 4-byte big-endian length followed by length-delimited messages. The writer adds up the
declared length with its own `sizeVarint` loop while the bytes come from `protowire`; the reader
works with the signed offsets and lengths of Go. `frame` is what the writers send, `readFrame` the
repository's way of taking it apart, and `isFrameOf_frame` the round trip.
-/

namespace YarnCopilot.Ipc

/-! ## Sizes -/

/-- `sizeVarint`: shift by seven bits until nothing is left. Its callers pass a length, so the
argument is never negative. -/
def sizeVarint (x : ℕ) : ℕ :=
  if x >>> 7 = 0 then 1 else sizeVarint (x >>> 7) + 1
decreasing_by
  rename_i h
  rw [Nat.shiftRight_eq_div_pow] at h ⊢
  omega

/-- The hand-written size agrees with what `protowire` emits, as long as the budget lasts. -/
theorem sizeVarint_eq_encodeAux : ∀ (k x : ℕ), x < 128 ^ (k + 1) →
    sizeVarint x = (Varint.encodeAux (k + 1) x).length
  | 0, x, hx => by
    have hx' : x < 128 := by simpa using hx
    rw [sizeVarint, Varint.encodeAux, if_pos hx', Nat.shiftRight_eq_div_pow, if_pos (by omega)]
    rfl
  | k + 1, x, hx => by
    rw [sizeVarint, Varint.encodeAux, Nat.shiftRight_eq_div_pow]
    by_cases hlt : x < 128
    · rw [if_pos hlt, if_pos (by omega)]
      rfl
    · rw [if_neg hlt, if_neg (by omega), List.length_cons,
        show x / 2 ^ 7 = x / 128 from rfl, sizeVarint_eq_encodeAux k (x / 128) ?_]
      rw [Nat.div_lt_iff_lt_mul (by norm_num)]
      calc x < 128 ^ (k + 1 + 1) := hx
        _ = 128 ^ (k + 1) * 128 := by ring

/-- `sizeVarint` is the length of the varint of any `uint64`. -/
theorem sizeVarint_eq {x : ℕ} (hx : x < 2 ^ 64) : sizeVarint x = (Varint.encode x).length :=
  sizeVarint_eq_encodeAux 9 x (by norm_num; omega)

/-! ## Frames -/

/-- A message preceded by its length, as `writeDelimitedBytes` sends it. -/
def delimited (data : Bytes) : Bytes := Varint.encode data.length ++ data

/-- The messages of a frame, one after the other. -/
def payload (msgs : List Bytes) : Bytes := msgs.flatMap delimited

/-- The declared length of a frame as the writers add it up. -/
def totalLength (msgs : List Bytes) : ℕ :=
  (msgs.map fun data => data.length + sizeVarint data.length).sum

/-- The bytes of a frame. The length is narrowed to `int32` before it is written. -/
def frame (msgs : List Bytes) : Bytes := be32 (int32 (totalLength msgs)) ++ payload msgs

theorem payload_cons (data : Bytes) (msgs : List Bytes) :
    payload (data :: msgs) = delimited data ++ payload msgs := by
  simp [payload]

theorem length_le_delimited (data : Bytes) : data.length ≤ (delimited data).length := by
  simp [delimited]

/-- The length the writers declare is the number of payload bytes they send. -/
theorem totalLength_eq : ∀ {msgs : List Bytes}, (payload msgs).length < 2 ^ 64 →
    totalLength msgs = (payload msgs).length
  | [], _ => rfl
  | data :: msgs, h => by
    rw [payload_cons, List.length_append] at h
    have hdata := length_le_delimited data
    have htail : totalLength msgs = (payload msgs).length := totalLength_eq (by omega)
    simp only [totalLength, List.map_cons, List.sum_cons] at htail ⊢
    rw [htail, payload_cons, List.length_append, sizeVarint_eq (by omega)]
    simp only [delimited, List.length_append]
    omega

/-! ## The reader -/

/-- `protowire.ConsumeVarint`: the value and its byte count, or a negative error code. -/
def consumeVarint (b : Bytes) : ℕ × ℤ :=
  match Varint.consume b with
  | .ok (v, n) => (v, n)
  | .error e => (0, e.code)

/-- `readDelimited`: the offset behind the message, and the message. The `uint64` length is
converted to `int`, and a negative count is used as an offset. A zero count returns before the
message is filled in. -/
def readDelimited {M : Type} (unmarshal : Bytes → Option M) (rawData : Bytes) :
    Except (Fault GoError) (ℤ × Option M) :=
  let (headerLength, off) := consumeVarint rawData
  let stop := int64 (off + int64 headerLength)
  if off = 0 then .ok (-1, none)
  else do
    let b ← sliceBytes rawData off stop
    match unmarshal b with
    | none => .error (.err .codec)
    | some m => .ok (stop, some m)

/-- `rawData` starts with a complete varint followed by as many bytes as it announces: `msg` are
those bytes and `rest` what comes after them. -/
structure Delimits (rawData msg rest : Bytes) : Prop where
  prefix_eq : ∃ lenBytes, rawData = lenBytes ++ msg ++ rest ∧
    Varint.consume rawData = .ok (msg.length, lenBytes.length)

/-- On a complete message the reader hands exactly its bytes to the codec. Buffers are shorter than
`2 ^ 63` bytes, so the offset arithmetic does not wrap. -/
theorem readDelimited_of_delimits {M : Type} (unmarshal : Bytes → Option M)
    {rawData msg rest : Bytes} (hlen : rawData.length < 2 ^ 63) (h : Delimits rawData msg rest) :
    readDelimited unmarshal rawData =
      match unmarshal msg with
      | none => .error (.err .codec)
      | some m => .ok (((rawData.length - rest.length : ℕ) : ℤ), some m) := by
  obtain ⟨lenBytes, hraw, hvar⟩ := h.prefix_eq
  have hpos := (Varint.consume_bounds hvar).1
  have hlens : rawData.length = lenBytes.length + msg.length + rest.length := by
    rw [hraw, List.length_append, List.length_append]
  have hconsume : consumeVarint rawData = (msg.length, (lenBytes.length : ℤ)) := by
    rw [consumeVarint, hvar]
  have hstop : int64 ((lenBytes.length : ℤ) + int64 msg.length) =
      ((lenBytes.length + msg.length : ℕ) : ℤ) := by
    rw [int64_of_mem (x := (msg.length : ℤ)) (by omega) (by omega),
      int64_of_mem (by omega) (by omega), Nat.cast_add]
  have hslice : (sliceBytes rawData (lenBytes.length : ℤ)
      ((lenBytes.length + msg.length : ℕ) : ℤ) : Except (Fault GoError) Bytes) = .ok msg := by
    have hsub : lenBytes.length + msg.length - lenBytes.length = msg.length := by omega
    rw [sliceBytes_ok (by omega) (by omega), hsub]
    rw [hraw, List.append_assoc, List.drop_left, List.take_left]
  simp only [readDelimited, hconsume, hstop]
  rw [if_neg (by omega), hslice]
  simp only [bind, Except.bind]
  cases unmarshal msg with
  | none => rfl
  | some m =>
    simp only [Except.ok.injEq, Prod.mk.injEq, and_true]
    omega

/-- Any other buffer makes the reader slice out of range. -/
theorem readDelimited_of_not_delimits {M : Type} (unmarshal : Bytes → Option M) {rawData : Bytes}
    (hlen : rawData.length < 2 ^ 63) (h : ∀ msg rest, ¬ Delimits rawData msg rest) :
    readDelimited unmarshal rawData = .error (.panic .sliceBounds) := by
  have hbad : ∀ off stop : ℤ, off ≠ 0 → ¬ (0 ≤ off ∧ off ≤ stop ∧ stop ≤ rawData.length) →
      consumeVarint rawData = ((consumeVarint rawData).1, off) →
      stop = int64 (off + int64 (consumeVarint rawData).1) →
      readDelimited unmarshal rawData = .error (.panic .sliceBounds) := by
    intro off stop hoff hrange hconsume hstop
    simp only [readDelimited]
    rw [hconsume]
    simp only [← hstop]
    rw [if_neg hoff, sliceBytes, if_neg hrange]
    rfl
  cases hvar : Varint.consume rawData with
  | error e =>
    -- a negative error code is used as the lower bound of the slice
    have hneg : e.code < 0 := by cases e <;> decide
    refine hbad e.code _ (by omega) (by omega) ?_ rfl
    simp [consumeVarint, hvar]
  | ok r =>
    obtain ⟨v, n⟩ := r
    have hn := Varint.consume_bounds hvar
    have hconsume : consumeVarint rawData = (v, (n : ℤ)) := by rw [consumeVarint, hvar]
    refine hbad n _ (by omega) ?_ (by rw [hconsume]) rfl
    -- the announced message would have to lie inside the buffer
    intro hrange
    simp only [hconsume] at hrange
    have hv := Varint.consume_lt hvar
    have hfit : n + v ≤ rawData.length := by
      have hsum := int64_add_of_le (n := n) (v := v) (by omega) (by omega) (by omega)
        (by exact_mod_cast hv) hrange.2.1
      omega
    refine h ((rawData.drop n).take v) (rawData.drop (n + v)) ⟨rawData.take n, ?_, ?_⟩
    · rw [List.append_assoc, ← List.drop_drop, List.take_append_drop, List.take_append_drop]
    · rw [hvar, List.length_take, List.length_take, List.length_drop,
        Nat.min_eq_left (by omega), Nat.min_eq_left (by omega)]

/-! ## Round trip -/

/-- Read `k` messages, each from the offset the previous call returned; also returns the bytes
left over. -/
def readMessages {M : Type} (unmarshal : Bytes → Option M) :
    ℕ → Bytes → Except (Fault GoError) (List M × Bytes)
  | 0, rawData => .ok ([], rawData)
  | k + 1, rawData => do
    let (off, m) ← readDelimited unmarshal rawData
    let rest ← sliceBytes rawData off rawData.length
    let (ms, left) ← readMessages unmarshal k rest
    .ok (m.toList ++ ms, left)

/-- Take a frame of `k` messages off a stream: the length from the first four bytes, then the
messages in that many bytes. -/
def readFrame {M : Type} (unmarshal : Bytes → Option M) (k : ℕ) (stream : Bytes) :
    Except (Fault GoError) (List M × Bytes) :=
  readMessages unmarshal k ((stream.drop 4).take (ofBe32 (stream.take 4)).toNat)

theorem delimits_delimited {data : Bytes} (h : data.length < 2 ^ 64) (rest : Bytes) :
    Delimits (delimited data ++ rest) data rest := by
  refine ⟨Varint.encode data.length, rfl, ?_⟩
  rw [delimited, List.append_assoc]
  exact Varint.consume_encode h (data ++ rest)

/-- Reading as many messages as a payload holds gives them back and leaves nothing. -/
theorem readMessages_payload : ∀ {msgs : List Bytes}, (payload msgs).length < 2 ^ 31 →
    readMessages some msgs.length (payload msgs) = .ok (msgs, [])
  | [], _ => rfl
  | data :: msgs, h => by
    rw [payload_cons, List.length_append] at h
    have hdata := length_le_delimited data
    have hdel : Delimits (delimited data ++ payload msgs) data (payload msgs) :=
      delimits_delimited (by omega) (payload msgs)
    have hread := readDelimited_of_delimits some (by rw [List.length_append]; omega) hdel
    have hoff : (delimited data ++ payload msgs).length - (payload msgs).length
        = (delimited data).length := by
      rw [List.length_append]
      omega
    have hslice : (sliceBytes (delimited data ++ payload msgs) ((delimited data).length : ℤ)
        ((delimited data ++ payload msgs).length : ℤ) : Except (Fault GoError) Bytes) =
          .ok (payload msgs) := by
      rw [sliceBytes_ok (by rw [List.length_append]; omega) le_rfl, List.drop_left,
        List.take_of_length_le (by rw [List.length_append]; omega)]
    have htail : readMessages some msgs.length (payload msgs) = .ok (msgs, []) :=
      readMessages_payload (by omega)
    rw [List.length_cons, payload_cons, readMessages, hread, hoff]
    simp only [bind, Except.bind, hslice, htail, Option.toList_some, List.singleton_append]

/-- Below `2 ^ 31` bytes the declared length survives the narrowing to `int32`. -/
theorem frame_eq {msgs : List Bytes} (h : (payload msgs).length < 2 ^ 31) :
    frame msgs = be32 ((payload msgs).length : ℤ) ++ payload msgs := by
  rw [frame, totalLength_eq (by omega), int32_of_mem (by omega) (by exact_mod_cast h)]

/-- `out` is a frame of exactly `msgs`: a length, as many bytes as it says, and a reader that takes
it off any stream gets the messages back and stops at the declared end. -/
structure IsFrameOf (out : Bytes) (msgs : List Bytes) : Prop where
  framed : ∃ body : Bytes, out = be32 (body.length : ℤ) ++ body
  declared : ∀ trailing, ofBe32 ((out ++ trailing).take 4) + 4 = out.length
  decoded : ∀ trailing, readFrame some msgs.length (out ++ trailing) = .ok (msgs, [])

/-- **Round trip.** A frame of fewer than `2 ^ 31` payload bytes declares exactly the bytes that
follow its length, and reading it back gives the same messages whatever comes behind it. -/
theorem isFrameOf_frame {msgs : List Bytes} (h : (payload msgs).length < 2 ^ 31) :
    IsFrameOf (frame msgs) msgs := by
  have hword : ofBe32 (be32 ((payload msgs).length : ℤ)) = (payload msgs).length :=
    ofBe32_be32_of_mem (by omega) (by exact_mod_cast h)
  have hlen : (be32 ((payload msgs).length : ℤ)).length = 4 := be32_length _
  have htake : ∀ trailing, (frame msgs ++ trailing).take 4 = be32 ((payload msgs).length : ℤ) := by
    intro trailing
    rw [frame_eq h, List.append_assoc, List.take_left' hlen]
  refine ⟨⟨payload msgs, frame_eq h⟩, fun trailing => ?_, fun trailing => ?_⟩
  · rw [htake, hword, frame_eq h, List.length_append, hlen]
    omega
  · have hdrop : (frame msgs ++ trailing).drop 4 = payload msgs ++ trailing := by
      rw [frame_eq h, List.append_assoc, List.drop_left' hlen]
    rw [readFrame, htake, hword, hdrop, Int.toNat_natCast, List.take_left]
    exact readMessages_payload h

end YarnCopilot.Ipc
