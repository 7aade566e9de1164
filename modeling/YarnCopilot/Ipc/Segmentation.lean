import YarnCopilot.Ipc.Replies

/-!
# How a reply is cut into segments

Reference: `readResponse` and `receiveSaslMessage` of `pkg/yarn/client/ipc/client.go`.

Both readers take the length of a frame with a bare `Read`, and `receiveSaslMessage` takes the body
with another, so how TCP has cut the stream decides which bytes they decode.
`readers_segmentation_iff` says which cuts are harmless. A frame is a delimited header and, behind a
header of status `SUCCESS`, a delimited message; no other buffer of at most its length has these
parts (`DelimitsAll.eq_payload`), so a reader that decodes other bytes is found out by some codec.
-/

namespace YarnCopilot.Ipc

open Session

/-! ## The parts of a buffer -/

/-- `raw` starts with the messages, each delimited. -/
def DelimitsAll : Bytes → List Bytes → Prop
  | _, [] => True
  | raw, msg :: msgs => ∃ rest, Delimits raw msg rest ∧ DelimitsAll rest msgs

/-- A payload is the shortest buffer with its messages, and the only one of its length. -/
theorem DelimitsAll.eq_payload : ∀ {msgs : List Bytes} {raw : Bytes}, DelimitsAll raw msgs →
    raw.length ≤ (payload msgs).length → raw = payload msgs
  | [], raw, _, hle => List.length_eq_zero_iff.mp (Nat.le_zero.mp hle)
  | msg :: msgs, raw, ⟨rest, hdel, hall⟩, hle => by
    obtain ⟨lenBytes, hraw, hvar⟩ := hdel.prefix_eq
    obtain ⟨hshortest, honly⟩ := Varint.encode_of_consume hvar
    rw [payload_cons, delimited] at hle ⊢
    have hlens := congrArg List.length hraw
    simp only [List.length_append] at hle hlens
    have hrest : rest = payload msgs := hall.eq_payload (by omega)
    rw [hrest] at hlens
    have hlen := honly (by omega)
    rw [hraw, List.append_assoc, List.take_left] at hlen
    rw [hraw, hlen, hrest]

/-- The first byte of a delimited message is zero only when the message is empty. -/
theorem delimited_eq_zero_cons {data bs : Bytes} (h : delimited data = 0 :: bs) : data = [] := by
  rw [delimited, Varint.encode, Varint.encodeAux] at h
  split at h <;> rename_i hlt
  · have hbyte := congrArg UInt8.toNat (List.cons.inj h).1
    rw [UInt8.toNat_ofNat'] at hbyte
    simp only [UInt8.toNat_zero] at hbyte
    exact List.length_eq_zero_iff.mp (by omega)
  · have hbyte := congrArg UInt8.toNat (List.cons.inj h).1
    rw [UInt8.toNat_ofNat'] at hbyte
    simp only [UInt8.toNat_zero] at hbyte
    omega

/-! ## What a reader decodes -/

/-- `segs` is a way to cut a stream that starts with one complete frame around `body`. -/
structure Carries (segs : List Bytes) (body : Bytes) : Prop where
  nonempty : ∀ seg ∈ segs, seg ≠ []
  stream_eq : ∃ trailing, segs.flatten = be32 (body.length : ℤ) ++ (body ++ trailing)
  length_lt : body.length < 2 ^ 31

/-- The first `Read` returns all four bytes of the length. -/
def LengthArrives (segs : List Bytes) : Prop := 4 ≤ (segs.headD []).length

/-- What is there for the second `Read` when the first returned the length. -/
def secondArrival : List Bytes → Bytes
  | [] => []
  | seg :: segs => if seg.length ≤ 4 then segs.headD [] else seg.drop 4

/-- The second `Read` returns the body, except for zero bytes at its end. -/
def BodyArrives (segs : List Bytes) (body : Bytes) : Prop :=
  ∀ b ∈ body.drop (secondArrival segs).length, b = 0

/-- The length of a body of `n` bytes when only the first `k` of its four bytes are known. -/
def announced (k n : ℕ) : ℕ := n / 256 ^ (4 - k) * 256 ^ (4 - k)

/-- With the whole length, the first read leaves a stream that starts with the body. -/
theorem Carries.takeSome_length {segs : List Bytes} {body : Bytes} (h : Carries segs body)
    (hlength : LengthArrives segs) :
    ∃ rest trailing, takeSome 4 segs = some (be32 (body.length : ℤ), rest) ∧
      rest.flatten = body ++ trailing ∧ rest.headD [] = secondArrival segs := by
  obtain ⟨trailing, hstream⟩ := h.stream_eq
  cases segs with
  | nil => simp [LengthArrives] at hlength
  | cons seg segs =>
    simp only [LengthArrives, List.headD_cons] at hlength
    have hword : seg.take 4 = be32 (body.length : ℤ) := by
      have htake := congrArg (List.take 4) hstream
      rwa [List.flatten_cons, List.take_append_of_le_length hlength,
        List.take_left' (be32_length _)] at htake
    have hrest : seg.drop 4 ++ segs.flatten = body ++ trailing := by
      have hdrop := congrArg (List.drop 4) hstream
      rwa [List.flatten_cons, List.drop_append_of_le_length hlength,
        List.drop_left' (be32_length _)] at hdrop
    rw [takeSome, if_neg (by decide)]
    simp only [hword, secondArrival]
    by_cases hle : seg.length ≤ 4
    · rw [if_pos hle, if_pos hle]
      refine ⟨segs, trailing, rfl, ?_, rfl⟩
      rwa [List.drop_of_length_le hle, List.nil_append] at hrest
    · rw [if_neg hle, if_neg hle]
      exact ⟨seg.drop 4 :: segs, trailing, rfl, by rw [List.flatten_cons, hrest], rfl⟩

/-- With the whole length, a reader allocates a buffer of the right size. -/
theorem Carries.replyBody_eq {segs : List Bytes} {body : Bytes} (h : Carries segs body)
    (hlength : LengthArrives segs) (take : ℕ → List Bytes → Option (Bytes × List Bytes)) :
    ∃ rest trailing, rest.flatten = body ++ trailing ∧ rest.headD [] = secondArrival segs ∧
      replyBody take segs = filled body.length (take body.length rest) := by
  obtain ⟨rest, trailing, htake, hflat, hhead⟩ := h.takeSome_length hlength
  refine ⟨rest, trailing, hflat, hhead, ?_⟩
  have hlt := h.length_lt
  have hword : ofBe32 (fill 4 (be32 (body.length : ℤ))) = body.length := by
    rw [fill_of_length (be32_length _), ofBe32_be32_of_mem (by omega) (by exact_mod_cast hlt)]
  simp only [replyBody, htake, hword]
  rw [makeSlice, if_neg (by omega), except_ok_bind, Int.toNat_natCast]

/-- `readResponse` decodes the body when the length arrives whole. -/
theorem Carries.replyBody_takeFull {segs : List Bytes} {body : Bytes} (h : Carries segs body)
    (hlength : LengthArrives segs) : replyBody takeFull segs = .ok body := by
  obtain ⟨rest, trailing, hflat, _, hbody⟩ := h.replyBody_eq hlength takeFull
  have hle : body.length ≤ rest.flatten.length := by
    rw [hflat, List.length_append]
    omega
  obtain ⟨rest', htake, _⟩ := takeFull_of_le hle
  rw [hbody, htake, filled, hflat, List.take_left, fill_of_length rfl]

/-- Padding a prefix with zeros gives the whole when only zeros are missing. -/
theorem fill_take_of_zeros {body : Bytes} {k : ℕ} (h : ∀ b ∈ body.drop k, b = 0) :
    fill body.length (body.take k) = body := by
  have hzeros : body.drop k = List.replicate (body.length - (body.take k).length) 0 := by
    rw [List.eq_replicate_iff]
    refine ⟨?_, h⟩
    rw [List.length_drop, List.length_take]
    omega
  rw [fill, ← hzeros, List.take_append_drop]

/-- One read of a buffer hands out the start of the first segment. -/
theorem takeSome_eq {n : ℕ} {segs : List Bytes} (h : n ≤ segs.flatten.length) :
    ∃ rest, takeSome n segs = some ((segs.headD []).take n, rest) := by
  by_cases hn : n = 0
  · subst hn
    exact ⟨segs, by simp [takeSome]⟩
  · cases segs with
    | nil => simp at h; omega
    | cons seg segs => exact ⟨_, by simp only [takeSome, if_neg hn, List.headD_cons]; rfl⟩

/-- With the whole length, `receiveSaslMessage` decodes what its second read returns, padded with
zeros. -/
theorem Carries.replyBody_takeSome {segs : List Bytes} {body : Bytes} (h : Carries segs body)
    (hlength : LengthArrives segs) : replyBody takeSome segs =
      .ok (fill body.length ((secondArrival segs).take body.length)) := by
  obtain ⟨rest, trailing, hflat, hhead, hbody⟩ := h.replyBody_eq hlength takeSome
  have hle : body.length ≤ rest.flatten.length := by
    rw [hflat, List.length_append]
    omega
  obtain ⟨rest', htake⟩ := takeSome_eq hle
  rw [hbody, htake, filled, hhead]

/-- That is the body exactly when only zeros are missing. -/
theorem Carries.fill_secondArrival_iff {segs : List Bytes} {body : Bytes} (h : Carries segs body)
    (hlength : LengthArrives segs) :
    fill body.length ((secondArrival segs).take body.length) = body ↔ BodyArrives segs body := by
  obtain ⟨rest, trailing, _, hflat, hhead⟩ := h.takeSome_length hlength
  have htake : (secondArrival segs).take body.length = body.take (secondArrival segs).length := by
    rw [← hhead]
    cases rest with
    | nil => simp
    | cons seg rest =>
      have hmin := congrArg (List.take (min body.length seg.length)) hflat
      rw [List.flatten_cons, List.take_append_of_le_length (by omega),
        List.take_append_of_le_length (by omega)] at hmin
      rwa [← List.take_eq_take_min, Nat.min_comm, ← List.take_eq_take_min] at hmin
  rw [htake]
  refine ⟨fun hfill b hb => ?_, fill_take_of_zeros⟩
  -- behind the bytes that were read there is only padding
  have hdrop : body.drop (secondArrival segs).length =
      List.replicate (body.length - (body.take (secondArrival segs).length).length) 0 := by
    have hsplit := (List.take_append_drop (secondArrival segs).length body).trans hfill.symm
    exact List.append_cancel_left hsplit
  rw [hdrop] at hb
  exact List.eq_of_mem_replicate hb

theorem be32_natCast {n : ℕ} (hn : n < 2 ^ 31) : be32 (n : ℤ) = [UInt8.ofNat (n / 2 ^ 24),
    UInt8.ofNat (n / 2 ^ 16), UInt8.ofNat (n / 2 ^ 8), UInt8.ofNat n] := by
  have hmod : ((n : ℤ) % 2 ^ 32).toNat = n := by omega
  simp only [be32, hmod]

/-- The number in a length of which only the first bytes arrived. -/
theorem beNat_fill_take {n : ℕ} (k : ℕ) (hn : n < 2 ^ 31) :
    beNat (fill 4 ((be32 (n : ℤ)).take k)) = announced k n := by
  rw [be32_natCast hn]
  rcases k with _ | _ | _ | _ | k <;>
    simp [fill, beNat, announced, List.replicate_succ] <;> omega

theorem announced_le (k n : ℕ) : announced k n ≤ n := Nat.div_mul_le_self _ _

/-- Without the whole length, a reader allocates a buffer of the announced size and starts to read
the body inside the length. -/
theorem Carries.replyBody_short {segs : List Bytes} {body : Bytes} (h : Carries segs body)
    (hshort : ¬ LengthArrives segs) (take : ℕ → List Bytes → Option (Bytes × List Bytes)) :
    announced (segs.headD []).length body.length ≤ segs.tail.flatten.length ∧
      replyBody take segs = filled (announced (segs.headD []).length body.length)
        (take (announced (segs.headD []).length body.length) segs.tail) := by
  obtain ⟨trailing, hstream⟩ := h.stream_eq
  have hlt := h.length_lt
  cases segs with
  | nil => simp [be32] at hstream
  | cons seg segs =>
    simp only [LengthArrives, List.headD_cons, not_le] at hshort
    simp only [List.headD_cons, List.tail_cons]
    have hseg : seg = (be32 (body.length : ℤ)).take seg.length := by
      have := congrArg (List.take seg.length) hstream
      rwa [List.flatten_cons, List.take_left,
        List.take_append_of_le_length (by rw [be32_length]; omega)] at this
    have hle := announced_le seg.length body.length
    have hword : ofBe32 (fill 4 seg) = (announced seg.length body.length : ℤ) := by
      rw [ofBe32, hseg, beNat_fill_take _ hlt, ← hseg]
      exact int32_of_mem (by omega) (by omega)
    have hfirst : takeSome 4 (seg :: segs) = some (seg, segs) := by
      simp [takeSome, List.take_of_length_le hshort.le, hshort.le]
    constructor
    · have := congrArg List.length hstream
      simp only [List.flatten_cons, List.length_append, be32_length] at this
      omega
    · simp only [replyBody, hfirst, hword]
      rw [makeSlice, if_neg (by omega), except_ok_bind, Int.toNat_natCast]

/-- With the length cut, the bytes left of it are zeros when the length that is read is the right
one. -/
theorem Carries.tail_flatten_of_announced {segs : List Bytes} {body : Bytes} (h : Carries segs body)
    (hshort : ¬ LengthArrives segs)
    (hn : announced (segs.headD []).length body.length = body.length) :
    256 ∣ body.length ∧
      ∃ k trailing, segs.tail.flatten = 0 :: (List.replicate k 0 ++ (body ++ trailing)) := by
  obtain ⟨trailing, hstream⟩ := h.stream_eq
  have hlt := h.length_lt
  cases segs with
  | nil => simp [be32] at hstream
  | cons seg segs =>
    simp only [LengthArrives, List.headD_cons, not_le] at hshort
    simp only [List.headD_cons, announced] at hn
    have hseg := List.length_pos_iff.mpr (h.nonempty seg List.mem_cons_self)
    have htail := congrArg (List.drop seg.length) hstream
    rw [List.flatten_cons, List.drop_left, be32_natCast hlt] at htail
    have hbyte : ∀ {m : ℕ}, m % 256 = 0 → UInt8.ofNat m = 0 := by
      intro m hm
      rw [← UInt8.toNat_inj, UInt8.toNat_ofNat', hm]
      rfl
    have hlens : seg.length = 1 ∨ seg.length = 2 ∨ seg.length = 3 := by omega
    rcases hlens with hk | hk | hk <;> rw [hk] at hn htail <;>
      simp only [List.cons_append, List.nil_append, List.drop_succ_cons, List.drop_zero] at htail <;>
      rw [List.tail_cons, htail]
    · rw [hbyte (by omega), hbyte (by omega), hbyte (by omega)]
      exact ⟨by omega, 2, trailing, rfl⟩
    · rw [hbyte (by omega), hbyte (by omega)]
      exact ⟨by omega, 1, trailing, rfl⟩
    · rw [hbyte (by omega)]
      exact ⟨by omega, 0, trailing, rfl⟩

/-- A frame is not read as it is when its length is cut: it would have to start with two zeros, and
then it is too short. -/
theorem Carries.ne_of_short {segs : List Bytes} {header : Bytes} {message : Option Bytes}
    (h : Carries segs (payload (header :: message.toList))) (hshort : ¬ LengthArrives segs)
    {buf : Bytes} (hlen : buf.length =
      announced (segs.headD []).length (payload (header :: message.toList)).length)
    (hbuf : ∀ (i : ℕ) (b : UInt8), buf[i]? = some b → b = 0 ∨ segs.tail.flatten[i]? = some b) :
    buf ≠ payload (header :: message.toList) := by
  intro heq
  rw [heq] at hlen hbuf
  obtain ⟨hdvd, k, trailing, htail⟩ := h.tail_flatten_of_announced hshort hlen.symm
  rw [htail] at hbuf
  have hfirst : ∀ b bs, payload (header :: message.toList) = b :: bs → b = 0 := by
    intro b bs hbody
    have hzero := hbuf 0 b (by rw [hbody]; rfl)
    simpa [eq_comm] using hzero
  have hsecond : ∀ b bs, payload (header :: message.toList) = 0 :: b :: bs → b = 0 := by
    intro b bs hbody
    have hzero := hbuf 1 b (by rw [hbody]; rfl)
    rw [hbody] at hzero
    cases k <;> simpa [List.replicate_succ, eq_comm] using hzero
  rw [payload_cons] at hfirst hsecond hdvd
  have hheader : header = [] := by
    cases hdel : delimited header with
    | nil =>
      have hpos := length_le_delimited header
      rw [hdel] at hpos
      exact List.length_eq_zero_iff.mp (Nat.le_zero.mp hpos)
    | cons b bs =>
      obtain rfl := hfirst b (bs ++ payload message.toList) (by rw [hdel]; rfl)
      exact delimited_eq_zero_cons hdel
  have hnil : delimited [] = [0] := by decide
  rw [hheader, hnil] at hsecond hdvd
  cases message with
  | none => exact absurd hdvd (by decide)
  | some msg =>
    have hmsg : msg = [] := by
      cases hdel : delimited msg with
      | nil =>
        have hpos := length_le_delimited msg
        rw [hdel] at hpos
        exact List.length_eq_zero_iff.mp (Nat.le_zero.mp hpos)
      | cons b bs =>
        obtain rfl := hsecond b bs (by simp [payload, hdel])
        exact delimited_eq_zero_cons hdel
    rw [hmsg] at hdvd
    exact absurd hdvd (by decide)

theorem getElem?_fill {n i : ℕ} {bs : Bytes} {b : UInt8} (h : (fill n bs)[i]? = some b) :
    b = 0 ∨ bs[i]? = some b := by
  rw [fill, List.getElem?_append] at h
  split at h
  · exact .inr h
  · exact .inl (List.eq_of_mem_replicate (List.mem_of_getElem? h))

theorem getElem?_of_take {n i : ℕ} {bs : Bytes} {b : UInt8} (h : (bs.take n)[i]? = some b) :
    bs[i]? = some b := by
  rw [List.getElem?_take] at h
  split_ifs at h
  exact h

/-- `readResponse` decodes the frame exactly when the length is in one piece. -/
theorem Carries.takeFull_buffer {segs : List Bytes} {header : Bytes} {message : Option Bytes}
    (h : Carries segs (payload (header :: message.toList))) :
    ∃ buf, replyBody takeFull segs = .ok buf ∧
      buf.length ≤ (payload (header :: message.toList)).length ∧
      (buf = payload (header :: message.toList) ↔ LengthArrives segs) := by
  by_cases hlength : LengthArrives segs
  · exact ⟨_, h.replyBody_takeFull hlength, le_rfl, iff_of_true rfl hlength⟩
  · obtain ⟨hle, hbody⟩ := h.replyBody_short hlength takeFull
    obtain ⟨rest, htake, _⟩ := takeFull_of_le hle
    have hlen := takeFull_length htake
    rw [htake, filled, fill_of_length hlen] at hbody
    exact ⟨_, hbody, by rw [hlen]; exact announced_le _ _,
      iff_of_false (h.ne_of_short hlength hlen fun i b hb => .inr (getElem?_of_take hb)) hlength⟩

/-- `receiveSaslMessage` decodes the frame exactly when the length is in one piece and the body in
another. -/
theorem Carries.takeSome_buffer {segs : List Bytes} {header : Bytes} {message : Option Bytes}
    (h : Carries segs (payload (header :: message.toList))) :
    ∃ buf, replyBody takeSome segs = .ok buf ∧
      buf.length ≤ (payload (header :: message.toList)).length ∧
      (buf = payload (header :: message.toList) ↔
        LengthArrives segs ∧ BodyArrives segs (payload (header :: message.toList))) := by
  by_cases hlength : LengthArrives segs
  · refine ⟨_, h.replyBody_takeSome hlength, ?_, ?_⟩
    · rw [fill_length (List.length_take_le _ _)]
    · rw [h.fill_secondArrival_iff hlength, and_iff_right hlength]
  · obtain ⟨hle, hbody⟩ := h.replyBody_short hlength takeSome
    obtain ⟨rest, htake⟩ := takeSome_eq hle
    rw [htake, filled] at hbody
    have hlen := fill_length (List.length_take_le
      (announced (segs.headD []).length (payload (header :: message.toList)).length)
      (segs.tail.headD []))
    refine ⟨_, hbody, by rw [hlen]; exact announced_le _ _,
      iff_of_false (h.ne_of_short hlength hlen fun i b hb => ?_) fun harrives => hlength harrives.1⟩
    refine (getElem?_fill hb).imp_right fun hb => ?_
    have hhead : (segs.tail.headD [])[i]? = some b := getElem?_of_take hb
    cases hsegs : segs.tail with
    | nil => simp [hsegs] at hhead
    | cons seg rest =>
      rw [hsegs, List.headD_cons] at hhead
      rw [List.flatten_cons, List.getElem?_append_left (List.getElem?_eq_some_iff.mp hhead).1, hhead]

/-! ## Telling frames apart -/

/-- Knows one header, of the given status. -/
def knowsHeader (header : Bytes) (status : RpcStatusProto) (b : Bytes) :
    Option RpcResponseHeaderProto :=
  if b = header then some { status := some status } else none

theorem knowsHeader_self (header : Bytes) (status : RpcStatusProto) :
    knowsHeader header status header = some { status := some status } := if_pos rfl

theorem knowsHeader_eq_some {header b : Bytes} {status : RpcStatusProto}
    {h : RpcResponseHeaderProto} (hb : knowsHeader header status b = some h) : b = header := by
  rw [knowsHeader] at hb
  split_ifs at hb with heq
  exact heq

/-- The status of a frame with or without a message. -/
def frameStatus : Option Bytes → RpcStatusProto
  | none => .ERROR
  | some _ => .SUCCESS

section Telling

variable {M : Type} {check : RpcResponseHeaderProto → Except (Fault GoError) Unit}
  {fits own : RpcResponseHeaderProto → Prop} {unmarshal : Bytes → Option M} {header : Bytes}

variable (check unmarshal header) in
/-- Decoding a frame up to its header. -/
theorem parseReply_knowsHeader (status : RpcStatusProto) {msgs : List Bytes}
    (hlen : (payload (header :: msgs)).length < 2 ^ 63) :
    parseReply (knowsHeader header status) check unmarshal (payload (header :: msgs)) =
      parseBehind check unmarshal { status := some status } (payload msgs) := by
  have hheader := length_le_delimited header
  rw [payload_cons, List.length_append] at hlen
  rw [payload_cons, parseReply_of_delimits (by rw [List.length_append]; exact hlen)
    (delimits_delimited (by omega) (payload msgs)), knowsHeader_self]

/-- A decoder that knows the header of an error frame gets its error only behind that header. -/
theorem delimits_of_error (hcheck : Checks check fits own)
    (hown : ∀ status, own { status := some status }) {buf : Bytes} (hbuf : buf.length < 2 ^ 63)
    (hlen : (payload [header]).length < 2 ^ 63)
    (h : parseReply (knowsHeader header .ERROR) check unmarshal buf =
      parseReply (knowsHeader header .ERROR) check unmarshal (payload [header])) :
    ∃ rest, Delimits buf header rest := by
  rw [parseReply_knowsHeader check unmarshal header .ERROR hlen, parseBehind, hcheck.ok (hown _),
    except_ok_bind] at h
  by_cases hdel : ∃ hdr rest, Delimits buf hdr rest
  · obtain ⟨hdr, rest, hdel⟩ := hdel
    rw [parseReply_of_delimits hbuf hdel] at h
    cases hknown : knowsHeader header .ERROR hdr with
    | none =>
      rw [hknown] at h
      cases h
    | some _ => exact ⟨rest, knowsHeader_eq_some hknown ▸ hdel⟩
  · rw [parseReply, readDelimited_of_not_delimits _ hbuf fun hdr rest h => hdel ⟨hdr, rest, h⟩] at h
    cases h

/-- A decoder that tells all messages apart, and knows the header of a frame with a message, gets
that message only from the parts of the frame. -/
theorem delimits_of_success (hcheck : Checks check fits own)
    (hown : ∀ status, own { status := some status }) (htotal : ∀ b, (unmarshal b).isSome)
    (hinj : unmarshal.Injective) {message buf : Bytes} (hbuf : buf.length < 2 ^ 63)
    (hlen : (payload [header, message]).length < 2 ^ 63)
    (h : parseReply (knowsHeader header .SUCCESS) check unmarshal buf =
      parseReply (knowsHeader header .SUCCESS) check unmarshal (payload [header, message])) :
    ∃ rest tail, Delimits buf header rest ∧ Delimits rest message tail := by
  obtain ⟨m, hm⟩ := Option.isSome_iff_exists.mp (htotal message)
  rw [parseReply_knowsHeader check unmarshal header .SUCCESS hlen, parseBehind, hcheck.ok (hown _),
    except_ok_bind] at h
  have hmessage := length_le_delimited message
  simp only [payload_cons, List.length_append] at hlen
  have hdelimited : Delimits (payload [message]) message (payload []) := by
    rw [payload_cons]
    exact delimits_delimited (by omega) _
  have hread := readDelimited_of_delimits unmarshal
    (by rw [payload_cons, List.length_append]; omega) hdelimited
  rw [hm] at hread
  simp only [hread] at h
  obtain ⟨hdr, rest, _, hdel, hknown, _, _, msg, tail, m', hmsg, hm', hr⟩ :=
    parseReply_eq_ok hcheck hbuf h
  obtain rfl := knowsHeader_eq_some hknown
  obtain rfl : msg = message := hinj (hm'.trans (hr.symm.trans hm.symm))
  exact ⟨rest, tail, hdel, hmsg⟩

/-- So a buffer that is not longer than the frame has to be the frame. -/
theorem eq_payload_of_parseReply_eq (hcheck : Checks check fits own)
    (hown : ∀ status, own { status := some status }) (htotal : ∀ b, (unmarshal b).isSome)
    (hinj : unmarshal.Injective) {message : Option Bytes} {buf : Bytes}
    (hlen : (payload (header :: message.toList)).length < 2 ^ 63)
    (hle : buf.length ≤ (payload (header :: message.toList)).length)
    (h : parseReply (knowsHeader header (frameStatus message)) check unmarshal buf =
      parseReply (knowsHeader header (frameStatus message)) check unmarshal
        (payload (header :: message.toList))) :
    buf = payload (header :: message.toList) := by
  refine DelimitsAll.eq_payload ?_ hle
  cases message with
  | none =>
    obtain ⟨rest, hdel⟩ := delimits_of_error hcheck hown (by omega) hlen h
    exact ⟨rest, hdel, trivial⟩
  | some message =>
    obtain ⟨rest, tail, hdel, hmsg⟩ :=
      delimits_of_success hcheck hown htotal hinj (by omega) hlen h
    exact ⟨rest, hdel, tail, hmsg, trivial⟩

end Telling

/-- A client that knows the header of the frame and tells all messages apart. -/
def tellingEndpoint (header : Bytes) (message : Option Bytes) : Endpoint Bytes Bytes :=
  { Protobuf.plainEndpoint with
    codec := { Protobuf.codec with
      unmarshalRpcResponseHeader := knowsHeader header (frameStatus message)
      unmarshalSasl := fun b => some { token := some b }
      unmarshalResponse := some } }

theorem tellingEndpoint_requiresStatus (header : Bytes) (message : Option Bytes) :
    (tellingEndpoint header message).codec.RequiresStatus := by
  intro b h hb
  simp only [tellingEndpoint, knowsHeader] at hb
  split_ifs at hb
  obtain rfl := Option.some.inj hb
  rfl

/-- It can take the frame apart. -/
theorem bodySafe_knowsHeader {fits own : RpcResponseHeaderProto → Prop} {header : Bytes}
    {message : Option Bytes} (hfits : ∀ status, fits { status := some status })
    (hlen : (payload (header :: message.toList)).length < 2 ^ 63) :
    BodySafe (knowsHeader header (frameStatus message)) fits own
      (payload (header :: message.toList)) := by
  have hheader := length_le_delimited header
  rw [payload_cons, List.length_append] at hlen
  refine ⟨header, payload message.toList, ?_, fun h hh => ?_⟩
  · rw [payload_cons]
    exact delimits_delimited (by omega) _
  · rw [knowsHeader_self] at hh
    obtain rfl := Option.some.inj hh
    refine ⟨hfits _, fun _ hstatus => ?_⟩
    cases message with
    | none => cases hstatus
    | some msg =>
      have hmsg := length_le_delimited msg
      simp only [Option.toList_some, payload_cons, List.length_append] at hlen ⊢
      exact ⟨msg, payload [], delimits_delimited (by omega) _⟩

/-- The result of `receiveSaslMessage` tells that of the decoder. -/
theorem parseSaslMessage_eq_of_decodeSasl_eq {Req Resp : Type} (ep : Endpoint Req Resp)
    {body body' : Bytes} (hlen : body.length < 2 ^ 63) (hlen' : body'.length < 2 ^ 63)
    (h : decodeSasl ep body = decodeSasl ep body') :
    parseSaslMessage ep body = parseSaslMessage ep body' := by
  have hsome : ∀ {bs r}, bs.length < 2 ^ 63 → parseSaslMessage ep bs = .ok r → ∃ m, r = some m := by
    intro bs r hbs hr
    obtain ⟨_, _, _, _, _, _, _, _, _, m, _, _, rfl⟩ :=
      parseReply_eq_ok checkSaslRpcHeader_checks hbs hr
    exact ⟨m, rfl⟩
  rw [decodeSasl, decodeSasl] at h
  cases hr : parseSaslMessage ep body with
  | error e =>
    cases hr' : parseSaslMessage ep body' with
    | error e' => simpa [hr, hr', Except.map] using h
    | ok r' => simp [hr, hr', Except.map] at h
  | ok r =>
    cases hr' : parseSaslMessage ep body' with
    | error e' => simp [hr, hr', Except.map] at h
    | ok r' =>
      obtain ⟨m, rfl⟩ := hsome hlen hr
      obtain ⟨m', rfl⟩ := hsome hlen' hr'
      simpa [hr, hr', Except.map] using h

/-! ## Which segmentations matter -/

/-- Every client that can take the frame apart gets from `readResponse` what decoding the whole
frame gives. -/
def ResponseRead (w : World) (body : Bytes) : Prop :=
  ∀ (Req Resp : Type) (ep : Endpoint Req Resp), ep.codec.RequiresStatus →
    BodySafe ep.codec.unmarshalRpcResponseHeader IdFits (IdOwn ep.client) body →
    outcome (readResponse ep) w = parseResponse ep body

/-- Every client that can take the frame apart gets from `receiveSaslMessage` what decoding the
whole frame gives. -/
def SaslRead (w : World) (body : Bytes) : Prop :=
  ∀ (Req Resp : Type) (ep : Endpoint Req Resp), ep.codec.RequiresStatus →
    BodySafe ep.codec.unmarshalRpcResponseHeader (fun _ => True) IdEmpty body →
    outcome (receiveSaslMessage ep) w = decodeSasl ep body

section Readers

variable {w : World} {header : Bytes} {message : Option Bytes}
  (h : Carries w.inbound (payload (header :: message.toList)))
include h

/-- Which segmentations `readResponse` reads correctly. -/
theorem responseRead_iff :
    ResponseRead w (payload (header :: message.toList)) ↔ LengthArrives w.inbound := by
  have hlt := h.length_lt
  obtain ⟨buf, hbuf, hle, hiff⟩ := h.takeFull_buffer
  rw [← hiff]
  constructor
  · intro hread
    have hsame := hread _ _ (tellingEndpoint header message)
      (tellingEndpoint_requiresStatus header message)
      (bodySafe_knowsHeader (fun _ => by simp [IdFits]) (by omega))
    rw [outcome_readResponse, hbuf, except_ok_bind] at hsame
    exact eq_payload_of_parseReply_eq (checkRpcHeader_checks _) (fun _ => by simp [IdOwn])
      (fun _ => rfl) (Option.some_injective _) (by omega) hle hsame
  · rintro rfl Req Resp ep - -
    rw [outcome_readResponse, hbuf, except_ok_bind]

/-- Which segmentations `receiveSaslMessage` reads correctly. -/
theorem saslRead_iff (hscript : w.script w.clock = none) :
    SaslRead w (payload (header :: message.toList)) ↔
      LengthArrives w.inbound ∧ BodyArrives w.inbound (payload (header :: message.toList)) := by
  have hlt := h.length_lt
  obtain ⟨buf, hbuf, hle, hiff⟩ := h.takeSome_buffer
  rw [← hiff]
  constructor
  · intro hread
    have hsame := hread _ _ (tellingEndpoint header message)
      (tellingEndpoint_requiresStatus header message)
      (bodySafe_knowsHeader (fun _ => trivial) (by omega))
    rw [outcome_receiveSaslMessage, hscript] at hsame
    simp only [hbuf, except_ok_bind] at hsame
    refine eq_payload_of_parseReply_eq checkSaslRpcHeader_checks (fun _ => by simp [IdEmpty])
      (fun _ => rfl) ?_ (by omega) hle (parseSaslMessage_eq_of_decodeSasl_eq _ (by omega) (by omega)
        hsame)
    intro b b' hb
    simpa [tellingEndpoint] using hb
  · rintro rfl Req Resp ep - -
    rw [outcome_receiveSaslMessage, hscript]
    simp only [hbuf, except_ok_bind]

end Readers

/-- **Which segmentations matter.** Take a stream with one complete frame, a header and at most one
message, cut in two ways. Both runs of a reader return what decoding the whole frame returns, in
every client that can take it apart, exactly when both cuts deliver the length in one piece and, for
`receiveSaslMessage`, the body in another, up to zeros at its end. -/
theorem readers_segmentation_iff (w₁ w₂ : World) {header : Bytes} {message : Option Bytes}
    (h₁ : Carries w₁.inbound (payload (header :: message.toList)))
    (h₂ : Carries w₂.inbound (payload (header :: message.toList))) :
    (ResponseRead w₁ (payload (header :: message.toList)) ∧
        ResponseRead w₂ (payload (header :: message.toList)) ↔
      LengthArrives w₁.inbound ∧ LengthArrives w₂.inbound) ∧
    (w₁.script w₁.clock = none → w₂.script w₂.clock = none →
      (SaslRead w₁ (payload (header :: message.toList)) ∧
          SaslRead w₂ (payload (header :: message.toList)) ↔
        (LengthArrives w₁.inbound ∧ BodyArrives w₁.inbound (payload (header :: message.toList))) ∧
        LengthArrives w₂.inbound ∧ BodyArrives w₂.inbound (payload (header :: message.toList)))) := by
  constructor
  · rw [responseRead_iff h₁, responseRead_iff h₂]
  · intro hscript₁ hscript₂
    rw [saslRead_iff h₁ hscript₁, saslRead_iff h₂ hscript₂]

/-- A response cut inside its length crashes the client, and a SASL reply cut inside its body comes
back with zeros in place of the last bytes. -/
theorem readers_segmentation_matters :
    (Carries [[0, 0, 0, 6, 4, 8, 0, 16, 0, 0]] [4, 8, 0, 16, 0, 0] ∧
      Carries [[0, 0], [0, 6, 4, 8, 0, 16, 0, 0]] [4, 8, 0, 16, 0, 0] ∧
      outcome (readResponse Protobuf.plainEndpoint)
          (Protobuf.calmWorld [[0, 0, 0, 6, 4, 8, 0, 16, 0, 0]]) ≠
        outcome (readResponse Protobuf.plainEndpoint)
          (Protobuf.calmWorld [[0, 0], [0, 6, 4, 8, 0, 16, 0, 0]])) ∧
    (Carries [[0, 0, 0, 11], [4, 8, 0, 16, 0, 5, 16, 1, 26, 1, 9]]
        [4, 8, 0, 16, 0, 5, 16, 1, 26, 1, 9] ∧
      Carries [[0, 0, 0, 11], [4, 8, 0, 16, 0, 5, 16, 1, 26, 1], [9]]
        [4, 8, 0, 16, 0, 5, 16, 1, 26, 1, 9] ∧
      outcome (receiveSaslMessage Protobuf.plainEndpoint)
          (Protobuf.calmWorld [[0, 0, 0, 11], [4, 8, 0, 16, 0, 5, 16, 1, 26, 1, 9]]) =
        .ok { state := some .NEGOTIATE, token := some [9] } ∧
      outcome (receiveSaslMessage Protobuf.plainEndpoint)
          (Protobuf.calmWorld [[0, 0, 0, 11], [4, 8, 0, 16, 0, 5, 16, 1, 26, 1], [9]]) =
        .ok { state := some .NEGOTIATE, token := some [0] }) :=
  ⟨⟨⟨by decide, ⟨[], by decide⟩, by decide⟩, ⟨by decide, ⟨[], by decide⟩, by decide⟩, by decide⟩,
    ⟨⟨by decide, ⟨[], by decide⟩, by decide⟩, ⟨by decide, ⟨[], by decide⟩, by decide⟩, by decide,
      by decide⟩⟩

/-- The same response cut behind its length, and not cut at all. -/
theorem readers_segmentation_iff_response :
    outcome (readResponse Protobuf.plainEndpoint)
        (Protobuf.calmWorld [[0, 0, 0, 6], [4, 8], [0, 16, 0, 0]]) =
      parseResponse Protobuf.plainEndpoint [4, 8, 0, 16, 0, 0] ∧
    outcome (readResponse Protobuf.plainEndpoint)
        (Protobuf.calmWorld [[0, 0, 0, 6, 4, 8, 0, 16, 0, 0]]) =
      parseResponse Protobuf.plainEndpoint [4, 8, 0, 16, 0, 0] := by
  have hsafe : BodySafe Protobuf.codec.unmarshalRpcResponseHeader IdFits
      (IdOwn Protobuf.plainEndpoint.client) [4, 8, 0, 16, 0, 0] :=
    (parseReply_survivesExactly Protobuf.codec.unmarshalResponse
      (checkRpcHeader_checks Protobuf.plainEndpoint.client) Protobuf.codec_requiresStatus
      (by decide)).iff.mp (.inl ⟨some [], by decide, [], [], rfl, rfl⟩)
  have hbody : payload ([8, 0, 16, 0] :: (some []).toList) = [4, 8, 0, 16, 0, 0] := by decide
  have hcut : Carries [[0, 0, 0, 6], [4, 8], [0, 16, 0, 0]]
      (payload ([8, 0, 16, 0] :: (some []).toList)) := by
    rw [hbody]
    exact ⟨by decide, ⟨[], by decide⟩, by decide⟩
  have hwhole : Carries [[0, 0, 0, 6, 4, 8, 0, 16, 0, 0]]
      (payload ([8, 0, 16, 0] :: (some []).toList)) := by
    rw [hbody]
    exact ⟨by decide, ⟨[], by decide⟩, by decide⟩
  obtain ⟨hread₁, hread₂⟩ := (readers_segmentation_iff (Protobuf.calmWorld _)
    (Protobuf.calmWorld _) hcut hwhole).1.mpr ⟨Nat.le_refl 4, Nat.le_add_right 4 6⟩
  rw [hbody] at hread₁ hread₂
  exact ⟨hread₁ _ _ _ Protobuf.codec_requiresStatus hsafe,
    hread₂ _ _ _ Protobuf.codec_requiresStatus hsafe⟩

end YarnCopilot.Ipc
