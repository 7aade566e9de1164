import YarnCopilot.Ipc.Writers

/-!
# What the client makes of a reply

`readResponse` and `receiveSaslMessage` take a server's bytes apart with unchecked slice expressions
and bare `Read` calls. `readers_survive_iff` says exactly which replies they survive. It rests on
`outcome_readResponse` and `outcome_receiveSaslMessage`, which reduce a session to the pure decoder.
-/

namespace YarnCopilot.Ipc

open Session

/-! ## Decoding a body -/

/-- The split of a buffer into a message and the rest is unique. -/
theorem Delimits.unique {raw msg rest msg' rest' : Bytes} (h : Delimits raw msg rest)
    (h' : Delimits raw msg' rest') : msg = msg' ∧ rest = rest' := by
  obtain ⟨lenBytes, hraw, hvar⟩ := h.prefix_eq
  obtain ⟨lenBytes', hraw', hvar'⟩ := h'.prefix_eq
  rw [hvar, Except.ok.injEq, Prod.mk.injEq] at hvar'
  obtain ⟨hmsg, hlen⟩ := hvar'
  rw [hraw, List.append_assoc, List.append_assoc] at hraw'
  obtain ⟨_, htail⟩ := List.append_inj hraw' hlen
  exact List.append_inj htail hmsg

theorem Delimits.rest_le {raw msg rest : Bytes} (h : Delimits raw msg rest) :
    rest.length ≤ raw.length := by
  obtain ⟨lenBytes, hraw, _⟩ := h.prefix_eq
  rw [hraw, List.length_append]
  omega

theorem Delimits.drop_eq {raw msg rest : Bytes} (h : Delimits raw msg rest) :
    raw.drop (raw.length - rest.length) = rest := by
  obtain ⟨lenBytes, hraw, _⟩ := h.prefix_eq
  rw [hraw, List.length_append, Nat.add_sub_cancel, List.drop_left]

theorem not_delimits_nil (msg rest : Bytes) : ¬ Delimits [] msg rest := by
  rintro ⟨lenBytes, _, hvar⟩
  rw [Varint.consume_nil] at hvar
  cases hvar

/-- A call survives: it returns something `decoded` or an error, and does not panic. -/
def Survives {α : Type} (decoded : α → Prop) (r : Except (Fault GoError) α) : Prop :=
  (∃ a, r = .ok a ∧ decoded a) ∨ ∃ e, r = .error (.err e)

theorem not_survives_panic {α : Type} {decoded : α → Prop} {q : Panic} :
    ¬ Survives decoded (.error (.panic q)) := by
  rintro (⟨a, h, _⟩ | ⟨e, h⟩) <;> cases h

/-- The call survives when `safe` holds and panics when it does not. -/
def SurvivesExactly {α : Type} (decoded : α → Prop) (safe : Prop)
    (r : Except (Fault GoError) α) : Prop :=
  (safe ∧ Survives decoded r) ∨ (¬ safe ∧ ∃ q, r = .error (.panic q))

theorem SurvivesExactly.iff {α : Type} {decoded : α → Prop} {safe : Prop}
    {r : Except (Fault GoError) α} (h : SurvivesExactly decoded safe r) :
    Survives decoded r ↔ safe := by
  rcases h with ⟨hsafe, hsurv⟩ | ⟨hsafe, q, rfl⟩
  · exact iff_of_true hsurv hsafe
  · exact iff_of_false not_survives_panic hsafe

section Bodies

variable {M : Type} {unmarshalHeader : Bytes → Option RpcResponseHeaderProto}
  {check : RpcResponseHeaderProto → Except (Fault GoError) Unit} {unmarshal : Bytes → Option M}
  {fits own : RpcResponseHeaderProto → Prop}

/-- `check` on the client id of a header: it panics unless the id `fits`, and accepts it exactly
when it is the client's `own`. -/
structure Checks (check : RpcResponseHeaderProto → Except (Fault GoError) Unit)
    (fits own : RpcResponseHeaderProto → Prop) : Prop where
  ok : ∀ {h}, own h → check h = .ok ()
  err : ∀ {h}, fits h → ¬ own h → ∃ e, check h = .error (.err e)
  panic : ∀ {h}, ¬ fits h → check h = .error (.panic .sliceBounds)
  fits_of_own : ∀ {h}, own h → fits h

/-- A body that can be taken apart: a delimited header, and, when the header decodes, an id that
fits and behind an accepted successful header another delimited message. -/
def BodySafe (unmarshalHeader : Bytes → Option RpcResponseHeaderProto)
    (fits own : RpcResponseHeaderProto → Prop) (body : Bytes) : Prop :=
  ∃ hdr rest, Delimits body hdr rest ∧ ∀ h, unmarshalHeader hdr = some h →
    fits h ∧ (own h → h.status = some .SUCCESS → ∃ msg tail, Delimits rest msg tail)

/-- What is left to do behind a decoded header. -/
def parseBehind (check : RpcResponseHeaderProto → Except (Fault GoError) Unit)
    (unmarshal : Bytes → Option M) (h : RpcResponseHeaderProto) (rest : Bytes) :
    Except (Fault GoError) (Option M) := do
  check h
  match h.status with
  | none => .error (.panic .nilPointer)
  | some .SUCCESS => (readDelimited unmarshal rest).map Prod.snd
  | some status => .error (.err (.text (rpcErrorText status h)))

/-- Decoding a body that starts with a delimited header. -/
theorem parseReply_of_delimits {body hdr rest : Bytes} (hlen : body.length < 2 ^ 63)
    (hdel : Delimits body hdr rest) :
    parseReply unmarshalHeader check unmarshal body =
      match unmarshalHeader hdr with
      | none => .error (.err .codec)
      | some h => parseBehind check unmarshal h rest := by
  rw [parseReply, readDelimited_of_delimits unmarshalHeader hlen hdel]
  have hrest := hdel.rest_le
  have hslice : (sliceBytes body ((body.length - rest.length : ℕ) : ℤ) body.length :
      Except (Fault GoError) Bytes) = .ok rest := by
    rw [sliceBytes_ok (by omega) le_rfl, hdel.drop_eq, List.take_of_length_le (by omega)]
  cases unmarshalHeader hdr with
  | none => rfl
  | some h =>
    simp only [parseBehind, bind, Except.bind, Option.getD_some]
    cases check h with
    | error e => rfl
    | ok _ =>
      simp only [hslice]
      rcases h.status with _ | status
      · rfl
      · cases status with
        | SUCCESS => cases readDelimited unmarshal rest <;> rfl
        | ERROR => rfl
        | FATAL => rfl
        | unrecognized n => rfl

/-- The message behind the header is decoded when it is there. -/
theorem readDelimited_survivesExactly (rest : Bytes) (hlen : rest.length < 2 ^ 63) :
    SurvivesExactly (fun r => ∃ b m, unmarshal b = some m ∧ r = some m)
      (∃ msg tail, Delimits rest msg tail) ((readDelimited unmarshal rest).map Prod.snd) := by
  by_cases hdel : ∃ msg tail, Delimits rest msg tail
  · left
    refine ⟨hdel, ?_⟩
    obtain ⟨msg, tail, hdel⟩ := hdel
    rw [readDelimited_of_delimits unmarshal hlen hdel]
    cases hm : unmarshal msg with
    | none => exact .inr ⟨.codec, rfl⟩
    | some m => exact .inl ⟨some m, rfl, msg, m, hm, rfl⟩
  · right
    refine ⟨hdel, .sliceBounds, ?_⟩
    rw [readDelimited_of_not_delimits unmarshal hlen fun msg tail h => hdel ⟨msg, tail, h⟩]
    rfl

/-- Behind a decoded header the decoder survives when the id fits and, if it is the client's own
and the status is `SUCCESS`, a message follows. -/
theorem parseBehind_survivesExactly (hcheck : Checks check fits own) {h : RpcResponseHeaderProto}
    (hstatus : h.status.isSome) {rest : Bytes} (hlen : rest.length < 2 ^ 63) :
    SurvivesExactly (fun r => ∃ b m, unmarshal b = some m ∧ r = some m)
      (fits h ∧ (own h → h.status = some .SUCCESS → ∃ msg tail, Delimits rest msg tail))
      (parseBehind check unmarshal h rest) := by
  rw [parseBehind]
  by_cases hfits : fits h
  swap
  · rw [hcheck.panic hfits]
    exact .inr ⟨fun hsafe => hfits hsafe.1, .sliceBounds, rfl⟩
  by_cases hown : own h
  swap
  · obtain ⟨e, he⟩ := hcheck.err hfits hown
    rw [he]
    exact .inl ⟨⟨hfits, fun h => absurd h hown⟩, .inr ⟨e, rfl⟩⟩
  -- the id is accepted: the status decides
  obtain ⟨status, hst⟩ := Option.isSome_iff_exists.mp hstatus
  simp only [hcheck.ok hown, except_ok_bind, hst, hfits, hown, true_and, forall_const,
    Option.some.injEq]
  cases status with
  | SUCCESS => simpa using readDelimited_survivesExactly rest hlen
  | ERROR => exact .inl ⟨by simp, .inr ⟨_, rfl⟩⟩
  | FATAL => exact .inl ⟨by simp, .inr ⟨_, rfl⟩⟩
  | unrecognized n => exact .inl ⟨by simp, .inr ⟨_, rfl⟩⟩

variable (unmarshal) in
/-- A body is decoded without a panic exactly when it can be taken apart. -/
theorem parseReply_survivesExactly (hcheck : Checks check fits own)
    (hstatus : ∀ b h, unmarshalHeader b = some h → h.status.isSome) {body : Bytes}
    (hlen : body.length < 2 ^ 63) :
    SurvivesExactly (fun r => ∃ b m, unmarshal b = some m ∧ r = some m)
      (BodySafe unmarshalHeader fits own body)
      (parseReply unmarshalHeader check unmarshal body) := by
  by_cases hdel : ∃ hdr rest, Delimits body hdr rest
  swap
  · refine .inr ⟨fun ⟨hdr, rest, h, _⟩ => hdel ⟨hdr, rest, h⟩, .sliceBounds, ?_⟩
    rw [parseReply, readDelimited_of_not_delimits unmarshalHeader hlen
      fun hdr rest h => hdel ⟨hdr, rest, h⟩]
    rfl
  obtain ⟨hdr, rest, hdel⟩ := hdel
  have hsafe : BodySafe unmarshalHeader fits own body ↔ ∀ h, unmarshalHeader hdr = some h →
      fits h ∧ (own h → h.status = some .SUCCESS → ∃ msg tail, Delimits rest msg tail) := by
    constructor
    · rintro ⟨hdr', rest', hdel', h⟩
      obtain ⟨rfl, rfl⟩ := hdel.unique hdel'
      exact h
    · exact fun h => ⟨hdr, rest, hdel, h⟩
  rw [hsafe, parseReply_of_delimits hlen hdel]
  cases hh : unmarshalHeader hdr with
  | none => exact .inl ⟨by simp, .inr ⟨_, rfl⟩⟩
  | some h =>
    simp only [Option.some.injEq, forall_eq']
    exact parseBehind_survivesExactly hcheck (hstatus hdr h hh) (by have := hdel.rest_le; omega)

/-- A message that is returned was delimited. -/
theorem readDelimited_eq_ok {rest : Bytes} (hlen : rest.length < 2 ^ 63) {r : Option M}
    (h : (readDelimited unmarshal rest).map Prod.snd = .ok r) :
    ∃ msg tail m, Delimits rest msg tail ∧ unmarshal msg = some m ∧ r = some m := by
  by_cases hdel : ∃ msg tail, Delimits rest msg tail
  · obtain ⟨msg, tail, hdel⟩ := hdel
    rw [readDelimited_of_delimits unmarshal hlen hdel] at h
    cases hm : unmarshal msg with
    | none =>
      rw [hm] at h
      cases h
    | some m =>
      rw [hm] at h
      exact ⟨msg, tail, m, hdel, hm, (Except.ok.inj h).symm⟩
  · rw [readDelimited_of_not_delimits unmarshal hlen fun msg tail h => hdel ⟨msg, tail, h⟩] at h
    cases h

/-- A message is returned behind a header of status `SUCCESS` with the client's own id. -/
theorem parseBehind_eq_ok (hcheck : Checks check fits own) {header : RpcResponseHeaderProto}
    {rest : Bytes} (hlen : rest.length < 2 ^ 63) {r : Option M}
    (h : parseBehind check unmarshal header rest = .ok r) :
    own header ∧ header.status = some .SUCCESS ∧
      ∃ msg tail m, Delimits rest msg tail ∧ unmarshal msg = some m ∧ r = some m := by
  rw [parseBehind] at h
  have hown : own header := by
    by_contra hnot
    by_cases hfits : fits header
    · obtain ⟨e, he⟩ := hcheck.err hfits hnot
      rw [he] at h
      cases h
    · rw [hcheck.panic hfits] at h
      cases h
  rw [hcheck.ok hown, except_ok_bind] at h
  rcases hst : header.status with _ | status
  · rw [hst] at h
    cases h
  · rw [hst] at h
    cases status with
    | SUCCESS => exact ⟨hown, rfl, readDelimited_eq_ok hlen h⟩
    | _ => cases h

/-- What a body that is decoded consists of. -/
theorem parseReply_eq_ok (hcheck : Checks check fits own) {body : Bytes}
    (hlen : body.length < 2 ^ 63) {r : Option M}
    (h : parseReply unmarshalHeader check unmarshal body = .ok r) :
    ∃ hdr rest header, Delimits body hdr rest ∧ unmarshalHeader hdr = some header ∧ own header ∧
      header.status = some .SUCCESS ∧
      ∃ msg tail m, Delimits rest msg tail ∧ unmarshal msg = some m ∧ r = some m := by
  by_cases hdel : ∃ hdr rest, Delimits body hdr rest
  · obtain ⟨hdr, rest, hdel⟩ := hdel
    have hrest := hdel.rest_le
    rw [parseReply_of_delimits hlen hdel] at h
    cases hh : unmarshalHeader hdr with
    | none =>
      rw [hh] at h
      cases h
    | some header =>
      rw [hh] at h
      obtain ⟨hown, hst, hmsg⟩ := parseBehind_eq_ok hcheck (by omega) h
      exact ⟨hdr, rest, header, hdel, hh, hown, hst, hmsg⟩
  · rw [parseReply, readDelimited_of_not_delimits unmarshalHeader hlen
      fun hdr rest h => hdel ⟨hdr, rest, h⟩] at h
    cases h

end Bodies

/-! ## From the stream to the body -/

/-- A zeroed buffer of `n` bytes after a read. -/
def filled (n : ℕ) : Option (Bytes × List Bytes) → Except (Fault GoError) Bytes
  | none => .error (.err .io)
  | some (bs, _) => .ok (fill n bs)

/-- The buffer a reader decodes: four bytes of length from one `Read`, then a zeroed buffer of that
length into which `take` puts what it gets. -/
def replyBody (take : ℕ → List Bytes → Option (Bytes × List Bytes)) (segs : List Bytes) :
    Except (Fault GoError) Bytes :=
  match takeSome 4 segs with
  | none => .error (.err .io)
  | some (lengthBytes, rest) => do
    let n ← makeSlice (ofBe32 (fill 4 lengthBytes))
    filled n (take n rest)

theorem takeFull_length {n : ℕ} {segs rest : List Bytes} {bs : Bytes}
    (h : takeFull n segs = some (bs, rest)) : bs.length = n := by
  by_cases hle : n ≤ segs.flatten.length
  · obtain ⟨rest', htake, _⟩ := takeFull_of_le hle
    rw [htake, Option.some.injEq, Prod.mk.injEq] at h
    rw [← h.1, List.length_take, Nat.min_eq_left hle]
  · rw [takeFull_of_lt (by omega)] at h
    cases h

variable {Req Resp : Type} (ep : Endpoint Req Resp)

/-- What `receiveSaslMessage` makes of a body. -/
def decodeSasl (body : Bytes) : Except (Fault GoError) RpcSaslProto :=
  (parseSaslMessage ep body).map fun message => message.getD {}

/-- `readResponse` decodes the buffer that `io.ReadFull` filled. -/
theorem outcome_readResponse (w : World) :
    outcome (readResponse ep) w = replyBody takeFull w.inbound >>= parseResponse ep := by
  rw [readResponse, replyBody]
  cases hlength : takeSome 4 w.inbound with
  | none => rw [outcome_bind_error (read_of_none hlength), except_error_bind]
  | some r =>
    obtain ⟨lengthBytes, rest⟩ := r
    rw [outcome_bind_ok (read_of_some hlength), outcome_pureResult_bind, bind_assoc]
    congr 1
    funext n
    cases hbody : takeFull n rest with
    | none => rw [outcome_bind_error (readFull_of_none hbody), filled, except_error_bind]
    | some r =>
      obtain ⟨bs, rest'⟩ := r
      rw [outcome_bind_ok (readFull_of_some hbody), outcome_pureResult, filled, except_ok_bind,
        fill_of_length (takeFull_length hbody)]

/-- `receiveSaslMessage` decodes the buffer that one `Read` filled, if the deadline could be set. -/
theorem outcome_receiveSaslMessage (w : World) :
    outcome (receiveSaslMessage ep) w =
      match w.script w.clock with
      | some _ => .error (.err .io)
      | none => replyBody takeSome w.inbound >>= decodeSasl ep := by
  rw [receiveSaslMessage, replyBody, setDeadline]
  cases hscript : w.script w.clock with
  | some k => exact outcome_bind_error (attempt_of_some hscript)
  | none =>
    -- setting the deadline leaves the stream alone
    rw [outcome_bind_ok (attempt_of_none hscript), ← World.after_inbound w [.configure]]
    cases hlength : takeSome 4 (w.after [.configure]).inbound with
    | none => rw [outcome_bind_error (read_of_none hlength), except_error_bind]
    | some r =>
      obtain ⟨lengthBytes, rest⟩ := r
      rw [outcome_bind_ok (read_of_some hlength), outcome_pureResult_bind, bind_assoc]
      congr 1
      funext n
      cases hbody : takeSome n rest with
      | none => rw [outcome_bind_error (read_of_none hbody), filled, except_error_bind]
      | some r =>
        obtain ⟨bs, rest'⟩ := r
        rw [outcome_bind_ok (read_of_some hbody), outcome_pureResult_bind, filled, except_ok_bind,
          decodeSasl]
        cases parseSaslMessage ep (fill n bs) <;> rfl

/-! ## Which replies the client survives -/

/-- The client id of a response can be compared: it has room for the 16 bytes that are looked at. -/
def IdFits (h : RpcResponseHeaderProto) : Prop := ∀ id ∈ h.clientId, 16 ≤ id.cap

/-- The client id of a response, if there is one, is the client's. -/
def IdOwn (client : Client) (h : RpcResponseHeaderProto) : Prop :=
  ∀ id ∈ h.clientId, (id.data ++ id.spare).take 16 = client.clientId

/-- The client id of a SASL response, if there is one, is empty. -/
def IdEmpty (h : RpcResponseHeaderProto) : Prop := ∀ id ∈ h.clientId, id.data = []

theorem checkRpcHeader_checks (client : Client) :
    Checks (checkRpcHeader client) IdFits (IdOwn client) := by
  have hfits : ∀ {h}, IdOwn client h → IdFits h := by
    intro h hown id hid
    have hlen := congrArg List.length (hown id hid)
    rw [client.clientId_length, List.length_take, List.length_append] at hlen
    rw [GoSlice.cap]
    omega
  refine ⟨fun {h} hown => ?_, fun {h} hfit hown => ?_, fun {h} hfit => ?_, hfits⟩
  · have hfit := hfits hown
    unfold IdOwn at hown
    unfold IdFits at hfit
    rw [checkRpcHeader]
    cases hid : h.clientId with
    | none => rfl
    | some id =>
      simp only [GoSlice.slicePrefix, if_pos (hfit id hid), except_ok_bind, if_pos (hown id hid)]
  · unfold IdOwn at hown
    unfold IdFits at hfit
    rw [checkRpcHeader]
    cases hid : h.clientId with
    | none => simp [hid] at hown
    | some id =>
      have hne : (id.data ++ id.spare).take 16 ≠ client.clientId := by simpa [hid] using hown
      simp only [GoSlice.slicePrefix, if_pos (hfit id hid), except_ok_bind, if_neg hne]
      exact ⟨_, rfl⟩
  · unfold IdFits at hfit
    rw [checkRpcHeader]
    cases hid : h.clientId with
    | none => simp [hid] at hfit
    | some id =>
      have hlt : ¬ 16 ≤ id.cap := by simpa [hid] using hfit
      simp only [GoSlice.slicePrefix, if_neg hlt, except_error_bind]

theorem checkSaslRpcHeader_checks : Checks checkSaslRpcHeader (fun _ => True) IdEmpty := by
  refine ⟨fun {h} hown => ?_, fun {h} _ hown => ?_, fun hfit => absurd trivial hfit,
    fun _ => trivial⟩
  · unfold IdEmpty at hown
    rw [checkSaslRpcHeader]
    cases hid : h.clientId with
    | none => rfl
    | some id => simp only [if_pos (hown id hid)]
  · unfold IdEmpty at hown
    rw [checkSaslRpcHeader]
    cases hid : h.clientId with
    | none => simp [hid] at hown
    | some id =>
      have hne : id.data ≠ [] := by simpa [hid] using hown
      simp only [if_neg hne]
      exact ⟨_, rfl⟩

/-- A stream that the client can digest: when the length can be read it is not negative, and when
the body can be read it can be taken apart. -/
def ReplySafe (take : ℕ → List Bytes → Option (Bytes × List Bytes)) (bodySafe : Bytes → Prop)
    (segs : List Bytes) : Prop :=
  ∀ lengthBytes rest, takeSome 4 segs = some (lengthBytes, rest) →
    0 ≤ ofBe32 (fill 4 lengthBytes) ∧
      ∀ bs rest', take (ofBe32 (fill 4 lengthBytes)).toNat rest = some (bs, rest') →
        bodySafe (fill (ofBe32 (fill 4 lengthBytes)).toNat bs)

theorem fill_length {n : ℕ} {bs : Bytes} (h : bs.length ≤ n) : (fill n bs).length = n := by
  rw [fill, List.length_append, List.length_replicate]
  omega

theorem ofBe32_lt (bs : Bytes) : ofBe32 bs < 2 ^ 31 := int32_lt _

/-- If the decoder survives exactly the safe bodies, the reader survives exactly the safe
streams. -/
theorem survives_replyBody_iff {α : Type} {decoded : α → Prop}
    {take : ℕ → List Bytes → Option (Bytes × List Bytes)} {bodySafe : Bytes → Prop}
    {parse : Bytes → Except (Fault GoError) α}
    (htake : ∀ {n segs bs rest}, take n segs = some (bs, rest) → bs.length ≤ n)
    (hparse : ∀ body : Bytes, body.length < 2 ^ 63 →
      (Survives decoded (parse body) ↔ bodySafe body)) (segs : List Bytes) :
    Survives decoded (replyBody take segs >>= parse) ↔ ReplySafe take bodySafe segs := by
  rw [replyBody, ReplySafe]
  cases takeSome 4 segs with
  | none => simp [Survives]
  | some r =>
    obtain ⟨lengthBytes, rest⟩ := r
    have hlt := ofBe32_lt (fill 4 lengthBytes)
    simp only [Option.some.injEq, Prod.mk.injEq, and_imp]
    by_cases hneg : ofBe32 (fill 4 lengthBytes) < 0
    · rw [makeSlice, if_pos hneg, except_error_bind, except_error_bind]
      exact iff_of_false not_survives_panic fun h =>
        absurd (h lengthBytes rest rfl rfl).1 (by omega)
    rw [makeSlice, if_neg hneg, except_ok_bind]
    cases hbody : take (ofBe32 (fill 4 lengthBytes)).toNat rest with
    | none =>
      refine iff_of_true (.inr ⟨_, rfl⟩) ?_
      rintro _ _ rfl rfl
      exact ⟨by omega, by simp [hbody]⟩
    | some r =>
      obtain ⟨bs, rest'⟩ := r
      rw [filled, except_ok_bind, hparse _ (by rw [fill_length (htake hbody)]; omega)]
      constructor
      · rintro hsafe _ _ rfl rfl
        refine ⟨by omega, fun bs' rest'' h => ?_⟩
        rw [hbody, Option.some.injEq, Prod.mk.injEq] at h
        exact h.1 ▸ hsafe
      · intro h
        exact (h lengthBytes rest rfl rfl).2 bs rest' hbody

theorem SurvivesExactly.decodeSasl {body : Bytes} {safe : Prop}
    (h : SurvivesExactly (fun r => ∃ b m, ep.codec.unmarshalSasl b = some m ∧ r = some m) safe
      (parseSaslMessage ep body)) :
    SurvivesExactly (fun m => ∃ b, ep.codec.unmarshalSasl b = some m) safe (decodeSasl ep body) := by
  rw [Ipc.decodeSasl]
  rcases h with ⟨hsafe, ⟨_, hres, b, m, hm, rfl⟩ | ⟨e, hres⟩⟩ | ⟨hsafe, q, hres⟩
  · exact .inl ⟨hsafe, .inl ⟨m, by rw [hres]; rfl, b, hm⟩⟩
  · exact .inl ⟨hsafe, .inr ⟨e, by rw [hres]; rfl⟩⟩
  · exact .inr ⟨hsafe, q, by rw [hres]; rfl⟩

/-- **Which server bytes crash the client.** A reader returns a decoded message or an error exactly
when the length it reads is not negative, the body is a delimited header, a decoded header has no
client id too short to compare, and a message follows an accepted successful header. On any other
stream it panics. -/
theorem readers_survive_iff (hstatus : ep.codec.RequiresStatus) (w : World) :
    (Survives (fun r => ∃ b m, ep.codec.unmarshalResponse b = some m ∧ r = some m)
        (outcome (readResponse ep) w) ↔
      ReplySafe takeFull
        (BodySafe ep.codec.unmarshalRpcResponseHeader IdFits (IdOwn ep.client)) w.inbound) ∧
    (Survives (fun m => ∃ b, ep.codec.unmarshalSasl b = some m)
        (outcome (receiveSaslMessage ep) w) ↔
      (w.script w.clock = none → ReplySafe takeSome
        (BodySafe ep.codec.unmarshalRpcResponseHeader (fun _ => True) IdEmpty) w.inbound)) := by
  constructor
  · rw [outcome_readResponse]
    exact survives_replyBody_iff (fun h => (takeFull_length h).le)
      (fun body hlen =>
        (parseReply_survivesExactly ep.codec.unmarshalResponse (checkRpcHeader_checks ep.client)
          hstatus hlen).iff) w.inbound
  · rw [outcome_receiveSaslMessage]
    cases w.script w.clock with
    | some k => simp [Survives]
    | none =>
      simp only [forall_const]
      refine survives_replyBody_iff (fun h => (takeSome_spec h).2) (fun body hlen => ?_) w.inbound
      exact ((parseReply_survivesExactly ep.codec.unmarshalSasl checkSaslRpcHeader_checks hstatus
        hlen).decodeSasl ep).iff

/-- Four of the streams that crash a client: a negative length, an empty body, a client id of three
bytes, and a SASL body whose header is longer than the body. -/
theorem readers_crash :
    (∀ segs ∈ [[[0xFF, 0xFF, 0xFF, 0xFF]], [[0, 0, 0, 0]],
        [[0, 0, 0, 10], [9, 8, 0, 16, 0, 58, 3, 1, 2, 3]]],
      ¬ Survives (fun r => ∃ b m, Protobuf.codec.unmarshalResponse b = some m ∧ r = some m)
        (outcome (readResponse Protobuf.plainEndpoint) (Protobuf.calmWorld segs))) ∧
    ¬ Survives (fun m => ∃ b, Protobuf.codec.unmarshalSasl b = some m)
        (outcome (receiveSaslMessage Protobuf.plainEndpoint)
          (Protobuf.calmWorld [[0, 0, 0, 2], [5, 8]])) := by
  have hneg : outcome (readResponse Protobuf.plainEndpoint)
      (Protobuf.calmWorld [[0xFF, 0xFF, 0xFF, 0xFF]]) = .error (.panic .makeSlice) := by
    decide
  have hempty : outcome (readResponse Protobuf.plainEndpoint)
      (Protobuf.calmWorld [[0, 0, 0, 0]]) = .error (.panic .sliceBounds) := by
    decide
  have hid : outcome (readResponse Protobuf.plainEndpoint)
      (Protobuf.calmWorld [[0, 0, 0, 10], [9, 8, 0, 16, 0, 58, 3, 1, 2, 3]]) =
        .error (.panic .sliceBounds) := by
    decide
  have hsasl : outcome (receiveSaslMessage Protobuf.plainEndpoint)
      (Protobuf.calmWorld [[0, 0, 0, 2], [5, 8]]) = .error (.panic .sliceBounds) := by
    decide
  constructor
  · simp only [List.mem_cons, List.not_mem_nil, or_false, forall_eq_or_imp, forall_eq]
    rw [hneg, hempty, hid]
    exact ⟨not_survives_panic, not_survives_panic, not_survives_panic⟩
  · rw [hsasl]
    exact not_survives_panic

/-- A response with an empty message meets the condition, and is returned. -/
theorem readers_survive_iff_response :
    Protobuf.codec.RequiresStatus ∧
      ReplySafe takeFull (BodySafe Protobuf.codec.unmarshalRpcResponseHeader IdFits
        (IdOwn Protobuf.plainEndpoint.client)) [[0, 0, 0, 6], [4, 8, 0, 16, 0, 0]] := by
  refine ⟨Protobuf.codec_requiresStatus, (readers_survive_iff Protobuf.plainEndpoint
    Protobuf.codec_requiresStatus
    (Protobuf.calmWorld [[0, 0, 0, 6], [4, 8, 0, 16, 0, 0]])).1.mp
      (.inl ⟨some [], ?_, [], [], rfl, rfl⟩)⟩
  decide

/-- `body` is an accepted SASL reply that carries `m`: its header decodes with status `SUCCESS` and
without a foreign client id, and the message behind it decodes to `m`. -/
structure Accepted (body : Bytes) (m : RpcSaslProto) : Prop where
  parts : ∃ hdr rest h msg tail, Delimits body hdr rest ∧
    ep.codec.unmarshalRpcResponseHeader hdr = some h ∧ h.status = some .SUCCESS ∧ IdEmpty h ∧
    Delimits rest msg tail ∧ ep.codec.unmarshalSasl msg = some m

/-- What `receiveSaslMessage` returns was in an accepted reply. -/
theorem accepted_of_decodeSasl {body : Bytes} {m : RpcSaslProto} (hlen : body.length < 2 ^ 63)
    (h : decodeSasl ep body = .ok m) : Accepted ep body m := by
  cases hparse : parseSaslMessage ep body with
  | error e =>
    rw [decodeSasl, hparse] at h
    cases h
  | ok message =>
    rw [decodeSasl, hparse] at h
    obtain ⟨hdr, rest, header, hdel, hh, hown, hst, msg, tail, m', hmsg, hm, rfl⟩ :=
      parseReply_eq_ok checkSaslRpcHeader_checks hlen hparse
    obtain rfl : m' = m := Except.ok.inj h
    exact ⟨hdr, rest, header, msg, tail, hdel, hh, hst, hown, hmsg, hm⟩

end YarnCopilot.Ipc
