import YarnCopilot.Ipc.Calls

/-!
# A call seen from both ends

Reference: `Call`, `getConnection`, `sendRequest` and `readResponse` of
`pkg/yarn/client/ipc/client.go`.

`Exchange` is a call that went well, as data with its evidence: the authentication, the two frames
behind it, and a response of the server. `call_returns_iff` says that a call returns a message
exactly when there is such an exchange and the message is the one behind the response header.

`serverReads` is the other end: a server of the protocol that takes the header and the frames off
the stream. It is not part of the repository; `server_reads_call` says that whatever a call that
returns has sent, this server reads the messages of its exchange.
-/

namespace YarnCopilot.Ipc

open Session

/-! ## The server -/

/-- The delimited messages of a buffer. -/
def splitMessages : ℕ → Bytes → Option (List Bytes)
  | _, [] => some []
  | 0, _ :: _ => none
  | fuel + 1, b :: bs =>
    match Varint.consume (b :: bs) with
    | .error _ => none
    | .ok (len, n) =>
      if n + len ≤ (b :: bs).length then
        (splitMessages fuel ((b :: bs).drop (n + len))).map ((((b :: bs).drop n).take len) :: ·)
      else none

/-- The frames of a stream, each with its messages. -/
def splitFrames : ℕ → Bytes → Option (List (List Bytes))
  | _, [] => some []
  | 0, _ :: _ => none
  | fuel + 1, b :: bs =>
    let stream := b :: bs
    let len := (ofBe32 (stream.take 4)).toNat
    if 4 + len ≤ stream.length then do
      let msgs ← splitMessages len ((stream.drop 4).take len)
      let frames ← splitFrames fuel (stream.drop (4 + len))
      some (msgs :: frames)
    else none

/-- What a server reads of a connection: the announced authentication, and the frames behind the
header. -/
def serverReads (stream : Bytes) : Option (UInt8 × List (List Bytes)) :=
  if stream.take 6 = ascii "hrpc" ++ [0x09, 0x00] then
    match stream.drop 6 with
    | [] => none
    | auth :: frames => (splitFrames frames.length frames).map (auth, ·)
  else none

/-- One delimited message is taken off. -/
theorem splitMessages_of_delimits {fuel : ℕ} {raw msg rest : Bytes} (h : Delimits raw msg rest) :
    splitMessages (fuel + 1) raw = (splitMessages fuel rest).map (msg :: ·) := by
  obtain ⟨lenBytes, hraw, hconsume⟩ := h.prefix_eq
  have hlen : lenBytes.length + msg.length ≤ raw.length := by
    rw [hraw, List.length_append, List.length_append]
    omega
  have hmsg : (raw.drop lenBytes.length).take msg.length = msg := by
    rw [hraw, List.append_assoc, List.drop_left, List.take_left]
  have hrest : raw.drop (lenBytes.length + msg.length) = rest := by
    rw [hraw, List.drop_left' (by rw [List.length_append])]
  cases raw with
  | nil => exact absurd h (not_delimits_nil msg rest)
  | cons b bs => simp only [splitMessages, hconsume, if_pos hlen, hmsg, hrest]

theorem length_le_payload {msgs : List Bytes} (h : (payload msgs).length < 2 ^ 64) :
    msgs.length ≤ (payload msgs).length := by
  induction msgs with
  | nil => simp
  | cons data msgs ih =>
    rw [payload_cons, List.length_append] at h ⊢
    have hdata := length_le_delimited data
    have hpos := (Varint.consume_bounds (@Varint.consume_encode data.length (by omega) [])).1
    rw [List.length_cons, delimited, List.length_append] at *
    omega

/-- The messages of a payload. -/
theorem splitMessages_payload {msgs : List Bytes} (h : (payload msgs).length < 2 ^ 64) {fuel : ℕ}
    (hfuel : msgs.length ≤ fuel) : splitMessages fuel (payload msgs) = some msgs := by
  induction msgs generalizing fuel with
  | nil => cases fuel <;> rfl
  | cons data msgs ih =>
    rw [List.length_cons] at hfuel
    obtain ⟨fuel, rfl⟩ := Nat.exists_eq_add_of_le' (show 1 ≤ fuel by omega)
    rw [payload_cons, List.length_append] at h
    have hdata := length_le_delimited data
    rw [payload_cons, splitMessages_of_delimits (delimits_delimited (by omega) (payload msgs)),
      ih (by omega) (by omega), Option.map_some]

/-- One frame is taken off. -/
theorem splitFrames_frame {fuel : ℕ} {msgs : List Bytes} (h : (payload msgs).length < 2 ^ 31)
    (rest : Bytes) :
    splitFrames (fuel + 1) (frame msgs ++ rest) = (splitFrames fuel rest).map (msgs :: ·) := by
  have hlen : (ofBe32 ((frame msgs ++ rest).take 4)).toNat = (payload msgs).length := by
    rw [frame_eq h, List.append_assoc, List.take_left' (be32_length _),
      ofBe32_be32_of_mem (by omega) (by exact_mod_cast h), Int.toNat_natCast]
  have hle : 4 + (payload msgs).length ≤ (frame msgs ++ rest).length := by
    rw [frame_eq h, List.length_append, List.length_append, be32_length]
    omega
  have hmsgs : ((frame msgs ++ rest).drop 4).take (payload msgs).length = payload msgs := by
    rw [frame_eq h, List.append_assoc, List.drop_left' (be32_length _), List.take_left]
  have hrest : (frame msgs ++ rest).drop (4 + (payload msgs).length) = rest := by
    refine List.drop_left' ?_
    rw [frame_eq h, List.length_append, be32_length]
  have hsplit := splitMessages_payload (show (payload msgs).length < 2 ^ 64 by omega)
    (length_le_payload (by omega))
  cases hstream : frame msgs ++ rest with
  | nil =>
    rw [hstream] at hle
    simp at hle
  | cons b bs =>
    rw [hstream] at hlen hle hmsgs hrest
    simp only [splitFrames, hlen, if_pos hle, hmsgs, hrest, hsplit, Option.bind_eq_bind,
      Option.bind_some]
    cases splitFrames fuel rest <;> rfl

/-- The frames of a stream of frames. -/
theorem splitFrames_flatMap {frames : List (List Bytes)}
    (h : ∀ msgs ∈ frames, (payload msgs).length < 2 ^ 31) {fuel : ℕ}
    (hfuel : frames.length ≤ fuel) : splitFrames fuel (frames.flatMap frame) = some frames := by
  induction frames generalizing fuel with
  | nil => cases fuel <;> rfl
  | cons msgs frames ih =>
    rw [List.length_cons] at hfuel
    obtain ⟨fuel, rfl⟩ := Nat.exists_eq_add_of_le' (show 1 ≤ fuel by omega)
    rw [List.flatMap_cons, splitFrames_frame (h msgs List.mem_cons_self),
      ih (fun m hm => h m (List.mem_cons_of_mem _ hm)) (by omega), Option.map_some]

theorem length_le_flatMap_frame (frames : List (List Bytes)) :
    frames.length ≤ (frames.flatMap frame).length := by
  induction frames with
  | nil => simp
  | cons msgs frames ih =>
    rw [List.flatMap_cons, List.length_append, List.length_cons, frame, List.length_append,
      be32_length]
    omega

/-- The server reads what a client that announces `authProtocol` sends in frames. -/
theorem serverReads_frames (authProtocol : AuthProtocol) {frames : List (List Bytes)}
    (h : ∀ msgs ∈ frames, (payload msgs).length < 2 ^ 31) :
    serverReads (headerBytes authProtocol ++ frames.flatMap frame) =
      some (authProtocol.byte, frames) := by
  have hheader : headerBytes authProtocol =
      (ascii "hrpc" ++ [0x09, 0x00]) ++ [authProtocol.byte] := by
    rw [headerBytes, List.append_assoc]
    rfl
  have htake : (headerBytes authProtocol ++ frames.flatMap frame).take 6 =
      ascii "hrpc" ++ [0x09, 0x00] := by
    rw [hheader, List.append_assoc, List.take_left' (by decide)]
  have hdrop : (headerBytes authProtocol ++ frames.flatMap frame).drop 6 =
      authProtocol.byte :: frames.flatMap frame := by
    rw [hheader, List.append_assoc, List.drop_left' (by decide), List.singleton_append]
  rw [serverReads, if_pos htake, hdrop]
  simp only [splitFrames_flatMap h (length_le_flatMap_frame frames), Option.map_some]

/-! ## The response -/

variable {Req Resp : Type} (ep : Endpoint Req Resp)

/-- `body` is a response that carries `m`: its header decodes with status `SUCCESS` and without a
foreign client id, and the message behind it decodes to `m`. -/
structure Responds (body : Bytes) (m : Resp) : Prop where
  parts : ∃ hdr rest h msg tail, Delimits body hdr rest ∧
    ep.codec.unmarshalRpcResponseHeader hdr = some h ∧ h.status = some .SUCCESS ∧
    IdOwn ep.client h ∧ Delimits rest msg tail ∧ ep.codec.unmarshalResponse msg = some m

/-- What a response is decoded to. -/
theorem parseResponse_eq_ok_iff {body : Bytes} (hlen : body.length < 2 ^ 63) {r : Option Resp} :
    parseResponse ep body = .ok r ↔ ∃ m, Responds ep body m ∧ r = some m := by
  constructor
  · intro h
    obtain ⟨hdr, rest, header, hdel, hh, hown, hst, msg, tail, m, hmsg, hm, rfl⟩ :=
      parseReply_eq_ok (checkRpcHeader_checks ep.client) hlen h
    exact ⟨m, ⟨hdr, rest, header, msg, tail, hdel, hh, hst, hown, hmsg, hm⟩, rfl⟩
  · rintro ⟨m, ⟨hdr, rest, header, msg, tail, hdel, hh, hst, hown, hmsg, hm⟩, rfl⟩
    have hrest := hdel.rest_le
    rw [parseResponse, parseReply_of_delimits hlen hdel, hh]
    simp only [parseBehind, (checkRpcHeader_checks ep.client).ok hown, except_ok_bind, hst,
      readDelimited_of_delimits ep.codec.unmarshalResponse (show rest.length < 2 ^ 63 by omega) hmsg,
      hm]
    rfl

/-- The stream starts with a response: `lengthBytes` and `body` are what the two reads return, and
the body carries `m`. -/
structure Response (inbound : List Bytes) where
  lengthBytes : Bytes
  body : Bytes
  rest : List Bytes
  reads : ∃ mid, takeSome 4 inbound = some (lengthBytes, mid) ∧
    takeFull (ofBe32 (fill 4 lengthBytes)).toNat mid = some (body, rest)
  nonneg : 0 ≤ ofBe32 (fill 4 lengthBytes)
  message : Resp
  responds : Responds ep body message

/-- The world after a response was read. -/
def Response.world {ep : Endpoint Req Resp} {inbound : List Bytes} (r : Response ep inbound)
    (w : World) : World :=
  { w with
    inbound := r.rest
    trace := w.trace ++ [.received r.lengthBytes, .received r.body] }

theorem readFull_eq_ok_iff {n : ℕ} {w w' : World} {bs : Bytes} :
    readFull GoError.io n w = .ok bs w' ↔ ∃ rest, takeFull n w.inbound = some (bs, rest) ∧
      w' = { w with inbound := rest, trace := w.trace ++ [.received bs] } := by
  cases h : takeFull n w.inbound with
  | none => simp [readFull_of_none h]
  | some r =>
    obtain ⟨bs', rest⟩ := r
    rw [readFull_of_some h]
    constructor
    · rintro ⟨⟩
      exact ⟨rest, rfl, rfl⟩
    · rintro ⟨_, ⟨⟩, rfl⟩
      rfl

/-- `readResponse` returns exactly when the stream starts with a response. -/
theorem readResponse_ok_iff {w w' : World} {r : Option Resp} :
    readResponse ep w = .ok r w' ↔
      ∃ x : Response ep w.inbound, r = some x.message ∧ w' = x.world w := by
  simp only [readResponse, bind_eq_ok_iff, read_eq_ok_iff, pureResult_eq_ok_iff, readFull_eq_ok_iff]
  have hbody : ∀ {n : ℕ} {segs rest : List Bytes} {body lengthBytes : Bytes},
      n = (ofBe32 (fill 4 lengthBytes)).toNat → takeFull n segs = some (body, rest) →
      body.length < 2 ^ 63 := by
    intro n segs rest body lengthBytes hn htake
    have hlt := ofBe32_lt (fill 4 lengthBytes)
    rw [takeFull_length htake, hn]
    omega
  constructor
  · rintro ⟨lengthBytes, _, ⟨mid, hlength, rfl⟩, n, _, ⟨hn, rfl⟩, body, _, ⟨rest, htake, rfl⟩, hparse,
      rfl⟩
    have hnonneg : 0 ≤ ofBe32 (fill 4 lengthBytes) := by
      by_contra hneg
      rw [makeSlice, if_pos (by omega)] at hn
      cases hn
    rw [makeSlice, if_neg (by omega), Except.ok.injEq] at hn
    obtain ⟨m, hresponds, rfl⟩ := (parseResponse_eq_ok_iff ep (hbody hn.symm htake)).mp hparse
    subst hn
    refine ⟨⟨lengthBytes, body, rest, ⟨mid, hlength, htake⟩, hnonneg, m, hresponds⟩, rfl, ?_⟩
    simp [Response.world]
  · rintro ⟨⟨lengthBytes, body, rest, ⟨mid, hlength, htake⟩, hnonneg, m, hresponds⟩, rfl, rfl⟩
    refine ⟨lengthBytes, _, ⟨mid, hlength, rfl⟩, _, _, ⟨by rw [makeSlice, if_neg (by omega)], rfl⟩,
      body, _, ⟨rest, htake, rfl⟩, ?_, ?_⟩
    · exact (parseResponse_eq_ok_iff ep (hbody rfl htake)).mpr ⟨m, hresponds, rfl⟩
    · simp [Response.world]

/-! ## The exchange -/

variable {ep}

/-- The stream behind the authentication. -/
def Auth.rest {inbound : List Bytes} : Auth ep inbound → List Bytes
  | .plain _ => inbound
  | .token _ n => n.rest

/-- The frames of the authentication. -/
def Auth.frames {inbound : List Bytes} : Auth ep inbound → List (List Bytes)
  | .plain _ => []
  | .token _ n => [n.negotiate, n.initiate]

theorem sentBytes_writerSteps (msgs : List Bytes) :
    sentBytes ((writerSteps msgs).flatMap Step.done) = frame msgs := by
  rw [sentBytes_flatMap_done, writerSteps_bytes]

/-- The authentication sends its frames. -/
theorem Auth.world_trace {inbound : List Bytes} (a : Auth ep inbound) (w : World) :
    ∃ evs, (a.world w).trace = w.trace ++ evs ∧ sentBytes evs = a.frames.flatMap frame := by
  cases a with
  | plain h => exact ⟨[], by simp [Auth.world], rfl⟩
  | token h n =>
    refine ⟨n.events, rfl, ?_⟩
    simp only [Negotiation.events, sentBytes_append, sentBytes_writerSteps, Auth.frames,
      List.flatMap_cons, List.flatMap_nil, List.append_nil, List.append_assoc]
    simp [sentBytes, Event.sent]

variable (ep)

/-- A call over the stream `inbound` that goes well: the user of the client, the authentication, the
context and the request, and the response behind the authentication. -/
structure Exchange (rpc : RequestHeaderProto) (request : Req) (inbound : List Bytes) where
  user : Bytes
  user_eq : ep.client.realUser = .ok user
  auth : Auth ep inbound
  context : List Bytes
  context_eq : contextMessages ep rpc.declaringClassProtocolName = some context
  requests : List Bytes
  requests_eq : requestMessages ep rpc request = some requests
  response : Response ep auth.rest

variable {ep}

namespace Exchange

variable {rpc : RequestHeaderProto} {request : Req} {inbound : List Bytes}

/-- The fallible steps of the exchange. -/
def steps (x : Exchange ep rpc request inbound) : List Step :=
  connectSteps (authProtocol ep) ++ x.auth.steps ++ writerSteps x.context ++ writerSteps x.requests

/-- The frames that the server gets. -/
def frames (x : Exchange ep rpc request inbound) : List (List Bytes) :=
  x.auth.frames ++ [x.context, x.requests]

/-- The world after the exchange. -/
def world (x : Exchange ep rpc request inbound) (w : World) : World :=
  closed (x.response.world (((x.auth.world (w.after (connectSteps (authProtocol ep)))).after
    (writerSteps x.context)).after (writerSteps x.requests)))

/-- Without a token the server gets the context and the request. -/
theorem frames_of_plain (x : Exchange ep rpc request inbound) (h : authProtocol ep = .none) :
    x.frames = [x.context, x.requests] := by
  cases hauth : x.auth with
  | plain _ => simp [frames, hauth, Auth.frames]
  | token hsasl _ => exact absurd (h.symm.trans hsasl) (by decide)

/-- Whatever the exchange sends, the server reads its frames from it. -/
theorem serverReads_world (x : Exchange ep rpc request inbound) (w : World) :
    ∃ evs, (x.world w).trace = w.trace ++ evs ∧
      ((∀ msgs ∈ x.frames, (payload msgs).length < 2 ^ 31) →
        serverReads (sentBytes evs) = some ((authProtocol ep).byte, x.frames)) := by
  obtain ⟨evs, htrace, hsent⟩ := x.auth.world_trace (w.after (connectSteps (authProtocol ep)))
  refine ⟨(connectSteps (authProtocol ep)).flatMap Step.done ++ evs ++
    (writerSteps x.context).flatMap Step.done ++ (writerSteps x.requests).flatMap Step.done ++
    [.received x.response.lengthBytes, .received x.response.body, .closed], ?_, fun hlen => ?_⟩
  · simp only [world, closed, Response.world, World.after_trace, htrace, List.append_assoc,
      List.cons_append, List.nil_append]
  · rw [← serverReads_frames (authProtocol ep) hlen]
    simp only [sentBytes_append, sentBytes_flatMap_done (connectSteps _), connectSteps_bytes, hsent,
      sentBytes_writerSteps, Exchange.frames, List.flatMap_append, List.flatMap_cons,
      List.flatMap_nil, List.append_assoc, List.append_nil]
    simp [sentBytes, Event.sent]

end Exchange

variable (ep) (rpc : RequestHeaderProto) (request : Req)

theorem thenClose_eq_ok_iff {α : Type} {p : Session GoError α} {w w' : World} {a : α} :
    thenClose p w = .ok a w' ↔ ∃ w'', p w = .ok a w'' ∧ w' = closed w'' := by
  cases h : p w with
  | ok b w'' => simp [thenClose, h, eq_comm]
  | error e w'' => cases e <;> simp [thenClose, h]

/-- A call returns exactly when there is an exchange whose steps succeed. -/
theorem call_eq_ok_iff {w w' : World} {r : Option Resp} : call ep rpc request w = .ok r w' ↔
    ∃ x : Exchange ep rpc request w.inbound, w.Succeeds x.steps ∧ r = some x.response.message ∧
      w' = x.world w := by
  simp only [call_eq_connect, bind_eq_ok_iff, pureResult_eq_ok_iff, connect_eq_ok_iff,
    thenClose_eq_ok_iff, readResponse_ok_iff]
  constructor
  · rintro ⟨user, _, ⟨huser, rfl⟩, _, _, ⟨a, context, requests, hcontext, hrequests, hsucc, rfl⟩, _,
      ⟨x, rfl, rfl⟩, rfl⟩
    cases a with
    | plain h =>
      exact ⟨⟨user, huser, .plain h, context, hcontext, requests, hrequests, x⟩, hsucc, rfl, rfl⟩
    | token h n =>
      exact ⟨⟨user, huser, .token h n, context, hcontext, requests, hrequests, x⟩, hsucc, rfl, rfl⟩
  · rintro ⟨⟨user, huser, a, context, hcontext, requests, hrequests, x⟩, hsucc, rfl, rfl⟩
    refine ⟨user, w, ⟨huser, rfl⟩, (), _,
      ⟨a, context, requests, hcontext, hrequests, hsucc, rfl⟩, _, ?_, rfl⟩
    cases a with
    | plain h => exact ⟨x, rfl, rfl⟩
    | token h n => exact ⟨x, rfl, rfl⟩

/-- **Requests.** Whatever a call that returns has put on the connection, a server reads the
announced authentication and the frames of the exchange from it: the two of the negotiation when
there is a token, the context, and the request. The payload of a frame has to fit its length
field. -/
theorem server_reads_call {w w' : World} {r : Option Resp} (h : call ep rpc request w = .ok r w') :
    ∃ (x : Exchange ep rpc request w.inbound) (evs : List Event),
      r = some x.response.message ∧ w'.trace = w.trace ++ evs ∧
      ((∀ msgs ∈ x.frames, (payload msgs).length < 2 ^ 31) →
        serverReads (sentBytes evs) = some ((authProtocol ep).byte, x.frames)) := by
  obtain ⟨x, -, rfl, rfl⟩ := (call_eq_ok_iff ep rpc request).mp h
  obtain ⟨evs, htrace, hreads⟩ := x.serverReads_world w
  exact ⟨x, evs, rfl, htrace, hreads⟩

/-- The bytes of a call without a token, as a server reads them: one message in the frame of the
context, two in that of the request. -/
theorem server_reads_call_answered :
    ∃ (w' : World) (evs : List Event) (context requests : List Bytes),
    call Protobuf.plainEndpoint Protobuf.serviceStatusRpc []
      (Protobuf.calmWorld [[0, 0, 0, 6], [4, 8, 0, 16, 0, 0]]) = .ok (some []) w' ∧
    contextMessages Protobuf.plainEndpoint Protobuf.serviceStatusRpc.declaringClassProtocolName =
      some context ∧
    requestMessages Protobuf.plainEndpoint Protobuf.serviceStatusRpc [] = some requests ∧
    w'.trace = [] ++ evs ∧
    serverReads (sentBytes evs) = some (AuthProtocol.none.byte, [context, requests]) := by
  have hcall : ∃ w', call Protobuf.plainEndpoint Protobuf.serviceStatusRpc []
      (Protobuf.calmWorld [[0, 0, 0, 6], [4, 8, 0, 16, 0, 0]]) = .ok (some []) w' := ⟨_, rfl⟩
  obtain ⟨w', hcall⟩ := hcall
  obtain ⟨x, evs, -, htrace, hreads⟩ :=
    server_reads_call Protobuf.plainEndpoint Protobuf.serviceStatusRpc [] hcall
  rw [x.frames_of_plain rfl] at hreads
  have hcontext : ∀ msgs, contextMessages Protobuf.plainEndpoint
      Protobuf.serviceStatusRpc.declaringClassProtocolName = some msgs →
      (payload msgs).length < 2 ^ 31 := by
    rintro msgs ⟨⟩
    decide
  have hrequests : ∀ msgs, requestMessages Protobuf.plainEndpoint Protobuf.serviceStatusRpc [] =
      some msgs → (payload msgs).length < 2 ^ 31 := by
    rintro msgs ⟨⟩
    decide
  refine ⟨w', evs, x.context, x.requests, hcall, x.context_eq, x.requests_eq, htrace, hreads ?_⟩
  simpa using ⟨hcontext _ x.context_eq, hrequests _ x.requests_eq⟩

end YarnCopilot.Ipc
