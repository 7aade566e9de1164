import YarnCopilot.Ipc.Protobuf

/-!
# What the writers send

`writeConnectionContext`, `sendRequest` and `sendSaslMessage` are three separately written encoders.
Each marshals its messages, sets a deadline and sends one frame; `Sends` is that specification, and
callers use it without looking at the bodies. The frames themselves are those of `Ipc.Wire`, so what
every writer sends decodes to the messages it was given.
-/

namespace YarnCopilot.Ipc

open Session

/-! ## The steps of a writer -/

/-- The steps that send one frame. -/
def frameSteps (msgs : List Bytes) : List Step :=
  .write (be32 (int32 (totalLength msgs))) ::
    msgs.flatMap fun data => [.write (Varint.encode data.length), .write data]

/-- The steps of a writer: the deadline, then the frame. -/
def writerSteps (msgs : List Bytes) : List Step := .configure :: frameSteps msgs

theorem writerSteps_bytes (msgs : List Bytes) :
    (writerSteps msgs).flatMap Step.bytes = frame msgs := by
  have hwrite : ∀ bs : Bytes, (Step.write bs).bytes = bs := by
    intro bs
    simp [Step.bytes, Step.done, sentBytes, Event.sent]
  have hconf : Step.configure.bytes = [] := rfl
  rw [writerSteps, frameSteps, List.flatMap_cons, List.flatMap_cons, hconf, hwrite, frame]
  simp only [List.nil_append, List.flatMap_assoc, List.flatMap_cons, List.flatMap_nil, hwrite,
    List.append_nil]
  rfl

theorem writerSteps_local (msgs : List Bytes) : ∀ s ∈ writerSteps msgs, s.IsLocal := by
  intro s hs
  simp only [writerSteps, frameSteps, List.mem_cons, List.mem_flatMap, List.not_mem_nil,
    or_false] at hs
  rcases hs with rfl | rfl | ⟨data, _, rfl | rfl⟩ <;> simp [Step.IsLocal]

/-! ## The messages of each writer -/

variable {Req Resp : Type} (ep : Endpoint Req Resp)

/-- The messages of `writeConnectionContext`, when they marshal. -/
def contextMessages (protocol : Bytes) : Option (List Bytes) := do
  let header ← ep.codec.marshalRpcRequestHeader
    { callId := -3, clientId := ep.client.clientId, retryCount := -1 }
  let ctx ← ep.codec.marshalContext { userInfo := createSimpleUGIProto ep.currentUser, protocol }
  some [header, ctx]

/-- The messages of `sendRequest`, when they marshal. -/
def requestMessages (rpc : RequestHeaderProto) (request : Req) : Option (List Bytes) := do
  let header ← ep.codec.marshalRpcRequestHeader
    { callId := 0, clientId := ep.client.clientId, retryCount := 0 }
  let requestHeader ← ep.codec.marshalRequestHeader rpc
  let param ← ep.codec.marshalRequest request
  some [header, requestHeader, param]

/-- The messages of `sendSaslMessage`, when they marshal. -/
def saslMessages (message : RpcSaslProto) : Option (List Bytes) := do
  let header ← ep.codec.marshalRpcRequestHeader
    { callId := -33, clientId := [], retryCount := -1 }
  let body ← ep.codec.marshalSasl message
  some [header, body]

/-- The frame of a writer; messages that do not marshal send nothing. -/
def frameOf : Option (List Bytes) → Bytes
  | none => []
  | some msgs => frame msgs

/-- The messages marshal and every step that sends them succeeds. -/
def World.CanSend (w : World) (msgs : Option (List Bytes)) : Prop :=
  ∃ ms, msgs = some ms ∧ w.Succeeds (writerSteps ms)

/-- `p` sends one frame of `msgs`: all of it when it returns normally, a prefix otherwise. -/
structure Sends (p : Session GoError Unit) (msgs : Option (List Bytes)) : Prop where
  ok : ∀ {w ms}, msgs = some ms → w.Succeeds (writerSteps ms) →
    p w = .ok () (w.after (writerSteps ms))
  err : ∀ {w}, ¬ World.CanSend w msgs →
    ∃ e w', p w = .error (.err e) w' ∧ w.Interrupted (frameOf msgs) w'

/-- A writer returns normally exactly when its messages marshal and all its steps succeed. -/
theorem Sends.eq_ok_iff {p : Session GoError Unit} {msgs : Option (List Bytes)} (h : Sends p msgs)
    {w w' : World} {u : Unit} : p w = .ok u w' ↔
      ∃ ms, msgs = some ms ∧ w.Succeeds (writerSteps ms) ∧ w' = w.after (writerSteps ms) := by
  constructor
  · intro hok
    by_cases hcan : World.CanSend w msgs
    · obtain ⟨ms, hms, hsucc⟩ := hcan
      rw [h.ok hms hsucc] at hok
      cases hok
      exact ⟨ms, hms, hsucc, rfl⟩
    · obtain ⟨e, w'', herr, _⟩ := h.err hcan
      rw [herr] at hok
      cases hok
  · rintro ⟨ms, hms, hsucc, rfl⟩
    exact h.ok hms hsucc

/-- Sending a frame step by step meets the specification. -/
theorem sends_perform (msgs : List Bytes) :
    Sends (perform GoError.io (writerSteps msgs)) (some msgs) where
  ok := by
    rintro w ms ⟨rfl⟩ hsucc
    rcases perform_cases GoError.io (writerSteps msgs) w with ⟨_, h⟩ | ⟨hbad, _⟩
    · exact h
    · exact absurd hsucc hbad
  err := by
    intro w hcannot
    rcases perform_cases GoError.io (writerSteps msgs) w with ⟨hsucc, _⟩ | ⟨_, w', hres, hcut⟩
    · exact absurd ⟨msgs, rfl, hsucc⟩ hcannot
    · refine ⟨.io, w', hres, ?_⟩
      rw [frameOf, ← writerSteps_bytes]
      exact hcut.interrupted (writerSteps_local msgs)

/-- A writer whose messages do not marshal sends nothing, whether or not it set the deadline
first. -/
theorem sends_none {p : Session GoError Unit}
    (hp : p = throw (.err .codec) ∨ p = (do setDeadline; throw (.err .codec))) : Sends p none where
  ok := by simp
  err := by
    intro w _
    rcases hp with rfl | rfl
    · exact ⟨.codec, w, rfl, rfl, rfl, [], by simp⟩
    · rcases perform_cases GoError.io [.configure] w with ⟨_, h⟩ | ⟨_, w', h, hcut⟩ <;>
        rw [perform_singleton] at h
      · refine ⟨.codec, w.after [.configure], bind_ok h, rfl, rfl, [], by simp [Step.done]⟩
      · exact ⟨.io, w', bind_error h, hcut.interrupted (by simp [Step.IsLocal])⟩

/-- The writes of two delimited messages behind their length are one frame. -/
theorem perform_writerSteps_two (a b : Bytes) :
    perform GoError.io (writerSteps [a, b]) = (do
      setDeadline
      write (be32 (int32 ↑(a.length + sizeVarint a.length + b.length + sizeVarint b.length)))
      writeDelimitedBytes a
      writeDelimitedBytes b) := by
  have htotal : totalLength [a, b] =
      a.length + sizeVarint a.length + b.length + sizeVarint b.length := by
    simp only [totalLength, List.map_cons, List.map_nil, List.sum_cons, List.sum_nil]
    omega
  simp only [writerSteps, frameSteps, htotal, List.flatMap_cons, List.flatMap_nil,
    List.cons_append, List.nil_append, perform, setDeadline, write, writeDelimitedBytes,
    bind_assoc, bind_pure_unit]

/-- The same for three messages. -/
theorem perform_writerSteps_three (a b c : Bytes) :
    perform GoError.io (writerSteps [a, b, c]) = (do
      setDeadline
      write (be32 (int32 ↑(a.length + sizeVarint a.length + b.length + sizeVarint b.length +
        c.length + sizeVarint c.length)))
      writeDelimitedBytes a
      writeDelimitedBytes b
      writeDelimitedBytes c) := by
  have htotal : totalLength [a, b, c] = a.length + sizeVarint a.length + b.length +
      sizeVarint b.length + c.length + sizeVarint c.length := by
    simp only [totalLength, List.map_cons, List.map_nil, List.sum_cons, List.sum_nil]
    omega
  simp only [writerSteps, frameSteps, htotal, List.flatMap_cons, List.flatMap_nil,
    List.cons_append, List.nil_append, perform, setDeadline, write, writeDelimitedBytes,
    bind_assoc, bind_pure_unit]

/-- `writeConnectionContext` sends the frame of its two messages. -/
theorem writeConnectionContext_sends (protocol : Bytes) :
    Sends (writeConnectionContext ep protocol) (contextMessages ep protocol) := by
  unfold contextMessages writeConnectionContext
  cases ep.codec.marshalRpcRequestHeader
      { callId := -3, clientId := ep.client.clientId, retryCount := -1 } with
  | none => exact sends_none (.inr rfl)
  | some header =>
    cases ep.codec.marshalContext { userInfo := createSimpleUGIProto ep.currentUser, protocol } with
    | none => exact sends_none (.inr rfl)
    | some ctx =>
      have h := sends_perform [header, ctx]
      rw [perform_writerSteps_two] at h
      exact h

/-- `sendRequest` sends the frame of its three messages. -/
theorem sendRequest_sends (rpc : RequestHeaderProto) (request : Req) :
    Sends (sendRequest ep rpc request) (requestMessages ep rpc request) := by
  unfold requestMessages sendRequest
  cases ep.codec.marshalRpcRequestHeader
      { callId := 0, clientId := ep.client.clientId, retryCount := 0 } with
  | none => exact sends_none (.inr rfl)
  | some header =>
    cases ep.codec.marshalRequestHeader rpc with
    | none => exact sends_none (.inr rfl)
    | some requestHeader =>
      cases ep.codec.marshalRequest request with
      | none => exact sends_none (.inr rfl)
      | some param =>
        have h := sends_perform [header, requestHeader, param]
        rw [perform_writerSteps_three] at h
        exact h

/-- `sendSaslMessage` sends the frame of its two messages. -/
theorem sendSaslMessage_sends (message : RpcSaslProto) :
    Sends (sendSaslMessage ep message) (saslMessages ep message) := by
  unfold saslMessages sendSaslMessage
  cases ep.codec.marshalRpcRequestHeader { callId := -33, clientId := [], retryCount := -1 } with
  | none => exact sends_none (.inl rfl)
  | some header =>
    cases ep.codec.marshalSasl message with
    | none => exact sends_none (.inl rfl)
    | some body =>
      have h := sends_perform [header, body]
      rw [perform_writerSteps_two] at h
      exact h

/-! ## Round trip -/

/-- A writer that returns normally sent one frame of its messages. -/
theorem Sends.delivers {p : Session GoError Unit} {msgs : Option (List Bytes)} {ms : List Bytes}
    (h : Sends p msgs) (hms : msgs = some ms) (hlen : (payload ms).length < 2 ^ 31) {w : World}
    (hsucc : w.Succeeds (writerSteps ms)) :
    ∃ w' out, p w = .ok () w' ∧ sentBytes w'.trace = sentBytes w.trace ++ out ∧
      IsFrameOf out ms := by
  refine ⟨w.after (writerSteps ms), frame ms, h.ok hms hsucc, ?_, isFrameOf_frame hlen⟩
  rw [World.after_trace, sentBytes_append, sentBytes_flatMap_done, writerSteps_bytes]

/-- **Framing.** Whatever byte strings the messages of a writer marshal to, as long as the payload
stays below `2 ^ 31` bytes, the bytes it puts on the connection are a frame of those messages. -/
theorem writers_send_frames (protocol : Bytes) (rpc : RequestHeaderProto) (request : Req)
    (message : RpcSaslProto) (msgs : List Bytes) (hlen : (payload msgs).length < 2 ^ 31)
    (w : World) (hsucc : w.Succeeds (writerSteps msgs)) :
    ∀ p ∈ [(writeConnectionContext ep protocol, contextMessages ep protocol),
        (sendRequest ep rpc request, requestMessages ep rpc request),
        (sendSaslMessage ep message, saslMessages ep message)],
      p.2 = some msgs → ∃ w' out, p.1 w = .ok () w' ∧
        sentBytes w'.trace = sentBytes w.trace ++ out ∧ IsFrameOf out msgs := by
  intro p hp hms
  simp only [List.mem_cons, List.not_mem_nil, or_false] at hp
  rcases hp with rfl | rfl | rfl
  · exact (writeConnectionContext_sends ep protocol).delivers hms hlen hsucc
  · exact (sendRequest_sends ep rpc request).delivers hms hlen hsucc
  · exact (sendSaslMessage_sends ep message).delivers hms hlen hsucc

/-- The `NEGOTIATE` message of a client, as it goes out. -/
theorem writers_send_frames_negotiate :
    ∃ w' out, sendSaslMessage Protobuf.plainEndpoint saslNegotiateMessage
        (Protobuf.calmWorld []) = .ok () w' ∧
      sentBytes w'.trace = [] ++ out ∧
      IsFrameOf out [[8, 2, 16, 0, 24, 65, 34, 0, 40, 1], [16, 1]] :=
  writers_send_frames Protobuf.plainEndpoint [] ⟨[], [], 0⟩ [] saslNegotiateMessage
    [[8, 2, 16, 0, 24, 65, 34, 0, 40, 1], [16, 1]] (by decide) (Protobuf.calmWorld [])
    (fun _ _ => rfl) (sendSaslMessage Protobuf.plainEndpoint saslNegotiateMessage,
      saslMessages Protobuf.plainEndpoint saslNegotiateMessage) (by simp) (by decide)

end YarnCopilot.Ipc
