import YarnCopilot.Ipc.Handshake

/-!
# Whole calls

Two results about every `Client.Call`, whatever the server and the network do. A call that panics
over a user it does not have has not opened a connection. The connection of a
call that returns has been closed exactly when the dial failed or everything before the response
went well. And a call with a token sends nothing but the header and the negotiation unless the
server accepted the token.
-/

namespace YarnCopilot.Ipc

open Session

variable {Req Resp : Type} (ep : Endpoint Req Resp)

/-! ## Closing the connection -/

/-- Every connection that was opened has been closed. -/
def AllClosed (evs : List Event) : Prop :=
  ∀ pre post, evs = pre ++ .opened :: post → .closed ∈ post

/-- A trace that ends with a close leaves nothing open. -/
theorem allClosed_append_closed (evs : List Event) : AllClosed (evs ++ [.closed]) := by
  intro pre post hsplit
  have hlast := congrArg List.getLast? hsplit
  rw [List.getLast?_append, List.getLast?_append] at hlast
  cases hpost : post.getLast? with
  | none =>
    rw [List.getLast?_eq_none_iff.mp hpost] at hlast
    simp at hlast
  | some ev =>
    have hev : Event.closed = ev := by simpa [List.getLast?_cons, hpost] using hlast
    exact hev ▸ List.mem_of_getLast? hpost

theorem Sends.emits {p : Session GoError Unit} {msgs : Option (List Bytes)} (h : Sends p msgs)
    {P : Event → Prop} (hwrote : ∀ bs, P (.wrote bs)) : Emits P p := by
  intro w
  by_cases hcan : World.CanSend w msgs
  · obtain ⟨ms, hms, hsucc⟩ := hcan
    refine ⟨(writerSteps ms).flatMap Step.done, by rw [final, h.ok hms hsucc]; rfl, ?_⟩
    intro ev hev
    obtain ⟨s, hs, hev⟩ := List.mem_flatMap.mp hev
    obtain ⟨bs, rfl⟩ := (writerSteps_local ms s hs).done_wrote ev hev
    exact hwrote bs
  · obtain ⟨e, w', herr, hint⟩ := h.err hcan
    obtain ⟨evs, htrace, hevs, _⟩ := hint.trace_eq
    refine ⟨evs, by rw [final, herr]; exact htrace, fun ev hev => ?_⟩
    obtain ⟨bs, rfl⟩ := hevs ev hev
    exact hwrote bs

section Emissions

variable {P : Event → Prop} (hwrote : ∀ bs, P (.wrote bs)) (hreceived : ∀ bs, P (.received bs))

include hwrote hreceived

theorem receiveSaslMessage_emits : Emits P (receiveSaslMessage ep) := by
  have hlocal : Step.configure.IsLocal := by simp [Step.IsLocal]
  refine Emits.bind (.attempt GoError.io hlocal hwrote) fun _ =>
    .bind (.read GoError.io 4 hreceived) fun _ => .bind (.pureResult _) fun n =>
      .bind (.read GoError.io n hreceived) fun _ => .bind (.pureResult _) fun _ => ?_
  exact .of_trace_eq fun _ => rfl

theorem answerChallenge_emits (auth : SaslAuth) : Emits P (answerChallenge ep auth) := by
  refine (Emits.pureResult _).bind fun response =>
    ((sendSaslMessage_sends ep _).emits hwrote).bind fun _ =>
      (receiveSaslMessage_emits ep hwrote hreceived).bind fun reply => ?_
  split_ifs
  · exact .of_trace_eq fun _ => rfl
  · exact .of_trace_eq fun _ => rfl

theorem negotiateSimpleTokenAuth_emits : Emits P (negotiateSimpleTokenAuth ep) := by
  refine ((sendSaslMessage_sends ep _).emits hwrote).bind fun _ =>
    (receiveSaslMessage_emits ep hwrote hreceived).bind fun reply => ?_
  split
  · exact .of_trace_eq fun _ => rfl
  · split_ifs
    · exact answerChallenge_emits ep hwrote hreceived _
    · exact .of_trace_eq fun _ => rfl

theorem authenticate_emits : Emits P (authenticate ep) := by
  rw [authenticate]
  split_ifs
  · exact negotiateSimpleTokenAuth_emits ep hwrote hreceived
  · exact .of_trace_eq fun _ => rfl

omit hwrote in
theorem readResponse_emits : Emits P (readResponse ep) :=
  Emits.bind (.read GoError.io 4 hreceived) fun _ => .bind (.pureResult _) fun n =>
    .bind (.readFull GoError.io n hreceived) fun _ => .pureResult _

end Emissions

/-- When the dial fails nothing has been opened. -/
theorem connect_of_dial_failed (rpc : RequestHeaderProto) (request : Req) {w : World}
    (h : w.script w.clock ≠ none) :
    ∃ e w', connect ep rpc request w = .error (.err e) w' ∧ w'.trace = w.trace := by
  obtain ⟨k, hk⟩ := Option.ne_none_iff_exists'.mp h
  refine ⟨.io, _, bind_error (bind_error (attempt_of_some hk)), ?_⟩
  simp [Step.cut]

/-- When the dial succeeds the connection is opened, and nothing before the response closes it. -/
theorem connect_of_dialled (rpc : RequestHeaderProto) (request : Req) {w : World}
    (h : w.script w.clock = none) : ∃ evs, (final (connect ep rpc request) w).trace =
      w.trace ++ .opened :: evs ∧ .closed ∉ evs := by
  have hlocal : ∀ s ∈ (connectSteps (authProtocol ep)).tail, s.IsLocal := by
    simp [connectSteps, Step.IsLocal]
  have hrest : Emits (fun ev => ev ≠ .closed) (do
      perform GoError.io (connectSteps (authProtocol ep)).tail
      authenticate ep
      writeConnectionContext ep rpc.declaringClassProtocolName
      sendRequest ep rpc request) :=
    Emits.bind (.perform GoError.io hlocal (by simp)) fun _ =>
      .bind (authenticate_emits ep (by simp) (by simp)) fun _ =>
        .bind ((writeConnectionContext_sends ep _).emits (by simp)) fun _ =>
          (sendRequest_sends ep rpc request).emits (by simp)
  obtain ⟨evs, htrace, hevs⟩ := hrest (w.after [.dial])
  refine ⟨evs, ?_, fun hclosed => hevs _ hclosed rfl⟩
  have hsplit : connect ep rpc request = (do
      attempt GoError.io .dial
      perform GoError.io (connectSteps (authProtocol ep)).tail
      authenticate ep
      writeConnectionContext ep rpc.declaringClassProtocolName
      sendRequest ep rpc request) := by
    simp only [connect, connectSteps, perform, List.tail_cons, bind_assoc]
  rw [hsplit, final, bind_ok (attempt_of_none h), ← final, htrace]
  simp [Step.done]

/-- Reading the response and closing the connection ends the trace with the close. -/
theorem thenClose_readResponse_closes {w w' : World}
    (hret : (∃ r, thenClose (readResponse ep) w = .ok r w') ∨
      ∃ e, thenClose (readResponse ep) w = .error (.err e) w') :
    ∃ evs, w'.trace = w.trace ++ evs ++ [.closed] := by
  obtain ⟨evs, htrace, _⟩ := readResponse_emits ep (P := fun _ => True) (fun _ => trivial) w
  refine ⟨evs, ?_⟩
  rw [← htrace, final]
  cases h : readResponse ep w with
  | ok r w'' =>
    simp only [thenClose, h, EStateM.Result.ok.injEq, reduceCtorEq, exists_false, or_false] at hret
    obtain ⟨_, _, rfl⟩ := hret
    rfl
  | error f w'' =>
    cases f with
    | err e =>
      simp only [thenClose, h, EStateM.Result.error.injEq, reduceCtorEq, exists_false,
        false_or] at hret
      obtain ⟨_, _, rfl⟩ := hret
      rfl
    | panic q => simp [thenClose, h] at hret

/-- A call that gets as far as the response closes the connection behind it. -/
theorem closes_of_connected (rpc : RequestHeaderProto) (request : Req) {u : Unit} {w w₁ w' : World}
    (hconnect : connect ep rpc request w = .ok u w₁)
    (hret : (∃ r, thenClose (readResponse ep) w₁ = .ok r w') ∨
      ∃ e, thenClose (readResponse ep) w₁ = .error (.err e) w') :
    ∃ evs, w'.trace = w.trace ++ evs ∧ AllClosed evs := by
  obtain ⟨evs₂, htrace₂⟩ := thenClose_readResponse_closes ep hret
  have hdial : w.script w.clock = none := by
    by_contra hfail
    obtain ⟨e, w₂, herr, _⟩ := connect_of_dial_failed ep rpc request hfail
    rw [hconnect] at herr
    cases herr
  obtain ⟨evs₁, htrace₁, _⟩ := connect_of_dialled ep rpc request hdial
  rw [final, hconnect] at htrace₁
  refine ⟨.opened :: evs₁ ++ evs₂ ++ [.closed], ?_, allClosed_append_closed _⟩
  rw [htrace₂, htrace₁]
  simp

/-- A call that fails before that leaves the connection open, if it was opened. -/
theorem connect_error_closes_iff (rpc : RequestHeaderProto) (request : Req) {f : Fault GoError}
    {w w₁ : World} (hconnect : connect ep rpc request w = .error f w₁) :
    ∃ evs, w₁.trace = w.trace ++ evs ∧ (AllClosed evs ↔ w.script w.clock ≠ none) := by
  by_cases hdial : w.script w.clock = none
  · obtain ⟨evs, htrace, hclosed⟩ := connect_of_dialled ep rpc request hdial
    rw [final, hconnect] at htrace
    exact ⟨_, htrace, iff_of_false (fun hall => hclosed (hall [] evs rfl)) (not_not.mpr hdial)⟩
  · obtain ⟨e, w₂, herr, htrace⟩ := connect_of_dial_failed ep rpc request hdial
    rw [hconnect] at herr
    cases herr
    exact ⟨[], by simp [htrace], iff_of_true (by simp [AllClosed]) hdial⟩

/-- **When a call closes its connection.** Take a call that returns, with or without an error. Every
connection it opened has been closed exactly when the dial failed or the call got as far as reading
the response: every other early return leaks the connection. -/
theorem call_closes_iff (rpc : RequestHeaderProto) (request : Req) {w w' : World}
    (hret : (∃ r, call ep rpc request w = .ok r w') ∨
      ∃ e, call ep rpc request w = .error (.err e) w') :
    ∃ evs, w'.trace = w.trace ++ evs ∧
      (AllClosed evs ↔ w.script w.clock ≠ none ∨ Completes ep rpc request w) := by
  cases huser : ep.client.realUser with
  | error f => simp [call_of_no_realUser ep rpc request huser] at hret
  | ok user =>
  rw [call_of_realUser ep rpc request huser] at hret
  cases hconnect : connect ep rpc request w with
  | ok u w₁ =>
    have hcomplete : Completes ep rpc request w :=
      (connect_ok_iff ep rpc request w).mp ⟨u, w₁, hconnect⟩
    simp only [bind_ok hconnect] at hret
    obtain ⟨evs, htrace, hclosed⟩ := closes_of_connected ep rpc request hconnect hret
    exact ⟨evs, htrace, iff_of_true hclosed (.inr hcomplete)⟩
  | error f w₁ =>
    have hcall : (do connect ep rpc request; thenClose (readResponse ep)) w = .error f w₁ :=
      bind_error hconnect
    have hw : w' = w₁ := by
      rcases hret with ⟨r, h⟩ | ⟨e, h⟩ <;> rw [hcall] at h <;> cases h
      rfl
    have hincomplete : ¬ Completes ep rpc request w := by
      rw [← connect_ok_iff]
      rintro ⟨u, w₂, h⟩
      rw [hconnect] at h
      cases h
    obtain ⟨evs, htrace, hiff⟩ := connect_error_closes_iff ep rpc request hconnect
    exact ⟨evs, by rw [hw, htrace], by rw [hiff, or_iff_left hincomplete]⟩

/-- A call whose first write fails returns the error and leaves the connection open. -/
theorem call_leaks : ∃ e w',
    call Protobuf.plainEndpoint Protobuf.serviceStatusRpc [] (Protobuf.faultyWorld 4) =
      .error (.err e) w' ∧ ¬ AllClosed w'.trace := by
  refine ⟨.io, _, rfl, fun hall => ?_⟩
  have hclosed := hall [] [.wrote []] (by decide)
  simp at hclosed

/-- A call that is answered returns the message and closes its connection. -/
theorem call_closes_iff_answered : ∃ w' evs,
    call Protobuf.plainEndpoint Protobuf.serviceStatusRpc []
      (Protobuf.calmWorld [[0, 0, 0, 6], [4, 8, 0, 16, 0, 0]]) = .ok (some []) w' ∧
    w'.trace = [] ++ evs ∧
    (AllClosed evs ↔ none ≠ (none : Option ℕ) ∨ Completes Protobuf.plainEndpoint
      Protobuf.serviceStatusRpc [] (Protobuf.calmWorld [[0, 0, 0, 6], [4, 8, 0, 16, 0, 0]])) := by
  have hcall : ∃ w', call Protobuf.plainEndpoint Protobuf.serviceStatusRpc []
      (Protobuf.calmWorld [[0, 0, 0, 6], [4, 8, 0, 16, 0, 0]]) = .ok (some []) w' := ⟨_, rfl⟩
  obtain ⟨w', hcall⟩ := hcall
  obtain ⟨evs, htrace, hiff⟩ := call_closes_iff Protobuf.plainEndpoint Protobuf.serviceStatusRpc []
    (.inl ⟨some [], hcall⟩)
  exact ⟨w', evs, hcall, htrace, hiff⟩

/-! ## Nothing is sent before authentication -/

theorem Sends.sendsUpTo {p : Session GoError Unit} {msgs : Option (List Bytes)} (h : Sends p msgs) :
    SendsUpTo p (frameOf msgs) := by
  intro w
  by_cases hcan : World.CanSend w msgs
  · obtain ⟨ms, rfl, hsucc⟩ := hcan
    have hsent : sentBytes ((writerSteps ms).flatMap Step.done) = frameOf (some ms) := by
      rw [sentBytes_flatMap_done, writerSteps_bytes, frameOf]
    exact ⟨_, by rw [final, h.ok rfl hsucc]; rfl, by rw [hsent], fun _ _ _ => hsent⟩
  · obtain ⟨e, w', herr, hint⟩ := h.err hcan
    obtain ⟨evs, htrace, _, hsent⟩ := hint.trace_eq
    refine ⟨evs, by rw [final, herr]; exact htrace, hsent, fun u w'' hok => ?_⟩
    rw [herr] at hok
    cases hok

theorem receiveSaslMessage_sendsUpTo : SendsUpTo (receiveSaslMessage ep) [] := by
  have hread : ∀ n, SendsUpTo (Session.read GoError.io n) [] :=
    fun n => .of_emits (.read GoError.io n fun _ => rfl)
  have hpure : ∀ {α : Type} (r : Except (Fault GoError) α), SendsUpTo (pureResult r) [] :=
    fun r => .of_emits (.pureResult r)
  have hdeadline : SendsUpTo setDeadline [] := by
    have h := SendsUpTo.perform GoError.io [.configure]
    rwa [perform_singleton] at h
  refine hdeadline.bind fun _ => (hread 4).bind fun _ => (hpure _).bind fun n =>
    (hread n).bind fun _ => (hpure _).bind fun _ => ?_
  exact .of_emits (.of_trace_eq fun _ => rfl)

/-- The `INITIATE` frame that answers `auth`, or nothing when the challenge has no answer. -/
def initiateFrame (auth : SaslAuth) : Bytes :=
  match digestResponse ep auth with
  | .ok response => frameOf (saslMessages ep (saslInitiateMessage auth response))
  | .error _ => []

theorem answerChallenge_sendsUpTo (auth : SaslAuth) :
    SendsUpTo (answerChallenge ep auth) (initiateFrame ep auth) := by
  rw [answerChallenge, initiateFrame]
  cases digestResponse ep auth with
  | error e => exact .of_emits (.of_trace_eq fun _ => rfl)
  | ok response =>
    have hverdict : SendsUpTo (do
        let reply ← receiveSaslMessage ep
        if reply.getState ≠ .SUCCESS then
          throw (.err (.text (ascii "expected SASL SUCCESS response!")))
        else pure ()) [] := by
      refine (receiveSaslMessage_sendsUpTo ep).bind fun reply => .of_emits (.of_trace_eq fun w => ?_)
      split_ifs <;> rfl
    have h := (sendSaslMessage_sends ep (saslInitiateMessage auth response)).sendsUpTo.bind
      fun _ => hverdict
    rw [List.append_nil] at h
    exact h

/-- What may follow the `NEGOTIATE` frame on a stream: nothing, or the answer to an offer of the
token mechanism that the stream starts with. -/
def MayInitiate (inbound : List Bytes) (out : Bytes) : Prop :=
  out = [] ∨ ∃ offerLength offerBody offer between auth others,
    Replies ep inbound offerLength offerBody offer between ∧ offer.auths = auth :: others ∧
    IsTokenDigest auth ∧ out = initiateFrame ep auth

/-- A negotiation that fails has sent at most the `NEGOTIATE` frame and an answer it may send. -/
theorem negotiateSimpleTokenAuth_error {w w' : World} {f : Fault GoError}
    (h : negotiateSimpleTokenAuth ep w = .error f w') :
    ∃ evs out, w'.trace = w.trace ++ evs ∧ MayInitiate ep w.inbound out ∧
      sentBytes evs <+: frameOf (saslMessages ep saslNegotiateMessage) ++ out := by
  -- cut the exchange behind the server's offer
  have hoffer := (sendSaslMessage_sends ep saslNegotiateMessage).sendsUpTo.bind
    fun _ => receiveSaslMessage_sendsUpTo ep
  rw [List.append_nil] at hoffer
  obtain ⟨evs, htrace, hsent, hall⟩ := hoffer w
  rw [negotiateSimpleTokenAuth, ← bind_assoc, bind_eq_error_iff] at h
  rcases h with h | ⟨offer, w₁, hok, htail⟩
  · rw [final, h] at htrace
    exact ⟨evs, [], htrace, .inl rfl, by rwa [List.append_nil]⟩
  rw [final, hok] at htrace
  have hgiveUp : ∀ e : Fault GoError, (throw e : Session GoError Unit) w₁ = .error f w' →
      ∃ evs out, w'.trace = w.trace ++ evs ∧ MayInitiate ep w.inbound out ∧
        sentBytes evs <+: frameOf (saslMessages ep saslNegotiateMessage) ++ out := by
    rintro e ⟨⟩
    exact ⟨evs, [], htrace, .inl rfl, by rwa [List.append_nil]⟩
  cases hauths : offer.auths with
  | nil =>
    simp only [hauths] at htail
    exact hgiveUp _ htail
  | cons auth others =>
    simp only [hauths] at htail
    split_ifs at htail with htoken
    swap
    · exact hgiveUp _ htail
    have hnegotiate := hall offer w₁ hok
    simp only [bind_eq_ok_iff, (sendSaslMessage_sends ep _).eq_ok_iff,
      receiveSaslMessage_ok_iff] at hok
    obtain ⟨_, _, ⟨negotiate, _, _, rfl⟩, _, offerLength, offerBody, between, hreplies, rfl⟩ := hok
    obtain ⟨evs', htrace', hsent', _⟩ := answerChallenge_sendsUpTo ep auth
      (World.afterReply (w.after (writerSteps negotiate)) offerLength offerBody between)
    rw [final, htail] at htrace'
    refine ⟨evs ++ evs', initiateFrame ep auth, ?_, .inr ⟨offerLength, offerBody, offer, between,
      auth, others, hreplies, hauths, htoken, rfl⟩, ?_⟩
    · rw [htrace', htrace, List.append_assoc]
    · rw [sentBytes_append, hnegotiate, List.prefix_append_right_inj]
      exact hsent'

/-- The buffer that two reads of a reply leave to the decoder. -/
def replyBuffer (lengthBytes bodyBytes : Bytes) : Bytes :=
  fill (ofBe32 (fill 4 lengthBytes)).toNat bodyBytes

/-- A reply was accepted by the decoder. -/
theorem Replies.accepted {inbound rest : List Bytes} {lengthBytes bodyBytes : Bytes}
    {m : RpcSaslProto} (h : Replies ep inbound lengthBytes bodyBytes m rest) :
    Accepted ep (replyBuffer lengthBytes bodyBytes) m := by
  obtain ⟨mid, _, hbody⟩ := h.reads
  have hlt := ofBe32_lt (fill 4 lengthBytes)
  refine accepted_of_decodeSasl ep ?_ h.decoded
  rw [replyBuffer, fill_length (takeSome_spec hbody).2]
  omega

/-- What a call sends behind the authentication. -/
theorem afterAuth_sendsUpTo (rpc : RequestHeaderProto) (request : Req) :
    SendsUpTo (do
      writeConnectionContext ep rpc.declaringClassProtocolName
      sendRequest ep rpc request
      thenClose (readResponse ep))
      (frameOf (contextMessages ep rpc.declaringClassProtocolName) ++
        frameOf (requestMessages ep rpc request)) := by
  have hread : SendsUpTo (readResponse ep) [] := .of_emits (readResponse_emits ep fun _ => rfl)
  have h := (writeConnectionContext_sends ep rpc.declaringClassProtocolName).sendsUpTo.bind
    fun _ => (sendRequest_sends ep rpc request).sendsUpTo.bind fun _ => hread.thenClose
  rw [List.append_nil] at h
  exact h

/-- A call passed the authentication: its trace is the header, a negotiation whose two replies were
accepted and whose verdict is `SUCCESS`, and only then the context and the request. -/
def Authenticated (rpc : RequestHeaderProto) (request : Req) (inbound : List Bytes)
    (evs : List Event) : Prop :=
  ∃ (n : Negotiation ep inbound) (post : List Event),
    evs = (connectSteps .sasl).flatMap Step.done ++ n.events ++ post ∧
    Accepted ep (replyBuffer n.offerLength n.offerBody) n.offer ∧
    Accepted ep (replyBuffer n.verdictLength n.verdictBody) n.verdict ∧
    n.verdict.state = some .SUCCESS ∧
    sentBytes post <+: frameOf (contextMessages ep rpc.declaringClassProtocolName) ++
      frameOf (requestMessages ep rpc request)

/-- A call with SASL: the header, the negotiation, and the rest. -/
theorem call_eq_negotiate (rpc : RequestHeaderProto) (request : Req) {user : Bytes}
    (huser : ep.client.realUser = .ok user) (hproto : authProtocol ep = .sasl) :
    call ep rpc request = (do
      perform GoError.io (connectSteps .sasl)
      negotiateSimpleTokenAuth ep
      writeConnectionContext ep rpc.declaringClassProtocolName
      sendRequest ep rpc request
      thenClose (readResponse ep)) := by
  simp only [call_of_realUser ep rpc request huser, connect, authenticate, hproto, if_true,
    bind_assoc]

/-- A verdict that was accepted says `SUCCESS`, and does not merely leave the state out. -/
theorem Negotiation.verdict_success (hstate : ep.codec.RequiresState) {inbound : List Bytes}
    (n : Negotiation ep inbound) : n.verdict.state = some .SUCCESS := by
  obtain ⟨_, _, _, msg, _, _, _, _, _, _, hmsg⟩ := (n.verdict_reply.accepted ep).parts
  obtain ⟨state, hst⟩ := Option.isSome_iff_exists.mp (hstate msg n.verdict hmsg)
  have hsuccess := n.verdict_state
  rw [RpcSaslProto.getState, hst, Option.getD_some] at hsuccess
  rw [hst, hsuccess]

/-- **No request before authentication.** A call made with a token announces SASL in its header.
Either it is authenticated before it sends its context and its request, or it sends at most the
header, the `NEGOTIATE` frame and an answer to an offer of the token mechanism, and does not
succeed. -/
theorem call_authenticates_first (rpc : RequestHeaderProto) (request : Req)
    (htoken : (findUsableTokenForService ep ep.client.serverAddress).isSome)
    (hstate : ep.codec.RequiresState) (w : World) :
    ∃ evs, (final (call ep rpc request) w).trace = w.trace ++ evs ∧
      (sentBytes evs <+: headerBytes .sasl ∨ headerBytes .sasl <+: sentBytes evs) ∧
      (Authenticated ep rpc request w.inbound evs ∨
        (∀ r, outcome (call ep rpc request) w ≠ .ok r) ∧
        ∃ out, MayInitiate ep w.inbound out ∧ sentBytes evs <+:
          headerBytes .sasl ++ frameOf (saslMessages ep saslNegotiateMessage) ++ out) := by
  have hproto : authProtocol ep = .sasl := by rw [authProtocol, if_pos htoken]
  cases huser : ep.client.realUser with
  | error f =>
    -- without a user the call panics before it dials
    have hcall := call_of_no_realUser ep rpc request huser w
    refine ⟨[], by simp [final, hcall], .inl List.nil_prefix, .inr ⟨?_, [], .inl rfl, List.nil_prefix⟩⟩
    simp [outcome, hcall]
  | ok user =>
  rw [call_eq_negotiate ep rpc request huser hproto]
  have hheader : sentBytes ((connectSteps .sasl).flatMap Step.done) = headerBytes .sasl := by
    rw [sentBytes_flatMap_done, connectSteps_bytes]
  rcases perform_cases GoError.io (connectSteps .sasl) w with ⟨_, hok⟩ | ⟨_, w₁, herr, _⟩
  swap
  · -- the header was not written completely
    obtain ⟨evs, htrace, hsent, _⟩ := SendsUpTo.perform GoError.io (connectSteps .sasl) w
    rw [connectSteps_bytes] at hsent
    rw [final, herr] at htrace
    refine ⟨evs, by rw [final, bind_error herr]; exact htrace, .inl hsent, .inr ⟨?_, [], .inl rfl, ?_⟩⟩
    · intro r
      simp [outcome_bind_error herr]
    · rw [List.append_nil]
      exact hsent.trans (List.prefix_append _ _)
  rw [final, outcome_bind_ok hok, bind_ok hok]
  cases hneg : negotiateSimpleTokenAuth ep (w.after (connectSteps .sasl)) with
  | error f w₂ =>
    obtain ⟨evs, out, htrace, hmay, hsent⟩ := negotiateSimpleTokenAuth_error ep hneg
    refine ⟨(connectSteps .sasl).flatMap Step.done ++ evs, ?_, ?_, .inr ⟨?_, out, hmay, ?_⟩⟩
    · simp only [bind_error hneg, htrace, World.after_trace, List.append_assoc]
    · rw [sentBytes_append, hheader]
      exact .inr (List.prefix_append _ _)
    · intro r
      simp [outcome_bind_error hneg]
    · rw [sentBytes_append, hheader, List.append_assoc, List.prefix_append_right_inj]
      exact hsent
  | ok u w₂ =>
    obtain ⟨n, _, rfl⟩ := (negotiateSimpleTokenAuth_ok_iff ep).mp hneg
    obtain ⟨post, htrace, hsent, _⟩ := afterAuth_sendsUpTo ep rpc request
      (n.world (w.after (connectSteps .sasl)))
    refine ⟨(connectSteps .sasl).flatMap Step.done ++ n.events ++ post, ?_, ?_,
      .inl ⟨n, post, rfl, n.offer_reply.accepted ep, n.verdict_reply.accepted ep,
        n.verdict_success ep hstate, hsent⟩⟩
    · rw [bind_ok hneg, ← final, htrace]
      simp [Negotiation.world]
    · rw [List.append_assoc, sentBytes_append, hheader]
      exact .inr (List.prefix_append _ _)

/-- A server that accepts the connection without negotiating: it answers `NEGOTIATE` with `SUCCESS`
and no mechanism. Nothing but the header and `NEGOTIATE` is sent. -/
theorem call_authenticates_first_refused :
    outcome (call Protobuf.tokenEndpoint Protobuf.serviceStatusRpc [])
        (Protobuf.calmWorld [[0, 0, 0, 8], [4, 8, 0, 16, 0, 2, 16, 0]]) =
      .error (.err (.text (ascii "No supported auth mechanisms!"))) ∧
    ∃ evs, (final (call Protobuf.tokenEndpoint Protobuf.serviceStatusRpc [])
        (Protobuf.calmWorld [[0, 0, 0, 8], [4, 8, 0, 16, 0, 2, 16, 0]])).trace = [] ++ evs ∧
      (Authenticated Protobuf.tokenEndpoint Protobuf.serviceStatusRpc []
          [[0, 0, 0, 8], [4, 8, 0, 16, 0, 2, 16, 0]] evs ∨
        ∃ out, MayInitiate Protobuf.tokenEndpoint [[0, 0, 0, 8], [4, 8, 0, 16, 0, 2, 16, 0]] out ∧
          sentBytes evs <+: headerBytes .sasl ++
            frameOf (saslMessages Protobuf.tokenEndpoint saslNegotiateMessage) ++ out) := by
  refine ⟨rfl, ?_⟩
  obtain ⟨evs, htrace, _, hauth⟩ := call_authenticates_first Protobuf.tokenEndpoint
    Protobuf.serviceStatusRpc [] (by decide) Protobuf.codec_requiresState
    (Protobuf.calmWorld [[0, 0, 0, 8], [4, 8, 0, 16, 0, 2, 16, 0]])
  exact ⟨evs, htrace, hauth.imp_right And.right⟩

end YarnCopilot.Ipc
