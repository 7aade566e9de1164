import YarnCopilot.Ipc.Replies

/-!
# The handshake

A call dials, writes the connection header, negotiates a token when it has one, writes the
connection context and the request, and reads the response. `Negotiation` is a SASL exchange that
went well, as data with its evidence; `Auth` adds the case without a token. `connect_eq_ok_iff` says
exactly when a call gets as far as reading its response, and in which state.
-/

namespace YarnCopilot.Ipc

open Session

/-! ## Dialling and the connection header -/

/-- The steps of `setupConnection` and `writeConnectionHeader`. -/
def connectSteps (authProtocol : AuthProtocol) : List Step :=
  [.dial, .configure, .configure, .configure, .write (ascii "hrpc"), .write [0x09], .write [0x00],
    .write [authProtocol.byte]]

/-- The bytes of the connection header. -/
def headerBytes (authProtocol : AuthProtocol) : Bytes :=
  ascii "hrpc" ++ [0x09, 0x00, authProtocol.byte]

theorem connectSteps_bytes (authProtocol : AuthProtocol) :
    (connectSteps authProtocol).flatMap Step.bytes = headerBytes authProtocol := by
  cases authProtocol <;> decide

/-- Setting up a connection and writing its header is a run of fallible steps. -/
theorem connect_eq_perform (authProtocol : AuthProtocol) :
    (do setupConnection; writeConnectionHeader authProtocol) =
      perform GoError.io (connectSteps authProtocol) := by
  simp only [setupConnection, writeConnectionHeader, connectSteps, perform, setDeadline, write,
    bind_assoc, bind_pure_unit]

/-! ## A SASL reply -/

variable {Req Resp : Type} (ep : Endpoint Req Resp)

/-- The stream starts with a reply: `lengthBytes` and `bodyBytes` are what the two reads return, and
they decode to `m`. -/
structure Replies (inbound : List Bytes) (lengthBytes bodyBytes : Bytes) (m : RpcSaslProto)
    (rest : List Bytes) : Prop where
  reads : ∃ mid, takeSome 4 inbound = some (lengthBytes, mid) ∧
    takeSome (ofBe32 (fill 4 lengthBytes)).toNat mid = some (bodyBytes, rest)
  nonneg : 0 ≤ ofBe32 (fill 4 lengthBytes)
  decoded : decodeSasl ep (fill (ofBe32 (fill 4 lengthBytes)).toNat bodyBytes) = .ok m

/-- The world after a reply was read. -/
def World.afterReply (w : World) (lengthBytes bodyBytes : Bytes) (rest : List Bytes) : World :=
  { w with
    clock := w.clock + 1
    inbound := rest
    trace := w.trace ++ [.received lengthBytes, .received bodyBytes] }

/-- `receiveSaslMessage` returns exactly when the deadline can be set and the stream starts with a
reply. -/
theorem receiveSaslMessage_ok_iff {w w' : World} {m : RpcSaslProto} :
    receiveSaslMessage ep w = .ok m w' ↔ w.Succeeds [.configure] ∧
      ∃ lengthBytes bodyBytes rest, Replies ep w.inbound lengthBytes bodyBytes m rest ∧
        w' = World.afterReply w lengthBytes bodyBytes rest := by
  simp only [receiveSaslMessage, setDeadline, bind_eq_ok_iff, attempt_eq_ok_iff, read_eq_ok_iff,
    pureResult_eq_ok_iff]
  constructor
  · rintro ⟨_, _, ⟨hsucc, rfl⟩, lengthBytes, _, ⟨mid, hlength, rfl⟩, n, _, ⟨hn, rfl⟩, bodyBytes, _,
      ⟨rest, hbody, rfl⟩, message, _, ⟨hparse, rfl⟩, hret⟩
    obtain ⟨rfl, rfl⟩ : message.getD {} = m ∧ _ = w' := by simpa [pure, EStateM.pure] using hret
    have hnonneg : 0 ≤ ofBe32 (fill 4 lengthBytes) := by
      by_contra hneg
      rw [makeSlice, if_pos (by omega)] at hn
      cases hn
    rw [makeSlice, if_neg (by omega), Except.ok.injEq] at hn
    subst hn
    refine ⟨hsucc, lengthBytes, bodyBytes, rest, ⟨⟨mid, hlength, hbody⟩, hnonneg, ?_⟩, ?_⟩
    · rw [decodeSasl, hparse]
      rfl
    · simp [World.afterReply, Step.done]
  · rintro ⟨hsucc, lengthBytes, bodyBytes, rest, ⟨⟨mid, hlength, hbody⟩, hnonneg, hdec⟩, rfl⟩
    refine ⟨(), _, ⟨hsucc, rfl⟩, lengthBytes, _, ⟨mid, hlength, rfl⟩, _, _,
      ⟨by rw [makeSlice, if_neg (by omega)], rfl⟩, bodyBytes, _, ⟨rest, hbody, rfl⟩, ?_⟩
    rw [decodeSasl] at hdec
    cases hparse : parseSaslMessage ep (fill (ofBe32 (fill 4 lengthBytes)).toNat bodyBytes) with
    | error e =>
      rw [hparse] at hdec
      cases hdec
    | ok message =>
      rw [hparse] at hdec
      cases hdec
      refine ⟨message, _, ⟨rfl, rfl⟩, ?_⟩
      simp [pure, EStateM.pure, World.afterReply, World.after, Step.done]

/-! ## The negotiation -/

/-- A SASL exchange over the stream `inbound` that ends well: the server offers the token mechanism
first, the client answers the challenge, and the server's verdict is `SUCCESS`. -/
structure Negotiation (inbound : List Bytes) where
  negotiate : List Bytes
  negotiate_eq : saslMessages ep saslNegotiateMessage = some negotiate
  offerLength : Bytes
  offerBody : Bytes
  offer : RpcSaslProto
  between : List Bytes
  offer_reply : Replies ep inbound offerLength offerBody offer between
  auth : SaslAuth
  others : List SaslAuth
  offer_auths : offer.auths = auth :: others
  auth_token : IsTokenDigest auth
  response : Bytes
  response_eq : digestResponse ep auth = .ok response
  initiate : List Bytes
  initiate_eq : saslMessages ep (saslInitiateMessage auth response) = some initiate
  verdictLength : Bytes
  verdictBody : Bytes
  verdict : RpcSaslProto
  rest : List Bytes
  verdict_reply : Replies ep between verdictLength verdictBody verdict rest
  verdict_state : verdict.getState = .SUCCESS

variable {ep}

namespace Negotiation

variable {inbound : List Bytes} (n : Negotiation ep inbound)

/-- The fallible steps of the exchange: each message and the deadline of each reply. -/
def steps : List Step :=
  writerSteps n.negotiate ++ [.configure] ++ writerSteps n.initiate ++ [.configure]

/-- What the exchange does, in order. -/
def events : List Event :=
  (writerSteps n.negotiate).flatMap Step.done ++ [.received n.offerLength, .received n.offerBody] ++
    (writerSteps n.initiate).flatMap Step.done ++
    [.received n.verdictLength, .received n.verdictBody]

/-- The world after the exchange. -/
def world (w : World) : World :=
  { w with
    clock := w.clock + n.steps.length
    inbound := n.rest
    trace := w.trace ++ n.events }

/-- The steps of the exchange succeed when those of each of its parts do. -/
theorem succeeds_iff (w : World) : w.Succeeds n.steps ↔
    w.Succeeds (writerSteps n.negotiate) ∧
      (w.after (writerSteps n.negotiate)).Succeeds [.configure] ∧
      (World.afterReply (w.after (writerSteps n.negotiate)) n.offerLength n.offerBody
        n.between).Succeeds (writerSteps n.initiate ++ [.configure]) := by
  have hreply : ∀ ss, (World.afterReply (w.after (writerSteps n.negotiate)) n.offerLength
      n.offerBody n.between).Succeeds ss ↔
        (w.after (writerSteps n.negotiate ++ [.configure])).Succeeds ss := by
    refine World.succeeds_congr rfl ?_
    simp [World.afterReply, Nat.add_assoc]
  rw [hreply, steps, List.append_assoc, World.succeeds_append, World.succeeds_append, and_assoc]

theorem world_eq (w : World) : n.world w =
    World.afterReply ((World.afterReply (w.after (writerSteps n.negotiate)) n.offerLength
      n.offerBody n.between).after (writerSteps n.initiate)) n.verdictLength n.verdictBody
        n.rest := by
  simp only [world, steps, events, World.afterReply, World.after, List.append_assoc,
    List.length_append, List.length_singleton, Nat.add_assoc, Nat.add_comm 1]

end Negotiation

variable (ep)

theorem throw_ne_ok {α : Type} {e : Fault GoError} {w w' : World} {a : α} :
    (throw e : Session GoError α) w ≠ .ok a w' := by
  intro h
  cases h

/-- The second half of the exchange returns exactly when the challenge can be answered and the
server accepts the answer. -/
theorem answerChallenge_ok_iff {w w' : World} {auth : SaslAuth} {u : Unit} :
    answerChallenge ep auth w = .ok u w' ↔ ∃ response initiate verdict verdictLength verdictBody rest,
      digestResponse ep auth = .ok response ∧
      saslMessages ep (saslInitiateMessage auth response) = some initiate ∧
      w.Succeeds (writerSteps initiate ++ [.configure]) ∧
      Replies ep w.inbound verdictLength verdictBody verdict rest ∧ verdict.getState = .SUCCESS ∧
      w' = World.afterReply (w.after (writerSteps initiate)) verdictLength verdictBody rest := by
  simp only [answerChallenge, bind_eq_ok_iff, pureResult_eq_ok_iff,
    (sendSaslMessage_sends ep _).eq_ok_iff, receiveSaslMessage_ok_iff, World.succeeds_append]
  constructor
  · rintro ⟨response, _, ⟨hresponse, rfl⟩, _, _, ⟨initiate, hinitiate, hsucc, rfl⟩, verdict, _,
      ⟨hsucc', verdictLength, verdictBody, rest, hverdict, rfl⟩, hstate⟩
    split_ifs at hstate with hsuccess
    · exact absurd hstate throw_ne_ok
    · cases hstate
      exact ⟨response, initiate, verdict, verdictLength, verdictBody, rest, hresponse, hinitiate,
        ⟨hsucc, hsucc'⟩, hverdict, not_not.mp hsuccess, rfl⟩
  · rintro ⟨response, initiate, verdict, verdictLength, verdictBody, rest, hresponse, hinitiate,
      ⟨hsucc, hsucc'⟩, hverdict, hstate, rfl⟩
    refine ⟨response, w, ⟨hresponse, rfl⟩, (), _, ⟨initiate, hinitiate, hsucc, rfl⟩, verdict, _,
      ⟨hsucc', verdictLength, verdictBody, rest, hverdict, rfl⟩, ?_⟩
    rw [if_neg (not_not.mpr hstate)]
    rfl

/-- `negotiateSimpleTokenAuth` returns exactly when there is an exchange that ends well and all its
steps succeed. -/
theorem negotiateSimpleTokenAuth_ok_iff {w w' : World} {u : Unit} :
    negotiateSimpleTokenAuth ep w = .ok u w' ↔
      ∃ n : Negotiation ep w.inbound, w.Succeeds n.steps ∧ w' = n.world w := by
  simp only [negotiateSimpleTokenAuth, bind_eq_ok_iff, (sendSaslMessage_sends ep _).eq_ok_iff,
    receiveSaslMessage_ok_iff]
  constructor
  · rintro ⟨_, _, ⟨negotiate, hnegotiate, hsucc₁, rfl⟩, offer, _, ⟨hsucc₂, offerLength, offerBody,
      between, hoffer, rfl⟩, htail⟩
    cases hauths : offer.auths with
    | nil =>
      simp only [hauths] at htail
      exact absurd htail throw_ne_ok
    | cons auth others =>
      simp only [hauths] at htail
      split_ifs at htail with htoken
      swap
      · exact absurd htail throw_ne_ok
      obtain ⟨response, initiate, verdict, verdictLength, verdictBody, rest, hresponse, hinitiate,
        hsucc₃, hverdict, hstate, rfl⟩ := (answerChallenge_ok_iff ep).mp htail
      let n : Negotiation ep w.inbound :=
        ⟨negotiate, hnegotiate, offerLength, offerBody, offer, between, hoffer, auth, others,
          hauths, htoken, response, hresponse, initiate, hinitiate, verdictLength, verdictBody,
          verdict, rest, hverdict, hstate⟩
      exact ⟨n, (n.succeeds_iff w).mpr ⟨hsucc₁, hsucc₂, hsucc₃⟩, (n.world_eq w).symm⟩
  · rintro ⟨n, hsucc, rfl⟩
    obtain ⟨hsucc₁, hsucc₂, hsucc₃⟩ := (n.succeeds_iff w).mp hsucc
    refine ⟨(), _, ⟨n.negotiate, n.negotiate_eq, hsucc₁, rfl⟩, n.offer, _,
      ⟨hsucc₂, n.offerLength, n.offerBody, n.between, n.offer_reply, rfl⟩, ?_⟩
    simp only [n.offer_auths]
    rw [if_pos n.auth_token, n.world_eq w]
    exact (answerChallenge_ok_iff ep).mpr ⟨n.response, n.initiate, n.verdict, n.verdictLength,
      n.verdictBody, n.rest, n.response_eq, n.initiate_eq, hsucc₃, n.verdict_reply,
      n.verdict_state, rfl⟩

/-! ## Up to the response -/

/-- The part of `getConnection` between the header and the context. -/
def authenticate : Session GoError Unit :=
  if authProtocol ep = .sasl then negotiateSimpleTokenAuth ep else pure ()

/-- Everything a call does between the dereference of its user and the response. -/
def connect (rpc : RequestHeaderProto) (request : Req) : Session GoError Unit := do
  perform GoError.io (connectSteps (authProtocol ep))
  authenticate ep
  writeConnectionContext ep rpc.declaringClassProtocolName
  sendRequest ep rpc request

theorem call_eq_connect (rpc : RequestHeaderProto) (request : Req) :
    call ep rpc request = (do
      let _ ← pureResult ep.client.realUser
      connect ep rpc request
      thenClose (readResponse ep)) := by
  by_cases hproto : authProtocol ep = .sasl
  · simp only [call, getConnection, connect, authenticate, ← connect_eq_perform, bind_assoc,
      if_pos hproto]
  · simp only [call, getConnection, connect, authenticate, ← connect_eq_perform, bind_assoc,
      if_neg hproto, pure_bind]

/-- A call of a client with a user connects, reads the response and closes the connection. -/
theorem call_of_realUser (rpc : RequestHeaderProto) (request : Req) {user : Bytes}
    (h : ep.client.realUser = .ok user) :
    call ep rpc request = (do connect ep rpc request; thenClose (readResponse ep)) := by
  rw [call_eq_connect, h]
  rfl

/-- A call of a client without one does nothing on the network. -/
theorem call_of_no_realUser (rpc : RequestHeaderProto) (request : Req) {f : Fault GoError}
    (h : ep.client.realUser = .error f) (w : World) :
    call ep rpc request w = .error (.panic .nilPointer) w := by
  have hf : f = .panic .nilPointer := by
    rw [Client.realUser] at h
    split at h <;> cases h
    rfl
  rw [call_eq_connect, h, hf]
  rfl

/-- How a connection gets past authentication: without a token at once, with one by a negotiation
that ends well. -/
inductive Auth (inbound : List Bytes)
  | plain (h : authProtocol ep = .none)
  | token (h : authProtocol ep = .sasl) (n : Negotiation ep inbound)

variable {ep}

/-- The fallible steps of the authentication. -/
def Auth.steps {inbound : List Bytes} : Auth ep inbound → List Step
  | .plain _ => []
  | .token _ n => n.steps

/-- The world after the authentication. -/
def Auth.world {inbound : List Bytes} (w : World) : Auth ep inbound → World
  | .plain _ => w
  | .token _ n => n.world w

theorem Auth.succeeds_world {inbound : List Bytes} (a : Auth ep inbound) (w : World)
    (ss : List Step) : (a.world w).Succeeds ss ↔ (w.after a.steps).Succeeds ss := by
  cases a with
  | plain h => exact World.succeeds_congr rfl rfl ss
  | token h n => exact World.succeeds_congr rfl rfl ss

variable (ep)

theorem authenticate_ok_iff {w w' : World} {u : Unit} :
    authenticate ep w = .ok u w' ↔
      ∃ a : Auth ep w.inbound, w.Succeeds a.steps ∧ w' = a.world w := by
  rw [authenticate]
  by_cases hproto : authProtocol ep = .sasl
  · rw [if_pos hproto, negotiateSimpleTokenAuth_ok_iff]
    constructor
    · rintro ⟨n, hsucc, rfl⟩
      exact ⟨.token hproto n, hsucc, rfl⟩
    · rintro ⟨a | ⟨_, n⟩, hsucc, rfl⟩
      · simp_all
      · exact ⟨n, hsucc, rfl⟩
  · have hnone : authProtocol ep = .none := by
      cases h : authProtocol ep with
      | none => rfl
      | sasl => exact absurd h hproto
    rw [if_neg hproto]
    constructor
    · rintro ⟨⟩
      exact ⟨.plain hnone, fun i hi => absurd hi (Nat.not_lt_zero i), rfl⟩
    · rintro ⟨_ | ⟨h, _⟩, _, rfl⟩
      · rfl
      · exact absurd h hproto

/-- Everything up to the response can be done: the token, if there is one, is accepted, the messages
marshal, and every step on the way succeeds. -/
def Completes (rpc : RequestHeaderProto) (request : Req) (w : World) : Prop :=
  ∃ (a : Auth ep w.inbound) (context requests : List Bytes),
    contextMessages ep rpc.declaringClassProtocolName = some context ∧
    requestMessages ep rpc request = some requests ∧
    w.Succeeds (connectSteps (authProtocol ep) ++ a.steps ++ writerSteps context ++
      writerSteps requests)

theorem perform_eq_ok_iff {e : GoError} {ss : List Step} {w w' : World} {u : Unit} :
    perform e ss w = .ok u w' ↔ w.Succeeds ss ∧ w' = w.after ss := by
  rcases perform_cases e ss w with ⟨hsucc, h⟩ | ⟨hfail, w'', h, _⟩
  · simp [h, hsucc, eq_comm]
  · simp [h, hfail]

/-- The steps of a call succeed when those of each of its phases do. -/
theorem succeeds_phases_iff (w : World) (a : Auth ep w.inbound) (context requests : List Bytes) :
    w.Succeeds (connectSteps (authProtocol ep) ++ a.steps ++ writerSteps context ++
        writerSteps requests) ↔
      w.Succeeds (connectSteps (authProtocol ep)) ∧
      (w.after (connectSteps (authProtocol ep))).Succeeds a.steps ∧
      (a.world (w.after (connectSteps (authProtocol ep)))).Succeeds (writerSteps context) ∧
      ((a.world (w.after (connectSteps (authProtocol ep)))).after
        (writerSteps context)).Succeeds (writerSteps requests) := by
  rw [← World.succeeds_append, a.succeeds_world, World.after_after, List.append_assoc,
    World.succeeds_append, World.succeeds_append, and_assoc]

/-- Everything up to the response, with the world it leaves. -/
theorem connect_eq_ok_iff (rpc : RequestHeaderProto) (request : Req) {w w' : World} {u : Unit} :
    connect ep rpc request w = .ok u w' ↔
      ∃ (a : Auth ep w.inbound) (context requests : List Bytes),
        contextMessages ep rpc.declaringClassProtocolName = some context ∧
        requestMessages ep rpc request = some requests ∧
        w.Succeeds (connectSteps (authProtocol ep) ++ a.steps ++ writerSteps context ++
          writerSteps requests) ∧
        w' = ((a.world (w.after (connectSteps (authProtocol ep)))).after (writerSteps context)).after
          (writerSteps requests) := by
  simp only [connect, bind_eq_ok_iff, perform_eq_ok_iff, authenticate_ok_iff,
    (writeConnectionContext_sends ep _).eq_ok_iff, (sendRequest_sends ep rpc request).eq_ok_iff]
  constructor
  · rintro ⟨_, _, ⟨hsucc₁, rfl⟩, _, _, ⟨a, hsucc₂, rfl⟩, _, _, ⟨context, hcontext, hsucc₃, rfl⟩,
      requests, hrequests, hsucc₄, rfl⟩
    exact ⟨a, context, requests, hcontext, hrequests,
      (succeeds_phases_iff ep w a context requests).mpr ⟨hsucc₁, hsucc₂, hsucc₃, hsucc₄⟩, rfl⟩
  · rintro ⟨a, context, requests, hcontext, hrequests, hsucc, rfl⟩
    obtain ⟨hsucc₁, hsucc₂, hsucc₃, hsucc₄⟩ :=
      (succeeds_phases_iff ep w a context requests).mp hsucc
    exact ⟨(), _, ⟨hsucc₁, rfl⟩, (), _, ⟨a, hsucc₂, rfl⟩, (), _, ⟨context, hcontext, hsucc₃, rfl⟩,
      requests, hrequests, hsucc₄, rfl⟩

/-- A call gets to its response exactly when everything before it can be done. -/
theorem connect_ok_iff (rpc : RequestHeaderProto) (request : Req) (w : World) :
    (∃ u w', connect ep rpc request w = .ok u w') ↔ Completes ep rpc request w := by
  simp only [connect_eq_ok_iff, Completes]
  constructor
  · rintro ⟨_, _, a, context, requests, hcontext, hrequests, hsucc, -⟩
    exact ⟨a, context, requests, hcontext, hrequests, hsucc⟩
  · rintro ⟨a, context, requests, hcontext, hrequests, hsucc⟩
    exact ⟨(), _, a, context, requests, hcontext, hrequests, hsucc, rfl⟩

end YarnCopilot.Ipc
