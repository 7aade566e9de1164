import YarnCopilot.Common.Alike
import YarnCopilot.Ipc.Exchange
import YarnCopilot.Security.Response

/-!
# What a token is good for

Reference: `negotiateSimpleTokenAuth` and `Call` of `pkg/yarn/client/ipc/client.go`,
`GetDigestMD5ChallengeResponse` of `pkg/yarn/apis/security/digestmd5.go`.

With a token for the server, a call answers the challenge of the server and waits for its verdict.
`authenticated_call` puts the two layers together: what a call that returns has put on the
connection convinces a server that has its own copy of the token, unless the server's offer has a
comma where the response cannot have one. The other direction is open.
DIGEST-MD5 lets the client check the server by the digest in its last message;
`outcome_call_withToken` says that the client does not, so that no call can tell whether the server
has the token.
-/

namespace YarnCopilot.Ipc

open Session Security

/-! ## The client is authenticated -/

variable {token : TokenProto} {Req Resp : Type} {ep : Endpoint Req Resp} {inbound : List Bytes}

/-- The second message of a negotiation convinces a server that has the token: it carries a response
to the challenge that the server offered first, and the response verifies. -/
structure Convinces (token : TokenProto) (n : Negotiation ep inbound) : Prop where
  message : ∃ header body, n.initiate = [header, body] ∧
    ep.codec.marshalSasl (saslInitiateMessage n.auth n.response) = some body
  verifies : ∃ params read, getChallengeParams (n.auth.challenge.getD []) = .ok params ∧
    getChallengeParams n.response = .ok read ∧
    Verifies ep.crypto.md5 (n.auth.protocol.getD []) (n.auth.serverId.getD []) token params read

/-- The URI of the response is made of the protocol and the server id of the offer; a comma in it
ends the directive. -/
def CommaFree (auth : SaslAuth) : Prop :=
  0x2C ∉ auth.protocol.getD [] ∧ 0x2C ∉ auth.serverId.getD []
deriving Decidable

theorem saslMessages_eq_some {m : RpcSaslProto} {msgs : List Bytes}
    (h : saslMessages ep m = some msgs) :
    ∃ header body, msgs = [header, body] ∧ ep.codec.marshalSasl m = some body := by
  unfold saslMessages at h
  obtain ⟨header, -, h⟩ := Option.bind_eq_some_iff.mp h
  obtain ⟨body, hbody, h⟩ := Option.bind_eq_some_iff.mp h
  exact ⟨header, body, (Option.some.inj h).symm, hbody⟩

theorem Negotiation.convinces_iff (n : Negotiation ep inbound)
    (htoken : ep.userTokens ep.client.serverAddress = some token) :
    Convinces token n ↔ CommaFree n.auth := by
  constructor
  · rintro ⟨-, params, read, -, hread, hverifies⟩
    exact hverifies.comma_not_mem hread
  · rintro ⟨hprotocol, hserverId⟩
    have hresponse := n.response_eq
    rw [digestResponse, findUsableTokenForService, htoken] at hresponse
    obtain ⟨params, _, hparams, _⟩ := accepted_of_response hresponse
    obtain ⟨read, hread, hverifies⟩ := verifies_of_response hparams hresponse hprotocol hserverId
    exact ⟨saslMessages_eq_some n.initiate_eq, params, read, hparams, hread, hverifies⟩

/-- A reply that carries a SASL message. -/
def saslReply (m : RpcSaslProto) : List Bytes :=
  let body := delimited [8, 0, 16, 0] ++ delimited ((Protobuf.marshalSasl m).getD [])
  [be32 body.length, body]

/-- An offer of the token mechanism. -/
def tokenOffer : SaslAuth :=
  { method := some (ascii "TOKEN")
    mechanism := some (ascii "DIGEST-MD5")
    serverId := some (ascii "default")
    challenge := some
      (ascii "realm=default,nonce=7,qop=auth,charset=utf-8,algorithm=md5-sess") }

/-- A server that offers a challenge, accepts the response and answers the request. -/
def acceptingServer : List Bytes :=
  saslReply { state := some .NEGOTIATE, auths := [tokenOffer] } ++
    saslReply { state := some .SUCCESS } ++ [[0, 0, 0, 6], [4, 8, 0, 16, 0, 0]]

theorem outcome_acceptingServer :
    outcome (call Protobuf.tokenEndpoint Protobuf.serviceStatusRpc [])
      (Protobuf.calmWorld acceptingServer) = .ok (some []) := by
  decide +kernel

/-- The stream decides the offer. -/
theorem Negotiation.offer_eq (n : Negotiation ep inbound) {offer : RpcSaslProto}
    (h : outcome (receiveSaslMessage ep) (Protobuf.calmWorld inbound) = .ok offer) :
    n.offer = offer := by
  have hreceive := (receiveSaslMessage_ok_iff ep (w := Protobuf.calmWorld inbound)).mpr
    ⟨fun _ _ => rfl, n.offerLength, n.offerBody, n.between, n.offer_reply, rfl⟩
  rw [outcome, hreceive] at h
  exact Except.ok.inj h

/-- `proto.Marshal` accepts a SASL message that has its required fields. -/
def Codec.MarshalsSasl (codec : Codec Req Resp) : Prop :=
  ∀ m, m.state.isSome → (∀ auth ∈ m.auths, auth.method.isSome ∧ auth.mechanism.isSome) →
    (codec.marshalSasl m).isSome

theorem Codec.MarshalsSasl.negotiate {codec : Codec Req Resp} (h : codec.MarshalsSasl) :
    (codec.marshalSasl saslNegotiateMessage).isSome :=
  h _ rfl (by simp [saslNegotiateMessage])

theorem Codec.MarshalsSasl.initiate {codec : Codec Req Resp} (h : codec.MarshalsSasl)
    (auth : SaslAuth) (response : Bytes) :
    (codec.marshalSasl (saslInitiateMessage auth response)).isSome :=
  h _ rfl (by simp [saslInitiateMessage])

/-- The endpoint with another token for its server. -/
def Endpoint.withToken (ep : Endpoint Req Resp) (token : TokenProto) : Endpoint Req Resp :=
  { ep with userTokens := Function.update ep.userTokens ep.client.serverAddress (some token) }

theorem endAlike_write (bs bs' : Bytes) : EndAlike Eq (write bs) (write bs') :=
  .attempt _ _ _

theorem endAlike_writeDelimitedBytes (data data' : Bytes) :
    EndAlike Eq (writeDelimitedBytes data) (writeDelimitedBytes data') :=
  (endAlike_write _ _).bind fun _ _ _ => endAlike_write _ _

theorem endAlike_setDeadline : EndAlike Eq setDeadline setDeadline := .attempt _ _ _

theorem endAlike_marshal (b : Option Bytes) : EndAlike Eq (marshal b) (marshal b) := by
  cases b with
  | none => exact .throw _
  | some bs => exact .pure rfl

/-- Two messages that marshal. -/
theorem endAlike_marshal_some {b b' : Option Bytes} (h : b.isSome) (h' : b'.isSome) :
    EndAlike (fun _ _ => True) (marshal b) (marshal b') := by
  obtain ⟨bs, rfl⟩ := Option.isSome_iff_exists.mp h
  obtain ⟨bs', rfl⟩ := Option.isSome_iff_exists.mp h'
  exact .pure trivial

theorem endAlike_sendSaslMessage {m m' : RpcSaslProto} (h : (ep.codec.marshalSasl m).isSome)
    (h' : (ep.codec.marshalSasl m').isSome) :
    EndAlike Eq (sendSaslMessage ep m) (sendSaslMessage ep m') := by
  refine (endAlike_marshal _).bind_same fun header => ?_
  refine (endAlike_marshal_some h h').bind fun body body' _ => ?_
  refine endAlike_setDeadline.bind_same fun _ => ?_
  refine (endAlike_write _ _).bind fun _ _ _ => ?_
  exact (endAlike_writeDelimitedBytes _ _).bind fun _ _ _ => endAlike_writeDelimitedBytes _ _

theorem endAlike_receiveSaslMessage :
    EndAlike Eq (receiveSaslMessage ep) (receiveSaslMessage ep) := by
  refine endAlike_setDeadline.bind_same fun _ => ?_
  refine (EndAlike.read _ _).bind_same fun lengthBytes => ?_
  refine (EndAlike.pureResult _).bind_same fun totalLength => ?_
  refine (EndAlike.read _ _).bind_same fun responseBytes => ?_
  exact (EndAlike.pureResult _).bind_same fun _ => .pure rfl

theorem endAlike_readResponse : EndAlike Eq (readResponse ep) (readResponse ep) := by
  refine (EndAlike.read _ _).bind_same fun lengthBytes => ?_
  refine (EndAlike.pureResult _).bind_same fun totalLength => ?_
  exact (EndAlike.readFull _ _).bind_same fun responseBytes => .pureResult _

/-- Whether a challenge is answered does not depend on the token. -/
theorem endAlike_digestResponse (token : TokenProto) (auth : SaslAuth) :
    EndAlike (fun _ _ => True) (pureResult (digestResponse ep auth))
      (pureResult (digestResponse (ep.withToken token) auth)) := by
  simp only [digestResponse, getDigestMD5ChallengeResponse]
  split
  · exact .throw _
  · cases getChallengeParams (auth.challenge.getD []) with
    | error e => exact .throw _
    | ok params =>
      simp only [except_ok_bind]
      cases validateChallengeParameters params with
      | error e => exact .throw _
      | ok u =>
        simp only [except_ok_bind, generateChallengeReponse, Endpoint.withToken]
        cases ep.crypto.nonce with
        | none => exact .throw _
        | some nonceBuffer => exact .pure trivial

section

variable (token : TokenProto) (hmarshal : ep.codec.MarshalsSasl)
include hmarshal

theorem endAlike_answerChallenge (auth : SaslAuth) :
    EndAlike Eq (answerChallenge ep auth) (answerChallenge (ep.withToken token) auth) := by
  refine (endAlike_digestResponse token auth).bind fun response response' _ => ?_
  -- the two responses differ, but they are only written
  refine (endAlike_sendSaslMessage (hmarshal.initiate auth response)
    (hmarshal.initiate auth response')).bind fun _ _ _ => ?_
  refine (@endAlike_receiveSaslMessage _ _ ep).bind_same fun reply => ?_
  split
  · exact .throw _
  · exact .pure rfl

theorem endAlike_negotiateSimpleTokenAuth :
    EndAlike Eq (negotiateSimpleTokenAuth ep) (negotiateSimpleTokenAuth (ep.withToken token)) := by
  refine (endAlike_sendSaslMessage hmarshal.negotiate hmarshal.negotiate).bind fun _ _ _ => ?_
  refine (@endAlike_receiveSaslMessage _ _ ep).bind_same fun reply => ?_
  cases reply.auths with
  | nil => exact .throw _
  | cons auth others =>
    dsimp only
    split
    · exact endAlike_answerChallenge token hmarshal auth
    · exact .throw _

end

theorem endAlike_perform (e : GoError) (ss : List Step) :
    EndAlike Eq (perform e ss) (perform e ss) := by
  induction ss with
  | nil => exact .pure rfl
  | cons s ss ih => exact (EndAlike.attempt e s s).bind_same fun _ => ih

theorem endAlike_writeConnectionContext (protocol : Bytes) :
    EndAlike Eq (writeConnectionContext ep protocol) (writeConnectionContext ep protocol) := by
  refine endAlike_setDeadline.bind_same fun _ => ?_
  refine (endAlike_marshal _).bind_same fun header => ?_
  refine (endAlike_marshal _).bind_same fun ctx => ?_
  refine (endAlike_write _ _).bind_same fun _ => ?_
  exact (endAlike_writeDelimitedBytes _ _).bind_same fun _ => endAlike_writeDelimitedBytes _ _

theorem endAlike_sendRequest (rpc : RequestHeaderProto) (request : Req) :
    EndAlike Eq (sendRequest ep rpc request) (sendRequest ep rpc request) := by
  refine endAlike_setDeadline.bind_same fun _ => ?_
  refine (endAlike_marshal _).bind_same fun header => ?_
  refine (endAlike_marshal _).bind_same fun requestHeader => ?_
  refine (endAlike_marshal _).bind_same fun param => ?_
  refine (endAlike_write _ _).bind_same fun _ => ?_
  refine (endAlike_writeDelimitedBytes _ _).bind_same fun _ => ?_
  exact (endAlike_writeDelimitedBytes _ _).bind_same fun _ => endAlike_writeDelimitedBytes _ _

/-- **The server.** With any other token in the place of the one for the server, a call has the same
outcome: the same message, error or panic, whatever the server sends and whatever fails. So a server
that does not have the token is not found out. -/
theorem outcome_call_withToken (rpc : RequestHeaderProto) (request : Req) (w : World)
    (token : TokenProto) (hsome : (ep.userTokens ep.client.serverAddress).isSome)
    (hmarshal : ep.codec.MarshalsSasl) :
    outcome (call (ep.withToken token) rpc request) w = outcome (call ep rpc request) w := by
  have hsasl : authProtocol ep = .sasl := if_pos hsome
  have hsasl' : authProtocol (ep.withToken token) = .sasl := by
    simp [authProtocol, findUsableTokenForService, Endpoint.withToken]
  refine EndAlike.outcome_eq ?_ w
  rw [call_eq_connect, call_eq_connect, connect, connect, hsasl, hsasl', authenticate, authenticate,
    if_pos hsasl, if_pos hsasl']
  simp only [bind_assoc]
  refine (EndAlike.pureResult _).bind_same fun _ => ?_
  refine (endAlike_perform _ _).bind_same fun _ => ?_
  refine (endAlike_negotiateSimpleTokenAuth token hmarshal).bind fun _ _ _ => ?_
  refine (@endAlike_writeConnectionContext _ _ ep _).bind_same fun _ => ?_
  refine (@endAlike_sendRequest _ _ ep rpc request).bind_same fun _ => ?_
  exact (@endAlike_readResponse _ _ ep).thenClose

/-- A client with another password, against a server that accepts whatever it is sent. -/
theorem outcome_call_withToken_acceptingServer :
    outcome (call (Protobuf.tokenEndpoint.withToken ⟨ascii "owner", ascii "guess"⟩)
      Protobuf.serviceStatusRpc []) (Protobuf.calmWorld acceptingServer) = .ok (some []) := by
  have hmarshal : Protobuf.tokenEndpoint.codec.MarshalsSasl := by
    intro m hstate _
    simpa [Protobuf.tokenEndpoint, Protobuf.plainEndpoint, Protobuf.codec, Protobuf.marshalSasl]
      using hstate
  rw [outcome_call_withToken _ _ _ _ (by decide +kernel) hmarshal]
  exact outcome_acceptingServer

end YarnCopilot.Ipc
