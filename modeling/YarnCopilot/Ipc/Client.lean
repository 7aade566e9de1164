import YarnCopilot.Ipc.Messages

/-!
# The RPC client

Reference: `pkg/yarn/client/ipc/client.go`.

Each function of the file is a session over the connection, with the steps in source order. A read
leaves the rest of a zeroed buffer untouched (`fill`), as the bare `Read` calls of the source do.
`bufio` only decides how much is read ahead on a connection that is closed next, so `io.ReadFull`
works on the segments directly.
-/

namespace YarnCopilot.Ipc

open Session Security

/-- A client: its 16-byte id, the user it is for, and the server it talks to. The user information
is absent in a client for the HA service when `user.Current` fails: `DialHAServiceProtocolService`
drops the error. -/
structure Client where
  clientId : Bytes
  ugi : Option UserInformationProto
  serverAddress : Bytes
  clientId_length : clientId.length = 16

/-- The user of the connection id, behind two pointers. -/
def Client.realUser (client : Client) : Except (Fault GoError) Bytes :=
  match client.ugi.bind UserInformationProto.realUser with
  | some user => .ok user
  | none => .error (.panic .nilPointer)

/-- Everything a call depends on besides its arguments and the connection: the client, the protobuf
codec, the crypto library, the tokens of the current user and the name `user.Current` returns. -/
structure Endpoint (Req Resp : Type) where
  client : Client
  codec : Codec Req Resp
  crypto : Crypto
  userTokens : Bytes → Option TokenProto
  currentUser : Option Bytes

/-- `AuthProtocol`. -/
inductive AuthProtocol
  | none
  | sasl
deriving DecidableEq, Repr

/-- The byte of the connection header that announces the protocol. -/
def AuthProtocol.byte : AuthProtocol → UInt8
  | .none => 0x00
  | .sasl => 0xDF

/-- `SetDeadline` on the connection. -/
def setDeadline : Session GoError Unit := attempt .io .configure

/-- `conn.Write`. -/
def write (bs : Bytes) : Session GoError Unit := attempt .io (.write bs)

/-- `proto.Marshal`. -/
def marshal : Option Bytes → Session GoError Bytes
  | some bs => pure bs
  | none => throw (.err .codec)

/-- `make([]byte, n)`. -/
def makeSlice (n : ℤ) : Except (Fault GoError) ℕ :=
  if n < 0 then .error (.panic .makeSlice) else .ok n.toNat

/-! ## Writing -/

/-- `writeDelimitedBytes`. -/
def writeDelimitedBytes (data : Bytes) : Session GoError Unit := do
  write (Varint.encode data.length)
  write data

/-- `writeConnectionHeader`: magic, version, service class and auth protocol. -/
def writeConnectionHeader (authProtocol : AuthProtocol) : Session GoError Unit := do
  setDeadline
  write (ascii "hrpc")
  write [0x09]
  write [0x00]
  write [authProtocol.byte]

variable {Req Resp : Type} (ep : Endpoint Req Resp)

/-- `writeConnectionContext`. -/
def writeConnectionContext (protocol : Bytes) : Session GoError Unit := do
  setDeadline
  let header ← marshal (ep.codec.marshalRpcRequestHeader
    { callId := -3, clientId := ep.client.clientId, retryCount := -1 })
  let ctx ← marshal (ep.codec.marshalContext
    { userInfo := createSimpleUGIProto ep.currentUser, protocol })
  let totalLength := header.length + sizeVarint header.length + ctx.length + sizeVarint ctx.length
  write (be32 (int32 totalLength))
  writeDelimitedBytes header
  writeDelimitedBytes ctx

/-- `sendRequest`. -/
def sendRequest (rpc : RequestHeaderProto) (request : Req) : Session GoError Unit := do
  setDeadline
  let header ← marshal (ep.codec.marshalRpcRequestHeader
    { callId := 0, clientId := ep.client.clientId, retryCount := 0 })
  let requestHeader ← marshal (ep.codec.marshalRequestHeader rpc)
  let param ← marshal (ep.codec.marshalRequest request)
  let totalLength := header.length + sizeVarint header.length + requestHeader.length +
    sizeVarint requestHeader.length + param.length + sizeVarint param.length
  write (be32 (int32 totalLength))
  writeDelimitedBytes header
  writeDelimitedBytes requestHeader
  writeDelimitedBytes param

/-- `sendSaslMessage`. -/
def sendSaslMessage (message : RpcSaslProto) : Session GoError Unit := do
  let header ← marshal (ep.codec.marshalRpcRequestHeader
    { callId := -33, clientId := [], retryCount := -1 })
  let body ← marshal (ep.codec.marshalSasl message)
  let totalLength := header.length + sizeVarint header.length + body.length + sizeVarint body.length
  setDeadline
  write (be32 (int32 totalLength))
  writeDelimitedBytes header
  writeDelimitedBytes body

/-! ## Reading -/

/-- `checkRpcHeader`: a client id of the response has to start with the client's own. -/
def checkRpcHeader (client : Client) (header : RpcResponseHeaderProto) :
    Except (Fault GoError) Unit :=
  match header.clientId with
  | none => .ok ()
  | some headerClientId => do
    let id ← headerClientId.slicePrefix 16
    if id = client.clientId then .ok () else .error (.err (.text (ascii "Incorrect clientId")))

/-- `checkSaslRpcHeader`: the id of a SASL response is empty. -/
def checkSaslRpcHeader (header : RpcResponseHeaderProto) : Except (Fault GoError) Unit :=
  match header.clientId with
  | none => .ok ()
  | some headerClientId =>
    if headerClientId.data = [] then .ok ()
    else .error (.err (.text (ascii "Incorrect clientId")))

/-- The error text of a failed RPC. Each detail of the header replaces the entry before the one
its placeholder names, so the exception class stands in the place of the status. -/
def rpcErrorText (status : RpcStatusProto) (header : RpcResponseHeaderProto) : Bytes :=
  (ascii ":").intercalate [header.exceptionClassName.getD status.string,
    header.errorMsg.getD (ascii "ServerDidNotSetExceptionClassName"),
    (header.errorDetail.map RpcErrorCodeProto.string).getD (ascii "ServerDidNotSetErrorMsg"),
    ascii "ServerDidNotSetErrorDetail"]

/-- The common part of `readResponse` and `receiveSaslMessage`: the header, its check, and the
message behind it when the status is `SUCCESS`. A header that was not filled in has no status to
dereference. -/
def parseReply {M : Type} (unmarshalHeader : Bytes → Option RpcResponseHeaderProto)
    (check : RpcResponseHeaderProto → Except (Fault GoError) Unit)
    (unmarshal : Bytes → Option M) (responseBytes : Bytes) :
    Except (Fault GoError) (Option M) := do
  let (off, header) ← readDelimited unmarshalHeader responseBytes
  let header := header.getD {}
  check header
  match header.status with
  | none => .error (.panic .nilPointer)
  | some .SUCCESS => do
    let rest ← sliceBytes responseBytes off responseBytes.length
    let (_, m) ← readDelimited unmarshal rest
    .ok m
  | some status => .error (.err (.text (rpcErrorText status header)))

/-- The decoding part of `readResponse`. -/
def parseResponse (responseBytes : Bytes) : Except (Fault GoError) (Option Resp) :=
  parseReply ep.codec.unmarshalRpcResponseHeader (checkRpcHeader ep.client)
    ep.codec.unmarshalResponse responseBytes

/-- The decoding part of `receiveSaslMessage`. -/
def parseSaslMessage (responseBytes : Bytes) : Except (Fault GoError) (Option RpcSaslProto) :=
  parseReply ep.codec.unmarshalRpcResponseHeader checkSaslRpcHeader ep.codec.unmarshalSasl
    responseBytes

/-- `readResponse`: the length with a bare `Read`, the body with `io.ReadFull`. -/
def readResponse : Session GoError (Option Resp) := do
  let lengthBytes ← read .io 4
  let totalLength ← pureResult (makeSlice (ofBe32 (fill 4 lengthBytes)))
  let responseBytes ← readFull .io totalLength
  pureResult (parseResponse ep responseBytes)

/-- `receiveSaslMessage`: both the length and the body with a bare `Read`. The message is the zero
value when nothing was filled in. -/
def receiveSaslMessage : Session GoError RpcSaslProto := do
  setDeadline
  let lengthBytes ← read .io 4
  let totalLength ← pureResult (makeSlice (ofBe32 (fill 4 lengthBytes)))
  let responseBytes ← read .io totalLength
  let message ← pureResult (parseSaslMessage ep (fill totalLength responseBytes))
  pure (message.getD {})

/-! ## The call -/

/-- `findUsableTokenForService`. -/
def findUsableTokenForService (service : Bytes) : Option TokenProto := ep.userTokens service

/-- The `NEGOTIATE` message. -/
def saslNegotiateMessage : RpcSaslProto := { state := some .NEGOTIATE }

/-- The `INITIATE` message for the chosen mechanism. -/
def saslInitiateMessage (auth : SaslAuth) (response : Bytes) : RpcSaslProto :=
  { state := some .INITIATE
    token := some response
    auths := [{ method := some (auth.method.getD [])
                mechanism := some (auth.mechanism.getD [])
                protocol := some (auth.protocol.getD [])
                serverId := some (auth.serverId.getD []) }] }

/-- The digest response to the challenge of `auth`. -/
def digestResponse (auth : SaslAuth) : Except (Fault GoError) Bytes :=
  getDigestMD5ChallengeResponse ep.crypto (auth.protocol.getD []) (auth.serverId.getD [])
    (auth.challenge.getD []) (findUsableTokenForService ep ep.client.serverAddress)

/-- The one mechanism the client supports. -/
abbrev IsTokenDigest (auth : SaslAuth) : Prop :=
  auth.method.getD [] = ascii "TOKEN" ∧ auth.mechanism.getD [] = ascii "DIGEST-MD5"

/-- The second half of `negotiateSimpleTokenAuth`: answer the challenge of `auth` and wait for the
server's verdict. -/
def answerChallenge (auth : SaslAuth) : Session GoError Unit := do
  let response ← pureResult (digestResponse ep auth)
  sendSaslMessage ep (saslInitiateMessage auth response)
  let reply ← receiveSaslMessage ep
  if reply.getState ≠ .SUCCESS then throw (.err (.text (ascii "expected SASL SUCCESS response!")))
  else pure ()

/-- `negotiateSimpleTokenAuth`. Only the first mechanism of the server's list is considered. -/
def negotiateSimpleTokenAuth : Session GoError Unit := do
  sendSaslMessage ep saslNegotiateMessage
  let reply ← receiveSaslMessage ep
  match reply.auths with
  | [] => throw (.err (.text (ascii "No supported auth mechanisms!")))
  | auth :: _ =>
    if IsTokenDigest auth then answerChallenge ep auth
    else throw (.err (.text (ascii "yarnauth only supports TOKEN/DIGEST-MD5 auth!")))

/-- `setupConnection`: dial, the check that it is a TCP connection, and `SetNoDelay`. -/
def setupConnection : Session GoError Unit := do
  attempt .io .dial
  attempt .io .configure
  attempt .io .configure

/-- The auth protocol of a call: SASL exactly when there is a token for the server. -/
def authProtocol : AuthProtocol :=
  if (findUsableTokenForService ep ep.client.serverAddress).isSome then .sasl else .none

/-- `getConnection`. -/
def getConnection (protocol : Bytes) : Session GoError Unit := do
  setupConnection
  writeConnectionHeader (authProtocol ep)
  if authProtocol ep = .sasl then negotiateSimpleTokenAuth ep else pure ()
  writeConnectionContext ep protocol

/-- `Client.Call`. It dereferences the user before anything else, and the only `Close` is the one
after `readResponse`. -/
def call (rpc : RequestHeaderProto) (request : Req) : Session GoError (Option Resp) := do
  let _ ← pureResult ep.client.realUser
  getConnection ep rpc.declaringClassProtocolName
  sendRequest ep rpc request
  thenClose (readResponse ep)

end YarnCopilot.Ipc
