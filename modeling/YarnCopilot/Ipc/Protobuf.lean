import YarnCopilot.Ipc.Client

/-!
# The protobuf form of the RPC messages

Reference: `pkg/yarn/apis/proto/hadoopcommon/RpcHeader.proto` and `IpcConnectionContext.proto`.

An executable instance of `Codec`. A message is a sequence of tagged fields; a scalar field that
occurs twice keeps its last value, unknown fields are skipped, groups included, and a missing
required field is an error. Requests and responses stay the byte strings they are on the wire.
Theorems about the client hold for every codec; this one evaluates them on real traffic.
-/

namespace YarnCopilot.Ipc.Protobuf

/-! ## Fields -/

/-- A field value: a varint, a length-delimited byte string, a fixed-width number, or a group. -/
inductive Value
  | varint (n : ℕ)
  | bytes (bs : Bytes)
  | fixed
  | group
deriving DecidableEq, Repr

/-- The value behind a tag of the given wire type, and the bytes after it. -/
def parseScalar (wireType : ℕ) (bs : Bytes) : Option (Value × Bytes) :=
  match wireType with
  | 0 =>
    match Varint.consume bs with
    | .ok (v, n) => some (.varint v, bs.drop n)
    | .error _ => none
  | 1 => if 8 ≤ bs.length then some (.fixed, bs.drop 8) else none
  | 2 =>
    match Varint.consume bs with
    | .ok (len, n) =>
      if n + len ≤ bs.length then some (.bytes ((bs.drop n).take len), bs.drop (n + len)) else none
    | .error _ => none
  | 5 => if 4 ≤ bs.length then some (.fixed, bs.drop 4) else none
  | _ => none

/-- A group up to its end tag, and the bytes after it. Groups nest up to a depth. Every tag takes at
least one byte, so the length of the group is enough fuel. -/
def skipGroup : ℕ → ℕ → ℕ → Bytes → Option Bytes
  | 0, _, _, _ => none
  | fuel + 1, depth, number, bs =>
    match Varint.consume bs with
    | .error _ => none
    | .ok (tag, n) =>
      if tag / 8 = 0 ∨ 2 ^ 31 ≤ tag / 8 then none
      else
        match tag % 8, depth with
        | 4, _ => if tag / 8 = number then some (bs.drop n) else none
        | 3, 0 => none
        | 3, depth + 1 => do
          let rest ← skipGroup fuel depth (tag / 8) (bs.drop n)
          skipGroup fuel (depth + 1) number rest
        | wireType, _ => do
          let (_, rest) ← parseScalar wireType (bs.drop n)
          skipGroup fuel depth number rest

/-- The value of a field, and the bytes after it. An end tag without its group is an error. -/
def parseValue (number wireType : ℕ) (bs : Bytes) : Option (Value × Bytes) :=
  if wireType = 3 then (skipGroup bs.length 10000 number bs).map fun rest => (.group, rest)
  else parseScalar wireType bs

/-- The fields of a message with their numbers, which are positive and have 29 bits. Every field
takes at least one byte, so the length of the message is enough fuel. -/
def parseFields : ℕ → Bytes → Option (List (ℕ × Value))
  | _, [] => some []
  | 0, _ :: _ => none
  | fuel + 1, b :: bs =>
    match Varint.consume (b :: bs) with
    | .error _ => none
    | .ok (tag, n) =>
      if tag / 8 = 0 ∨ 2 ^ 29 ≤ tag / 8 then none
      else do
        let (value, rest) ← parseValue (tag / 8) (tag % 8) ((b :: bs).drop n)
        let fields ← parseFields fuel rest
        some ((tag / 8, value) :: fields)

/-- The fields of a message. -/
def parse (bs : Bytes) : Option (List (ℕ × Value)) := parseFields bs.length bs

/-- The last varint with a number. -/
def lastVarint (number : ℕ) (fields : List (ℕ × Value)) : Option ℕ :=
  (fields.filterMap fun f => match f with
    | (k, .varint v) => if k = number then some v else none
    | _ => none).getLast?

/-- All byte strings with a number. -/
def allBytes (number : ℕ) (fields : List (ℕ × Value)) : List Bytes :=
  fields.filterMap fun f => match f with
    | (k, .bytes bs) => if k = number then some bs else none
    | _ => none

/-- The last byte string with a number. -/
def lastBytes (number : ℕ) (fields : List (ℕ × Value)) : Option Bytes :=
  (allBytes number fields).getLast?

/-! ## Responses -/

/-- The number of a status. -/
def statusOf : ℕ → RpcStatusProto
  | 0 => .SUCCESS
  | 1 => .ERROR
  | 2 => .FATAL
  | n => .unrecognized (int32 n)

/-- The number of an error code. -/
def errorCodeOf : ℕ → RpcErrorCodeProto
  | 1 => .ERROR_APPLICATION
  | 2 => .ERROR_NO_SUCH_METHOD
  | 3 => .ERROR_NO_SUCH_PROTOCOL
  | 4 => .ERROR_RPC_SERVER
  | 5 => .ERROR_SERIALIZING_RESPONSE
  | 6 => .ERROR_RPC_VERSION_MISMATCH
  | 10 => .FATAL_UNKNOWN
  | 11 => .FATAL_UNSUPPORTED_SERIALIZATION
  | 12 => .FATAL_INVALID_RPC_HEADER
  | 13 => .FATAL_DESERIALIZING_REQUEST
  | 14 => .FATAL_VERSION_MISMATCH
  | 15 => .FATAL_UNAUTHORIZED
  | n => .unrecognized (int32 n)

/-- The number of a SASL state. -/
def saslStateOf : ℕ → SaslState
  | 0 => .SUCCESS
  | 1 => .NEGOTIATE
  | 2 => .INITIATE
  | 3 => .CHALLENGE
  | 4 => .RESPONSE
  | 5 => .WRAP
  | n => .unrecognized (int32 n)

/-- A decoded byte field: Go's allocator rounds its capacity up to a multiple of eight. -/
def sliceOf (bs : Bytes) : GoSlice := ⟨bs, List.replicate ((8 - bs.length % 8) % 8) 0⟩

/-- `RpcResponseHeaderProto`: `callId` and `status` are required. -/
def unmarshalRpcResponseHeader (bs : Bytes) : Option RpcResponseHeaderProto := do
  let fields ← parse bs
  let _ ← lastVarint 1 fields
  let status ← lastVarint 2 fields
  some { status := some (statusOf status)
         exceptionClassName := lastBytes 4 fields
         errorMsg := lastBytes 5 fields
         errorDetail := (lastVarint 6 fields).map errorCodeOf
         clientId := (lastBytes 7 fields).map sliceOf }

/-- `RpcSaslProto.SaslAuth`: `method` and `mechanism` are required. -/
def unmarshalAuth (bs : Bytes) : Option SaslAuth := do
  let fields ← parse bs
  let method ← lastBytes 1 fields
  let mechanism ← lastBytes 2 fields
  some { method := some method
         mechanism := some mechanism
         protocol := lastBytes 3 fields
         serverId := lastBytes 4 fields
         challenge := lastBytes 5 fields }

/-- `RpcSaslProto`: `state` is required. -/
def unmarshalSasl (bs : Bytes) : Option RpcSaslProto := do
  let fields ← parse bs
  let state ← lastVarint 2 fields
  let auths ← (allBytes 4 fields).mapM unmarshalAuth
  some { state := some (saslStateOf state), token := lastBytes 3 fields, auths }

/-! ## Requests -/

/-- The zigzag form of a signed field. -/
def zigzag (n : ℤ) : ℕ := if 0 ≤ n then (2 * n).toNat else (-2 * n - 1).toNat

/-- A varint field. -/
def varintField (number value : ℕ) : Bytes := Varint.encode (number * 8) ++ Varint.encode value

/-- A length-delimited field. -/
def bytesField (number : ℕ) (value : Bytes) : Bytes :=
  Varint.encode (number * 8 + 2) ++ delimited value

/-- An optional length-delimited field. -/
def optionalField (number : ℕ) : Option Bytes → Bytes
  | none => []
  | some value => bytesField number value

/-- The number of a SASL state. -/
def saslStateNumber : SaslState → ℕ
  | .SUCCESS => 0
  | .NEGOTIATE => 1
  | .INITIATE => 2
  | .CHALLENGE => 3
  | .RESPONSE => 4
  | .WRAP => 5
  | .unrecognized n => (n % 2 ^ 64).toNat

/-- `RpcRequestHeaderProto` with kind `RPC_PROTOCOL_BUFFER` and operation `RPC_FINAL_PACKET`. -/
def marshalRpcRequestHeader (h : RpcRequestHeaderProto) : Bytes :=
  varintField 1 2 ++ varintField 2 0 ++ varintField 3 (zigzag h.callId) ++
    bytesField 4 h.clientId ++ varintField 5 (zigzag h.retryCount)

/-- `RpcSaslProto.SaslAuth`. -/
def marshalAuth (auth : SaslAuth) : Bytes :=
  optionalField 1 auth.method ++ optionalField 2 auth.mechanism ++ optionalField 3 auth.protocol ++
    optionalField 4 auth.serverId ++ optionalField 5 auth.challenge

/-- `RpcSaslProto`; a missing `state` is an error. -/
def marshalSasl (m : RpcSaslProto) : Option Bytes :=
  m.state.map fun state => varintField 2 (saslStateNumber state) ++ optionalField 3 m.token ++
    m.auths.flatMap fun auth => bytesField 4 (marshalAuth auth)

/-- `UserInformationProto`. -/
def marshalUserInfo (userInfo : UserInformationProto) : Bytes :=
  optionalField 1 userInfo.effectiveUser ++ optionalField 2 userInfo.realUser

/-- `IpcConnectionContextProto`. -/
def marshalContext (ctx : IpcConnectionContextProto) : Bytes :=
  optionalField 2 (ctx.userInfo.map marshalUserInfo) ++ bytesField 3 ctx.protocol

/-- `RequestHeaderProto`. -/
def marshalRequestHeader (h : RequestHeaderProto) : Bytes :=
  bytesField 1 h.methodName ++ bytesField 2 h.declaringClassProtocolName ++
    varintField 3 h.clientProtocolVersion

/-- The codec of a call whose request and response are given in wire form. -/
def codec : Codec Bytes Bytes where
  marshalRpcRequestHeader h := some (marshalRpcRequestHeader h)
  marshalSasl := marshalSasl
  marshalContext ctx := some (marshalContext ctx)
  marshalRequestHeader h := some (marshalRequestHeader h)
  marshalRequest := some
  unmarshalRpcResponseHeader := unmarshalRpcResponseHeader
  unmarshalSasl := unmarshalSasl
  unmarshalResponse := some

/-- A decoded response header always has its status. -/
theorem codec_requiresStatus : codec.RequiresStatus := by
  intro bs h hdecode
  simp only [codec, unmarshalRpcResponseHeader, Option.bind_eq_bind, Option.bind_eq_some_iff,
    Option.some.injEq] at hdecode
  obtain ⟨fields, _, _, _, status, _, rfl⟩ := hdecode
  rfl

/-- A decoded SASL message always has its state. -/
theorem codec_requiresState : codec.RequiresState := by
  intro bs m hdecode
  simp only [codec, unmarshalSasl, Option.bind_eq_bind, Option.bind_eq_some_iff,
    Option.some.injEq] at hdecode
  obtain ⟨fields, _, state, _, auths, _, rfl⟩ := hdecode
  rfl

/-- A client without tokens that speaks protobuf. -/
def plainEndpoint : Endpoint Bytes Bytes where
  client := ⟨List.replicate 16 7, createSimpleUGIProto (some (ascii "yarn")), ascii "rm1:8033", rfl⟩
  codec := codec
  crypto := ⟨fun _ => List.replicate 16 0, some (List.replicate 30 0)⟩
  userTokens _ := none
  currentUser := some (ascii "yarn")

/-- The same client with a token for its server. -/
def tokenEndpoint : Endpoint Bytes Bytes :=
  { plainEndpoint with
    userTokens := fun service =>
      if service = ascii "rm1:8033" then some ⟨ascii "owner", ascii "secret"⟩ else none }

/-- A connection on which every step succeeds and on which the server sends `segments`. -/
def calmWorld (segments : List Bytes) : World := ⟨fun _ => none, 0, segments, []⟩

/-- A silent server, and a connection on which the step with index `k` fails. -/
def faultyWorld (k : ℕ) : World := ⟨fun i => if i = k then some 0 else none, 0, [], []⟩

/-- The request header of `GetServiceStatus`. -/
def serviceStatusRpc : RequestHeaderProto :=
  ⟨ascii "getServiceStatus", ascii "org.apache.hadoop.ha.HAServiceProtocol", 1⟩

end YarnCopilot.Ipc.Protobuf
