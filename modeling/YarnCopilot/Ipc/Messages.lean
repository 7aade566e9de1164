import YarnCopilot.Ipc.Wire
import YarnCopilot.Security.DigestMd5

/-!
# Messages of the Hadoop RPC protocol

Reference: `pkg/yarn/apis/proto/hadoopcommon/RpcHeader.proto` and `IpcConnectionContext.proto`.

The fields that `pkg/yarn/client/ipc/client.go` reads or sets. An optional or required field of the
proto is a pointer in Go and an `Option` here; the getters return the zero value of an absent field.
Enumerations are open in Go, hence the `unrecognized` constructors. The wire form of the messages is
the protobuf library's business: `Codec` stands for `proto.Marshal` and `proto.Unmarshal`, with
`none` for an error.
-/

namespace YarnCopilot.Ipc

/-- `RpcResponseHeaderProto.RpcStatusProto`. -/
inductive RpcStatusProto
  | SUCCESS
  | ERROR
  | FATAL
  | unrecognized (n : ℤ)
deriving DecidableEq, Repr

/-- The generated `String` method. -/
def RpcStatusProto.string : RpcStatusProto → Bytes
  | .SUCCESS => ascii "SUCCESS"
  | .ERROR => ascii "ERROR"
  | .FATAL => ascii "FATAL"
  | .unrecognized n => ascii (toString n)

/-- `RpcResponseHeaderProto.RpcErrorCodeProto`. -/
inductive RpcErrorCodeProto
  | ERROR_APPLICATION
  | ERROR_NO_SUCH_METHOD
  | ERROR_NO_SUCH_PROTOCOL
  | ERROR_RPC_SERVER
  | ERROR_SERIALIZING_RESPONSE
  | ERROR_RPC_VERSION_MISMATCH
  | FATAL_UNKNOWN
  | FATAL_UNSUPPORTED_SERIALIZATION
  | FATAL_INVALID_RPC_HEADER
  | FATAL_DESERIALIZING_REQUEST
  | FATAL_VERSION_MISMATCH
  | FATAL_UNAUTHORIZED
  | unrecognized (n : ℤ)
deriving DecidableEq, Repr

/-- The generated `String` method. -/
def RpcErrorCodeProto.string : RpcErrorCodeProto → Bytes
  | .ERROR_APPLICATION => ascii "ERROR_APPLICATION"
  | .ERROR_NO_SUCH_METHOD => ascii "ERROR_NO_SUCH_METHOD"
  | .ERROR_NO_SUCH_PROTOCOL => ascii "ERROR_NO_SUCH_PROTOCOL"
  | .ERROR_RPC_SERVER => ascii "ERROR_RPC_SERVER"
  | .ERROR_SERIALIZING_RESPONSE => ascii "ERROR_SERIALIZING_RESPONSE"
  | .ERROR_RPC_VERSION_MISMATCH => ascii "ERROR_RPC_VERSION_MISMATCH"
  | .FATAL_UNKNOWN => ascii "FATAL_UNKNOWN"
  | .FATAL_UNSUPPORTED_SERIALIZATION => ascii "FATAL_UNSUPPORTED_SERIALIZATION"
  | .FATAL_INVALID_RPC_HEADER => ascii "FATAL_INVALID_RPC_HEADER"
  | .FATAL_DESERIALIZING_REQUEST => ascii "FATAL_DESERIALIZING_REQUEST"
  | .FATAL_VERSION_MISMATCH => ascii "FATAL_VERSION_MISMATCH"
  | .FATAL_UNAUTHORIZED => ascii "FATAL_UNAUTHORIZED"
  | .unrecognized n => ascii (toString n)

/-- The header of a response. -/
structure RpcResponseHeaderProto where
  status : Option RpcStatusProto := none
  exceptionClassName : Option Bytes := none
  errorMsg : Option Bytes := none
  errorDetail : Option RpcErrorCodeProto := none
  clientId : Option GoSlice := none
deriving DecidableEq, Repr

/-- `RpcSaslProto.SaslState`. -/
inductive SaslState
  | SUCCESS
  | NEGOTIATE
  | INITIATE
  | CHALLENGE
  | RESPONSE
  | WRAP
  | unrecognized (n : ℤ)
deriving DecidableEq, Repr

/-- `RpcSaslProto.SaslAuth`. -/
structure SaslAuth where
  method : Option Bytes := none
  mechanism : Option Bytes := none
  protocol : Option Bytes := none
  serverId : Option Bytes := none
  challenge : Option Bytes := none
deriving DecidableEq, Repr

/-- A message of the SASL negotiation. -/
structure RpcSaslProto where
  state : Option SaslState := none
  token : Option Bytes := none
  auths : List SaslAuth := []
deriving DecidableEq, Repr

/-- `GetState`: the zero value of the enumeration is `SUCCESS`. -/
def RpcSaslProto.getState (m : RpcSaslProto) : SaslState := m.state.getD .SUCCESS

/-- `RpcRequestHeaderProto`; kind and operation are always `RPC_PROTOCOL_BUFFER` and
`RPC_FINAL_PACKET`. -/
structure RpcRequestHeaderProto where
  callId : ℤ
  clientId : Bytes
  retryCount : ℤ
deriving DecidableEq, Repr

/-- `UserInformationProto`. -/
structure UserInformationProto where
  effectiveUser : Option Bytes
  realUser : Option Bytes
deriving DecidableEq, Repr

/-- `CreateSimpleUGIProto`; the name of the user is absent when `user.Current` fails. -/
def createSimpleUGIProto (username : Option Bytes) : Option UserInformationProto :=
  username.map fun username => ⟨none, some username⟩

/-- `IpcConnectionContextProto`. -/
structure IpcConnectionContextProto where
  userInfo : Option UserInformationProto
  protocol : Bytes
deriving DecidableEq, Repr

/-- `RequestHeaderProto`. -/
structure RequestHeaderProto where
  methodName : Bytes
  declaringClassProtocolName : Bytes
  clientProtocolVersion : ℕ
deriving DecidableEq, Repr

/-- The protobuf codec on the messages of one call with requests `Req` and responses `Resp`. -/
structure Codec (Req Resp : Type) where
  marshalRpcRequestHeader : RpcRequestHeaderProto → Option Bytes
  marshalSasl : RpcSaslProto → Option Bytes
  marshalContext : IpcConnectionContextProto → Option Bytes
  marshalRequestHeader : RequestHeaderProto → Option Bytes
  marshalRequest : Req → Option Bytes
  unmarshalRpcResponseHeader : Bytes → Option RpcResponseHeaderProto
  unmarshalSasl : Bytes → Option RpcSaslProto
  unmarshalResponse : Bytes → Option Resp

/-- `proto.Unmarshal` rejects a response header without its required `status`. -/
def Codec.RequiresStatus {Req Resp : Type} (codec : Codec Req Resp) : Prop :=
  ∀ b h, codec.unmarshalRpcResponseHeader b = some h → h.status.isSome

/-- `proto.Unmarshal` rejects a SASL message without its required `state`. -/
def Codec.RequiresState {Req Resp : Type} (codec : Codec Req Resp) : Prop :=
  ∀ b m, codec.unmarshalSasl b = some m → m.state.isSome

end YarnCopilot.Ipc
