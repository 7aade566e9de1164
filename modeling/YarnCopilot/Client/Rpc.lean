import YarnCopilot.Client.Failover
import YarnCopilot.Ipc.Exchange

/-!
# Requests on the wire

Reference: `GetCalleeRPCRequestHeaderProto` of `pkg/yarn/apis/auth/auth.go`, the service clients of
`pkg/yarn/apis/service`, and `GetActiveRMID` of `pkg/yarn/client/client.go`.

The client of this directory takes the answers of the resource managers as they are given. Each of
them is one `Call` over a connection of its own: `Connection` is such a connection with the RPC
client that uses it, and its answer is what the call returns. `delivers_of_answer` says what an
answer stands for: the server has read the request off the connection and sent the answer back.
-/

namespace YarnCopilot.Client

open Session

/-! ## The services -/

/-- `GetCalleeRPCRequestHeaderProto`, for the method that calls it. -/
def getCalleeRPCRequestHeaderProto (callee protocolName : String) : Ipc.RequestHeaderProto :=
  ⟨ascii callee.decapitalize, ascii protocolName, 1⟩

/-- The request header of `HAServiceProtocolServiceClient.GetServiceStatus`. -/
def getServiceStatusRpc : Ipc.RequestHeaderProto :=
  getCalleeRPCRequestHeaderProto "GetServiceStatus" "org.apache.hadoop.ha.HAServiceProtocol"

example : getServiceStatusRpc = Ipc.Protobuf.serviceStatusRpc := by decide +kernel

/-- The request header of `ApplicationClientProtocolServiceClient.GetClusterNodes`. -/
def getClusterNodesRpc : Ipc.RequestHeaderProto :=
  getCalleeRPCRequestHeaderProto "GetClusterNodes"
    "org.apache.hadoop.yarn.api.ApplicationClientProtocolPB"

/-- The request header of
`ResourceManagerAdministrationProtocolServiceClient.UpdateNodeResource`. -/
def updateNodeResourceRpc : Ipc.RequestHeaderProto :=
  getCalleeRPCRequestHeaderProto "UpdateNodeResource"
    "org.apache.hadoop.yarn.server.api.ResourceManagerAdministrationProtocolPB"

/-! ## Connections -/

/-- A request to the server at an address: the RPC client that `Dial...Service` makes for it, and
the new connection it gets. The server sends nothing that the client does not survive. -/
structure Connection (rpc : Ipc.RequestHeaderProto) (Req Resp : Type) (address : String) where
  endpoint : Ipc.Endpoint Req Resp
  world : World
  serverAddress : endpoint.client.serverAddress = address.toUTF8.toList
  fresh : world.trace = []
  survives : ∀ request panic, outcome (Ipc.call endpoint rpc request) world ≠ .error (.panic panic)

namespace Connection

variable {rpc : Ipc.RequestHeaderProto} {Req Resp : Type} {address : String}
  (c : Connection rpc Req Resp address) (request : Req) (m : Resp)

/-- What the request returns, unless it fails. -/
def answer : Option Resp :=
  match outcome (Ipc.call c.endpoint rpc request) c.world with
  | .ok m => m
  | .error _ => none

/-- What happens on the connection. -/
def trace : List Event := (final (Ipc.call c.endpoint rpc request) c.world).trace

/-- The server has sent the message as its response, and reads the request behind what the protocol
puts before it, if no frame is too long for its length field. -/
def Delivers : Prop :=
  ∃ x : Ipc.Exchange c.endpoint rpc request c.world.inbound, x.response.message = m ∧
    ((∀ msgs ∈ x.frames, (Ipc.payload msgs).length < 2 ^ 31) →
      Ipc.serverReads (sentBytes (c.trace request)) =
        some ((Ipc.authProtocol c.endpoint).byte, x.frames))

variable {c request m}

/-- An answer is a message of the server, which has read the request. -/
theorem delivers_of_answer (h : c.answer request = some m) : c.Delivers request m := by
  rw [answer] at h
  cases hcall : Ipc.call c.endpoint rpc request c.world with
  | error e w =>
    simp only [outcome, hcall] at h
    cases h
  | ok r w =>
    simp only [outcome, hcall] at h
    subst h
    obtain ⟨x, -, hm, hw⟩ := (Ipc.call_eq_ok_iff c.endpoint rpc request).mp hcall
    obtain ⟨evs, htrace, hreads⟩ := x.serverReads_world c.world
    refine ⟨x, (Option.some.inj hm).symm, fun hlen => ?_⟩
    rw [trace, final, hcall, hw, htrace, c.fresh, List.nil_append]
    exact hreads hlen

/-- Over a connection without a token the server reads the context and the request. -/
theorem Delivers.serverReads_of_plain (h : c.Delivers request m)
    (hplain : Ipc.authProtocol c.endpoint = .none)
    (hcontext : ∀ msgs, Ipc.contextMessages c.endpoint rpc.declaringClassProtocolName = some msgs →
      (Ipc.payload msgs).length < 2 ^ 31)
    (hrequest : ∀ msgs, Ipc.requestMessages c.endpoint rpc request = some msgs →
      (Ipc.payload msgs).length < 2 ^ 31) :
    ∃ context requests,
      Ipc.contextMessages c.endpoint rpc.declaringClassProtocolName = some context ∧
      Ipc.requestMessages c.endpoint rpc request = some requests ∧
      Ipc.serverReads (sentBytes (c.trace request)) =
        some (Ipc.AuthProtocol.none.byte, [context, requests]) := by
  obtain ⟨x, -, hreads⟩ := h
  rw [x.frames_of_plain hplain, hplain] at hreads
  refine ⟨x.context, x.requests, x.context_eq, x.requests_eq, hreads ?_⟩
  simpa using ⟨hcontext _ x.context_eq, hrequest _ x.requests_eq⟩

end Connection

/-! ## The address of a request -/

variable {α : Type} {service : Service α} {c c' : YarnClient} {a : α}

/-- The address at which a client asks a service: the one it holds, else the plain one of its
configuration. -/
def Service.addressFor (service : Service α) (c : YarnClient) : Option String :=
  (service.address c).or (c.conf.map service.plain)

theorem addressFor_of_dial {ready : Bool} {address : String}
    (h : dial ready c.conf service.plain (service.address c) = .to address) :
    service.addressFor c = some address := by
  unfold dial at h
  split at h
  · cases h
  · rw [Service.addressFor]
    cases haddress : service.address c with
    | some held =>
      simp only [haddress, Sent.to.injEq] at h
      rw [h, Option.some_or]
    | none =>
      cases hconf : c.conf with
      | none =>
        simp only [haddress, hconf] at h
        cases h
      | some conf =>
        simp only [haddress, hconf, Sent.to.injEq] at h
        simp [h]

/-- What a request returns is what the service answers at the address that the client then has for
it. -/
theorem answer_of_askReinitializing (h : c.askReinitializing service = (c', .answer a)) :
    ∃ address, service.addressFor c' = some address ∧ service.answer address = some a := by
  have hask : c.ask service = (c', .answer a) := by
    rw [YarnClient.askReinitializing] at h
    rcases hreply : c.ask service with ⟨d, reply⟩
    rw [hreply] at h
    cases reply with
    | answer _ => exact h
    | failed => cases (Prod.mk.inj h).2
    | panic => cases (Prod.mk.inj h).2
  rw [YarnClient.ask] at hask
  rcases hsent : c.request service.init service.ready service.plain service.address with ⟨d, sent⟩
  rw [hsent] at hask
  rcases sent with address | _ | _
  · obtain ⟨rfl, hanswer⟩ := Prod.mk.inj hask
    have hdial : dial service.ready d.conf service.plain (service.address d) = .to address := by
      rw [YarnClient.request] at hsent
      split at hsent
      · rcases hinit : c.initializeClient service.init with ⟨e, ok⟩
        rw [hinit] at hsent
        cases ok with
        | false => cases (Prod.mk.inj hsent).2
        | true =>
          obtain ⟨rfl, hdial⟩ := Prod.mk.inj hsent
          exact hdial
      · obtain ⟨rfl, hdial⟩ := Prod.mk.inj hsent
        exact hdial
    refine ⟨address, addressFor_of_dial hdial, ?_⟩
    cases hservice : service.answer address with
    | none =>
      rw [hservice] at hanswer
      cases hanswer
    | some b =>
      rw [hservice] at hanswer
      exact congrArg some (Reply.answer.inj hanswer)
  · cases (Prod.mk.inj hask).2
  · cases (Prod.mk.inj hask).2

/-! ## The origin of an address -/

/-- What the client has comes from an `Initialize` in one of the environments: its configuration was
loaded there, and it holds no addresses or what the factory would give there. -/
structure Found (known : InitEnv → Prop) (c : YarnClient) : Prop where
  loaded : ∀ conf, c.conf = some conf →
    ∃ env, known env ∧ Config.newYarnConfiguration env.files c.clusterID = some conf
  held : (c.activeRMAdminAddress = none ∧ c.activeRMAddress = none) ∨
    ∃ env, known env ∧ Settled env c

variable {known : InitEnv → Prop}

theorem Found.mono {known' : InitEnv → Prop} (h : Found known c)
    (hle : ∀ env, known env → known' env) : Found known' c where
  loaded conf hconf := (h.loaded conf hconf).imp fun env henv => ⟨hle env henv.1, henv.2⟩
  held := h.held.imp_right fun ⟨env, henv, hsettled⟩ => ⟨env, hle env henv, hsettled⟩

/-- Without an admin address there is none. -/
theorem Found.of_admin_none (h : Found known c) (hadmin : c.activeRMAdminAddress = none) :
    c.activeRMAddress = none := by
  rcases h.held with ⟨-, hrm⟩ | ⟨env, -, hsettled⟩
  · exact hrm
  · have hsome := (of_createYarnClientByClusterID hsettled).2.2.1
    rw [hadmin] at hsome
    cases hsome

/-- `Initialize` has loaded the configuration, or leaves it. -/
theorem conf_initializeClient (env : InitEnv) (c : YarnClient) :
    (c.initializeClient env).1.conf = Config.newYarnConfiguration env.files c.clusterID ∨
      (c.initializeClient env).1.conf = c.conf := by
  rw [YarnClient.initializeClient]
  cases Config.newYarnConfiguration env.files c.clusterID with
  | none => exact .inr rfl
  | some conf =>
    left
    dsimp only
    cases conf.getRMEnabledHA with
    | none => rfl
    | some ha =>
      cases ha with
      | false => rfl
      | true => cases getActiveRMID conf env <;> rfl

/-- A client from the factory. -/
theorem found_of_create {env : InitEnv} {clusterID : String} (henv : known env)
    (h : createYarnClientByClusterID env clusterID = some c) : Found known c := by
  refine ⟨fun conf hconf => ⟨env, henv, ?_⟩, .inr ⟨env, henv, settled_of_create h⟩⟩
  have hnew := createYarnClientByClusterID_eq_some_iff.mp h
  have hload := conf_initializeClient env (newYarnClient clusterID)
  rw [hnew, hconf] at hload
  rcases hload with hload | hload
  · rw [(of_createYarnClientByClusterID h).1, hload]
    rfl
  · cases hload

/-- `Initialize` on a client without addresses. -/
theorem Found.initializeClient {env : InitEnv} (h : Found known c) (henv : known env)
    (hadmin : c.activeRMAdminAddress = none) : Found known (c.initializeClient env).1 := by
  constructor
  · intro conf hconf
    rw [clusterID_initializeClient]
    rcases conf_initializeClient env c with hload | hsame
    · exact ⟨env, henv, hload.symm.trans hconf⟩
    · exact h.loaded conf (hsame.symm.trans hconf)
  · rcases initializeClient_cases env hadmin (h.of_admin_none hadmin) with
      ⟨-, hadmin', hrm'⟩ | ⟨hok, -, -⟩
    · exact .inl ⟨hadmin', hrm'⟩
    · rcases hinit : c.initializeClient env with ⟨d, ok⟩
      rw [hinit] at hok
      obtain rfl : ok = true := hok
      exact .inr ⟨env, henv, settled_of_create ((initializeClient_eq_iff rfl).mp hinit)⟩

/-- A request leaves its client with what was found. -/
theorem Found.askReinitializing (h : Found known c) (hinit : known service.init)
    (hreinit : known service.reinit) :
    Found known (c.askReinitializing service).1 := by
  have hrequest :
      Found known (c.request service.init service.ready service.plain service.address).1 := by
    rw [YarnClient.request]
    split
    · rename_i hlazy
      have hnew := h.initializeClient hinit hlazy.1
      generalize c.initializeClient service.init = r at hnew ⊢
      obtain ⟨d, ok⟩ := r
      cases ok <;> exact hnew
    · exact h
  have hask : Found known (c.ask service).1 := by
    rw [YarnClient.ask]
    generalize c.request service.init service.ready service.plain service.address = r at hrequest ⊢
    obtain ⟨d, sent⟩ := r
    rcases sent with _ | _ | _ <;> exact hrequest
  rw [YarnClient.askReinitializing]
  generalize c.ask service = r at hask ⊢
  obtain ⟨d, reply⟩ := r
  cases reply with
  | answer _ => exact hask
  | panic => exact hask
  | failed =>
    have hclosed : Found known d.close := ⟨hask.loaded, .inl ⟨rfl, rfl⟩⟩
    exact hclosed.initializeClient hreinit rfl

end YarnCopilot.Client
