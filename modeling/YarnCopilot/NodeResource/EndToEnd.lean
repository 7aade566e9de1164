import YarnCopilot.Client.Rpc
import YarnCopilot.NodeResource.HaClusters
import YarnCopilot.NodeResource.Provenance

/-!
# From the wire to the node

Reference: `Reconcile` and `updateYARNNodeResource` of
`pkg/controller/noderesource/resource_sync_controller.go`, `syncYARNNodeAllocatedResource` of
`pkg/yarn/cache/nodes_syncer.go`, `pkg/yarn/client/client.go` and
`pkg/yarn/client/ipc/client.go`.

The operator with its clients takes what YARN answers as given, and the RPC client what a server
sends. Here the one stands on the other: every request of the operator is a call over a connection
of its own, with any bytes of the server that the client survives and any failures on the way.
`end_to_end` says what a `Reconcile` that ends well stands for at both ends: an RM of the cluster of
the node has read its capacity off a connection, and the node records the use that an RM of that
cluster sent over another one.
-/

namespace YarnCopilot.NodeResource

open Cache Config

/-! ## Requests over connections -/

/-- What one `Initialize` meets: the configuration files, and for every position of the RM list the
connection to the RM there. -/
structure InitWire where
  files : String → ConfFile
  status : ℕ → (address : String) →
    Client.Connection Client.getServiceStatusRpc Unit (Option Client.HAServiceStateProto) address

/-- The address at which `GetActiveRMID` asks the RM at a position of the list. -/
def InitWire.rmAdminAddress (init : InitWire) (clusterID : String) (i : ℕ) : Option String := do
  let conf ← newYarnConfiguration init.files clusterID
  let rmID ← conf.getRMs[i]?
  some (conf.getRMAdminAddressByID rmID)

/-- What the RMs of a cluster answer over these connections. -/
def InitWire.env (init : InitWire) (clusterID : String) : Client.InitEnv where
  files := init.files
  answer i := do
    let address ← init.rmAdminAddress clusterID i
    (init.status i address).answer ()

/-- What one request through a client meets: an `Initialize` on the way, the `Reinitialize` after a
failure, whether the RPC client can be made, and the connection to the address it goes to. -/
structure Wire where
  init : InitWire
  reinit : InitWire
  ready : Bool
  nodes : (address : String) →
    Client.Connection Client.getClusterNodesRpc Unit (List NodeReportProto) address
  update : (address : String) →
    Client.Connection Client.updateNodeResourceRpc UpdateNodeResourceRequest Unit address

/-- What the request returns. -/
def Wire.net (wire : Wire) : Net where
  init := wire.init.env
  reinit := wire.reinit.env
  ready := wire.ready
  nodes address := (wire.nodes address).answer ()
  accepts address request := ((wire.update address).answer request).isSome

/-- A step of the operator, with the connections its requests get. -/
inductive WireAct
  | pass (wires : String → Wire) (order : RangeOrder String)
  | reconcile (made : InitWire) (wire : Wire) (name : String) (node : GetNode)
      (pods : Option (List Pod)) (patchOk : Bool)

def WireAct.act : WireAct → HaAct
  | .pass wires order => .pass (fun id => (wires id).net) order
  | .reconcile made wire name node pods patchOk =>
    .reconcile made.env wire.net name node pods patchOk

/-- The connections of the `Initialize`s of a wire are among the given ones. -/
def Wire.Within (wire : Wire) (inits : InitWire → Prop) : Prop :=
  inits wire.init ∧ inits wire.reinit

/-- The `Initialize`s of a step. -/
def WireAct.Inits : WireAct → InitWire → Prop
  | .pass wires _, init => ∃ id, init = (wires id).init ∨ init = (wires id).reinit
  | .reconcile made wire _ _ _ _, init => init = made ∨ init = wire.init ∨ init = wire.reinit

/-- One step of the operator on the wire. -/
def wireStep (lib : Library) (s : HaState) (act : WireAct) : HaState := haStep lib s act.act

/-- The `Initialize`s of the start: one for each cluster of the configuration directory, and one for
the default cluster. -/
structure WireStart where
  known : List (String × InitWire)
  default : InitWire

/-- The operator starts over these connections. -/
def wireStart (start : WireStart) : Option HaState :=
  haStart (start.known.map fun c => (c.1, c.2.env c.1)) (start.default.env "")

/-- The `Initialize`s of a run. -/
def InitIn (start : WireStart) (acts : List WireAct) (init : InitWire) : Prop :=
  init ∈ start.known.map Prod.snd ∨ init = start.default ∨ ∃ act ∈ acts, act.Inits init

theorem InitIn.append {start : WireStart} {acts : List WireAct} {init : InitWire}
    (h : InitIn start acts init) (acts' : List WireAct) : InitIn start (acts ++ acts') init :=
  h.imp_right fun h => h.imp_right fun ⟨act, hact, hinit⟩ =>
    ⟨act, List.mem_append_left _ hact, hinit⟩

/-- The last step of a run. -/
theorem within_pass (start : WireStart) (acts : List WireAct) (wires : String → Wire)
    (order : RangeOrder String) (id : String) :
    (wires id).Within (InitIn start (acts ++ [.pass wires order])) :=
  ⟨.inr (.inr ⟨.pass wires order, by simp, id, .inl rfl⟩),
    .inr (.inr ⟨.pass wires order, by simp, id, .inr rfl⟩)⟩

theorem within_reconcile (start : WireStart) (acts : List WireAct) (made : InitWire) (wire : Wire)
    (name : String) (node : GetNode) (pods : Option (List Pod)) (patchOk : Bool) :
    InitIn start (acts ++ [.reconcile made wire name node pods patchOk]) made ∧
      wire.Within (InitIn start (acts ++ [.reconcile made wire name node pods patchOk])) := by
  have hlast : ∀ init, init = made ∨ init = wire.init ∨ init = wire.reinit →
      InitIn start (acts ++ [.reconcile made wire name node pods patchOk]) init :=
    fun init h => .inr (.inr ⟨.reconcile made wire name node pods patchOk, by simp, h⟩)
  exact ⟨hlast _ (.inl rfl), hlast _ (.inr (.inl rfl)), hlast _ (.inr (.inr rfl))⟩

/-! ## Addresses -/

/-- An address of a service of the cluster, by what an `Initialize` meets: the plain one of the
configuration, or that of an RM that says over a connection that it is active. -/
def InitWire.Names (init : InitWire) (clusterID : String) (plain : Configuration → String)
    (byID : Configuration → String → String) (address : String) : Prop :=
  ∃ conf, newYarnConfiguration init.files clusterID = some conf ∧
    (address = plain conf ∨ ∃ i rmID, conf.getRMs[i]? = some rmID ∧ address = byID conf rmID ∧
      (init.status i (conf.getRMAdminAddressByID rmID)).Delivers () (some .ACTIVE))

/-- The RM that `Initialize` finds says over a connection that it is active. -/
theorem InitWire.delivers_of_isFirstActive {init : InitWire} {clusterID rmID : String}
    {conf : Configuration} (hload : newYarnConfiguration init.files clusterID = some conf)
    (h : Client.IsFirstActive conf (init.env clusterID) rmID) :
    ∃ i, conf.getRMs[i]? = some rmID ∧
      (init.status i (conf.getRMAdminAddressByID rmID)).Delivers () (some .ACTIVE) := by
  obtain ⟨before, after, hsplit, hactive, -⟩ := h
  have hrm : conf.getRMs[before.length]? = some rmID := by simp [hsplit]
  have haddress : init.rmAdminAddress clusterID before.length =
      some (conf.getRMAdminAddressByID rmID) := by
    simp [InitWire.rmAdminAddress, hload, hrm]
  refine ⟨before.length, hrm, Client.Connection.delivers_of_answer ?_⟩
  simpa [InitWire.env, haddress] using hactive

/-- The addresses of a client from the factory. -/
theorem InitWire.names_of_create {init : InitWire} {clusterID : String} {c : Client.YarnClient}
    (h : Client.createYarnClientByClusterID (init.env clusterID) clusterID = some c) :
    ∃ admin rm, c.activeRMAdminAddress = some admin ∧ c.activeRMAddress = some rm ∧
      init.Names clusterID Configuration.getRMAdminAddress Configuration.getRMAdminAddressByID
        admin ∧
      init.Names clusterID Configuration.getRMAddress Configuration.getRMAddressByID rm := by
  have hnew := Client.createYarnClientByClusterID_eq_some_iff.mp h
  rcases @Client.initializeClient_cases (init.env clusterID) (Client.newYarnClient clusterID) rfl rfl
    with ⟨hfail, -⟩ | ⟨-, hcons, hadmin⟩
  · rw [hnew] at hfail
    cases hfail
  · rw [hnew] at hcons hadmin
    rcases hcons with ⟨hnone, -⟩ | ⟨conf, admin, rm, -, hadmin, hrm, -, hload, -, hfrom⟩
    · exact absurd hnone hadmin
    · rw [(Client.of_createYarnClientByClusterID h).1] at hload
      refine ⟨admin, rm, hadmin, hrm, ?_⟩
      rcases hfrom with ⟨-, rfl, rfl⟩ | ⟨-, rmID, hfirst, rfl, rfl⟩
      · exact ⟨⟨conf, hload, .inl rfl⟩, ⟨conf, hload, .inl rfl⟩⟩
      · obtain ⟨i, hi, hactive⟩ := init.delivers_of_isFirstActive hload hfirst
        exact ⟨⟨conf, hload, .inr ⟨i, rmID, hi, rfl, hactive⟩⟩,
          ⟨conf, hload, .inr ⟨i, rmID, hi, rfl, hactive⟩⟩⟩

/-- What an `Initialize` of a client of the cluster has met. -/
def Met (inits : InitWire → Prop) (clusterID : String) (env : Client.InitEnv) : Prop :=
  ∃ init, inits init ∧ init.env clusterID = env

/-- The clients have what was found on the wire. -/
def Heap.Found (inits : InitWire → Prop) (heap : Heap) : Prop :=
  ∀ p < heap.next, Client.Found (Met inits (heap.client p).clusterID) (heap.client p)

section Found

variable {inits : InitWire → Prop} {heap heap' : Heap}

theorem Heap.Found.mono {inits' : InitWire → Prop} (h : heap.Found inits)
    (hle : ∀ init, inits init → inits' init) : heap.Found inits' :=
  fun p hp => (h p hp).mono fun _ ⟨init, hinit, henv⟩ => ⟨init, hle init hinit, henv⟩

theorem Heap.Found.create (h : heap.Found inits) {clusterID : String} {env : Client.InitEnv}
    (henv : Met inits clusterID env) : (heap.create env clusterID).2.Found inits := by
  rcases create_cases heap env clusterID with hcreate | ⟨c, hc, hcreate⟩
  · rw [hcreate]
    exact h
  · rw [hcreate]
    intro p hp
    by_cases heq : p = heap.next
    · subst heq
      simp only [Function.update_self]
      refine Client.found_of_create ?_ hc
      rw [(Client.of_createYarnClientByClusterID hc).1]
      exact henv
    · simp only [Function.update_of_ne heq]
      have hlt : p < heap.next + 1 := hp
      exact h p (by omega)

/-- A request initializes its client with what the `Initialize`s meet. -/
def MeetsOnly {α : Type} (inits : InitWire → Prop) (service : String → Client.Service α) : Prop :=
  ∀ clusterID, Met inits clusterID (service clusterID).init ∧
    Met inits clusterID (service clusterID).reinit

/-- A client after a request. -/
theorem Heap.Found.reply {α : Type} {service : String → Client.Service α} {p : ℕ}
    (h : heap.Found inits) (hservice : MeetsOnly inits service) (hconf : heap.Configured)
    (hp : p < heap.next) :
    (heap.reply service p).1.clusterID = heap.cluster p ∧
      Client.Found (Met inits (heap.reply service p).1.clusterID) (heap.reply service p).1 := by
  have hid : (heap.reply service p).1.clusterID = heap.cluster p :=
    (Client.askReinitializing_keeps _ (hconf p hp)).1
  refine ⟨hid, ?_⟩
  rw [hid]
  exact (h p hp).askReinitializing (hservice _).1 (hservice _).2

theorem Heap.Found.ask {α : Type} {service : String → Client.Service α} {p : ℕ}
    (h : heap.Found inits) (hservice : MeetsOnly inits service) (hconf : heap.Configured)
    (hp : p < heap.next) : (heap.ask service p).Found inits := by
  intro q hq
  by_cases heq : q = p
  · subst heq
    rw [client_ask_self]
    exact (h.reply hservice hconf hp).2
  · rw [client_ask_of_ne heq]
    exact h q hq

theorem Wire.Within.clusterNodes {wire : Wire} (h : wire.Within inits) :
    MeetsOnly inits wire.net.clusterNodes :=
  fun _ => ⟨⟨_, h.1, rfl⟩, ⟨_, h.2, rfl⟩⟩

theorem Wire.Within.nodeResource {wire : Wire} (h : wire.Within inits)
    (request : UpdateNodeResourceRequest) : MeetsOnly inits (wire.net.nodeResource request) :=
  fun _ => ⟨⟨_, h.1, rfl⟩, ⟨_, h.2, rfl⟩⟩

theorem Heap.Moves.found {made : String → Client.InitEnv → Prop} {asked : Net → Prop}
    (hmoves : heap.Moves made asked heap')
    (hmade : ∀ clusterID env, made clusterID env → Met inits clusterID env)
    (hasked : ∀ net, asked net → ∃ wire : Wire, net = wire.net ∧ wire.Within inits)
    (hconf : heap.Configured) (h : heap.Found inits) : heap'.Found inits := by
  induction hmoves with
  | refl => exact h
  | create _ henv ih => exact ih.create (hmade _ _ henv)
  | clusterNodes hmoves hp hnet ih =>
    obtain ⟨wire, rfl, hwithin⟩ := hasked _ hnet
    exact ih.ask hwithin.clusterNodes (hmoves.configured hconf) hp
  | nodeResource hmoves hp hnet request ih =>
    obtain ⟨wire, rfl, hwithin⟩ := hasked _ hnet
    exact ih.ask (hwithin.nodeResource request) (hmoves.configured hconf) hp

end Found

/-! ## Messages -/

section Messages

variable (inits : InitWire → Prop) (wire : Wire) (clusterID : String)

/-- An RM of the cluster has sent the reports over the connection of the request. -/
def ReadFrom (reports : List NodeReportProto) : Prop :=
  ∃ address, (∃ init, inits init ∧ init.Names clusterID Configuration.getRMAddress
      Configuration.getRMAddressByID address) ∧
    (wire.nodes address).Delivers () reports

/-- An RM of the cluster has read the request off its connection, and acknowledged it. -/
def SentTo (request : UpdateNodeResourceRequest) : Prop :=
  ∃ address, (∃ init, inits init ∧ init.Names clusterID Configuration.getRMAdminAddress
      Configuration.getRMAdminAddressByID address) ∧
    (wire.update address).Delivers request ()

variable {inits wire clusterID}

/-- The addresses at which a client asks are found on the wire. -/
theorem names_of_found {c : Client.YarnClient} (h : Client.Found (Met inits c.clusterID) c) :
    (∀ address, c.activeRMAddress.or (c.conf.map Configuration.getRMAddress) = some address →
      ∃ init, inits init ∧ init.Names c.clusterID Configuration.getRMAddress
        Configuration.getRMAddressByID address) ∧
    ∀ address, c.activeRMAdminAddress.or (c.conf.map Configuration.getRMAdminAddress) =
        some address →
      ∃ init, inits init ∧ init.Names c.clusterID Configuration.getRMAdminAddress
        Configuration.getRMAdminAddressByID address := by
  rcases h.held with ⟨hadmin, hrm⟩ | ⟨env, ⟨init, hinit, rfl⟩, hsettled⟩
  · -- the plain address of the configuration
    have hplain : ∀ {plain : Configuration → String} (byID : Configuration → String → String)
        {address : String}, c.conf.map plain = some address →
        ∃ init, inits init ∧ init.Names c.clusterID plain byID address := by
      intro plain byID address haddress
      obtain ⟨conf, hconf, rfl⟩ := Option.map_eq_some_iff.mp haddress
      obtain ⟨_, ⟨init, hinit, rfl⟩, hload⟩ := h.loaded conf hconf
      exact ⟨init, hinit, conf, hload, .inl rfl⟩
    rw [hadmin, hrm]
    exact ⟨fun _ => hplain _, fun _ => hplain _⟩
  · obtain ⟨admin, rm, hadmin, hrm, hadminNames, hrmNames⟩ := InitWire.names_of_create hsettled
    rw [hadmin, hrm]
    refine ⟨fun address haddress => ⟨init, hinit, ?_⟩, fun address haddress => ⟨init, hinit, ?_⟩⟩
    · obtain rfl := Option.some.inj haddress
      exact hrmNames
    · obtain rfl := Option.some.inj haddress
      exact hadminNames

variable {heap : Heap} (hfound : heap.Found inits) (hwire : wire.Within inits)
  (hconf : heap.Configured)

include hfound hwire hconf

/-- What a client answers to `GetClusterNodes` was sent by an RM of its cluster. -/
theorem readFrom_of_clusterNodes {p : ℕ} (hp : p < heap.next) {reports : List NodeReportProto}
    (h : heap.clusterNodes wire.net p = .reports reports) :
    ReadFrom inits wire (heap.cluster p) reports := by
  obtain ⟨hid, hafter⟩ := hfound.reply hwire.clusterNodes hconf hp
  rw [Heap.clusterNodes] at h
  rcases hreply : heap.reply wire.net.clusterNodes p with ⟨c, reply⟩
  rw [hreply] at h hid hafter
  cases reply with
  | failed => cases h
  | panic => cases h
  | answer reports' =>
    obtain rfl := ClusterNodes.reports.inj h
    obtain ⟨address, haddress, hanswer⟩ := Client.answer_of_askReinitializing hreply
    refine ⟨address, ?_, Client.Connection.delivers_of_answer hanswer⟩
    rw [← hid]
    exact (names_of_found hafter).1 address haddress

/-- An update that is answered was read by an RM of the cluster of the client. -/
theorem sentTo_of_reply {p : ℕ} (hp : p < heap.next) {request : UpdateNodeResourceRequest}
    (h : (heap.reply (wire.net.nodeResource request) p).2 = .answer ()) :
    SentTo inits wire (heap.cluster p) request := by
  obtain ⟨hid, hafter⟩ := hfound.reply (hwire.nodeResource request) hconf hp
  rcases hreply : heap.reply (wire.net.nodeResource request) p with ⟨c, reply⟩
  rw [hreply] at h hid hafter
  obtain rfl : reply = .answer () := h
  obtain ⟨address, haddress, hanswer⟩ := Client.answer_of_askReinitializing hreply
  have haccepted : ((wire.update address).answer request).isSome := by
    by_contra hrefused
    simp only [Net.nodeResource, Wire.net, hrefused] at hanswer
    cases hanswer
  obtain ⟨_, haccepted⟩ := Option.isSome_iff_exists.mp haccepted
  refine ⟨address, ?_, Client.Connection.delivers_of_answer haccepted⟩
  rw [← hid]
  exact (names_of_found hafter).2 address haddress

end Messages

/-! ## Runs -/

/-- A pass of the run was told the reports: those of each cluster came over the connection that the
pass had to an RM of that cluster. -/
def ToldOnWire (start : WireStart) (acts : List WireAct) (reports : PassReports) : Prop :=
  ∃ pre wires order post, acts = pre ++ .pass wires order :: post ∧
    ∀ id l, reports id = some l →
      ReadFrom (InitIn start (pre ++ [.pass wires order])) (wires id) (configOf id) l

/-- A step leaves the reports of the last successful pass, or it is one. -/
theorem lastSync_wireStep {lib : Library} {t : HaState} {act : WireAct} {reports : PassReports}
    (h : (wireStep lib t act).operator.lastSync = some reports) :
    t.operator.lastSync = some reports ∨ ∃ wires order op, act = .pass wires order ∧
      t.operator.operator = some op ∧
      reports = passReports op.reconciler.yarnClients.keys
        (op.answers (fun id => (wires id).net) t.heap) := by
  unfold wireStep haStep at h
  cases hop : t.operator.operator with
  | none =>
    simp only [hop] at h
    exact .inl h
  | some op =>
    cases act with
    | reconcile made wire name node pods patchOk =>
      simp only [hop, WireAct.act] at h
      exact .inl h
    | pass wires order =>
      simp only [hop, WireAct.act] at h
      generalize (syncClients (fun id => (wires id).net) (op.reconciler.visit order) (fun _ => none)
        t.heap).1 = result at h
      cases result with
      | synced cache => exact .inr ⟨wires, order, op, rfl, rfl, (Option.some.inj h).symm⟩
      | failed => exact .inl h
      | panic => exact .inl h

/-- The update that a `Reconcile` of a node with a NodeManager gets to. -/
theorem updateOf_eq {lib : Library} {node : Node} {pods : Option (List Pod)} {yarnNode : YarnNode}
    {batch : Quantity × Quantity} (hyarn : HasNodeManager pods yarnNode)
    (hbatch : getNodeBatchResource lib node = .ok batch) :
    updateOf lib (.found node) pods = some (yarnNode, calculate lib batch.1 batch.2) := by
  simp [updateOf, hyarn.1, hyarn.2, hbatch]

section Run

variable {lib : Library} {start : WireStart} {s : HaState} (hstart : wireStart start = some s)

include hstart

theorem wellBuilt_wireRun (acts : List WireAct) : (run (wireStep lib) s acts).WellBuilt :=
  run_invariant (fun t act ht => wellBuilt_haStep t act.act ht) acts (wellBuilt_haStart hstart)

theorem synced_wireRun (acts : List WireAct) : Synced (run (wireStep lib) s acts).operator := by
  have hstep : ∀ (t : HaState) (act : WireAct), t.WellBuilt ∧ Synced t.operator →
      (wireStep lib t act).WellBuilt ∧ Synced (wireStep lib t act).operator := fun t act ht =>
    ⟨wellBuilt_haStep t act.act ht.1, synced_haStep lib ht.1.1 act.act ht.2⟩
  obtain ⟨clients, hadd⟩ := (valid_haStart hstart).2
  refine (run_invariant hstep acts ⟨wellBuilt_haStart hstart, ?_⟩).2
  rw [hadd]
  exact synced_add clients

/-- The clients that the operator starts with have what was found on the wire. -/
theorem found_wireStart : s.heap.Found (InitIn start []) := by
  have hempty : ∀ {P : ℕ → Prop}, ∀ p < Heap.empty.next, P p := fun p hp =>
    absurd hp (Nat.not_lt_zero p)
  refine Heap.Moves.found (@moves_haStart _ _ _ (fun _ => False) hstart) ?_ nofun hempty hempty
  rintro clusterID env (hknown | ⟨rfl, rfl⟩)
  · obtain ⟨c, hc, heq⟩ := List.mem_map.mp hknown
    obtain ⟨rfl, rfl⟩ := Prod.mk.inj heq
    exact ⟨c.2, .inl (List.mem_map_of_mem hc), rfl⟩
  · exact ⟨start.default, .inr (.inl rfl), rfl⟩

/-- After every run the clients have what was found on the wire. -/
theorem found_wireRun (acts : List WireAct) :
    (run (wireStep lib) s acts).heap.Found (InitIn start acts) := by
  induction acts using List.reverseRecOn with
  | nil => exact found_wireStart hstart
  | append_singleton acts act ih =>
    have hbuilt := @wellBuilt_wireRun lib _ _ hstart acts
    rw [run_append]
    refine Heap.Moves.found (moves_haStep hbuilt.1 lib act.act) ?_ ?_ hbuilt.1.configured
      (ih.mono fun init h => h.append [act])
    · intro clusterID env hmade
      cases act with
      | pass wires order => cases hmade
      | reconcile made wire name node pods patchOk =>
        exact ⟨made, (within_reconcile start acts made wire name node pods patchOk).1, hmade.symm⟩
    · intro net hasked
      cases act with
      | pass wires order =>
        obtain ⟨id, rfl⟩ := hasked
        exact ⟨wires id, rfl, within_pass start acts wires order id⟩
      | reconcile made wire name node pods patchOk =>
        exact ⟨wire, hasked, (within_reconcile start acts made wire name node pods patchOk).2⟩

/-- The reports of the last successful pass came over its connections. -/
theorem toldOnWire_of_lastSync (acts : List WireAct) {reports : PassReports}
    (h : (run (wireStep lib) s acts).operator.lastSync = some reports) :
    ToldOnWire start acts reports := by
  have hbuilt : ∀ acts, (run (wireStep lib) s acts).WellBuilt := wellBuilt_wireRun hstart
  rcases run_origin (P := fun t : HaState => t.operator.lastSync = some reports)
      (fun pre _ _ _ => lastSync_wireStep) h with
    hsync | ⟨pre, _, post, rfl, wires, order, op, rfl, hop, rfl⟩
  · obtain ⟨clients, hadd⟩ := (valid_haStart hstart).2
    rw [hadd] at hsync
    cases hsync
  · refine ⟨pre, wires, order, post, rfl, fun id l hl => ?_⟩
    obtain ⟨p, hclient, hanswer⟩ : ∃ p, op.reconciler.yarnClients.lookup id = some p ∧
        (run (wireStep lib) s pre).heap.clusterNodes (wires id).net p = .reports l := by
      unfold passReports Operator.answers at hl
      split at hl
      · cases hclient : op.reconciler.yarnClients.lookup id with
        | none => simp [hclient] at hl
        | some p =>
          refine ⟨p, rfl, ?_⟩
          simp only [hclient, Option.elim_some] at hl
          split at hl
          · rename_i heq
            rw [heq, Option.some.inj hl]
          · cases hl
      · cases hl
    have hfound := (@found_wireRun lib _ _ hstart pre).mono
      fun init h => h.append [.pass wires order]
    rw [← ((hbuilt pre).2 op hop).yarnClients id p hclient]
    exact readFrom_of_clusterNodes hfound (within_pass start pre wires order id)
      (hbuilt pre).1.configured (((hbuilt pre).1.owned op hop).yarnClients id p hclient) hanswer

/-- An update that is answered was read by an RM of the cluster of the node. -/
theorem sentTo_of_sendUpdate (acts : List WireAct) {op : Operator ℕ}
    (hop : (run (wireStep lib) s acts).operator.operator = some op) {made : InitWire} {wire : Wire}
    {yarnNode : YarnNode} {vcores memoryMB : ℤ} {inits : InitWire → Prop}
    (hinits : ∀ init, InitIn start acts init → inits init) (hmade : inits made)
    (hwire : wire.Within inits)
    (h : (sendUpdate made.env wire.net op.reconciler yarnNode vcores memoryMB
      (run (wireStep lib) s acts).heap).1 = .answer ()) :
    SentTo inits wire (configOf yarnNode.clusterID) (updateRequest yarnNode vcores memoryMB) := by
  have hbuilt := @wellBuilt_wireRun lib _ _ hstart acts
  have hr := hbuilt.1.owned op hop
  have hmet : ∀ id, Met inits id (made.env id) := fun _ => ⟨made, hmade, rfl⟩
  have hmoves : (run (wireStep lib) s acts).heap.Moves (Met inits) (fun _ => False)
      (afterGetClient made.env op.reconciler yarnNode (run (wireStep lib) s acts).heap) :=
    moves_afterGetClient _ hmet op.reconciler yarnNode
  have hfound : (afterGetClient made.env op.reconciler yarnNode
      (run (wireStep lib) s acts).heap).Found inits :=
    hmoves.found (fun _ _ henv => henv) nofun hbuilt.1.configured
      ((@found_wireRun lib _ _ hstart acts).mono hinits)
  unfold sendUpdate at h
  cases hget : (getClient made.env op.reconciler yarnNode (run (wireStep lib) s acts).heap).1 with
  | none =>
    simp only [hget] at h
    cases h
  | some p =>
    simp only [hget] at h
    rw [← (wellBuilt_getClient (hbuilt.2 op hop) hbuilt.1.configured hr made.env yarnNode).2 p hget]
    exact sentTo_of_reply hfound hwire (hmoves.configured hbuilt.1.configured)
      ((owned_getClient hr made.env yarnNode).1 p hget) h

end Run

/-! ## A run -/

/-- The wire form of an update. -/
def marshalUpdate (request : UpdateNodeResourceRequest) : Bytes :=
  Ipc.Protobuf.bytesField 1
    (Ipc.Protobuf.bytesField 1 (Ipc.Protobuf.bytesField 1 (ascii request.host) ++
        Ipc.Protobuf.varintField 2 (request.port % 2 ^ 64).toNat) ++
      Ipc.Protobuf.bytesField 2 (Ipc.Protobuf.bytesField 1
        (Ipc.Protobuf.varintField 1 (request.memory % 2 ^ 64).toNat ++
          Ipc.Protobuf.varintField 2 (request.virtualCores % 2 ^ 64).toNat)))

/-- A server that lets every client in and sends one message to each. -/
def answering (rpc : Ipc.RequestHeaderProto) {Req Resp : Type} (marshal : Req → Bytes) (m : Resp)
    (address : String) : Client.Connection rpc Req Resp address where
  endpoint :=
    { client := { Ipc.Protobuf.plainEndpoint.client with serverAddress := address.toUTF8.toList }
      codec :=
        { Ipc.Protobuf.codec with
          marshalRequest := fun request => some (marshal request)
          unmarshalResponse := fun _ => some m }
      crypto := Ipc.Protobuf.plainEndpoint.crypto
      userTokens := fun _ => none
      currentUser := some (ascii "yarn") }
  world := Ipc.Protobuf.calmWorld [[0, 0, 0, 6], [4, 8, 0, 16, 0, 0]]
  serverAddress := rfl
  fresh := rfl
  survives := fun _ _ h => by cases h

/-- Two RMs of which the first is active. -/
def answeringInit : InitWire where
  files := Client.haFiles
  status _ _ := answering _ (fun _ => []) (some .ACTIVE) _

/-- On them, `worker-1` uses 4 cores and 4 GiB. -/
def answeringWire : Wire where
  init := answeringInit
  reinit := answeringInit
  ready := true
  nodes := answering _ (fun _ => [])
    [⟨some ⟨some "worker-1", some 8041⟩, some ⟨some 4096, some 4⟩, none⟩]
  update := answering _ marshalUpdate ()

/-- A pass. -/
def answeringActs : List WireAct := [.pass (fun _ => answeringWire) .listed]

/-- What the steps of the run below come to. -/
theorem exit_answeringWire :
    ((wireStart ⟨[], answeringInit⟩).bind fun s =>
      (run (wireStep plainLib) s answeringActs).operator.operator.map fun op =>
        ((op.reconcile plainLib "worker-1" (haAnswers plainLib answeringInit.env answeringWire.net
          op.reconciler (run (wireStep plainLib) s answeringActs).heap
          (.found (statusNode (.new 8000) 0)) (some [nodeManagerPod]) true).1).exit,
        (run (wireStep plainLib) s answeringActs).operator.lastSync.isSome)) =
      some (.done, true) := by
  decide +kernel

section Small

variable {rpc : Ipc.RequestHeaderProto} {Req Resp : Type} (marshal : Req → Bytes) (m : Resp)
  (address : String)

theorem authProtocol_answering :
    Ipc.authProtocol (answering rpc marshal m address).endpoint = .none :=
  rfl

/-- What is sent does not depend on the address. -/
theorem contextMessages_answering (protocol : Bytes) :
    Ipc.contextMessages (answering rpc marshal m address).endpoint protocol =
      Ipc.contextMessages (answering rpc marshal m "").endpoint protocol := rfl

theorem requestMessages_answering (request : Req) :
    Ipc.requestMessages (answering rpc marshal m address).endpoint rpc request =
      Ipc.requestMessages (answering rpc marshal m "").endpoint rpc request := rfl

end Small

/-- The update of the run, over a connection to any address, fits its frames. -/
theorem small_answeringWire (address : String) :
    (∀ msgs, Ipc.contextMessages (answeringWire.update address).endpoint
        Client.updateNodeResourceRpc.declaringClassProtocolName = some msgs →
      (Ipc.payload msgs).length < 2 ^ 31) ∧
    ∀ msgs, Ipc.requestMessages (answeringWire.update address).endpoint Client.updateNodeResourceRpc
        (updateRequest ⟨"worker-1", 8041, defaultClusterID⟩ 8 0) = some msgs →
      (Ipc.payload msgs).length < 2 ^ 31 := by
  have hcontext : ∀ msgs ∈ Ipc.contextMessages (answeringWire.update "").endpoint
      Client.updateNodeResourceRpc.declaringClassProtocolName,
      (Ipc.payload msgs).length < 2 ^ 31 := by
    decide +kernel
  have hrequest : ∀ msgs ∈ Ipc.requestMessages (answeringWire.update "").endpoint
      Client.updateNodeResourceRpc (updateRequest ⟨"worker-1", 8041, defaultClusterID⟩ 8 0),
      (Ipc.payload msgs).length < 2 ^ 31 := by
    decide +kernel
  constructor
  · intro msgs hmsgs
    rw [answeringWire, contextMessages_answering] at hmsgs
    exact hcontext msgs hmsgs
  · intro msgs hmsgs
    rw [answeringWire, requestMessages_answering] at hmsgs
    exact hrequest msgs hmsgs

theorem calculate_statusNode : calculate plainLib (.new 8000) 0 = (8, 0) := by
  decide +kernel

end YarnCopilot.NodeResource
