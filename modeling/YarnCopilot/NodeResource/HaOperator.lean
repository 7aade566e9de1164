import YarnCopilot.Common.Simulation
import YarnCopilot.Client.Failover
import YarnCopilot.NodeResource.Clusters

/-!
# The operator with its clients

Reference: `Add`, `updateYARNNodeResource` and `getYARNClient` of
`pkg/controller/noderesource/resource_sync_controller.go`, `syncYARNNodeAllocatedResource` of
`pkg/yarn/cache/nodes_syncer.go`, `CreateAllYarnClients` of `pkg/yarn/client/factory.go`.

In `Operator` a client is only a name and its answers are given. Here a client is a pointer to a
`yarnClient`: the syncer and the reconciler share it, each request may initialize it, and each
failed one reinitializes it. `haOperator_refines` says that the operator of `Operator` simulates
this one, so what holds of its runs holds here, and that no client dereferences a configuration it
does not have.
-/

namespace YarnCopilot.NodeResource

open Cache

/-! ## The clients -/

/-- What one request through a client meets, by the cluster of the client where that matters: an
`Initialize` on the way and the `Reinitialize` after a failure, whether the connection can be made,
the running nodes that the RM at an address reports, and the updates it accepts. -/
structure Net where
  init : String → Client.InitEnv
  reinit : String → Client.InitEnv
  ready : Bool
  nodes : String → Option (List NodeReportProto)
  accepts : String → UpdateNodeResourceRequest → Bool

/-- The service behind `GetClusterNodes`. -/
def Net.clusterNodes (net : Net) (clusterID : String) : Client.Service (List NodeReportProto) :=
  ⟨net.init clusterID, net.reinit clusterID, net.ready, Config.Configuration.getRMAddress,
    Client.YarnClient.activeRMAddress, net.nodes⟩

/-- The service behind `UpdateNodeResource`. -/
def Net.nodeResource (net : Net) (request : UpdateNodeResourceRequest) (clusterID : String) :
    Client.Service Unit :=
  ⟨net.init clusterID, net.reinit clusterID, net.ready, Config.Configuration.getRMAdminAddress,
    Client.YarnClient.activeRMAdminAddress,
    fun address => if net.accepts address request then some () else none⟩

/-- The clients by pointer, the next free pointer, and a record of the clients whose requests
failed, the last first, which the operator itself does not have. -/
structure Heap where
  client : ℕ → Client.YarnClient
  next : ℕ
  failed : List ℕ

/-- No client yet. -/
def Heap.empty : Heap := ⟨fun _ => Client.newYarnClient "", 0, []⟩

/-- Ask the factory. -/
def Heap.create (heap : Heap) (env : Client.InitEnv) (clusterID : String) : Option ℕ × Heap :=
  match Client.createYarnClientByClusterID env clusterID with
  | none => (none, heap)
  | some c =>
    (some heap.next,
      { heap with client := Function.update heap.client heap.next c, next := heap.next + 1 })

/-- A request through a client. -/
def Heap.reply {α : Type} (heap : Heap) (service : String → Client.Service α) (p : ℕ) :
    Client.YarnClient × Client.Reply α :=
  (heap.client p).askReinitializing (service (heap.client p).clusterID)

/-- The clients after a request. -/
def Heap.ask {α : Type} (heap : Heap) (service : String → Client.Service α) (p : ℕ) : Heap :=
  { heap with
    client := Function.update heap.client p (heap.reply service p).1
    failed :=
      match (heap.reply service p).2 with
      | .failed => p :: heap.failed
      | _ => heap.failed }

/-- What a client answers to `GetClusterNodes`. -/
def Heap.clusterNodes (heap : Heap) (net : Net) (p : ℕ) : ClusterNodes :=
  match (heap.reply net.clusterNodes p).2 with
  | .answer reports => .reports reports
  | _ => .failed

/-! ## The operator -/

/-- The loop of `syncYARNNodeAllocatedResource` over the clients, with what the request to each of
them meets. -/
def syncClients (nets : String → Net) : List (String × ℕ) → NodeCache → Heap → PassResult × Heap
  | [], res, heap => (.synced res, heap)
  | (id, p) :: clients, res, heap =>
    match (heap.reply (nets id).clusterNodes p).2 with
    | .failed => (.failed, heap.ask (nets id).clusterNodes p)
    | .panic => (.panic, heap.ask (nets id).clusterNodes p)
    | .answer reports =>
      match clusterCache reports with
      | none => (.panic, heap.ask (nets id).clusterNodes p)
      | some nodes =>
        syncClients nets clients (Function.update res id (some nodes))
          (heap.ask (nets id).clusterNodes p)

/-- The clients in the order in which a pass visits them. -/
def Reconciler.visit (r : Reconciler ℕ) (order : RangeOrder String) : List (String × ℕ) :=
  entriesOf (fun id => r.yarnClients.lookup id) (order.visit r.yarnClients.keys)

/-- `getYARNClient` with what the factory gives now. -/
def getClient (env : String → Client.InitEnv) (r : Reconciler ℕ) (yarnNode : YarnNode)
    (heap : Heap) : Option ℕ × Reconciler ℕ × List (Call ℕ) :=
  getYARNClient r (heap.create (env yarnNode.clusterID) yarnNode.clusterID).1 yarnNode

/-- The clients after `getYARNClient`: the factory is asked only for a cluster without a client. -/
def afterGetClient (env : String → Client.InitEnv) (r : Reconciler ℕ) (yarnNode : YarnNode)
    (heap : Heap) : Heap :=
  if (getClient env r yarnNode heap).2.2.isEmpty then heap
  else (heap.create (env yarnNode.clusterID) yarnNode.clusterID).2

/-- The requests of `updateYARNNodeResource`: to the factory, perhaps, and to YARN. -/
def sendUpdate (env : String → Client.InitEnv) (net : Net) (r : Reconciler ℕ) (yarnNode : YarnNode)
    (vcores memoryMB : ℤ) (heap : Heap) : Client.Reply Unit × Heap :=
  let service := net.nodeResource (updateRequest yarnNode vcores memoryMB)
  match (getClient env r yarnNode heap).1 with
  | none => (.failed, afterGetClient env r yarnNode heap)
  | some p =>
    (((afterGetClient env r yarnNode heap).reply service p).2,
      (afterGetClient env r yarnNode heap).ask service p)

variable (lib : Library)

/-- The update of YARN that a `Reconcile` gets to, if it gets to one. -/
def updateOf (node : GetNode) (pods : Option (List Pod)) : Option (YarnNode × ℤ × ℤ) :=
  match node, getYARNNode pods with
  | .found node, .ok (some yarnNode) =>
    if yarnNode.name = "" ∨ yarnNode.port = 0 then none
    else
      match getNodeBatchResource lib node with
      | .error _ => none
      | .ok (batchCPU, batchMemory) => some (yarnNode, calculate lib batchCPU batchMemory)
  | _, _ => none

/-- The operator and its clients. -/
structure HaState where
  operator : OperatorState ℕ
  heap : Heap

/-- A pass, with the order in which it visits the clients and what its requests meet, or a
`Reconcile`, with the answers of the API server, what the factory meets if it is asked, and what the
update meets. -/
inductive HaAct
  | pass (nets : String → Net) (order : RangeOrder String)
  | reconcile (env : String → Client.InitEnv) (net : Net) (name : String) (node : GetNode)
      (pods : Option (List Pod)) (patchOk : Bool)

/-- What the clients answer in a pass, by the state they are in when it starts. -/
def Operator.answers (op : Operator ℕ) (nets : String → Net) (heap : Heap) (id : String) :
    ClusterNodes :=
  (op.reconciler.yarnClients.lookup id).elim .nil (heap.clusterNodes (nets id))

/-- What the clients answer in a `Reconcile`, the clients after it, and whether one of them
panicked. -/
def haAnswers (env : String → Client.InitEnv) (net : Net) (r : Reconciler ℕ) (heap : Heap)
    (node : GetNode) (pods : Option (List Pod)) (patchOk : Bool) : Answers ℕ × Heap × Bool :=
  match updateOf lib node pods with
  | none => (⟨node, pods, none, false, patchOk⟩, heap, false)
  | some (yarnNode, vcores, memoryMB) =>
    let sent := sendUpdate env net r yarnNode vcores memoryMB heap
    (⟨node, pods, (heap.create (env yarnNode.clusterID) yarnNode.clusterID).1,
      sent.1 = .answer (), patchOk⟩, sent.2, sent.1 = .panic)

/-- One step of the operator with its clients. -/
def haStep (s : HaState) (act : HaAct) : HaState :=
  match s.operator.operator with
  | none => s
  | some op =>
    match act with
    | .pass nets order =>
      let synced := syncClients nets (op.reconciler.visit order) (fun _ => none) s.heap
      { operator :=
          { operator := (op.syncer.tick synced.1).map fun syncer => { op with syncer }
            lastSync :=
              (passedReports op.reconciler.yarnClients.keys (op.answers nets s.heap) synced.1).or
                s.operator.lastSync }
        heap := synced.2 }
    | .reconcile env net name node pods patchOk =>
      let answered := haAnswers lib env net op.reconciler s.heap node pods patchOk
      { operator :=
          { s.operator with
            operator :=
              if answered.2.2 = true ∨ (op.reconcile lib name answered.1).exit = .panic then none
              else some { op with reconciler := (op.reconcile lib name answered.1).reconciler } }
        heap := answered.2.1 }

/-- The loop of `CreateAllYarnClients` over the known ids, with what the factory meets at each. -/
def createKnown : List (String × Client.InitEnv) → Heap → List (String × Option ℕ) × Heap
  | [], heap => ([], heap)
  | (id, env) :: known, heap =>
    ((id, (heap.create env id).1) :: (createKnown known (heap.create env id).2).1,
      (createKnown known (heap.create env id).2).2)

/-- `CreateAllYarnClients` for the ids of the configuration directory and the default cluster, and
the operator `Add` builds from its clients. -/
def haStart (known : List (String × Client.InitEnv)) (env : Client.InitEnv) : Option HaState :=
  let made := createKnown known .empty
  (createAllYarnClients made.1 (made.2.create env "").1).map fun clients =>
    ⟨add clients, (made.2.create env "").2⟩

/-! ## Pointers -/

/-- The pointers of a reconciler are allocated, and no two clusters share one. -/
structure Owned (r : Reconciler ℕ) (next : ℕ) : Prop where
  yarnClient : ∀ p, r.yarnClient = some p → p < next
  yarnClients : ∀ id p, r.yarnClients.lookup id = some p → p < next
  distinct : ∀ id id' p, r.yarnClients.lookup id = some p → r.yarnClients.lookup id' = some p →
    id = id'

/-- Every client that was made has a configuration. -/
def Heap.Configured (heap : Heap) : Prop := ∀ p < heap.next, (heap.client p).conf.isSome

/-- The clients are configured and the pointers of the operator are theirs. -/
structure HaState.Valid (s : HaState) : Prop where
  configured : s.heap.Configured
  owned : ∀ op, s.operator.operator = some op → Owned op.reconciler s.heap.next

section Heap

variable {env : Client.InitEnv} {heap : Heap} {p q : ℕ} {clusterID : String} {α : Type}
  {service : String → Client.Service α}

@[simp] theorem next_ask : (heap.ask service p).next = heap.next := rfl

theorem client_ask_self : (heap.ask service p).client p = (heap.reply service p).1 :=
  Function.update_self ..

theorem client_ask_of_ne (h : q ≠ p) : (heap.ask service p).client q = heap.client q :=
  Function.update_of_ne h ..

/-- The factory gives nothing, or a client at a new pointer. -/
theorem create_cases (heap : Heap) (env : Client.InitEnv) (clusterID : String) :
    heap.create env clusterID = (none, heap) ∨
      ∃ c, Client.createYarnClientByClusterID env clusterID = some c ∧
        heap.create env clusterID = (some heap.next,
          { heap with
            client := Function.update heap.client heap.next c
            next := heap.next + 1 }) := by
  unfold Heap.create
  cases Client.createYarnClientByClusterID env clusterID with
  | none => exact .inl rfl
  | some c => exact .inr ⟨c, rfl, rfl⟩

theorem next_le_create : heap.next ≤ (heap.create env clusterID).2.next := by
  rcases create_cases heap env clusterID with h | ⟨c, -, h⟩ <;> simp [h]

/-- A pointer from the factory is the next one. -/
theorem of_create_eq_some (h : (heap.create env clusterID).1 = some p) :
    p = heap.next ∧ (heap.create env clusterID).2.next = heap.next + 1 := by
  rcases create_cases heap env clusterID with hcreate | ⟨c, -, hcreate⟩
  · rw [hcreate] at h
    cases h
  · rw [hcreate] at h ⊢
    exact ⟨(Option.some.inj h).symm, rfl⟩

theorem Heap.Configured.create (h : heap.Configured) (env : Client.InitEnv) (clusterID : String) :
    (heap.create env clusterID).2.Configured := by
  rcases create_cases heap env clusterID with hcreate | ⟨c, hc, hcreate⟩
  · rw [hcreate]
    exact h
  · rw [hcreate]
    intro p hp
    by_cases heq : p = heap.next
    · subst heq
      simpa using (Client.of_createYarnClientByClusterID hc).2.1
    · have hlt : p < heap.next := by
        have : p < heap.next + 1 := hp
        omega
      simpa [Function.update_of_ne heq] using h p hlt

theorem Heap.Configured.ask (h : heap.Configured) (service : String → Client.Service α)
    (hp : p < heap.next) : (heap.ask service p).Configured := by
  intro q hq
  by_cases heq : q = p
  · subst heq
    rw [client_ask_self]
    exact (Client.askReinitializing_keeps _ (h q hp)).2.1
  · rw [client_ask_of_ne heq]
    exact h q hq

theorem Heap.Configured.reply_ne_panic (h : heap.Configured) (service : String → Client.Service α)
    (hp : p < heap.next) : (heap.reply service p).2 ≠ .panic :=
  (Client.askReinitializing_keeps _ (h p hp)).2.2

end Heap

/-! ## What a step does to the clients -/

/-- The clients after some requests to the factory, which were `made` so, and some requests through
clients, which met what is `asked`. Every step of the operator is of this kind, so what these keep,
the operator keeps. -/
inductive Heap.Moves (made : String → Client.InitEnv → Prop) (asked : Net → Prop) (heap : Heap) :
    Heap → Prop
  | refl : Moves made asked heap heap
  | create {heap' : Heap} (h : Moves made asked heap heap') {clusterID : String}
      {env : Client.InitEnv} (henv : made clusterID env) :
      Moves made asked heap (heap'.create env clusterID).2
  | clusterNodes {heap' : Heap} (h : Moves made asked heap heap') {p : ℕ} (hp : p < heap'.next)
      {net : Net} (hnet : asked net) : Moves made asked heap (heap'.ask net.clusterNodes p)
  | nodeResource {heap' : Heap} (h : Moves made asked heap heap') {p : ℕ} (hp : p < heap'.next)
      {net : Net} (hnet : asked net) (request : UpdateNodeResourceRequest) :
      Moves made asked heap (heap'.ask (net.nodeResource request) p)

/-- The requests to the factory in a step. -/
def HaAct.made : HaAct → String → Client.InitEnv → Prop
  | .pass _ _, _, _ => False
  | .reconcile env _ _ _ _ _, clusterID, env' => env' = env clusterID

/-- The requests to YARN in a step. -/
def HaAct.asked : HaAct → Net → Prop
  | .pass nets _, net => ∃ id, net = nets id
  | .reconcile _ net _ _ _ _, net' => net' = net

namespace Heap.Moves

variable {made made' : String → Client.InitEnv → Prop} {asked asked' : Net → Prop}
  {heap heap' heap'' : Heap}

theorem trans (h : heap.Moves made asked heap') (h' : heap'.Moves made asked heap'') :
    heap.Moves made asked heap'' := by
  induction h' with
  | refl => exact h
  | create _ henv ih => exact ih.create henv
  | clusterNodes _ hp hnet ih => exact ih.clusterNodes hp hnet
  | nodeResource _ hp hnet request ih => exact ih.nodeResource hp hnet request

theorem configured (h : heap.Moves made asked heap') (hconf : heap.Configured) :
    heap'.Configured := by
  induction h with
  | refl => exact hconf
  | create _ _ ih => exact ih.create _ _
  | clusterNodes _ hp _ ih => exact ih.ask _ hp
  | nodeResource _ hp _ _ ih => exact ih.ask _ hp

end Heap.Moves

/-! ## The client of a node -/

section GetClient

variable {heap : Heap} {r : Reconciler ℕ} {yarnNode : YarnNode}

theorem Owned.mono {next next' : ℕ} (h : Owned r next) (hle : next ≤ next') : Owned r next' :=
  ⟨fun p hp => (h.yarnClient p hp).trans_le hle, fun id p hp => (h.yarnClients id p hp).trans_le hle,
    h.distinct⟩

/-- A new client gets a pointer that no cluster has. -/
theorem Owned.insert {next : ℕ} (h : Owned r next) (clusterID : String) :
    Owned { r with yarnClients := r.yarnClients.insert clusterID next } (next + 1) := by
  have hlookup : ∀ id p, (r.yarnClients.insert clusterID next).lookup id = some p →
      (id = clusterID ∧ p = next) ∨ (r.yarnClients.lookup id = some p ∧ p < next) := by
    intro id p hp
    by_cases heq : id = clusterID
    · subst heq
      rw [AList.lookup_insert] at hp
      exact .inl ⟨rfl, (Option.some.inj hp).symm⟩
    · rw [AList.lookup_insert_ne heq] at hp
      exact .inr ⟨hp, h.yarnClients id p hp⟩
  refine ⟨fun p hp => (h.yarnClient p hp).trans (Nat.lt_succ_self _), fun id p hp => ?_,
    fun id id' p hp hp' => ?_⟩
  · rcases hlookup id p hp with ⟨-, rfl⟩ | ⟨-, hlt⟩ <;> omega
  · rcases hlookup id p hp with ⟨hid, hnext⟩ | ⟨hold, hlt⟩ <;>
      rcases hlookup id' p hp' with ⟨hid', hnext'⟩ | ⟨hold', hlt'⟩
    · rw [hid, hid']
    · omega
    · omega
    · exact h.distinct id id' p hold hold'

/-- What `getYARNClient` leaves: a client that is allocated, if any, and pointers that are. -/
theorem owned_getClient (h : Owned r heap.next) (env : String → Client.InitEnv)
    (yarnNode : YarnNode) :
    (∀ p, (getClient env r yarnNode heap).1 = some p →
      p < (afterGetClient env r yarnNode heap).next) ∧
    Owned (getClient env r yarnNode heap).2.1 (afterGetClient env r yarnNode heap).next := by
  have hway := getYARNClient_way r (heap.create (env yarnNode.clusterID) yarnNode.clusterID).1 yarnNode
  rw [← getClient] at hway
  unfold afterGetClient
  generalize getClient env r yarnNode heap = got at hway ⊢
  obtain ⟨client, r', creates⟩ := got
  have hle := @next_le_create (env yarnNode.clusterID) heap yarnNode.clusterID
  -- a new pointer is above all the old ones
  have hnew : ∀ p, (heap.create (env yarnNode.clusterID) yarnNode.clusterID).1 = some p →
      p = heap.next ∧
        (heap.create (env yarnNode.clusterID) yarnNode.clusterID).2.next = heap.next + 1 :=
    fun p hp => of_create_eq_some hp
  cases hway with
  | held hid hheld => exact ⟨fun p hp => h.yarnClient p (hheld.trans hp), h⟩
  | known hid hknown => exact ⟨fun p hp => h.yarnClients _ p (hknown.trans hp), h⟩
  | asked hid hnone =>
    have hlt : ∀ p, (heap.create (env yarnNode.clusterID) yarnNode.clusterID).1 = some p →
        p < (heap.create (env yarnNode.clusterID) yarnNode.clusterID).2.next := by
      intro p hp
      have := hnew p hp
      omega
    exact ⟨hlt, hlt, fun id p hp => (h.yarnClients id p hp).trans_le hle, h.distinct⟩
  | refused hid hnone hcreated =>
    exact ⟨fun p hp => (by cases hp), h.mono hle⟩
  | @added p₀ hid hnone hcreated =>
    obtain ⟨rfl, hnext⟩ := hnew p₀ hcreated
    simp only [List.isEmpty_cons, Bool.false_eq_true, if_false, hnext]
    exact ⟨fun p hp => Option.some.inj hp ▸ Nat.lt_succ_self _, h.insert yarnNode.clusterID⟩

end GetClient

/-! ## A pass and an update -/

section Requests

variable {nets : String → Net} {heap : Heap} {r : Reconciler ℕ} {clients : List (String × ℕ)}
  {res : NodeCache} {made : String → Client.InitEnv → Prop} {asked : Net → Prop}

@[simp] theorem next_syncClients : (syncClients nets clients res heap).2.next = heap.next := by
  fun_induction syncClients nets clients res heap <;> simp_all

theorem moves_syncClients (hnets : ∀ id, asked (nets id))
    (hclients : ∀ c ∈ clients, c.2 < heap.next) :
    heap.Moves made asked (syncClients nets clients res heap).2 := by
  induction clients generalizing res heap with
  | nil => exact .refl
  | cons c clients ih =>
    obtain ⟨id, p⟩ := c
    have hask : heap.Moves made asked (heap.ask (nets id).clusterNodes p) :=
      Heap.Moves.refl.clusterNodes (hclients (id, p) List.mem_cons_self) (hnets id)
    rw [syncClients]
    cases (heap.reply (nets id).clusterNodes p).2 with
    | failed => exact hask
    | panic => exact hask
    | answer reports =>
      cases hnodes : clusterCache reports with
      | none => simpa [hnodes] using hask
      | some nodes =>
        simp only [hnodes]
        exact hask.trans (ih fun c hc => hclients c (List.mem_cons_of_mem _ hc))

/-- A pass over clients that are distinct is the pass over the answers they have at its start. -/
theorem syncClients_eq (start : Heap) {answer : String → ClusterNodes} (h : heap.Configured)
    (hclients : ∀ c ∈ clients, c.2 < heap.next ∧ heap.client c.2 = start.client c.2 ∧
      answer c.1 = start.clusterNodes (nets c.1) c.2)
    (hdistinct : (clients.map Prod.snd).Nodup) :
    (syncClients nets clients res heap).1 = syncClusters answer (clients.map Prod.fst) res := by
  induction clients generalizing res heap with
  | nil => rfl
  | cons c clients ih =>
    obtain ⟨id, p⟩ := c
    obtain ⟨hp, hstart, hanswer⟩ := hclients (id, p) List.mem_cons_self
    have hpanic := h.reply_ne_panic (nets id).clusterNodes hp
    have hreply :
        heap.reply (nets id).clusterNodes p = start.reply (nets id).clusterNodes p := by
      rw [Heap.reply, hstart]
      rfl
    rw [Heap.clusterNodes, ← hreply] at hanswer
    rw [syncClients, List.map_cons, syncClusters]
    cases hask : (heap.reply (nets id).clusterNodes p).2 with
    | panic => exact absurd hask hpanic
    | failed =>
      simp only [hask] at hanswer
      simp only [hanswer]
    | answer reports =>
      simp only [hask] at hanswer
      simp only [hanswer]
      cases hnodes : clusterCache reports with
      | none => rfl
      | some nodes =>
        obtain ⟨hnot, hdistinct⟩ := List.nodup_cons.mp hdistinct
        refine ih (h.ask (nets id).clusterNodes hp) (fun c hc => ?_) hdistinct
        obtain ⟨hlt, hsame, hc'⟩ := hclients c (List.mem_cons_of_mem _ hc)
        -- the request changed only its own client
        have hne : c.2 ≠ p := fun heq => hnot (List.mem_map.mpr ⟨c, hc, heq⟩)
        exact ⟨hlt, by rw [client_ask_of_ne hne, hsame], hc'⟩

theorem moves_afterGetClient (heap : Heap) {env : String → Client.InitEnv}
    (henv : ∀ id, made id (env id)) (r : Reconciler ℕ) (yarnNode : YarnNode) :
    heap.Moves made asked (afterGetClient env r yarnNode heap) := by
  unfold afterGetClient
  split
  · exact .refl
  · exact Heap.Moves.refl.create (henv _)

/-- Behind `getYARNClient` an update is one request through the client it gives. -/
theorem moves_sendUpdate (hr : Owned r heap.next) (env : String → Client.InitEnv) {net : Net}
    (hnet : asked net) (yarnNode : YarnNode) (vcores memoryMB : ℤ) :
    (afterGetClient env r yarnNode heap).Moves made asked
      (sendUpdate env net r yarnNode vcores memoryMB heap).2 := by
  have hclient := (owned_getClient hr env yarnNode).1
  unfold sendUpdate
  cases hget : (getClient env r yarnNode heap).1 with
  | none => exact .refl
  | some p => exact Heap.Moves.refl.nodeResource (hclient p hget) hnet _

/-- An update does not panic, and allocates what `getYARNClient` does. -/
theorem sendUpdate_keeps (h : heap.Configured) (hr : Owned r heap.next)
    (env : String → Client.InitEnv) (net : Net) (yarnNode : YarnNode) (vcores memoryMB : ℤ) :
    (sendUpdate env net r yarnNode vcores memoryMB heap).2.next =
        (afterGetClient env r yarnNode heap).next ∧
      (sendUpdate env net r yarnNode vcores memoryMB heap).1 ≠ .panic := by
  have hafter : (afterGetClient env r yarnNode heap).Configured :=
    (@moves_afterGetClient (fun _ _ => True) (fun _ => True) heap env (fun _ => trivial) r
      yarnNode).configured h
  have hclient := (owned_getClient hr env yarnNode).1
  unfold sendUpdate
  cases hget : (getClient env r yarnNode heap).1 with
  | none => exact ⟨rfl, fun h => by cases h⟩
  | some p => exact ⟨rfl, hafter.reply_ne_panic _ (hclient p hget)⟩

/-- A pass visits each client of the map once. -/
theorem ranges_visit (r : Reconciler ℕ) (order : RangeOrder String) :
    Ranges (fun id => r.yarnClients.lookup id) (order.visit r.yarnClients.keys) := by
  refine ⟨(order.perm _).nodup_iff.mpr r.yarnClients.keys_nodup, fun id => ?_⟩
  rw [RangeOrder.mem_visit, ← AList.mem_keys, AList.lookup_isSome]

theorem Owned.lt_of_mem_visit (hr : Owned r heap.next) (order : RangeOrder String)
    {c : String × ℕ} (hc : c ∈ r.visit order) : c.2 < heap.next :=
  hr.yarnClients c.1 c.2 ((ranges_visit r order).mem_entriesOf.mp hc)

end Requests

/-! ## Valid states -/

section Valid

variable {lib}

/-- The update that `updateOf` gives is the one a `Reconcile` gets to: it decides the reconciler
that is left. -/
theorem reconciler_reconcile {r : Reconciler ℕ} {cache : NodeCache} {name : String}
    {answers : Answers ℕ} :
    (reconcile lib r cache name answers).reconciler =
      match updateOf lib answers.node answers.pods with
      | none => r
      | some (yarnNode, _, _) => (getYARNClient r answers.client yarnNode).2.1 := by
  cases hnode : answers.node with
  | notFound => simp [reconcile, updateOf, hnode]
  | failed => simp [reconcile, updateOf, hnode]
  | found node =>
    simp only [reconcile, hnode, Trace.after, reconcileNode, updateOf]
    rcases hpods : getYARNNode answers.pods with _ | _ | yarnNode
    · rfl
    · rfl
    · by_cases hvalid : yarnNode.name = "" ∨ yarnNode.port = 0
      · simp [hvalid, updateYARNAllocatedResource]
      · simp only [if_neg hvalid, reconcileYARNNode]
        rcases hbatch : getNodeBatchResource lib node with _ | batch
        · rfl
        · simp only [updateYARNNodeResource]
          rcases hclient : getYARNClient r answers.client yarnNode with ⟨_ | client, r', creates⟩
          · rfl
          · cases hok : answers.updateOk with
            | false => rfl
            | true =>
              cases hused : getYARNNodeAllocatedResource cache yarnNode <;>
                simp [recordAllocated, hused, updateYARNAllocatedResource, Trace.after]

/-- What the clients answer in a `Reconcile` keeps the invariant. -/
theorem haAnswers_keeps {op : Operator ℕ} {heap : Heap} (h : heap.Configured)
    (hr : Owned op.reconciler heap.next) (lib : Library) (env : String → Client.InitEnv) (net : Net)
    (name : String) (node : GetNode) (pods : Option (List Pod)) (patchOk : Bool) :
    Owned (op.reconcile lib name
        (haAnswers lib env net op.reconciler heap node pods patchOk).1).reconciler
        (haAnswers lib env net op.reconciler heap node pods patchOk).2.1.next ∧
      (haAnswers lib env net op.reconciler heap node pods patchOk).2.2 = false := by
  rw [Operator.reconcile, reconciler_reconcile, haAnswers]
  rcases hupdate : updateOf lib node pods with _ | ⟨yarnNode, vcores, memoryMB⟩
  · simp only [hupdate]
    exact ⟨hr, trivial⟩
  · obtain ⟨hnext, hpanic⟩ := sendUpdate_keeps h hr env net yarnNode vcores memoryMB
    simp only [hupdate, hnext]
    exact ⟨(owned_getClient hr env yarnNode).2, by simp [hpanic]⟩

/-- What a step does to the clients. -/
theorem moves_haStep {s : HaState} (h : s.Valid) (lib : Library) (act : HaAct) :
    s.heap.Moves act.made act.asked (haStep lib s act).heap := by
  unfold haStep
  cases hop : s.operator.operator with
  | none => exact .refl
  | some op =>
    have hr := h.owned op hop
    cases act with
    | pass nets order =>
      exact moves_syncClients (fun id => ⟨id, rfl⟩) fun c hc => hr.lt_of_mem_visit order hc
    | reconcile env net name node pods patchOk =>
      dsimp only
      rw [haAnswers]
      rcases updateOf lib node pods with _ | ⟨yarnNode, vcores, memoryMB⟩
      · exact .refl
      · have hmade : ∀ id, (HaAct.reconcile env net name node pods patchOk).made id (env id) :=
          fun _ => rfl
        have hasked : (HaAct.reconcile env net name node pods patchOk).asked net := rfl
        exact (moves_afterGetClient s.heap hmade op.reconciler yarnNode).trans
          (moves_sendUpdate hr env hasked yarnNode vcores memoryMB)

/-- Every step keeps the state valid. -/
theorem valid_haStep (s : HaState) (act : HaAct) (h : s.Valid) : (haStep lib s act).Valid := by
  refine ⟨(moves_haStep h lib act).configured h.configured, ?_⟩
  unfold haStep
  cases hop : s.operator.operator with
  | none => exact h.owned
  | some op =>
    have hr := h.owned op hop
    cases act with
    | pass nets order =>
      intro op' hop'
      obtain ⟨syncer, -, rfl⟩ := Option.map_eq_some_iff.mp hop'
      simpa using hr
    | reconcile env net name node pods patchOk =>
      obtain ⟨howned, hpanic⟩ :=
        haAnswers_keeps h.configured hr lib env net name node pods patchOk
      intro op' hop'
      dsimp only at hop'
      split at hop'
      · cases hop'
      · obtain rfl := Option.some.inj hop'
        exact howned

/-- The requests to the factory in `CreateAllYarnClients`. -/
def StartEnv (known : List (String × Client.InitEnv)) (env : Client.InitEnv) (clusterID : String)
    (env' : Client.InitEnv) : Prop :=
  (clusterID, env') ∈ known ∨ clusterID = "" ∧ env' = env

theorem moves_createKnown {made : String → Client.InitEnv → Prop} {asked : Net → Prop}
    {known : List (String × Client.InitEnv)} (hknown : ∀ c ∈ known, made c.1 c.2) (heap : Heap) :
    heap.Moves made asked (createKnown known heap).2 := by
  induction known generalizing heap with
  | nil => exact .refl
  | cons c known ih =>
    obtain ⟨hc, hrest⟩ := List.forall_mem_cons.mp hknown
    exact (Heap.Moves.refl.create hc).trans (ih hrest _)

/-- The clients that the operator starts with are from the factory. -/
theorem moves_haStart {known : List (String × Client.InitEnv)} {env : Client.InitEnv} {s : HaState}
    {asked : Net → Prop} (h : haStart known env = some s) :
    Heap.empty.Moves (StartEnv known env) asked s.heap := by
  obtain ⟨clients, -, rfl⟩ := Option.map_eq_some_iff.mp h
  exact (moves_createKnown (fun c hc => .inl hc) .empty).create (.inr ⟨rfl, rfl⟩)

/-- The pointers of the loop over the known ids: all new, one for each client. -/
theorem createKnown_spec (known : List (String × Client.InitEnv)) (heap : Heap) :
    heap.next ≤ (createKnown known heap).2.next ∧
      (∀ id p, (id, some p) ∈ (createKnown known heap).1 →
        heap.next ≤ p ∧ p < (createKnown known heap).2.next) ∧
      ∀ id id' p, (id, some p) ∈ (createKnown known heap).1 →
        (id', some p) ∈ (createKnown known heap).1 → id = id' := by
  induction known generalizing heap with
  | nil => exact ⟨le_rfl, fun id p hp => (by cases hp), fun id id' p hp => (by cases hp)⟩
  | cons c known ih =>
    obtain ⟨id₀, env⟩ := c
    obtain ⟨hle, hbound, hdistinct⟩ := ih (heap.create env id₀).2
    have hcreate := @next_le_create env heap id₀
    have hfirst : ∀ p, some p = (heap.create env id₀).1 →
        p = heap.next ∧ (heap.create env id₀).2.next = heap.next + 1 := fun p hp =>
      of_create_eq_some hp.symm
    simp only [createKnown, List.mem_cons, Prod.mk.injEq]
    refine ⟨hcreate.trans hle, ?_, ?_⟩
    · rintro id p (⟨-, hp⟩ | hp)
      · have := hfirst p hp
        omega
      · have := hbound id p hp
        omega
    · rintro id id' p (⟨hid, hp⟩ | hp) (⟨hid', hp'⟩ | hp')
      · rw [hid, hid']
      · -- the rest has only later pointers
        have := hfirst p hp
        have := hbound id' p hp'
        omega
      · have := hfirst p hp'
        have := hbound id p hp
        omega
      · exact hdistinct id id' p hp hp'

/-- The operator starts valid, with the clients of the factory. -/
theorem valid_haStart {known : List (String × Client.InitEnv)} {env : Client.InitEnv} {s : HaState}
    (h : haStart known env = some s) :
    s.Valid ∧ ∃ clients, s.operator = add clients := by
  have hconf : s.heap.Configured :=
    (@moves_haStart _ _ _ (fun _ => True) h).configured fun p hp => absurd hp (Nat.not_lt_zero p)
  obtain ⟨clients, hclients, rfl⟩ := Option.map_eq_some_iff.mp h
  obtain ⟨-, hbound, hdistinct⟩ := createKnown_spec known .empty
  obtain ⟨made, hmade, hrest⟩ := Option.bind_eq_some_iff.mp hclients
  obtain ⟨p₀, hp₀, hinsert⟩ := Option.bind_eq_some_iff.mp hrest
  obtain rfl := Option.some.inj hinsert
  obtain ⟨rfl, hnext⟩ := of_create_eq_some hp₀
  -- a client of the map is the default one, or comes from the loop
  have hlookup : ∀ id p,
      (made.insert defaultClusterID (createKnown known .empty).2.next).lookup id = some p →
        (id = defaultClusterID ∧ p = (createKnown known .empty).2.next) ∨
          (id, some p) ∈ (createKnown known .empty).1 := by
    intro id p hp
    by_cases heq : id = defaultClusterID
    · subst heq
      rw [AList.lookup_insert] at hp
      exact .inl ⟨rfl, (Option.some.inj hp).symm⟩
    · rw [AList.lookup_insert_ne heq] at hp
      exact .inr (mem_created_of_lookup hmade hp)
  refine ⟨⟨hconf, fun op hop => ?_⟩, _, rfl⟩
  obtain rfl := Option.some.inj hop
  refine ⟨fun p hp => (by cases hp), fun id p hp => ?_, fun id id' p hp hp' => ?_⟩
  · dsimp only
    rcases hlookup id p hp with ⟨-, rfl⟩ | hmem
    · omega
    · have := (hbound id p hmem).2
      omega
  · rcases hlookup id p hp with ⟨hid, heq⟩ | hmem <;>
      rcases hlookup id' p hp' with ⟨hid', heq'⟩ | hmem'
    · rw [hid, hid']
    · have := (hbound id' p hmem').2
      omega
    · have := (hbound id p hmem).2
      omega
    · exact hdistinct id id' p hmem hmem'

end Valid

/-! ## The refinement -/

/-- The step of `Operator` that a step with clients is: its answers are those of the clients. -/
def operatorActs (s : HaState) (act : HaAct) : List (OperatorAct ℕ) :=
  match s.operator.operator with
  | none => []
  | some op =>
    match act with
    | .pass nets order => [.pass order (op.answers nets s.heap)]
    | .reconcile env net name node pods patchOk =>
      [.reconcile name (haAnswers lib env net op.reconciler s.heap node pods patchOk).1]

/-- A pass with clients is a pass with the answers they have when it starts. -/
theorem syncClients_visit {nets : String → Net} {op : Operator ℕ} {heap : Heap}
    (h : heap.Configured) (hr : Owned op.reconciler heap.next) (order : RangeOrder String) :
    (syncClients nets (op.reconciler.visit order) (fun _ => none) heap).1 =
      op.pass order (op.answers nets heap) := by
  have hranges := ranges_visit op.reconciler order
  rw [Operator.pass, syncYARNNodeAllocatedResource, ← hranges.map_fst_entriesOf]
  refine syncClients_eq heap h (fun c hc => ?_) ?_
  · have hlookup : op.reconciler.yarnClients.lookup c.1 = some c.2 := hranges.mem_entriesOf.mp hc
    exact ⟨hr.lt_of_mem_visit order hc, rfl, by rw [Operator.answers, hlookup]; rfl⟩
  · refine (hranges.nodup_map_iff Prod.snd).mpr fun id id' p p' hp hp' heq => ?_
    exact hr.distinct id id' p hp (hp'.trans (congrArg some heq.symm))

/-- The operator of `Operator` simulates the one with clients. -/
def haSimulation : Simulation (haStep lib) (@operatorStep ℕ lib) where
  Rel s t := s.Valid ∧ s.operator = t
  answer := operatorActs lib
  step_rel := by
    rintro s _ act ⟨hvalid, rfl⟩
    refine ⟨valid_haStep s act hvalid, ?_⟩
    unfold haStep operatorActs
    cases hop : s.operator.operator with
    | none => rfl
    | some op =>
      have hr := hvalid.owned op hop
      cases act with
      | pass nets order =>
        simp only [run_cons, run_nil, operatorStep, hop,
          syncClients_visit hvalid.configured hr order]
      | reconcile env net name node pods patchOk =>
        obtain ⟨-, hpanic⟩ :=
          haAnswers_keeps hvalid.configured hr lib env net name node pods patchOk
        simp only [run_cons, run_nil, operatorStep, hop, hpanic, Bool.false_eq_true, false_or]

/-- The cache is that of the last successful pass. -/
theorem synced_haStep {s : HaState} (hvalid : s.Valid) (act : HaAct) (h : Synced s.operator) :
    Synced (haStep lib s act).operator := by
  have hrel : (haSimulation lib).Rel s s.operator := ⟨hvalid, rfl⟩
  obtain ⟨-, hstep⟩ := (haSimulation lib).step_rel act hrel
  rw [hstep]
  exact run_invariant (synced_step lib) _ h

/-- **Refinement.** A run of the operator with its clients, from the clients of the factory on, is a
run of `Operator` from the same clients, with the answers the clients give; and every client that
was made keeps a configuration, so that no request can dereference a missing one. -/
theorem haOperator_refines {known : List (String × Client.InitEnv)} {env : Client.InitEnv}
    {s : HaState} (hstart : haStart known env = some s) (acts : List HaAct) :
    ∃ clients, s.operator = add clients ∧
      (run (haStep lib) s acts).operator =
        run (operatorStep lib) (add clients) ((haSimulation lib).answers s acts) ∧
      (run (haStep lib) s acts).heap.Configured := by
  obtain ⟨hvalid, clients, hadd⟩ := valid_haStart hstart
  obtain ⟨hvalid', hrun⟩ := (haSimulation lib).run_rel acts ⟨hvalid, hadd⟩
  exact ⟨clients, hadd, hrun, hvalid'.configured⟩

/-- Two RMs of which the second is active, and every request is answered. -/
def failoverNet : Net :=
  ⟨fun _ => Client.failoverEnv, fun _ => Client.failoverEnv, true, fun _ => some [],
    fun _ _ => true⟩

/-- The same RMs, but no connection can be made. -/
def unreachableNet : Net := { failoverNet with ready := false }

theorem haStart_failoverNet : (haStart [] Client.failoverEnv).isSome := by decide +kernel

/-- A pass that fails, one that goes through, and a `Reconcile` that updates YARN and records the
use. -/
def failoverActs : List HaAct :=
  [.pass (fun _ => unreachableNet) .listed, .pass (fun _ => failoverNet) .listed,
    .reconcile (fun _ => Client.failoverEnv) failoverNet "worker-1"
      (.found (statusNode (.new 8000) 0)) (some [nodeManagerPod]) true]

theorem haOperator_refines_failoverActs :
    ((haStart [] Client.failoverEnv).map fun s =>
        (run (haStep plainLib) s failoverActs).heap.failed) = some [0] ∧
      ∃ s, haStart [] Client.failoverEnv = some s ∧ ∃ clients, s.operator = add clients ∧
        (run (haStep plainLib) s failoverActs).operator =
          run (operatorStep plainLib) (add clients)
            ((haSimulation plainLib).answers s failoverActs) ∧
        (run (haStep plainLib) s failoverActs).heap.Configured := by
  refine ⟨by decide +kernel, ?_⟩
  obtain ⟨s, hs⟩ := Option.isSome_iff_exists.mp haStart_failoverNet
  exact ⟨s, hs, haOperator_refines plainLib hs failoverActs⟩

end YarnCopilot.NodeResource
