import YarnCopilot.Cache.Snapshot
import YarnCopilot.NodeResource.Exits
import YarnCopilot.NodeResource.Operator

/-!
# Which cluster a node belongs to

Reference: `pkg/yarn/client/factory.go`, `getYARNNode` and `getYARNClient` of
`pkg/controller/noderesource/resource_sync_controller.go`.

A cluster is known by the prefix of its configuration files. The default cluster, whose files have
no prefix, has the id `""` where a client is made and `__default_yarn_cluster__` in the map of
clients and in the cache. A pod may carry either. With the first, `Reconcile` updates the default
cluster and then reads the partition `""` of the cache, which no pass fills.
-/

namespace YarnCopilot.NodeResource

open Cache

variable {Client : Type}

/-! ## The factory -/

/-- `CreateAllYarnClients`: the clients the factory made for the ids of the configuration directory,
one after the other, and the default one. The first that fails gives up the whole. -/
def createAllYarnClients (created : List (String × Option Client)) (defaultClient : Option Client) :
    Option (AList fun _ : String => Client) := do
  let clients ← created.foldlM
    (fun clients c => c.2.map fun client => AList.insert c.1 client clients) ∅
  let client ← defaultClient
  return clients.insert defaultClusterID client

/-- The configuration that an id of the map of clients stands for. -/
def configOf (id : String) : String := if id = defaultClusterID then "" else id

/-- The clients of a reconciler are built from the configurations their places stand for. -/
structure WellBuilt (cluster : Client → String) (r : Reconciler Client) : Prop where
  yarnClient : ∀ client, r.yarnClient = some client → cluster client = ""
  yarnClients : ∀ id client, r.yarnClients.lookup id = some client → cluster client = configOf id
  hasDefault : defaultClusterID ∈ r.yarnClients

variable {cluster : Client → String}

/-- What the loop over the ids leaves was made for its id. -/
theorem mem_created_of_lookup {created : List (String × Option Client)}
    {clients : AList fun _ : String => Client}
    (h : created.foldlM (fun clients c => c.2.map fun client => AList.insert c.1 client clients) ∅ =
      some clients) {id : String} {client : Client} (hlookup : clients.lookup id = some client) :
    (id, some client) ∈ created := by
  induction created using List.reverseRecOn generalizing clients with
  | nil =>
    obtain rfl := Option.some.inj h
    simp at hlookup
  | append_singleton created c ih =>
    rw [List.foldlM_append] at h
    obtain ⟨before, hbefore, hlast⟩ := Option.bind_eq_some_iff.mp h
    obtain ⟨made, hmade, rfl⟩ : ∃ made, c.2 = some made ∧ before.insert c.1 made = clients := by
      simpa [Option.map_eq_some_iff] using hlast
    by_cases hid : id = c.1
    · subst hid
      rw [AList.lookup_insert] at hlookup
      obtain rfl := Option.some.inj hlookup
      rw [← hmade]
      simp
    · rw [AList.lookup_insert_ne hid] at hlookup
      exact List.mem_append_left _ (ih hbefore hlookup)

/-- The clients `Add` starts with. -/
theorem wellBuilt_createAll {created : List (String × Option Client)} {defaultClient : Option Client}
    {clients : AList fun _ : String => Client}
    (h : createAllYarnClients created defaultClient = some clients)
    (hcreated : ∀ id client, (id, some client) ∈ created → cluster client = id)
    (hdefault : ∀ client, defaultClient = some client → cluster client = "") :
    WellBuilt cluster ⟨none, clients⟩ := by
  obtain ⟨known, hknown, hrest⟩ := Option.bind_eq_some_iff.mp h
  obtain ⟨client, hclient, hinsert⟩ := Option.bind_eq_some_iff.mp hrest
  obtain rfl := Option.some.inj hinsert
  refine ⟨nofun, fun id c hlookup => ?_, by simp⟩
  by_cases hid : id = defaultClusterID
  · subst hid
    rw [AList.lookup_insert] at hlookup
    obtain rfl := Option.some.inj hlookup
    rw [hdefault client hclient, configOf, if_pos rfl]
  · rw [AList.lookup_insert_ne hid] at hlookup
    rw [hcreated id c (mem_created_of_lookup hknown hlookup), configOf, if_neg hid]

/-! ## The clients of a Reconcile -/

/-- The factory makes the client it is asked for. -/
def MadeAsAsked (cluster : Client → String) (created : Option Client) (calls : List (Call Client)) :
    Prop :=
  ∀ client, created = some client →
    (.createDefaultYarnClient ∈ calls → cluster client = "") ∧
      ∀ id, .createYarnClientByClusterID id ∈ calls → cluster client = id

section Client

variable {r r' : Reconciler Client} {created : Option Client} {yarnNode : YarnNode}
  {client : Option Client} {creates : List (Call Client)}

/-- A client may take the place of an id if it is built from the configuration the id stands for. -/
theorem WellBuilt.insert (h : WellBuilt cluster r) {id : String} {c : Client}
    (hc : cluster c = configOf id) :
    WellBuilt cluster { r with yarnClients := r.yarnClients.insert id c } := by
  refine ⟨h.yarnClient, fun id' c' hlookup => ?_, (AList.mem_insert _).mpr (.inr h.hasDefault)⟩
  by_cases heq : id' = id
  · subst heq
    rw [AList.lookup_insert] at hlookup
    rw [← Option.some.inj hlookup, hc]
  · rw [AList.lookup_insert_ne heq] at hlookup
    exact h.yarnClients id' c' hlookup

/-- The client of a node is built from the configuration its cluster id stands for, and so are those
the reconciler then has. -/
theorem WellBuilt.clientWay (h : WellBuilt cluster r)
    (hway : ClientWay r created yarnNode client r' creates)
    (hmade : MadeAsAsked cluster created creates) :
    WellBuilt cluster r' ∧ ∀ c, client = some c → cluster c = configOf yarnNode.clusterID := by
  have hdefault : configOf "" = "" := by decide
  cases hway with
  | held hid hheld =>
    rw [hid, hdefault]
    exact ⟨h, fun c hc => h.yarnClient c (hheld.trans hc)⟩
  | asked hid _ =>
    have hcluster : ∀ c, created = some c → cluster c = "" := fun c hc =>
      (hmade c hc).1 List.mem_cons_self
    rw [hid, hdefault]
    exact ⟨⟨hcluster, h.yarnClients, h.hasDefault⟩, hcluster⟩
  | known _ hknown => exact ⟨h, fun c hc => h.yarnClients _ c (hknown.trans hc)⟩
  | refused _ _ _ => exact ⟨h, nofun⟩
  | @added c _ hnew hc =>
    -- the default cluster always has a client, so this is not its id
    have hid : yarnNode.clusterID ≠ defaultClusterID := by
      intro heq
      rw [heq] at hnew
      exact AList.lookup_eq_none.mp hnew h.hasDefault
    have hcluster : cluster c = configOf yarnNode.clusterID := by
      rw [configOf, if_neg hid]
      exact (hmade c hc).2 _ List.mem_cons_self
    refine ⟨h.insert hcluster, fun c' hc' => ?_⟩
    rw [← Option.some.inj hc', hcluster]

/-- The client of a node with a cluster id is the one of the map. -/
theorem ClientWay.lookup {c : Client} (hway : ClientWay r created yarnNode (some c) r' creates)
    (hid : yarnNode.clusterID ≠ "") : r'.yarnClients.lookup yarnNode.clusterID = some c := by
  cases hway with
  | held hempty _ => exact absurd hempty hid
  | asked hempty _ => exact absurd hempty hid
  | known _ hknown => exact hknown
  | added _ _ _ => exact AList.lookup_insert _

/-- The client of a node with an empty cluster id is the remembered one, or a new one. -/
theorem ClientWay.client_eq (hway : ClientWay r created yarnNode client r' creates)
    (hid : yarnNode.clusterID = "") : client = r.yarnClient.or created := by
  cases hway with
  | held _ hheld => rw [hheld, Option.some_or]
  | asked _ hnone => rw [hnone, Option.none_or]
  | _ => contradiction

/-- The client of a node with an empty cluster id is not put into the map. -/
theorem ClientWay.yarnClients_eq (hway : ClientWay r created yarnNode client r' creates)
    (hid : yarnNode.clusterID = "") : r'.yarnClients = r.yarnClients := by
  cases hway with
  | added hne _ _ => exact absurd hid hne
  | _ => rfl

end Client

section Path

variable {lib : Library} {r r' : Reconciler Client} {cache : NodeCache} {name : String}
  {answers : Answers Client} {calls : List (Call Client)} {exit : Exit}

/-- The reconciler changes only where it gets the client of the NodeManager. -/
theorem Path.reconciler (h : Path lib r cache name answers r' calls exit) :
    r' = r ∨ ∃ yarnNode client creates,
      ClientWay r answers.client yarnNode client r' creates ∧ ∀ call ∈ creates, call ∈ calls := by
  cases h with
  | noClient _ _ h =>
    exact .inr ⟨_, _, _, .of_eq h, fun _ hcall => List.mem_append_right _ hcall⟩
  | updateFailed hway _ =>
    exact .inr ⟨_, _, _, .of_eq hway.client, fun _ hcall => by simp [hcall]⟩
  | noUsed hway _ _ =>
    exact .inr ⟨_, _, _, .of_eq hway.client, fun _ hcall => by simp [hcall]⟩
  | recorded hway _ _ =>
    exact .inr ⟨_, _, _, .of_eq hway.client, fun _ hcall => by simp [hcall]⟩
  | _ => exact .inl rfl

/-- An update goes to the client of the NodeManager. -/
theorem Path.update {client : Client} {request : UpdateNodeResourceRequest}
    (h : Path lib r cache name answers r' calls exit)
    (hcall : .updateNodeResource client request ∈ calls) :
    ∃ node yarnNode creates, ToUpdate lib r answers node yarnNode client request r' creates ∧
      ∀ call ∈ creates, call ∈ calls := by
  cases h with
  | noClient _ _ h => cases ((ClientWay.of_eq h).neither hcall).1
  | updateFailed hway _ =>
    obtain ⟨rfl, rfl⟩ := Call.updateNodeResource.inj (by simpa using hway.mem_tail hcall (.inl rfl))
    exact ⟨_, _, _, hway, fun _ hcall => by simp [hcall]⟩
  | noUsed hway _ _ =>
    obtain ⟨rfl, rfl⟩ := Call.updateNodeResource.inj (by simpa using hway.mem_tail hcall (.inl rfl))
    exact ⟨_, _, _, hway, fun _ hcall => by simp [hcall]⟩
  | recorded hway _ _ =>
    obtain ⟨rfl, rfl⟩ := Call.updateNodeResource.inj (by simpa using hway.mem_tail hcall (.inl rfl))
    exact ⟨_, _, _, hway, fun _ hcall => by simp [hcall]⟩
  | _ => simp at hcall

/-- A `Reconcile` of the operator. -/
theorem Operator.path (op : Operator Client) : Path lib op.reconciler op.syncer.cache name answers
    (op.reconcile lib name answers).reconciler (op.reconcile lib name answers).calls
    (op.reconcile lib name answers).exit :=
  reconcile_path

end Path

/-! ## Filling the cache -/

/-- A pass of the operator, with what its clients answer. -/
def Operator.passFrom (op : Operator Client) (order : RangeOrder String)
    (respond : Client → ClusterNodes) : PassResult :=
  op.pass order fun id => (op.reconciler.yarnClients.lookup id).elim .nil respond

/-- The passes of the operator fill the partition of the id with the answers of the client. -/
def FilledFrom (op : Operator Client) (id : String) (client : Client) : Prop :=
  ∀ order respond snapshot, op.passFrom order respond = .synced snapshot →
    snapshot id = built (respond client)

theorem filledFrom_of_lookup {op : Operator Client} {id : String} {client : Client}
    (h : op.reconciler.yarnClients.lookup id = some client) : FilledFrom op id client := by
  intro order respond snapshot hsynced
  have hid : id ∈ order.visit op.reconciler.yarnClients.keys := by
    rw [RangeOrder.mem_visit, ← AList.mem_keys, ← AList.lookup_isSome, h]
    rfl
  rw [syncClusters_inv hsynced, if_pos hid, h, Option.or_none]
  rfl

/-- A partition without a client is filled by nobody. -/
theorem not_filledFrom {op : Operator Client} {id : String} (h : id ∉ op.reconciler.yarnClients)
    (client : Client) : ¬ FilledFrom op id client := by
  intro hfilled
  -- a pass in which every client answers with an empty list
  have hanswer : ∀ id', (op.reconciler.yarnClients.lookup id').elim ClusterNodes.nil
      (fun _ => .reports []) ≠ .failed := by
    intro id'
    cases op.reconciler.yarnClients.lookup id' <;> simp
  have hnodeIds : ∀ id' reports, (op.reconciler.yarnClients.lookup id').elim ClusterNodes.nil
      (fun _ => .reports []) = .reports reports → ∀ report ∈ reports, report.nodeId.isSome := by
    intro id' reports hreports
    cases hlookup : op.reconciler.yarnClients.lookup id' with
    | none => simp [hlookup] at hreports
    | some c =>
      rw [hlookup] at hreports
      obtain rfl := ClusterNodes.reports.inj hreports
      simp
  have hpart := hfilled .listed (fun _ => .reports []) _
    (syncClusters_synced (fun id' _ => hnodeIds id') (fun id' _ => hanswer id') fun _ => none)
  have hid : id ∉ RangeOrder.listed.visit op.reconciler.yarnClients.keys := by
    rw [RangeOrder.mem_visit]
    exact h
  rw [if_neg hid] at hpart
  cases hpart

/-! ## Runs -/

section Steps

variable (lib : Library) (cluster : Client → String)

/-- The factory makes the clients that a step asks it for. -/
def StepMadeAsAsked (s : OperatorState Client) : OperatorAct Client → Prop
  | .pass _ _ => True
  | .reconcile name answers =>
    ∀ op, s.operator = some op →
      MadeAsAsked cluster answers.client (op.reconcile lib name answers).calls

/-- The clients of the operator are built from the configurations their places stand for. -/
def OperatorWellBuilt (s : OperatorState Client) : Prop :=
  ∀ op, s.operator = some op → WellBuilt cluster op.reconciler

/-- The update of a step and the partition its read-back looks into belong to one cluster: the
partition is filled from a client built from the configuration of the client that was updated. -/
def SameCluster (s : OperatorState Client) : OperatorAct Client → Prop
  | .pass _ _ => True
  | .reconcile name answers =>
    ∀ op yarnNode client request, s.operator = some op → HasNodeManager answers.pods yarnNode →
      .updateNodeResource client request ∈ (op.reconcile lib name answers).calls →
      ∃ filler, cluster filler = cluster client ∧
        FilledFrom { op with reconciler := (op.reconcile lib name answers).reconciler }
          yarnNode.clusterID filler

/-- A `Reconcile` that gets as far as the update for a pod with an empty cluster id finds a client
of that id in the map. -/
def EmptyIdKnown (s : OperatorState Client) : OperatorAct Client → Prop
  | .pass _ _ => True
  | .reconcile _ answers =>
    ∀ op node yarnNode batch, s.operator = some op → answers.node = .found node →
      HasNodeManager answers.pods yarnNode → getNodeBatchResource lib node = .ok batch →
      op.reconciler.yarnClient.isSome ∨ answers.client.isSome → yarnNode.clusterID = "" →
      "" ∈ op.reconciler.yarnClients

end Steps

variable {lib : Library}

theorem MadeAsAsked.of_subset {created : Option Client} {calls creates : List (Call Client)}
    (h : MadeAsAsked cluster created calls) (hsub : ∀ call ∈ creates, call ∈ calls) :
    MadeAsAsked cluster created creates := fun client hclient =>
  ⟨fun hmem => (h client hclient).1 (hsub _ hmem),
    fun id hmem => (h client hclient).2 id (hsub _ hmem)⟩

/-- Every step keeps the clients well built. -/
theorem wellBuilt_step (s : OperatorState Client) (act : OperatorAct Client)
    (hmade : StepMadeAsAsked lib cluster s act) (h : OperatorWellBuilt cluster s) :
    OperatorWellBuilt cluster (operatorStep lib s act) := by
  unfold operatorStep
  split
  · exact h
  · rename_i op hop
    cases act with
    | pass order answer =>
      intro op' hop'
      obtain ⟨syncer, -, rfl⟩ := Option.map_eq_some_iff.mp hop'
      exact h op hop
    | reconcile name answers =>
      intro op' hop'
      dsimp only at hop'
      split at hop'
      · cases hop'
      · obtain rfl := Option.some.inj hop'
        rcases op.path.reconciler with hsame | ⟨yarnNode, client, creates, hway, hsub⟩
        · show WellBuilt cluster (op.reconcile lib name answers).reconciler
          rw [hsame]
          exact h op hop
        · exact ((h op hop).clientWay hway ((hmade op hop).of_subset hsub)).1

/-- A `Reconcile` that has read the batch resources and has a client sends the update. -/
theorem exists_update {op : Operator Client} {name : String} {answers : Answers Client} {node : Node}
    {yarnNode : YarnNode} {batch : Quantity × Quantity} (hnode : answers.node = .found node)
    (hyarn : HasNodeManager answers.pods yarnNode)
    (hbatch : getNodeBatchResource lib node = .ok batch)
    (hclient : (getYARNClient op.reconciler answers.client yarnNode).1.isSome) :
    ∃ client request,
      .updateNodeResource client request ∈ (op.reconcile lib name answers).calls := by
  rcases hget : getYARNClient op.reconciler answers.client yarnNode with ⟨_ | client, r', creates⟩
  · rw [hget] at hclient
    cases hclient
  · refine ⟨client, updateRequest yarnNode (calculate lib batch.1 batch.2).1
      (calculate lib batch.1 batch.2).2, ?_⟩
    rw [Operator.reconcile, mem_reconcile hnode, reconcileNode_of_hasNodeManager hyarn,
      mem_reconcileYARNNode]
    refine .inr (.inr (.inl ⟨batch, hbatch, ?_⟩))
    simp only [updateYARNNodeResource, hget]
    split <;> simp

/-- The update of a step. -/
theorem toUpdate_of_mem {op : Operator Client} {name : String} {answers : Answers Client}
    {yarnNode : YarnNode} {client : Client} {request : UpdateNodeResourceRequest}
    (hyarn : HasNodeManager answers.pods yarnNode)
    (hcall : .updateNodeResource client request ∈ (op.reconcile lib name answers).calls) :
    ∃ node creates, ToUpdate lib op.reconciler answers node yarnNode client request
        (op.reconcile lib name answers).reconciler creates ∧
      ∀ call ∈ creates, call ∈ (op.reconcile lib name answers).calls := by
  obtain ⟨node, yarnNode', creates, hway, hsub⟩ := op.path.update hcall
  obtain rfl := hyarn.unique hway.hasNodeManager
  exact ⟨node, creates, hway, hsub⟩

/-- A step keeps to one cluster exactly when no pod with an empty cluster id gets as far as the
update without a client of that id in the map. -/
theorem sameCluster_iff {s : OperatorState Client} {act : OperatorAct Client}
    (hbuilt : OperatorWellBuilt cluster s) (hmade : StepMadeAsAsked lib cluster s act) :
    SameCluster lib cluster s act ↔ EmptyIdKnown lib s act := by
  cases act with
  | pass order answer => exact Iff.rfl
  | reconcile name answers =>
    constructor
    · intro h op node yarnNode batch hop hnode hyarn hbatch havailable hid
      have hsome : (getYARNClient op.reconciler answers.client yarnNode).1.isSome := by
        rw [(getYARNClient_way _ _ _).client_eq hid, Option.isSome_or, Bool.or_eq_true]
        exact havailable
      obtain ⟨client, request, hcall⟩ :
          ∃ client request, .updateNodeResource client request ∈
            (op.reconcile lib name answers).calls := exists_update hnode hyarn hbatch hsome
      obtain ⟨_, creates, hway, -⟩ := toUpdate_of_mem hyarn hcall
      obtain ⟨filler, -, hfilled⟩ := h op yarnNode client request hop hyarn hcall
      by_contra hunknown
      -- the map is as it was, and has nobody to fill the partition
      rw [← (ClientWay.of_eq hway.client).yarnClients_eq hid] at hunknown
      rw [hid] at hfilled
      exact not_filledFrom hunknown filler hfilled
    · intro h op yarnNode client request hop hyarn hcall
      obtain ⟨node, creates, hway, hsub⟩ := toUpdate_of_mem hyarn hcall
      obtain ⟨batch, hbatch, -⟩ := hway.batch
      have hclient := ClientWay.of_eq hway.client
      have hcluster : cluster client = configOf yarnNode.clusterID :=
        ((hbuilt op hop).clientWay hclient ((hmade op hop).of_subset hsub)).2 client rfl
      by_cases hid : yarnNode.clusterID = ""
      · have havailable : op.reconciler.yarnClient.isSome ∨ answers.client.isSome := by
          rw [← Bool.or_eq_true, ← Option.isSome_or, ← hclient.client_eq hid]
          rfl
        have hknown := h op node yarnNode batch hop hway.found hyarn hbatch havailable hid
        obtain ⟨filler, hfiller⟩ := Option.isSome_iff_exists.mp (AList.lookup_isSome.mpr hknown)
        refine ⟨filler, ?_, filledFrom_of_lookup ?_⟩
        · rw [hcluster, hid]
          exact (hbuilt op hop).yarnClients "" filler hfiller
        · show (op.reconcile lib name answers).reconciler.yarnClients.lookup _ = _
          rw [hclient.yarnClients_eq hid, hid]
          exact hfiller
      · exact ⟨client, rfl, filledFrom_of_lookup (hclient.lookup hid)⟩

/-- The updates and the read-backs of a run of the operator keep to one cluster exactly when no pod
with an empty cluster id gets as far as the update without a client of that id in the map. -/
theorem runs_sameCluster_iff (lib : Library) (cluster : Client → String)
    (created : List (String × Option Client)) (defaultClient : Option Client)
    (clients : AList fun _ : String => Client) (acts : List (OperatorAct Client))
    (hclients : createAllYarnClients created defaultClient = some clients)
    (hcreated : ∀ id client, (id, some client) ∈ created → cluster client = id)
    (hdefault : ∀ client, defaultClient = some client → cluster client = "")
    (hmade : Meets (operatorStep lib) (StepMadeAsAsked lib cluster) (add clients) acts) :
    Meets (operatorStep lib) (SameCluster lib cluster) (add clients) acts ↔
      Meets (operatorStep lib) (EmptyIdKnown lib) (add clients) acts := by
  have hstart : OperatorWellBuilt cluster (add clients) := by
    intro op hop
    obtain rfl := Option.some.inj hop
    exact wellBuilt_createAll hclients hcreated hdefault
  have hbuilt : ∀ pre act post, acts = pre ++ act :: post →
      OperatorWellBuilt cluster (run (operatorStep lib) (add clients) pre) := by
    intro pre act post hsplit
    rw [hsplit] at hmade
    exact run_invariant_of_meets wellBuilt_step pre hmade.of_append hstart
  constructor
  · intro h pre act post hsplit
    exact (sameCluster_iff (hbuilt pre act post hsplit) (hmade pre act post hsplit)).mp
      (h pre act post hsplit)
  · intro h pre act post hsplit
    exact (sameCluster_iff (hbuilt pre act post hsplit) (hmade pre act post hsplit)).mpr
      (h pre act post hsplit)

/-! ## A pod with an empty cluster id -/

/-- A NodeManager pod whose cluster id is the empty string. -/
def emptyIdPod : Pod :=
  ⟨Function.update nodeManagerPod.annotations podYarnClusterIDAnnotationKey (some "")⟩

/-- Every call succeeds; the factory makes a second client of the default cluster. -/
def emptyIdAnswers : Answers ℕ :=
  { calmAnswers (statusNode (.new 2000) 0) with pods := some [emptyIdPod], client := some 1 }

theorem hasNodeManager_emptyIdAnswers :
    HasNodeManager emptyIdAnswers.pods ⟨"worker-1", 8041, ""⟩ := by
  refine ⟨?_, by decide, by decide⟩
  change getYARNNode (some [emptyIdPod]) = _
  decide +kernel

/-- The default cluster is the only one, and the update goes to a client of it; the partition that
is then read has no client. -/
theorem reconcile_emptyId_leaves_cluster :
    createAllYarnClients [] (some 0) = some addedReconciler.yarnClients ∧
      (∃ request, .updateNodeResource 1 request ∈
        (reconcile plainLib addedReconciler (fun _ => none) "worker-1" emptyIdAnswers).calls) ∧
      ¬ Meets (operatorStep plainLib) (SameCluster plainLib fun _ => "")
        (add addedReconciler.yarnClients) [.reconcile "worker-1" emptyIdAnswers] := by
  let op : Operator ℕ := ⟨addedReconciler, newNodesSyncer⟩
  obtain ⟨client, request, hcall⟩ : ∃ client request, .updateNodeResource client request ∈
      (op.reconcile plainLib "worker-1" emptyIdAnswers).calls :=
    exists_update rfl hasNodeManager_emptyIdAnswers (getNodeBatchResource_statusNode _ _) rfl
  obtain ⟨_, creates, hway, -⟩ := toUpdate_of_mem hasNodeManager_emptyIdAnswers hcall
  refine ⟨rfl, ⟨request, ?_⟩, fun h => ?_⟩
  · have hclient : client = 1 := by
      have hfirst : (getYARNClient op.reconciler emptyIdAnswers.client
          ⟨"worker-1", 8041, ""⟩).1 = some client := by rw [hway.client]
      exact (Option.some.inj hfirst).symm
    rw [← hclient]
    exact hcall
  · obtain ⟨filler, -, hfilled⟩ := h [] _ [] rfl op _ client request rfl
      hasNodeManager_emptyIdAnswers hcall
    refine not_filledFrom ?_ filler hfilled
    show "" ∉ (op.reconcile plainLib "worker-1" emptyIdAnswers).reconciler.yarnClients
    rw [(ClientWay.of_eq hway.client).yarnClients_eq rfl]
    decide

/-- A pod without a cluster id. -/
theorem runs_sameCluster_iff_calm :
    Meets (operatorStep plainLib) (SameCluster plainLib fun _ => "")
      (add addedReconciler.yarnClients)
      [.reconcile "worker-1" (calmAnswers (statusNode (.new 2000) 0))] := by
  have hmade : Meets (operatorStep plainLib) (StepMadeAsAsked plainLib fun _ => "")
      (add addedReconciler.yarnClients)
      [.reconcile "worker-1" (calmAnswers (statusNode (.new 2000) 0))] := by
    rw [meets_cons]
    refine ⟨fun op hop client _ => ⟨fun _ => rfl, fun id hmem => ?_⟩, meets_nil⟩
    obtain rfl := Option.some.inj hop
    rw [Operator.reconcile, reconcile_eq rfl (hasNodeManager_calmAnswers _)
      (getNodeBatchResource_statusNode _ _) (by decide) rfl rfl rfl] at hmem
    simp at hmem
  refine (runs_sameCluster_iff plainLib (fun _ => "") [] (some 0) _ _ rfl nofun (fun _ _ => rfl)
    hmade).mpr ?_
  rw [meets_cons]
  refine ⟨fun op node yarnNode batch _ _ hyarn _ _ hid => ?_, meets_nil⟩
  rw [← (hasNodeManager_calmAnswers (statusNode (.new 2000) 0)).unique hyarn] at hid
  exact absurd hid (by decide)

end YarnCopilot.NodeResource
