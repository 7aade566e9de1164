import YarnCopilot.Cache.NodesSyncer
import YarnCopilot.NodeResource.YarnResource

/-!
# The node resource reconciler

Reference: `pkg/controller/noderesource/resource_sync_controller.go`.

One `Reconcile` is a function of the reconciler, the cache and the answers of what it calls. It
returns the calls it made, in order, and how it ended; no call is made twice, so one answer for each
is enough. A map that is nil reads as an empty one, and is replaced by an empty one before it is
written.
-/

namespace YarnCopilot.NodeResource

open Cache

/-! ## Kubernetes objects -/

/-- The parts of a node that `Reconcile` reads. -/
structure Node where
  name : String
  annotations : Annotations
  allocatable : ResourceList

/-- The part of a pod that `Reconcile` reads. -/
structure Pod where
  annotations : Annotations

/-- `YarnNodeIdAnnotation`. -/
def yarnNodeIdAnnotation : String := "yarn.hadoop.apache.org/node-id"

/-- `PodYarnClusterIDAnnotationKey`. -/
def podYarnClusterIDAnnotationKey : String := "yarn.hadoop.apache.org/cluster-id"

/-- `yarnclient.DefaultClusterID`. -/
def defaultClusterID : String := "__default_yarn_cluster__"

/-- The answer to the `Get` of a node. -/
inductive GetNode
  | notFound
  | failed
  | found (node : Node)

/-- The parts of `UpdateNodeResourceRequestProto` that are filled in, for its one node. -/
structure UpdateNodeResourceRequest where
  host : String
  port : ℤ
  memory : ℤ
  virtualCores : ℤ
deriving DecidableEq, Repr

variable {Client : Type}

/-- The calls `Reconcile` makes. -/
inductive Call (Client : Type)
  | getNode (name : String)
  | listNodeManagerPods (nodeName : String)
  | createDefaultYarnClient
  | createYarnClientByClusterID (clusterID : String)
  | updateNodeResource (client : Client) (request : UpdateNodeResourceRequest)
  | reinitializeClient (client : Client)
  | patchNode (name : String) (patch : MergePatch String String)

/-- The answers to the calls: the node, the NodeManager pods (`none` when the `List` fails), the
client of the factory (`none` when it fails), and whether the update and the patch succeed. -/
structure Answers (Client : Type) where
  node : GetNode
  pods : Option (List Pod)
  client : Option Client
  updateOk : Bool
  patchOk : Bool

/-- `YARNResourceSyncReconciler` without the cache and the API client. -/
structure Reconciler (Client : Type) where
  yarnClient : Option Client
  yarnClients : AList fun _ : String => Client

/-- How `Reconcile` ends: without an error, with one, or not at all. -/
inductive Exit
  | done
  | requeue
  | panic
deriving DecidableEq, Repr

/-- A `Reconcile`: the reconciler after it, the calls, and how it ended. -/
structure Trace (Client : Type) where
  reconciler : Reconciler Client
  calls : List (Call Client)
  exit : Exit

/-! ## The NodeManager of a node -/

/-- `getYARNNodeManagerPod`: the first pod of the list. -/
def getYARNNodeManagerPod : Option (List Pod) → Except Unit (Option Pod)
  | none => .error ()
  | some pods => .ok pods.head?

/-- The node id of an annotation: two tokens, the second of them a number. -/
def parseNodeId (podAnnoNodeId : String) : Option (String × ℤ) :=
  match splitOn ':' podAnnoNodeId with
  | [host, port] => (atoi port).map fun port => (host, int32 port)
  | _ => none

/-- `getYARNNode` for a pod. -/
def yarnNodeOfPod (nmPod : Pod) : Except Unit YarnNode :=
  match (nmPod.annotations yarnNodeIdAnnotation).bind parseNodeId with
  | none => .error ()
  | some (name, port) =>
    .ok ⟨name, port, (nmPod.annotations podYarnClusterIDAnnotationKey).getD defaultClusterID⟩

/-- `getYARNNode`. -/
def getYARNNode (pods : Option (List Pod)) : Except Unit (Option YarnNode) :=
  match getYARNNodeManagerPod pods with
  | .error e => .error e
  | .ok none => .ok none
  | .ok (some nmPod) => (yarnNodeOfPod nmPod).map some

/-- The node has a NodeManager with a node id: what `Reconcile` asks of the result of `getYARNNode`
before it goes on. -/
def HasNodeManager (pods : Option (List Pod)) (yarnNode : YarnNode) : Prop :=
  getYARNNode pods = .ok (some yarnNode) ∧ yarnNode.name ≠ "" ∧ yarnNode.port ≠ 0

/-! ## Resources -/

variable (lib : Library)

/-- The batch resources of a list, zero for those it lacks. -/
def batchResources (resources : ResourceList) : Quantity × Quantity :=
  ((resources.lookup batchCPU).getD 0, (resources.lookup batchMemory).getD 0)

/-- `getNodeBatchResource`: the origin annotation, or the status of a node without one. -/
def getNodeBatchResource (node : Node) : Except Unit (Quantity × Quantity) :=
  match getOriginExtendedAllocatableRes lib node.annotations with
  | .error e => .error e
  | .ok none => .ok (batchResources node.allocatable)
  | .ok (some originAllocatableRes) => .ok (batchResources originAllocatableRes)

/-- Without the annotation the status counts. -/
theorem getNodeBatchResource_of_absent {lib : Library} {node : Node}
    (h : node.annotations nodeOriginExtendedAllocatableAnnotationKey = none) :
    getNodeBatchResource lib node = .ok (batchResources node.allocatable) := by
  have horigin : getOriginExtendedAllocatableRes lib node.annotations = .ok none := by
    simp only [getOriginExtendedAllocatableRes, getOriginExtendedAllocatable, h, Except.map,
      Option.bind_none]
  simp only [getNodeBatchResource, horigin]

/-- The vcores and the memory of a report, zero when absent. A report without `Used` is
dereferenced all the same. -/
def usedResource (report : NodeReportProto) : Option (ℤ × ℤ) :=
  report.used.map fun used => (used.virtualCores.getD 0, used.memory.getD 0)

/-- `getYARNNodeAllocatedResource`. -/
def getYARNNodeAllocatedResource (cache : NodeCache) (yarnNode : YarnNode) : Option (ℤ × ℤ) :=
  match cache.getNodeResource yarnNode with
  | none => some (0, 0)
  | some report => usedResource report

/-! ## The YARN client -/

/-- `getYARNClient`: the client, if there is one, the reconciler that remembers it, and the calls to
the factory. -/
def getYARNClient (r : Reconciler Client) (created : Option Client) (yarnNode : YarnNode) :
    Option Client × Reconciler Client × List (Call Client) :=
  if yarnNode.clusterID = "" then
    match r.yarnClient with
    | some client => (some client, r, [])
    | none =>
      -- a failed creation leaves the field nil, so the next call asks again
      (created, { r with yarnClient := created }, [.createDefaultYarnClient])
  else
    match r.yarnClients.lookup yarnNode.clusterID with
    | some client => (some client, r, [])
    | none =>
      match created with
      | none => (none, r, [.createYarnClientByClusterID yarnNode.clusterID])
      | some client =>
        -- the map is the syncer's too: the next pass covers the new cluster
        (some client, { r with yarnClients := r.yarnClients.insert yarnNode.clusterID client },
          [.createYarnClientByClusterID yarnNode.clusterID])

/-- The request of `updateYARNNodeResource`. -/
def updateRequest (yarnNode : YarnNode) (vcores memoryMB : ℤ) : UpdateNodeResourceRequest :=
  ⟨yarnNode.name, yarnNode.port, memoryMB, int32 vcores⟩

/-- `updateYARNNodeResource`: whether it succeeded, the reconciler, and the calls. -/
def updateYARNNodeResource (r : Reconciler Client) (answers : Answers Client) (yarnNode : YarnNode)
    (vcores memoryMB : ℤ) : Bool × Reconciler Client × List (Call Client) :=
  match getYARNClient r answers.client yarnNode with
  | (none, r, calls) => (false, r, calls)
  | (some client, r, calls) =>
    let update := .updateNodeResource client (updateRequest yarnNode vcores memoryMB)
    if answers.updateOk then (true, r, calls ++ [update])
    else (false, r, calls ++ [update, .reinitializeClient client])

/-! ## Reconcile -/

/-- The patch of `updateYARNAllocatedResource`. -/
def allocatedResourcePatch (node : Node) (vcores memoryMB : ℤ) : MergePatch String String :=
  .diff node.annotations (setYARNAllocatedResource lib node.annotations vcores memoryMB)

/-- `updateYARNAllocatedResource` as the last step of `Reconcile`. -/
def updateYARNAllocatedResource (r : Reconciler Client) (answers : Answers Client) (node : Node)
    (vcores memoryMB : ℤ) : Trace Client :=
  ⟨r, [.patchNode node.name (allocatedResourcePatch lib node vcores memoryMB)],
    if answers.patchOk then .done else .requeue⟩

/-- Make some calls first. -/
def Trace.after (t : Trace Client) (calls : List (Call Client)) : Trace Client :=
  { t with calls := calls ++ t.calls }

/-- The end of `Reconcile`: read back what YARN has allocated and record it. -/
def recordAllocated (r : Reconciler Client) (cache : NodeCache) (answers : Answers Client)
    (node : Node) (yarnNode : YarnNode) : Trace Client :=
  match getYARNNodeAllocatedResource cache yarnNode with
  -- a cached report without `Used`
  | none => ⟨r, [], .panic⟩
  | some (core, mb) => updateYARNAllocatedResource lib r answers node core mb

/-- The part of `Reconcile` for a node with a NodeManager. -/
def reconcileYARNNode (r : Reconciler Client) (cache : NodeCache) (answers : Answers Client)
    (node : Node) (yarnNode : YarnNode) : Trace Client :=
  match getNodeBatchResource lib node with
  | .error _ => ⟨r, [], .requeue⟩
  | .ok (batchCPU, batchMemory) =>
    let (vcores, memoryMB) := calculate lib batchCPU batchMemory
    match updateYARNNodeResource r answers yarnNode vcores memoryMB with
    | (false, r, calls) => ⟨r, calls, .requeue⟩
    | (true, r, calls) => (recordAllocated lib r cache answers node yarnNode).after calls

/-- The part of `Reconcile` behind the `Get`. A node whose NodeManager has no usable id is skipped,
and so is one whose pods cannot be listed. -/
def reconcileNode (r : Reconciler Client) (cache : NodeCache) (answers : Answers Client)
    (node : Node) : Trace Client :=
  match getYARNNode answers.pods with
  -- a warning is logged and no error returned
  | .error _ => ⟨r, [], .done⟩
  | .ok none => updateYARNAllocatedResource lib r answers node 0 0
  | .ok (some yarnNode) =>
    if yarnNode.name = "" ∨ yarnNode.port = 0 then updateYARNAllocatedResource lib r answers node 0 0
    else reconcileYARNNode lib r cache answers node yarnNode

/-- `Reconcile`. -/
def reconcile (r : Reconciler Client) (cache : NodeCache) (name : String)
    (answers : Answers Client) : Trace Client :=
  match answers.node with
  | .notFound => ⟨r, [.getNode name], .done⟩
  | .failed => ⟨r, [.getNode name], .requeue⟩
  | .found node =>
    (reconcileNode lib r cache answers node).after
      [.getNode name, .listNodeManagerPods node.name]

/-- Everything before the read-back goes through: the batch resources are readable, there is a
client and the update succeeds. -/
def Records (r : Reconciler Client) (answers : Answers Client) (node : Node) (yarnNode : YarnNode) :
    Prop :=
  (∃ batch, getNodeBatchResource lib node = .ok batch) ∧
    (getYARNClient r answers.client yarnNode).1.isSome ∧ answers.updateOk = true

/-! ## What each part calls -/

section Calls

variable {lib} {r : Reconciler Client} {cache : NodeCache} {answers : Answers Client} {node : Node}
  {yarnNode : YarnNode} {vcores memoryMB : ℤ} {client : Client}
  {request : UpdateNodeResourceRequest} {name nodeName : String}
  {patch : MergePatch String String}

/-- A call to the factory. -/
def Call.IsCreate : Call Client → Prop
  | .createDefaultYarnClient => True
  | .createYarnClientByClusterID _ => True
  | _ => False

/-- The ways of `getYARNClient`: the client, the reconciler it leaves and its calls. -/
inductive ClientWay (r : Reconciler Client) (created : Option Client) (yarnNode : YarnNode) :
    Option Client → Reconciler Client → List (Call Client) → Prop
  | held {client : Client} (hid : yarnNode.clusterID = "") (h : r.yarnClient = some client) :
      ClientWay r created yarnNode (some client) r []
  | asked (hid : yarnNode.clusterID = "") (h : r.yarnClient = none) :
      ClientWay r created yarnNode created { r with yarnClient := created }
        [.createDefaultYarnClient]
  | known {client : Client} (hid : yarnNode.clusterID ≠ "")
      (h : r.yarnClients.lookup yarnNode.clusterID = some client) :
      ClientWay r created yarnNode (some client) r []
  | refused (hid : yarnNode.clusterID ≠ "")
      (hnew : r.yarnClients.lookup yarnNode.clusterID = none) (h : created = none) :
      ClientWay r created yarnNode none r [.createYarnClientByClusterID yarnNode.clusterID]
  | added {client : Client} (hid : yarnNode.clusterID ≠ "")
      (hnew : r.yarnClients.lookup yarnNode.clusterID = none) (h : created = some client) :
      ClientWay r created yarnNode (some client)
        { r with yarnClients := r.yarnClients.insert yarnNode.clusterID client }
        [.createYarnClientByClusterID yarnNode.clusterID]

/-- Getting a client takes one of the ways. -/
theorem getYARNClient_way (r : Reconciler Client) (created : Option Client) (yarnNode : YarnNode) :
    ClientWay r created yarnNode (getYARNClient r created yarnNode).1
      (getYARNClient r created yarnNode).2.1 (getYARNClient r created yarnNode).2.2 := by
  by_cases hid : yarnNode.clusterID = ""
  · cases hheld : r.yarnClient with
    | some client =>
      simp only [getYARNClient, if_pos hid, hheld]
      exact .held hid hheld
    | none =>
      simp only [getYARNClient, if_pos hid, hheld]
      exact .asked hid hheld
  · cases hknown : r.yarnClients.lookup yarnNode.clusterID with
    | some client =>
      simp only [getYARNClient, if_neg hid, hknown]
      exact .known hid hknown
    | none =>
      cases hcreated : created with
      | none =>
        simp only [getYARNClient, if_neg hid, hknown]
        exact .refused hid hknown rfl
      | some client =>
        simp only [getYARNClient, if_neg hid, hknown]
        exact .added hid hknown rfl

theorem ClientWay.of_eq {created client : Option Client} {r' : Reconciler Client}
    {creates : List (Call Client)} (h : getYARNClient r created yarnNode = (client, r', creates)) :
    ClientWay r created yarnNode client r' creates := by
  have hway := getYARNClient_way r created yarnNode
  rw [h] at hway
  exact hway

/-- Getting a client calls at most the factory. -/
theorem ClientWay.isCreate {created client : Option Client} {r' : Reconciler Client}
    {creates : List (Call Client)} (h : ClientWay r created yarnNode client r' creates)
    {call : Call Client} (hcall : call ∈ creates) : call.IsCreate := by
  cases h with
  | held _ _ => cases hcall
  | known _ _ => cases hcall
  | _ =>
    rw [List.mem_singleton.mp hcall]
    trivial

/-- An update calls the factory, and YARN with its one request. -/
theorem updateYARNNodeResource_calls {call : Call Client}
    (h : call ∈ (updateYARNNodeResource r answers yarnNode vcores memoryMB).2.2) :
    call.IsCreate ∨ ∃ client, call = .reinitializeClient client ∨
      call = .updateNodeResource client (updateRequest yarnNode vcores memoryMB) := by
  unfold updateYARNNodeResource at h
  split at h
  · rename_i heq
    exact .inl ((ClientWay.of_eq heq).isCreate h)
  · rename_i c _ _ heq
    have hcreate : call ∈ _ → call.IsCreate := (ClientWay.of_eq heq).isCreate
    dsimp only at h
    split at h <;> rcases List.mem_append.mp h with h | h
    · exact .inl (hcreate h)
    · exact .inr ⟨c, .inr (List.mem_singleton.mp h)⟩
    · exact .inl (hcreate h)
    · rcases List.mem_pair.mp h with h | h
      · exact .inr ⟨c, .inr h⟩
      · exact .inr ⟨c, .inl h⟩

/-- The request of an update. -/
theorem updateYARNNodeResource_request
    (h : .updateNodeResource client request ∈
      (updateYARNNodeResource r answers yarnNode vcores memoryMB).2.2) :
    request = updateRequest yarnNode vcores memoryMB := by
  rcases updateYARNNodeResource_calls h with h | ⟨c, h | h⟩
  · cases h
  · cases h
  · cases h
    rfl

/-- An update patches no node. -/
theorem updateYARNNodeResource_patch :
    .patchNode name patch ∉ (updateYARNNodeResource r answers yarnNode vcores memoryMB).2.2 := by
  intro h
  rcases updateYARNNodeResource_calls h with h | ⟨c, h | h⟩ <;> cases h

/-- An update succeeds with a client and a good answer. -/
theorem updateYARNNodeResource_ok :
    (updateYARNNodeResource r answers yarnNode vcores memoryMB).1 = true ↔
      (getYARNClient r answers.client yarnNode).1.isSome ∧ answers.updateOk = true := by
  unfold updateYARNNodeResource
  split
  · rename_i heq
    simp [heq]
  · rename_i heq
    dsimp only
    split <;> simp_all

/-- Recording an allocation is one patch with what the cache has for the node. -/
theorem mem_recordAllocated {call : Call Client} :
    call ∈ (recordAllocated lib r cache answers node yarnNode).calls ↔
      ∃ core mb, getYARNNodeAllocatedResource cache yarnNode = some (core, mb) ∧
        call = .patchNode node.name (allocatedResourcePatch lib node core mb) := by
  unfold recordAllocated
  split
  · rename_i hnone
    simp [hnone]
  · rename_i core mb hused
    simp [hused, updateYARNAllocatedResource]

/-- A node with a NodeManager: the update of YARN with the node's batch resources, and the patch. -/
theorem mem_reconcileYARNNode {call : Call Client} :
    call ∈ (reconcileYARNNode lib r cache answers node yarnNode).calls ↔
      (∃ batch, getNodeBatchResource lib node = .ok batch ∧
        call ∈ (updateYARNNodeResource r answers yarnNode (calculate lib batch.1 batch.2).1
          (calculate lib batch.1 batch.2).2).2.2) ∨
      Records lib r answers node yarnNode ∧
        ∃ core mb, getYARNNodeAllocatedResource cache yarnNode = some (core, mb) ∧
          call = .patchNode node.name (allocatedResourcePatch lib node core mb) := by
  unfold reconcileYARNNode
  cases hbatch : getNodeBatchResource lib node with
  | error e => simp [Records, hbatch]
  | ok batch =>
    -- with readable resources `Records` is the success of the update
    have hok := @updateYARNNodeResource_ok _ r answers yarnNode (calculate lib batch.1 batch.2).1
      (calculate lib batch.1 batch.2).2
    have hrecords : Records lib r answers node yarnNode ↔
        (updateYARNNodeResource r answers yarnNode (calculate lib batch.1 batch.2).1
          (calculate lib batch.1 batch.2).2).1 = true := by
      rw [hok, Records, hbatch]
      simp
    rw [hrecords]
    dsimp only
    split <;> rename_i heq <;> simp [heq, Trace.after, mem_recordAllocated]

theorem reconcileNode_of_hasNodeManager (hyarn : HasNodeManager answers.pods yarnNode) :
    reconcileNode lib r cache answers node =
      reconcileYARNNode lib r cache answers node yarnNode := by
  simp only [reconcileNode, hyarn.1, if_neg (not_or.mpr hyarn.2)]

/-- Without a NodeManager the allocation is cleared, if anything is done. -/
theorem reconcileNode_of_not_hasNodeManager
    (hnone : ∀ yarnNode, ¬ HasNodeManager answers.pods yarnNode) {call : Call Client}
    (h : call ∈ (reconcileNode lib r cache answers node).calls) :
    call = .patchNode node.name (allocatedResourcePatch lib node 0 0) := by
  unfold reconcileNode at h
  split at h
  · cases h
  · exact List.mem_singleton.mp h
  · rename_i yarnNode hnode
    split at h
    · exact List.mem_singleton.mp h
    · rename_i hvalid
      exact absurd ⟨hnode, not_or.mp hvalid⟩ (hnone yarnNode)

theorem mem_reconcile (hnode : answers.node = .found node) {call : Call Client} :
    call ∈ (reconcile lib r cache name answers).calls ↔
      call = .getNode name ∨ call = .listNodeManagerPods node.name ∨
        call ∈ (reconcileNode lib r cache answers node).calls := by
  simp [reconcile, hnode, Trace.after]

/-- The request a `Reconcile` sends is the one computed from the node's batch resources. -/
theorem reconcile_request (hnode : answers.node = .found node)
    (h : .updateNodeResource client request ∈ (reconcile lib r cache name answers).calls) :
    ∃ yarnNode batch, getNodeBatchResource lib node = .ok batch ∧
      request = updateRequest yarnNode (calculate lib batch.1 batch.2).1
        (calculate lib batch.1 batch.2).2 := by
  simp only [mem_reconcile hnode, reduceCtorEq, false_or] at h
  by_cases hyarn : ∃ yarnNode, HasNodeManager answers.pods yarnNode
  · obtain ⟨yarnNode, hyarn⟩ := hyarn
    rw [reconcileNode_of_hasNodeManager hyarn, mem_reconcileYARNNode] at h
    rcases h with ⟨batch, hbatch, h⟩ | ⟨_, _, _, _, h⟩
    · exact ⟨yarnNode, batch, hbatch, updateYARNNodeResource_request h⟩
    · cases h
  · cases reconcileNode_of_not_hasNodeManager (not_exists.mp hyarn) h

/-- The patch a `Reconcile` sends for a node with a NodeManager: there is one when nothing before it
goes wrong, and it records what the cache has. -/
theorem reconcile_patch_iff (hnode : answers.node = .found node)
    (hyarn : HasNodeManager answers.pods yarnNode) :
    .patchNode nodeName patch ∈ (reconcile lib r cache name answers).calls ↔
      Records lib r answers node yarnNode ∧
        ∃ core mb, getYARNNodeAllocatedResource cache yarnNode = some (core, mb) ∧
          nodeName = node.name ∧ patch = allocatedResourcePatch lib node core mb := by
  simp only [mem_reconcile hnode, reduceCtorEq, false_or, reconcileNode_of_hasNodeManager hyarn,
    mem_reconcileYARNNode, updateYARNNodeResource_patch, and_false, exists_false,
    Call.patchNode.injEq]

/-- The client of a known cluster is used without asking the factory. -/
theorem getYARNClient_of_lookup {created : Option Client} (hid : yarnNode.clusterID ≠ "")
    (hclient : r.yarnClients.lookup yarnNode.clusterID = some client) :
    getYARNClient r created yarnNode = (some client, r, []) := by
  simp only [getYARNClient, if_neg hid, hclient]

/-- The whole of a `Reconcile` in which nothing before the patch goes wrong. -/
theorem reconcile_eq {batch : Quantity × Quantity} {core mb : ℤ} (hnode : answers.node = .found node)
    (hyarn : HasNodeManager answers.pods yarnNode)
    (hbatch : getNodeBatchResource lib node = .ok batch) (hid : yarnNode.clusterID ≠ "")
    (hclient : r.yarnClients.lookup yarnNode.clusterID = some client)
    (hupdate : answers.updateOk = true)
    (hused : getYARNNodeAllocatedResource cache yarnNode = some (core, mb)) :
    reconcile lib r cache name answers =
      ⟨r, [.getNode name, .listNodeManagerPods node.name,
        .updateNodeResource client (updateRequest yarnNode (calculate lib batch.1 batch.2).1
          (calculate lib batch.1 batch.2).2),
        .patchNode node.name (allocatedResourcePatch lib node core mb)],
        if answers.patchOk then .done else .requeue⟩ := by
  have hstep : updateYARNNodeResource r answers yarnNode (calculate lib batch.1 batch.2).1
      (calculate lib batch.1 batch.2).2 = (true, r, [.updateNodeResource client
        (updateRequest yarnNode (calculate lib batch.1 batch.2).1 (calculate lib batch.1 batch.2).2)]) := by
    simp [updateYARNNodeResource, getYARNClient_of_lookup hid hclient, hupdate]
  have hrecord : recordAllocated lib r cache answers node yarnNode =
      updateYARNAllocatedResource lib r answers node core mb := by
    simp [recordAllocated, hused]
  have hyarnNode : reconcileYARNNode lib r cache answers node yarnNode =
      (updateYARNAllocatedResource lib r answers node core mb).after
        [.updateNodeResource client (updateRequest yarnNode (calculate lib batch.1 batch.2).1
          (calculate lib batch.1 batch.2).2)] := by
    simp only [reconcileYARNNode, hbatch, hstep, hrecord]
  simp only [reconcile, hnode, reconcileNode_of_hasNodeManager hyarn, hyarnNode, Trace.after,
    updateYARNAllocatedResource, List.cons_append, List.nil_append]

end Calls

end YarnCopilot.NodeResource
