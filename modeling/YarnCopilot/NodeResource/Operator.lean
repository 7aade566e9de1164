import YarnCopilot.Common.Run
import YarnCopilot.Cache.Usage
import YarnCopilot.NodeResource.Capacity

/-!
# Runs of the operator

Reference: `Add` of `pkg/controller/noderesource/resource_sync_controller.go`, `Start` of
`pkg/yarn/cache/nodes_syncer.go`.

The syncer's passes and the reconciler's calls interleave in any order; they share the clients, and
the reconciler reads the cache the syncer fills. A panic in either ends the process. The state
carries the reports of the last successful pass, which the operator itself does not have.

An allocation is `Backed` when it is, in milli-cores and bytes, what the reports of the last
successful pass say that the node with this host and this port uses. Three things can come in
between. The cache is empty until the first successful pass, and `Reconcile` cannot tell an empty
cache from one without the node; the entry under the key of a node may be its twin's; and the record
wraps around. `runs_backed_iff` says that the allocations of a run are all backed exactly when none
of them happens.
-/

namespace YarnCopilot.NodeResource

open Cache

variable {Client : Type}

/-- The operator: the reconciler and the syncer. -/
structure Operator (Client : Type) where
  reconciler : Reconciler Client
  syncer : NodesSyncer

/-- The operator, gone after a panic, and the reports of the last successful pass. -/
structure OperatorState (Client : Type) where
  operator : Option (Operator Client)
  lastSync : Option PassReports

/-- A pass of the syncer, with the order in which it visits the clients and their answers, or a
`Reconcile`. -/
inductive OperatorAct (Client : Type)
  | pass (order : RangeOrder String) (answer : String → ClusterNodes)
  | reconcile (name : String) (answers : Answers Client)

/-- The operator `Add` builds from the clients of the factory. -/
def add (clients : AList fun _ : String => Client) : OperatorState Client :=
  ⟨some ⟨⟨none, clients⟩, newNodesSyncer⟩, none⟩

/-- The pass over the clients of the operator. -/
def Operator.pass (op : Operator Client) (order : RangeOrder String)
    (answer : String → ClusterNodes) : PassResult :=
  syncYARNNodeAllocatedResource (order.visit op.reconciler.yarnClients.keys) answer

/-- The reports of a pass over the clusters, if it went through. -/
def passedReports (ids : List String) (answer : String → ClusterNodes) :
    PassResult → Option PassReports
  | .synced _ => some (passReports ids answer)
  | _ => none

variable (lib : Library)

/-- A `Reconcile` of the operator. -/
def Operator.reconcile (op : Operator Client) (name : String) (answers : Answers Client) :
    Trace Client :=
  NodeResource.reconcile lib op.reconciler op.syncer.cache name answers

/-- One step of the operator. -/
def operatorStep (s : OperatorState Client) (act : OperatorAct Client) : OperatorState Client :=
  match s.operator with
  | none => s
  | some op =>
    match act with
    | .pass order answer =>
      { operator := (op.syncer.tick (op.pass order answer)).map fun syncer => { op with syncer }
        lastSync :=
          (passedReports op.reconciler.yarnClients.keys answer (op.pass order answer)).or
            s.lastSync }
    | .reconcile name answers =>
      { s with
        operator :=
          if (op.reconcile lib name answers).exit = .panic then none
          else some { op with reconciler := (op.reconcile lib name answers).reconciler } }

/-! ## Backed allocations -/

/-- The allocation that `patch` records is, to the unit, what the last successful pass reported. -/
def Backed (s : OperatorState Client) (node : Node) (yarnNode : YarnNode)
    (patch : MergePatch String String) : Prop :=
  ∃ reports core mb, s.lastSync = some reports ∧
    Uses yarnNode (reports.of yarnNode.clusterID) core mb ∧
    RecordsUse lib (patch.apply node.annotations) core mb

/-- Every allocation that a step writes for a node with a NodeManager is backed. -/
def WritesBacked (s : OperatorState Client) : OperatorAct Client → Prop
  | .pass _ _ => True
  | .reconcile name answers =>
    ∀ op node yarnNode nodeName patch, s.operator = some op → answers.node = .found node →
      HasNodeManager answers.pods yarnNode → answers.patchOk = true →
      .patchNode nodeName patch ∈ (op.reconcile lib name answers).calls →
      Backed lib s node yarnNode patch

/-- The use found under the key of the node is the node's own, or is recorded as if it were: the
node's own use is in range, and what is found differs from it by multiples of 2²⁹ cores and 2⁴⁴ MB
at most. -/
def ReadsOwn (yarnNode : YarnNode) (reports : List NodeReportProto) : Prop :=
  ∀ vcores memoryMB, FoundUse yarnNode reports vcores memoryMB →
    ∃ core mb, Uses yarnNode reports core mb ∧ InRange core mb ∧
      2 ^ 29 ∣ vcores - core ∧ 2 ^ 44 ∣ memoryMB - mb

/-- A `Reconcile` that gets as far as recording an allocation for a node with a NodeManager comes
after the first successful pass, and what it reads from the last one is the use of that node. -/
def SyncedFirst (s : OperatorState Client) : OperatorAct Client → Prop
  | .pass _ _ => True
  | .reconcile _ answers =>
    ∀ op node yarnNode, s.operator = some op → answers.node = .found node →
      HasNodeManager answers.pods yarnNode → answers.patchOk = true →
      Records lib op.reconciler answers node yarnNode →
      op.syncer.started = true ∧
        ∀ reports, s.lastSync = some reports → ReadsOwn yarnNode (reports.of yarnNode.clusterID)

/-! ## The cache along a run -/

/-- The cache is empty until the first successful pass, and then has the last reports of the last
one. -/
def Synced (s : OperatorState Client) : Prop :=
  ∀ op, s.operator = some op →
    (op.syncer.started = true ∧
      ∃ reports, s.lastSync = some reports ∧ op.syncer.cache = reports.cache) ∨
      (op.syncer.started = false ∧ s.lastSync = none ∧ op.syncer.cache = fun _ => none)

theorem synced_add (clients : AList fun _ : String => Client) : Synced (add clients) := by
  intro op hop
  obtain rfl := Option.some.inj hop
  exact .inr ⟨rfl, rfl, rfl⟩

/-- A pass that goes through leaves what it was given. -/
theorem cache_of_pass_synced {op : Operator Client} {order : RangeOrder String}
    {answer : String → ClusterNodes} {cache : NodeCache} (h : op.pass order answer = .synced cache) :
    cache = (passReports op.reconciler.yarnClients.keys answer).cache := by
  rw [cache_of_synced h, passReports_congr fun id => order.mem_visit]

theorem synced_pass {s : OperatorState Client} {op : Operator Client} (hop : s.operator = some op)
    (h : Synced s) (order : RangeOrder String) (answer : String → ClusterNodes) :
    Synced ⟨(op.syncer.tick (op.pass order answer)).map fun syncer => { op with syncer },
      (passedReports op.reconciler.yarnClients.keys answer (op.pass order answer)).or
        s.lastSync⟩ := by
  intro op' hop'
  cases hresult : op.pass order answer with
  | synced cache =>
    rw [hresult] at hop'
    obtain rfl := Option.some.inj hop'
    exact .inl ⟨rfl, _, rfl, cache_of_pass_synced hresult⟩
  | failed =>
    rw [hresult] at hop'
    obtain rfl := Option.some.inj hop'
    exact h op hop
  | panic =>
    rw [hresult] at hop'
    cases hop'

/-- Every step keeps the cache in step with the passes. -/
theorem synced_step (s : OperatorState Client) (act : OperatorAct Client) (h : Synced s) :
    Synced (operatorStep lib s act) := by
  unfold operatorStep
  split
  · exact h
  · rename_i op hop
    cases act with
    | pass order answer => exact synced_pass hop h order answer
    | reconcile name answers =>
      intro op' hop'
      -- a `Reconcile` leaves the cache alone
      dsimp only at hop'
      split at hop'
      · cases hop'
      · obtain rfl := Option.some.inj hop'
        exact h op hop

/-! ## Runs -/

variable {lib}

/-- What is read from the cache of a pass is the use found under the key of the node. -/
theorem getYARNNodeAllocatedResource_cache_iff {reports : PassReports} {yarnNode : YarnNode}
    {vcores memoryMB : ℤ} :
    getYARNNodeAllocatedResource reports.cache yarnNode = some (vcores, memoryMB) ↔
      FoundUse yarnNode (reports.of yarnNode.clusterID) vcores memoryMB := by
  rw [foundUse_iff, lastSays_key_iff]
  have hlookup : reports.cache.getNodeResource yarnNode =
      lastReports (reports.of yarnNode.clusterID) (getKey yarnNode.name yarnNode.port) := by
    rw [NodeCache.getNodeResource, PassReports.cache, PassReports.of]
    cases reports yarnNode.clusterID <;> rfl
  rw [getYARNNodeAllocatedResource, hlookup]
  cases lastReports (reports.of yarnNode.clusterID) (getKey yarnNode.name yarnNode.port) with
  | none => simp [eq_comm]
  | some report => cases hused : report.used <;> simp [usedResource, hused, eq_comm]

/-- What the last successful pass says under the key of a node; nothing is used before the first
one. -/
def ToldUse (s : OperatorState Client) (yarnNode : YarnNode) (vcores memoryMB : ℤ) : Prop :=
  (s.lastSync = none ∧ vcores = 0 ∧ memoryMB = 0) ∨
    ∃ reports, s.lastSync = some reports ∧
      FoundUse yarnNode (reports.of yarnNode.clusterID) vcores memoryMB

theorem getYARNNodeAllocatedResource_iff {s : OperatorState Client} {op : Operator Client}
    (hs : Synced s) (hop : s.operator = some op) {yarnNode : YarnNode} {vcores memoryMB : ℤ} :
    getYARNNodeAllocatedResource op.syncer.cache yarnNode = some (vcores, memoryMB) ↔
      ToldUse s yarnNode vcores memoryMB := by
  rcases hs op hop with ⟨_, reports, hsync, hcache⟩ | ⟨_, hnone, hempty⟩
  · rw [hcache, getYARNNodeAllocatedResource_cache_iff]
    simp [ToldUse, hsync]
  · have hidle : getYARNNodeAllocatedResource (fun _ => none) yarnNode = some (0, 0) := rfl
    rw [hempty, hidle]
    simp [ToldUse, hnone, eq_comm]

/-- The record of a use reads as another exactly where it wraps around to it. -/
theorem recordsUse_apply_iff {node : Node} {vcores memoryMB core mb : ℤ} :
    RecordsUse lib ((allocatedResourcePatch lib node vcores memoryMB).apply node.annotations) core
        mb ↔
      InRange core mb ∧ 2 ^ 29 ∣ vcores - core ∧ 2 ^ 44 ∣ memoryMB - mb := by
  rw [allocatedResourcePatch, MergePatch.apply_diff, recordsUse_set_iff]

/-- A step writes only backed allocations exactly when it records none before the first successful
pass and reads the use of the node it records it for. -/
theorem writesBacked_iff {s : OperatorState Client} (hs : Synced s) (act : OperatorAct Client) :
    WritesBacked lib s act ↔ SyncedFirst lib s act := by
  cases act with
  | pass order answer => exact Iff.rfl
  | reconcile name answers =>
    constructor
    · intro h op node yarnNode hop hnode hyarn hpatch hrecords
      have hwrites : ∀ vcores memoryMB, ToldUse s yarnNode vcores memoryMB →
          Backed lib s node yarnNode (allocatedResourcePatch lib node vcores memoryMB) :=
        fun vcores memoryMB htold => h op node yarnNode node.name _ hop hnode hyarn hpatch
          ((reconcile_patch_iff hnode hyarn).mpr ⟨hrecords, vcores, memoryMB,
            (getYARNNodeAllocatedResource_iff hs hop).mpr htold, rfl, rfl⟩)
      rcases hs op hop with ⟨hstarted, -⟩ | ⟨-, hnone, -⟩
      · refine ⟨hstarted, fun reports hsync vcores memoryMB hfound => ?_⟩
        obtain ⟨reports', core, mb, hsync', huses, hreads⟩ :=
          hwrites vcores memoryMB (.inr ⟨reports, hsync, hfound⟩)
        obtain rfl := Option.some.inj (hsync.symm.trans hsync')
        exact ⟨core, mb, huses, recordsUse_apply_iff.mp hreads⟩
      · -- before the first pass the node reads as idle, which nothing backs
        obtain ⟨_, _, _, hsync, _⟩ := hwrites 0 0 (.inl ⟨hnone, rfl, rfl⟩)
        rw [hnone] at hsync
        cases hsync
    · intro h op node yarnNode nodeName patch hop hnode hyarn hpatch hcall
      obtain ⟨hrecords, vcores, memoryMB, hused, _, rfl⟩ :=
        (reconcile_patch_iff hnode hyarn).mp hcall
      obtain ⟨hstarted, hown⟩ := h op node yarnNode hop hnode hyarn hpatch hrecords
      rcases (getYARNNodeAllocatedResource_iff hs hop).mp hused with
        ⟨hnone, -⟩ | ⟨reports, hsync, hfound⟩
      · rcases hs op hop with ⟨-, reports, hsync, -⟩ | ⟨hnot, -⟩
        · rw [hnone] at hsync
          cases hsync
        · rw [hnot] at hstarted
          cases hstarted
      · obtain ⟨core, mb, huses, hwrap⟩ := hown reports hsync vcores memoryMB hfound
        exact ⟨reports, core, mb, hsync, huses, recordsUse_apply_iff.mpr hwrap⟩

/-- A node on which YARN has 4 cores and 4 GiB allocated. -/
def allocatedNode : Node :=
  { statusNode (.new 8000) 0 with
    annotations := Function.update (fun _ => none) nodeThirdPartyAllocationsAnnotationKey
      (some (plainLib.thirdPartyAllocations.encode ⟨[yarnAllocation 4 4096]⟩)) }

theorem getThirdPartyAllocations_allocatedNode :
    getThirdPartyAllocations plainLib allocatedNode.annotations =
      .ok (some ⟨[yarnAllocation 4 4096]⟩) := by
  refine getThirdPartyAllocations_of_encode ?_
  simp only [allocatedNode, Function.update_self]

theorem records_allocatedNode : Records plainLib addedReconciler (calmAnswers allocatedNode)
    allocatedNode ⟨"worker-1", 8041, defaultClusterID⟩ := by
  have habsent : allocatedNode.annotations nodeOriginExtendedAllocatableAnnotationKey = none := by
    simp only [allocatedNode]
    exact Function.update_of_ne (by decide) _ _
  exact ⟨⟨_, getNodeBatchResource_of_absent habsent⟩, rfl, rfl⟩

end YarnCopilot.NodeResource
