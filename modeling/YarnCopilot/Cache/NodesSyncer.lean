import YarnCopilot.Common.Range
import YarnCopilot.Common.Strings

/-!
# The node cache

Reference: `pkg/yarn/cache/nodes_syncer.go`, `pkg/yarn/cache/yarn_node.go`.

A pass asks the ResourceManager of every known cluster for its running nodes and builds a new cache
from the answers. The cache is replaced only when the whole pass went through.

Every field of a message is optional and is a pointer in the source. A dereference is a bind in
`Option` here: `none` is the panic on a nil pointer.
-/

namespace YarnCopilot.Cache

/-- `YarnNode`. -/
structure YarnNode where
  name : String
  port : ℤ
  clusterID : String
deriving DecidableEq, Repr

/-- `NodeIdProto`. -/
structure NodeIdProto where
  host : Option String
  port : Option ℤ
deriving DecidableEq, Repr

/-- `ResourceProto`. -/
structure ResourceProto where
  memory : Option ℤ
  virtualCores : Option ℤ
deriving DecidableEq, Repr

/-- The fields of `NodeReportProto` that the cache and its readers use. -/
structure NodeReportProto where
  nodeId : Option NodeIdProto
  used : Option ResourceProto
  capability : Option ResourceProto
deriving DecidableEq, Repr

/-- The reports of one cluster by key. -/
abbrev ClusterCache := String → Option NodeReportProto

/-- The reports of all clusters by cluster id. -/
abbrev NodeCache := String → Option ClusterCache

/-- `NodesSyncer` without the clients, which it shares with the reconciler. -/
structure NodesSyncer where
  cache : NodeCache
  started : Bool

/-- `NewNodesSyncer`. -/
def newNodesSyncer : NodesSyncer := ⟨fun _ => none, false⟩

/-- `getKey`. -/
def getKey (yarnNodeName : String) (yarnNodePort : ℤ) : String :=
  yarnNodeName ++ "-" ++ toString yarnNodePort

/-- `GetNodeResource`. -/
def NodeCache.getNodeResource (cache : NodeCache) (yarnNode : YarnNode) : Option NodeReportProto :=
  (cache yarnNode.clusterID).bind fun clusterCache =>
    clusterCache (getKey yarnNode.name yarnNode.port)

/-! ## A pass -/

/-- The answer to one `GetClusterNodes`. -/
inductive ClusterNodes
  | failed
  | nil
  | reports (reports : List NodeReportProto)
deriving DecidableEq, Repr

/-- How a pass ends. -/
inductive PassResult
  | synced (cache : NodeCache)
  | failed
  | panic

/-- The body of the loop over the reports. A report without a node id is dereferenced all the same;
one without a host or a port is skipped. -/
def addReport (clusterCache : ClusterCache) (report : NodeReportProto) : Option ClusterCache :=
  match report.nodeId with
  | none => none
  | some id =>
    match id.host, id.port with
    | some host, some port => some (Function.update clusterCache (getKey host port) (some report))
    | _, _ => some clusterCache

/-- The cache of one cluster, `none` when building it panics. -/
def clusterCache (reports : List NodeReportProto) : Option ClusterCache :=
  reports.foldlM addReport fun _ => none

/-- The loop of `syncYARNNodeAllocatedResource` over the clusters, in the order of the map. -/
def syncClusters (answer : String → ClusterNodes) : List String → NodeCache → PassResult
  | [], res => .synced res
  | id :: ids, res =>
    match answer id with
    -- one cluster that does not answer gives up the whole pass
    | .failed => .failed
    | .nil => syncClusters answer ids res
    | .reports reports =>
      match clusterCache reports with
      | none => .panic
      | some nodes => syncClusters answer ids (Function.update res id (some nodes))

/-- `syncYARNNodeAllocatedResource`. -/
def syncYARNNodeAllocatedResource (ids : List String) (answer : String → ClusterNodes) :
    PassResult :=
  syncClusters answer ids fun _ => none

/-- The tick of `Start`: a pass, and `started` once it went through. Nothing is left after a
panic. -/
def NodesSyncer.tick (s : NodesSyncer) (result : PassResult) : Option NodesSyncer :=
  match result with
  | .synced cache => some ⟨cache, true⟩
  | .failed => some s
  | .panic => none

/-! ## Readers of the cache -/

/-- A getter of the generated code: a field of a message, or its zero value when the message or the
field is nil. -/
def getField {α β : Type} (field : α → Option β) (zero : β) (x : Option α) : Option β :=
  if x.isSome ∧ (x.bind field).isSome then x.bind field else some zero

/-- `GetVirtualCores`. -/
def getVirtualCores : Option ResourceProto → Option ℤ := getField ResourceProto.virtualCores 0

/-- `GetMemory`. -/
def getMemory : Option ResourceProto → Option ℤ := getField ResourceProto.memory 0

/-- `GetHost`. -/
def getHost : Option NodeIdProto → Option String := getField NodeIdProto.host ""

/-- A getter never dereferences a nil pointer. -/
theorem getField_eq {α β : Type} (field : α → Option β) (zero : β) (x : Option α) :
    getField field zero x = some ((x.bind field).getD zero) := by
  rw [getField]
  cases x with
  | none => rfl
  | some m =>
    rw [Option.bind_some]
    cases field m <;> rfl

/-- The orders in which the readers visit the clusters of a cache and the reports of each. -/
structure Orders (cache : NodeCache) where
  ids : List String
  keys : String → List String
  ids_ranges : Ranges cache ids
  keys_ranges : ∀ id clusterCache, cache id = some clusterCache → Ranges clusterCache (keys id)

/-- A line of `debug`. Its arguments are evaluated whether the line is logged or not. -/
def debugLine (clusterID key : String) (value : NodeReportProto) : Option String := do
  let usedVirtualCores ← value.used.bind ResourceProto.virtualCores
  let usedMemory ← value.used.bind ResourceProto.memory
  let virtualCores ← value.capability.bind ResourceProto.virtualCores
  let memory ← value.capability.bind ResourceProto.memory
  return s!"debug cache: {clusterID} {key} {usedVirtualCores} {usedMemory} {virtualCores} {memory}"

/-- The inner loop of `debug`. -/
def debugCluster {cache : NodeCache} (o : Orders cache) (cluster : String × ClusterCache) :
    Option (List String) :=
  (entriesOf cluster.2 (o.keys cluster.1)).mapM fun entry => debugLine cluster.1 entry.1 entry.2

/-- `debug`: its lines. -/
def debug (cache : NodeCache) (o : Orders cache) : Option (List String) :=
  ((entriesOf cache o.ids).mapM (debugCluster o)).map List.flatten

/-- `GetYarnNodeInfo`: the reports of every cluster as a list. -/
def getYarnNodeInfo (cache : NodeCache) (o : Orders cache) : String → Option (List NodeReportProto) :=
  fun clusterID => (cache clusterID).map fun clusterCache =>
    (entriesOf clusterCache (o.keys clusterID)).map Prod.snd

/-- The lists hold what the cache holds. -/
theorem mem_getYarnNodeInfo {cache : NodeCache} {o : Orders cache} {clusterID : String}
    {report : NodeReportProto} :
    (∃ nodes, getYarnNodeInfo cache o clusterID = some nodes ∧ report ∈ nodes) ↔
      ∃ clusterCache key, cache clusterID = some clusterCache ∧ clusterCache key = some report := by
  simp only [getYarnNodeInfo, Option.map_eq_some_iff]
  constructor
  · rintro ⟨_, ⟨clusterCache, hcluster, rfl⟩, hreport⟩
    obtain ⟨⟨key, value⟩, hentry, rfl⟩ := List.mem_map.mp hreport
    exact ⟨clusterCache, key, hcluster, (o.keys_ranges _ _ hcluster).mem_entriesOf.mp hentry⟩
  · rintro ⟨clusterCache, key, hcluster, hreport⟩
    refine ⟨_, ⟨clusterCache, hcluster, rfl⟩, List.mem_map.mpr ⟨(key, report), ?_, rfl⟩⟩
    exact (o.keys_ranges _ _ hcluster).mem_entriesOf.mpr hreport

end YarnCopilot.Cache
