import YarnCopilot.Cache.Lookup
import YarnCopilot.Common.Word

/-!
# The metrics of the YARN nodes

Reference: `pkg/controller/metrics/yarn_collector.go`, `pkg/controller/metrics/names.go`.

`Collect` sends four metrics for every cached node, labelled with its host and its cluster. A
registry fails the whole scrape when two metrics have the same descriptor and labels. The cache
tells nodes apart by host and port: `collect_unique_iff` says for which caches the labels do, too.
-/

namespace YarnCopilot.Metrics

open Cache

/-- `prometheus.Desc`. -/
structure Desc where
  fqName : String
  help : String
  variableLabels : List String
deriving DecidableEq, Repr

/-- `yarnNodeCPUMetric`. -/
def yarnNodeCPUMetric : Desc :=
  ⟨"yarn_node_cpu_resource", "yarn node cpu resource", ["instance", "cluster"]⟩

/-- `yarnNodeMemoryMetric`. -/
def yarnNodeMemoryMetric : Desc :=
  ⟨"yarn_node_memory_resource", "yarn node memory resource", ["instance", "cluster"]⟩

/-- `yarnNodeCPUAllocatedMetric`. -/
def yarnNodeCPUAllocatedMetric : Desc :=
  ⟨"yarn_node_cpu_allocated_resource", "yarn node cpu resource", ["instance", "cluster"]⟩

/-- `yarnNodeMemoryAllocatedMetric`. -/
def yarnNodeMemoryAllocatedMetric : Desc :=
  ⟨"yarn_node_memory_allocated_resource", "yarn node memory resource", ["instance", "cluster"]⟩

/-- `Describe`. -/
def describe : List Desc :=
  [yarnNodeCPUMetric, yarnNodeMemoryMetric, yarnNodeCPUAllocatedMetric, yarnNodeMemoryAllocatedMetric]

/-- A constant metric, a gauge; its value before the conversion to `float64`. -/
structure Metric where
  desc : Desc
  value : ℤ
  labelValues : List String
deriving DecidableEq, Repr

/-- What a registry tells metrics apart by: the descriptor, and the instance and the cluster. -/
def Metric.series (m : Metric) : Desc × List String := (m.desc, m.labelValues)

/-- The metrics of a node: the body of the inner loop of `Collect`. -/
def nodeMetrics (clusterID : String) (node : NodeReportProto) : Option (List Metric) := do
  let virtualCores ← getVirtualCores node.capability
  let host ← getHost node.nodeId
  let memory ← getMemory node.capability
  let usedVirtualCores ← getVirtualCores node.used
  let usedMemory ← getMemory node.used
  return [⟨yarnNodeCPUMetric, virtualCores, [host, clusterID]⟩,
    ⟨yarnNodeMemoryMetric, int64 (int64 (memory * 1024) * 1024), [host, clusterID]⟩,
    ⟨yarnNodeCPUAllocatedMetric, usedVirtualCores, [host, clusterID]⟩,
    ⟨yarnNodeMemoryAllocatedMetric, int64 (int64 (usedMemory * 1024) * 1024), [host, clusterID]⟩]

/-- The metrics of a cluster: the inner loop of `Collect`. -/
def clusterMetrics (cluster : String × List NodeReportProto) : Option (List Metric) := do
  let metrics ← cluster.2.mapM (nodeMetrics cluster.1)
  return metrics.flatten

/-- `Collect`. The clusters come in an order of their own, the nodes in that of
`GetYarnNodeInfo`. -/
def collect (cache : NodeCache) (o : Orders cache) : Option (List Metric) := do
  let metrics ← (entriesOf (getYarnNodeInfo cache o) o.ids).mapM clusterMetrics
  return metrics.flatten

/-! ## The series of a scrape -/

/-- The host that a report is labelled with. -/
def hostOf (report : NodeReportProto) : String := (report.nodeId.bind NodeIdProto.host).getD ""

/-- The series of a host: one for each descriptor. -/
def hostSeries (clusterID host : String) : List (Desc × List String) :=
  describe.map fun desc => (desc, [host, clusterID])

/-- The series of the nodes of a cluster. -/
def clusterSeries (cluster : String × List NodeReportProto) : List (Desc × List String) :=
  (cluster.2.map hostOf).flatMap (hostSeries cluster.1)

/-- A loop whose steps all send metrics sends the series of all steps. -/
theorem exists_mapM {α : Type} {f : α → Option (List Metric)} {g : α → List (Desc × List String)}
    (h : ∀ a, ∃ metrics, f a = some metrics ∧ metrics.map Metric.series = g a) (l : List α) :
    ∃ metrics, l.mapM f = some metrics ∧ metrics.flatten.map Metric.series = l.flatMap g := by
  induction l with
  | nil => exact ⟨[], rfl, rfl⟩
  | cons a l ih =>
    obtain ⟨first, hfirst, hseries⟩ := h a
    obtain ⟨rest, hrest, hseries'⟩ := ih
    refine ⟨first :: rest, by simp [List.mapM_cons, hfirst, hrest], ?_⟩
    rw [List.flatten_cons, List.map_append, hseries, hseries', List.flatMap_cons]

/-- The getters answer for absent fields, so a node always has its metrics. -/
theorem exists_nodeMetrics (clusterID : String) (node : NodeReportProto) :
    ∃ metrics, nodeMetrics clusterID node = some metrics ∧
      metrics.map Metric.series = hostSeries clusterID (hostOf node) := by
  simp only [nodeMetrics, getVirtualCores, getMemory, getHost, getField_eq]
  exact ⟨_, rfl, rfl⟩

theorem exists_clusterMetrics (cluster : String × List NodeReportProto) :
    ∃ metrics, clusterMetrics cluster = some metrics ∧
      metrics.map Metric.series = clusterSeries cluster := by
  obtain ⟨metrics, hmetrics, hseries⟩ := exists_mapM (exists_nodeMetrics cluster.1) cluster.2
  refine ⟨metrics.flatten, by simp [clusterMetrics, hmetrics], ?_⟩
  rw [hseries, clusterSeries, List.flatMap_map]

/-- `Collect` runs for every cache, and sends the series of its nodes. -/
theorem exists_collect (cache : NodeCache) (o : Orders cache) :
    ∃ metrics, collect cache o = some metrics ∧ metrics.map Metric.series =
      (entriesOf (getYarnNodeInfo cache o) o.ids).flatMap clusterSeries := by
  obtain ⟨metrics, hmetrics, hseries⟩ :=
    exists_mapM exists_clusterMetrics (entriesOf (getYarnNodeInfo cache o) o.ids)
  exact ⟨metrics.flatten, by simp [collect, hmetrics], hseries⟩

/-! ## Their uniqueness -/

theorem nodup_describe : describe.Nodup := by decide

theorem nodup_hostSeries (clusterID host : String) : (hostSeries clusterID host).Nodup :=
  nodup_describe.map fun _ _ h => (Prod.mk.inj h).1

theorem mem_hostSeries {clusterID host : String} {series : Desc × List String} :
    series ∈ hostSeries clusterID host ↔ series.1 ∈ describe ∧ series.2 = [host, clusterID] := by
  simp only [hostSeries, List.mem_map]
  constructor
  · rintro ⟨desc, hdesc, rfl⟩
    exact ⟨hdesc, rfl⟩
  · rintro ⟨hdesc, hlabels⟩
    exact ⟨series.1, hdesc, by rw [← hlabels]⟩

/-- Within a cluster the series are distinct when the hosts are. -/
theorem nodup_clusterSeries_iff (cluster : String × List NodeReportProto) :
    (clusterSeries cluster).Nodup ↔ (cluster.2.map hostOf).Nodup := by
  rw [clusterSeries, List.nodup_flatMap]
  constructor
  · rintro ⟨-, hdisjoint⟩
    refine hdisjoint.imp fun {host host'} hdisj heq => ?_
    subst heq
    -- the first descriptor is in both
    have hmem : (yarnNodeCPUMetric, [host, cluster.1]) ∈ hostSeries cluster.1 host :=
      mem_hostSeries.mpr ⟨List.mem_cons_self, rfl⟩
    exact hdisj hmem hmem
  · intro hhosts
    refine ⟨fun host _ => nodup_hostSeries _ _, hhosts.imp fun hne series hseries hseries' => ?_⟩
    have hlabels := (mem_hostSeries.mp hseries).2.symm.trans (mem_hostSeries.mp hseries').2
    exact hne (List.cons.inj hlabels).1

/-- Clusters never share a series. -/
theorem disjoint_clusterSeries {cluster cluster' : String × List NodeReportProto}
    (hne : cluster.1 ≠ cluster'.1) :
    List.Disjoint (clusterSeries cluster) (clusterSeries cluster') := by
  intro series hseries hseries'
  obtain ⟨_, -, hhost⟩ := List.mem_flatMap.mp hseries
  obtain ⟨_, -, hhost'⟩ := List.mem_flatMap.mp hseries'
  have hlabels := (mem_hostSeries.mp hhost).2.symm.trans (mem_hostSeries.mp hhost').2
  simp only [List.cons.injEq] at hlabels
  exact hne hlabels.2.1

/-- The series of a scrape are distinct exactly when no cluster has two stored nodes of one host. -/
theorem nodup_series_iff (cache : NodeCache) (o : Orders cache) :
    ((entriesOf (getYarnNodeInfo cache o) o.ids).flatMap clusterSeries).Nodup ↔
      ∀ id cluster, cache id = some cluster → ∀ k k' report report', cluster k = some report →
        cluster k' = some report' → hostOf report = hostOf report' → k = k' := by
  have hranges : Ranges (getYarnNodeInfo cache o) o.ids :=
    ⟨o.ids_ranges.nodup, fun id => by rw [o.ids_ranges.mem_iff, getYarnNodeInfo, Option.isSome_map]⟩
  have hids : ((entriesOf (getYarnNodeInfo cache o) o.ids).map Prod.fst).Nodup :=
    (hranges.nodup_map_iff Prod.fst).mpr fun _ _ _ _ _ _ h => h
  have hhosts : ∀ {id cluster}, cache id = some cluster →
      ((((entriesOf cluster (o.keys id)).map Prod.snd).map hostOf).Nodup ↔
        ∀ k k' report report', cluster k = some report → cluster k' = some report' →
          hostOf report = hostOf report' → k = k') := by
    intro id cluster hcluster
    rw [List.map_map]
    exact (o.keys_ranges id cluster hcluster).nodup_map_iff (hostOf ∘ Prod.snd)
  rw [List.nodup_flatMap]
  constructor
  · rintro ⟨hnodup, -⟩ id cluster hcluster
    have hmem : (id, (entriesOf cluster (o.keys id)).map Prod.snd) ∈
        entriesOf (getYarnNodeInfo cache o) o.ids :=
      hranges.mem_entriesOf.mpr (by rw [getYarnNodeInfo, hcluster, Option.map_some])
    exact (hhosts hcluster).mp ((nodup_clusterSeries_iff _).mp (hnodup _ hmem))
  · intro h
    refine ⟨fun entry hentry => ?_, (List.pairwise_map.mp hids).imp disjoint_clusterSeries⟩
    have hinfo := hranges.mem_entriesOf.mp hentry
    obtain ⟨cluster, hcluster, hnodes⟩ := Option.map_eq_some_iff.mp hinfo
    rw [nodup_clusterSeries_iff, ← hnodes]
    exact (hhosts hcluster).mpr (h _ cluster hcluster)

/-! ## The caches of the syncer -/

/-- No cluster has stored nodes of one host and different ports. -/
def HostOnce (cache : NodeCache) : Prop :=
  ∀ id cluster, cache id = some cluster → ∀ k k' report report' host port port',
    cluster k = some report → cluster k' = some report' →
    report.nodeId = some ⟨some host, some port⟩ → report'.nodeId = some ⟨some host, some port'⟩ →
    port = port'

/-- A report with a key has a host and a port. -/
theorem nodeId_of_reportKey {report : NodeReportProto} {key : String}
    (h : reportKey report = some key) :
    ∃ host port, report.nodeId = some ⟨some host, some port⟩ ∧ key = getKey host port := by
  obtain ⟨⟨host, port⟩, hid, hkey⟩ := Option.bind_eq_some_iff.mp h
  obtain ⟨host, rfl, hkey⟩ := Option.bind_eq_some_iff.mp hkey
  obtain ⟨port, rfl, rfl⟩ := Option.map_eq_some_iff.mp hkey
  exact ⟨host, port, hid, rfl⟩

/-- After any number of passes over any clusters and reports `Collect` runs, and its series are
pairwise distinct exactly when no cluster has stored nodes of one host and different ports. -/
theorem collect_unique_iff (passes : List Pass) :
    ∃ s, syncerAfter passes = some s ∧ Nonempty (Orders s.cache) ∧
      ∀ o : Orders s.cache, ∃ metrics, collect s.cache o = some metrics ∧
        ((metrics.map Metric.series).Nodup ↔ HostOnce s.cache) := by
  obtain ⟨s, hs, hold⟩ := exists_syncerAfter passes
  refine ⟨s, hs, hold.orders, fun o => ?_⟩
  obtain ⟨metrics, hmetrics, hseries⟩ := exists_collect s.cache o
  refine ⟨metrics, hmetrics, ?_⟩
  rw [hseries, nodup_series_iff]
  constructor
  · intro h id cluster hcluster k k' report report' host port port' hreport hreport' hid hid'
    obtain rfl := h id cluster hcluster k k' report report' hreport hreport'
      (by rw [hostOf, hostOf, hid, hid']; rfl)
    obtain rfl := Option.some.inj (hreport.symm.trans hreport')
    rw [hid] at hid'
    simpa using hid'
  · intro h id cluster hcluster k k' report report' hreport hreport' hhost
    obtain ⟨host, port, hid, rfl⟩ := nodeId_of_reportKey (hold.reportKey_eq hcluster hreport)
    obtain ⟨host', port', hid', rfl⟩ := nodeId_of_reportKey (hold.reportKey_eq hcluster hreport')
    obtain rfl : host = host' := by simpa [hostOf, hid, hid'] using hhost
    rw [h id cluster hcluster _ _ report report' host port port' hreport hreport' hid hid']

/-- Two NodeManagers on one host: each of the four series is sent twice. -/
theorem collect_duplicates :
    ∃ metrics, collect (passOf [("worker-1", 8041), ("worker-1", 8042)]).snapshot
        (passOf [("worker-1", 8041), ("worker-1", 8042)]).orders = some metrics ∧
      syncerAfter [passOf [("worker-1", 8041), ("worker-1", 8042)]] =
        some ⟨(passOf [("worker-1", 8041), ("worker-1", 8042)]).snapshot, true⟩ ∧
      metrics.map Metric.series =
        hostSeries "batch" "worker-1" ++ hostSeries "batch" "worker-1" ∧
      ¬ (metrics.map Metric.series).Nodup := by
  obtain ⟨metrics, hmetrics, hseries⟩ := exists_collect
    (passOf [("worker-1", 8041), ("worker-1", 8042)]).snapshot
    (passOf [("worker-1", 8041), ("worker-1", 8042)]).orders
  have hsucceeds : (passOf [("worker-1", 8041), ("worker-1", 8042)]).Succeeds := nofun
  have htwice : metrics.map Metric.series =
      hostSeries "batch" "worker-1" ++ hostSeries "batch" "worker-1" := by
    rw [hseries]
    decide +kernel
  refine ⟨metrics, hmetrics, ?_, htwice, by rw [htwice]; decide +kernel⟩
  simp [syncerAfter, Pass.result_of_succeeds hsucceeds, NodesSyncer.tick]

end YarnCopilot.Metrics
