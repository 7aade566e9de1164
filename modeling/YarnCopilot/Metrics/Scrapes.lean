import YarnCopilot.Metrics.YarnCollector
import YarnCopilot.NodeResource.Convergence

/-!
# What a scrape says

Reference: `Collect` of `pkg/controller/metrics/yarn_collector.go`, `Reconcile` of
`pkg/controller/noderesource/resource_sync_controller.go`.

`scrape_spec` says what `Collect` sends, values included: the four metrics of every report that the
last successful pass left in the cache, once each. Whether a registry takes them is another matter:
`collect_unique_iff`. The collector and the reconciler read the same cache in two ways;
`scrape_agrees` says that the allocation `Reconcile` records on a node is the one that `Collect`
sends for it.
-/

namespace YarnCopilot.Metrics

open Cache NodeResource

/-- The four metrics of a report. Memory is reported in MB and exported in bytes, in 64 bits. -/
def reportMetrics (clusterID : String) (report : NodeReportProto) : List Metric :=
  [⟨yarnNodeCPUMetric, (report.capability.bind ResourceProto.virtualCores).getD 0,
      [hostOf report, clusterID]⟩,
    ⟨yarnNodeMemoryMetric, int64 ((report.capability.bind ResourceProto.memory).getD 0 * 1048576),
      [hostOf report, clusterID]⟩,
    ⟨yarnNodeCPUAllocatedMetric, (report.used.bind ResourceProto.virtualCores).getD 0,
      [hostOf report, clusterID]⟩,
    ⟨yarnNodeMemoryAllocatedMetric, int64 ((report.used.bind ResourceProto.memory).getD 0 * 1048576),
      [hostOf report, clusterID]⟩]

/-- The two multiplications of the source are one. -/
theorem int64_bytes (mb : ℤ) : int64 (int64 (mb * 1024) * 1024) = int64 (mb * 1048576) := by
  rw [int64_int64_mul, mul_assoc]
  norm_num

theorem nodeMetrics_eq (clusterID : String) (report : NodeReportProto) :
    nodeMetrics clusterID report = some (reportMetrics clusterID report) := by
  simp only [nodeMetrics, getVirtualCores, getMemory, getHost, getField_eq, reportMetrics,
    ← int64_bytes]
  rfl

theorem clusterMetrics_eq (cluster : String × List NodeReportProto) :
    clusterMetrics cluster = some (cluster.2.flatMap (reportMetrics cluster.1)) := by
  have hnodes : nodeMetrics cluster.1 = fun report => pure (reportMetrics cluster.1 report) :=
    funext (nodeMetrics_eq cluster.1)
  rw [clusterMetrics, hnodes, List.mapM_pure, List.flatMap_def]
  rfl

/-- The cache has the report of the cluster under the key. -/
def Stored (cache : NodeCache) (id key : String) (report : NodeReportProto) : Prop :=
  ∃ cluster, cache id = some cluster ∧ cluster key = some report

/-- The stored reports in the order of a scrape. -/
def storedReports (cache : NodeCache) (o : Orders cache) : List (String × String × NodeReportProto) :=
  (entriesOf cache o.ids).flatMap fun cluster =>
    (entriesOf cluster.2 (o.keys cluster.1)).map fun entry => (cluster.1, entry.1, entry.2)

section Collect

variable {cache : NodeCache} (o : Orders cache)

theorem mem_storedReports {id key : String} {report : NodeReportProto} :
    (id, key, report) ∈ storedReports cache o ↔ Stored cache id key report := by
  simp only [storedReports, List.mem_flatMap, List.mem_map, Prod.mk.injEq]
  constructor
  · rintro ⟨⟨_, cluster⟩, hcluster, ⟨_, _⟩, hentry, rfl, rfl, rfl⟩
    have hcached := o.ids_ranges.mem_entriesOf.mp hcluster
    exact ⟨cluster, hcached, (o.keys_ranges _ _ hcached).mem_entriesOf.mp hentry⟩
  · rintro ⟨cluster, hcluster, hreport⟩
    exact ⟨(id, cluster), o.ids_ranges.mem_entriesOf.mpr hcluster, (key, report),
      (o.keys_ranges _ _ hcluster).mem_entriesOf.mpr hreport, rfl, rfl, rfl⟩

theorem nodup_storedReports : (storedReports cache o).Nodup := by
  refine List.nodup_flatMap.mpr ⟨fun cluster hcluster => ?_, ?_⟩
  · have hranges := o.keys_ranges _ _ (o.ids_ranges.mem_entriesOf.mp hcluster)
    refine (hranges.nodup_map_iff _).mpr fun key key' _ _ _ _ heq => ?_
    exact (Prod.mk.inj (Prod.mk.inj heq).2).1
  · have hids : ((entriesOf cache o.ids).map Prod.fst).Nodup :=
      (o.ids_ranges.nodup_map_iff Prod.fst).mpr fun _ _ _ _ _ _ h => h
    refine (List.pairwise_map.mp hids).imp fun {cluster cluster'} hne entry hentry hentry' => ?_
    -- an entry knows its cluster
    obtain ⟨_, -, rfl⟩ := List.mem_map.mp hentry
    obtain ⟨_, -, heq⟩ := List.mem_map.mp hentry'
    exact hne (Prod.mk.inj heq).1.symm

/-- `Collect` sends the metrics of the stored reports one after the other. -/
theorem collect_eq : collect cache o =
    some ((storedReports cache o).flatMap fun entry => reportMetrics entry.1 entry.2.2) := by
  have hclusters : clusterMetrics = fun cluster =>
      pure (cluster.2.flatMap (reportMetrics cluster.1)) := funext clusterMetrics_eq
  have hinfo : entriesOf (getYarnNodeInfo cache o) o.ids = (entriesOf cache o.ids).map fun cluster =>
      (cluster.1, (entriesOf cluster.2 (o.keys cluster.1)).map Prod.snd) :=
    entriesOf_map _ _ _
  have hflat : ∀ clusters : List (String × List NodeReportProto),
      clusters.mapM clusterMetrics >>= (fun metrics => pure metrics.flatten) =
        some (clusters.flatMap fun cluster => cluster.2.flatMap (reportMetrics cluster.1)) := by
    intro clusters
    rw [hclusters, List.mapM_pure, List.flatMap_def]
    rfl
  rw [collect, hinfo]
  refine (hflat _).trans (congrArg some ?_)
  rw [storedReports, List.flatMap_assoc, List.flatMap_map]
  simp only [List.flatMap_map]

end Collect

section Agreement

variable {Client : Type} {lib : Library} {op : Operator Client} {name nodeName : String}
  {answers : Answers Client} {node : Node} {yarnNode : YarnNode} {patch : MergePatch String String}
  {reports : PassReports} {pre post : List NodeReportProto} {report : NodeReportProto}

/-- A registry takes the metrics: no two of them have the same descriptor and labels. -/
def Accepted (metrics : List Metric) : Prop := (metrics.map Metric.series).Nodup

theorem Accepted.eq {metrics : List Metric} (h : Accepted metrics) {m m' : Metric}
    (hm : m ∈ metrics) (hm' : m' ∈ metrics) (hseries : m.series = m'.series) : m = m' :=
  List.inj_on_of_nodup_map h hm hm' hseries

/-- **Agreement.** Let the last report under the host and port of a node, or those of its twin, be
its own. When `Reconcile` records an allocation for the node, what it records is the use in that
report, and `Collect` sends it from the same cache under the host and the cluster of the node: the
cores as they are and the memory in bytes. If a registry takes what is sent, it has nothing else for
them. -/
theorem scrape_agrees (hcache : op.syncer.cache = reports.cache)
    (hsplit : reports.of yarnNode.clusterID = pre ++ report :: post)
    (hown : ReportOf yarnNode report)
    (hlast : ∀ later ∈ post, ¬ (ReportOf yarnNode later ∨ TwinReport yarnNode later))
    (hnode : answers.node = .found node) (hyarn : HasNodeManager answers.pods yarnNode)
    (hcall : .patchNode nodeName patch ∈ (op.reconcile lib name answers).calls)
    (o : Orders op.syncer.cache) :
    ∃ metrics core mb, (∃ used, report.used = some used ∧ core = used.virtualCores.getD 0 ∧
        mb = used.memory.getD 0) ∧
      RecordsWrapped lib (patch.apply node.annotations) core mb ∧
      collect op.syncer.cache o = some metrics ∧
      ⟨yarnNodeCPUAllocatedMetric, core, [yarnNode.name, yarnNode.clusterID]⟩ ∈ metrics ∧
      ⟨yarnNodeMemoryAllocatedMetric, int64 (mb * 1048576), [yarnNode.name, yarnNode.clusterID]⟩ ∈
        metrics ∧
      (Accepted metrics → ∀ m ∈ metrics, m.labelValues = [yarnNode.name, yarnNode.clusterID] →
        (m.desc = yarnNodeCPUAllocatedMetric → m.value = core) ∧
        (m.desc = yarnNodeMemoryAllocatedMetric → m.value = int64 (mb * 1048576))) := by
  obtain ⟨-, core, mb, hused, -, rfl⟩ := (reconcile_patch_iff hnode hyarn).mp hcall
  rw [hcache] at hused
  have hkey : lastReports (reports.of yarnNode.clusterID) (getKey yarnNode.name yarnNode.port) =
      some report := by
    refine KeyedList.lastWrite_eq_some_iff.mpr ⟨reportKey_eq_iff.mpr (.inl hown), pre, post, hsplit,
      fun later hlater hkey => hlast later hlater (reportKey_eq_iff.mp hkey)⟩
  obtain ⟨used, hsome, rfl, rfl⟩ : ∃ used, report.used = some used ∧
      core = used.virtualCores.getD 0 ∧ mb = used.memory.getD 0 := by
    have hfound := lastSays_key_iff.mp
      (foundUse_iff.mp (getYARNNodeAllocatedResource_cache_iff.mp hused))
    rw [hkey] at hfound
    simpa using hfound
  have hstored : Stored op.syncer.cache yarnNode.clusterID (getKey yarnNode.name yarnNode.port)
      report := by
    rw [hcache]
    rw [PassReports.of] at hkey
    cases hcluster : reports yarnNode.clusterID with
    | none => simp [hcluster, lastReports, KeyedList.lastWrite] at hkey
    | some l =>
      refine ⟨lastReports l, by rw [PassReports.cache, hcluster]; rfl, ?_⟩
      simpa [hcluster] using hkey
  have hhost : hostOf report = yarnNode.name := by rw [hostOf, hown]; rfl
  have hsent : ∀ m ∈ reportMetrics yarnNode.clusterID report,
      m ∈ (storedReports op.syncer.cache o).flatMap fun entry => reportMetrics entry.1 entry.2.2 :=
    fun m hm => List.mem_flatMap.mpr ⟨_, (mem_storedReports o).mpr hstored, hm⟩
  have hcpu := hsent ⟨yarnNodeCPUAllocatedMetric, used.virtualCores.getD 0,
    [yarnNode.name, yarnNode.clusterID]⟩ (by simp [reportMetrics, hsome, hhost])
  have hmemory := hsent ⟨yarnNodeMemoryAllocatedMetric, int64 (used.memory.getD 0 * 1048576),
    [yarnNode.name, yarnNode.clusterID]⟩ (by simp [reportMetrics, hsome, hhost])
  refine ⟨_, _, _, ⟨used, hsome, rfl, rfl⟩, ?_, collect_eq o, hcpu, hmemory,
    fun haccepted m hm hlabels => ⟨fun hdesc => ?_, fun hdesc => ?_⟩⟩
  · rw [allocatedResourcePatch, MergePatch.apply_diff]
    exact recordsWrapped_set _ _ _
  · rw [haccepted.eq hm hcpu (Prod.ext hdesc hlabels)]
  · rw [haccepted.eq hm hmemory (Prod.ext hdesc hlabels)]

end Agreement

/-- The order of the only cluster and its only node. -/
def usedOrders : Orders usedReports.cache where
  ids := [defaultClusterID]
  keys := fun _ => [getKey "worker-1" 8041]
  ids_ranges := by
    refine ⟨List.nodup_singleton _, fun id => ?_⟩
    by_cases hid : id = defaultClusterID <;> simp [PassReports.cache, usedReports, hid]
  keys_ranges := by
    intro id cluster hcluster
    refine ⟨List.nodup_singleton _, fun key => ?_⟩
    by_cases hid : id = defaultClusterID
    · simp only [PassReports.cache, usedReports, hid, if_true, Option.map_some,
        Option.some.injEq] at hcluster
      subst hcluster
      have hkey : reportKey ⟨some ⟨some "worker-1", some 8041⟩, some ⟨some 4096, some 4⟩, none⟩ =
          some (getKey "worker-1" 8041) := rfl
      generalize getKey "worker-1" 8041 = stored at hkey ⊢
      rw [List.mem_singleton, lastReports, KeyedList.lastWrite, List.reverse_singleton,
        List.find?_singleton, hkey]
      by_cases heq : stored = key
      · simp [heq]
      · simp [heq, Ne.symm heq]
    · simp [PassReports.cache, usedReports, hid] at hcluster

/-- The allocation of `worker-1` after a pass over the default cluster. -/
theorem scrape_agrees_usedReports :
    let op : Operator ℕ := ⟨addedReconciler, ⟨usedReports.cache, true⟩⟩
    ∃ patch metrics,
      .patchNode "worker-1" patch ∈
        (op.reconcile plainLib "worker-1" (calmAnswers allocatedNode)).calls ∧
      RecordsWrapped plainLib (patch.apply allocatedNode.annotations) 4 4096 ∧
      collect op.syncer.cache usedOrders = some metrics ∧
      ⟨yarnNodeCPUAllocatedMetric, 4, ["worker-1", defaultClusterID]⟩ ∈ metrics ∧
      ⟨yarnNodeMemoryAllocatedMetric, 4294967296, ["worker-1", defaultClusterID]⟩ ∈ metrics := by
  intro op
  have hused : getYARNNodeAllocatedResource op.syncer.cache ⟨"worker-1", 8041, defaultClusterID⟩ =
      some (4, 4096) := getYARNNodeAllocatedResource_cache_iff.mpr foundUse_usedReports
  have hcall : .patchNode "worker-1" (allocatedResourcePatch plainLib allocatedNode 4 4096) ∈
      (op.reconcile plainLib "worker-1" (calmAnswers allocatedNode)).calls :=
    (reconcile_patch_iff rfl (hasNodeManager_calmAnswers _)).mpr
      ⟨records_allocatedNode, 4, 4096, hused, rfl, rfl⟩
  obtain ⟨metrics, core, mb, ⟨used, hsome, rfl, rfl⟩, hrecords, hcollect, hcpu, hmemory, -⟩ :=
    @scrape_agrees ℕ plainLib op _ _ _ _ ⟨"worker-1", 8041, defaultClusterID⟩ _ usedReports [] [] _
      rfl rfl rfl (fun _ h => by cases h) rfl (hasNodeManager_calmAnswers _) hcall usedOrders
  obtain rfl : ⟨some 4096, some 4⟩ = used := Option.some.inj hsome
  exact ⟨_, metrics, hcall, hrecords, hcollect, hcpu, hmemory⟩

end YarnCopilot.Metrics
