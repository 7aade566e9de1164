import YarnCopilot.Metrics.YarnCollector
import YarnCopilot.NodeResource.Reconcile

/-!
# Absent fields of a node report

Every field of a `GetClusterNodesResponse` is optional. The pass, `debug`, `GetYarnNodeInfo`,
`Collect` and `getYARNNodeAllocatedResource` read the same reports, some through the getters of the
generated code and some through the pointers. `readersRun_iff` says for which messages all of them
run.
-/

namespace YarnCopilot.NodeResource

open Cache Metrics

/-- What YARN uses of a node by its report: zero for what is absent. -/
def usedOf (report : Option NodeReportProto) : ℤ × ℤ :=
  (((report.bind NodeReportProto.used).bind ResourceProto.virtualCores).getD 0,
    ((report.bind NodeReportProto.used).bind ResourceProto.memory).getD 0)

/-- All readers of a cache run: its maps can be ranged over, nothing panics, the lists hold the
stored reports, and absent resources count as zero. -/
structure ReadersRun (cache : NodeCache) : Prop where
  ranges : Nonempty (Orders cache)
  debug : ∀ o : Orders cache, (debug cache o).isSome
  info : ∀ (o : Orders cache) id report,
    (∃ nodes, getYarnNodeInfo cache o id = some nodes ∧ report ∈ nodes) ↔
      ∃ cluster key, cache id = some cluster ∧ cluster key = some report
  collect : ∀ o : Orders cache, (collect cache o).isSome
  allocated : ∀ yarnNode, getYARNNodeAllocatedResource cache yarnNode =
    some (usedOf (cache.getNodeResource yarnNode))

/-- The report has all numbers that `debug` prints. -/
structure HasResources (report : NodeReportProto) : Prop where
  usedVirtualCores : (report.used.bind ResourceProto.virtualCores).isSome
  usedMemory : (report.used.bind ResourceProto.memory).isSome
  virtualCores : (report.capability.bind ResourceProto.virtualCores).isSome
  memory : (report.capability.bind ResourceProto.memory).isSome

/-! ## The readers -/

theorem isSome_debugLine_iff {clusterID key : String} {value : NodeReportProto} :
    (debugLine clusterID key value).isSome ↔ HasResources value := by
  constructor
  · intro h
    unfold debugLine at h
    obtain ⟨line, hline⟩ := Option.isSome_iff_exists.mp h
    obtain ⟨a, ha, hline⟩ := Option.bind_eq_some_iff.mp hline
    obtain ⟨b, hb, hline⟩ := Option.bind_eq_some_iff.mp hline
    obtain ⟨c, hc, hline⟩ := Option.bind_eq_some_iff.mp hline
    obtain ⟨d, hd, hline⟩ := Option.bind_eq_some_iff.mp hline
    exact ⟨by rw [ha]; rfl, by rw [hb]; rfl, by rw [hc]; rfl, by rw [hd]; rfl⟩
  · rintro ⟨h₁, h₂, h₃, h₄⟩
    obtain ⟨a, ha⟩ := Option.isSome_iff_exists.mp h₁
    obtain ⟨b, hb⟩ := Option.isSome_iff_exists.mp h₂
    obtain ⟨c, hc⟩ := Option.isSome_iff_exists.mp h₃
    obtain ⟨d, hd⟩ := Option.isSome_iff_exists.mp h₄
    simp only [debugLine, ha, hb, hc, hd]
    rfl

/-- `debug` runs exactly when every cached report has its resources. -/
theorem isSome_debug_iff {cache : NodeCache} (o : Orders cache) :
    (debug cache o).isSome ↔ ∀ id cluster key report, cache id = some cluster →
      cluster key = some report → HasResources report := by
  rw [debug, Option.isSome_map, isSome_mapM]
  constructor
  · intro h id cluster key report hcluster hreport
    have hlines := h (id, cluster) (o.ids_ranges.mem_entriesOf.mpr hcluster)
    rw [debugCluster, isSome_mapM] at hlines
    exact isSome_debugLine_iff.mp
      (hlines (key, report) ((o.keys_ranges id cluster hcluster).mem_entriesOf.mpr hreport))
  · rintro h ⟨id, cluster⟩ hentry
    have hcluster := o.ids_ranges.mem_entriesOf.mp hentry
    rw [debugCluster, isSome_mapM]
    rintro ⟨key, report⟩ hentry'
    have hreport := (o.keys_ranges id cluster hcluster).mem_entriesOf.mp hentry'
    exact isSome_debugLine_iff.mpr (h id cluster key report hcluster hreport)

/-- With resources in every cached report, all readers run. -/
theorem readersRun_of_hasResources {cache : NodeCache} (hranges : Nonempty (Orders cache))
    (h : ∀ id cluster key report, cache id = some cluster → cluster key = some report →
      HasResources report) : ReadersRun cache where
  ranges := hranges
  debug o := (isSome_debug_iff o).mpr h
  info o id report := mem_getYarnNodeInfo
  collect o := by
    obtain ⟨metrics, hmetrics, -⟩ := exists_collect cache o
    rw [hmetrics]
    rfl
  allocated yarnNode := by
    rw [getYARNNodeAllocatedResource]
    cases hreport : cache.getNodeResource yarnNode with
    | none => rfl
    | some report =>
      obtain ⟨cluster, hcluster, hkey⟩ := Option.bind_eq_some_iff.mp hreport
      -- `Used` itself is there, since `debug` needs its fields
      obtain ⟨vcores, hvcores⟩ := Option.isSome_iff_exists.mp
        (h _ cluster _ report hcluster hkey).usedVirtualCores
      obtain ⟨used, hused, -⟩ := Option.bind_eq_some_iff.mp hvcores
      simp only [usedResource, usedOf, hused, Option.map_some, Option.bind_some]

/-! ## A pass and its readers -/

/-- After a pass over clusters that answer any messages, all readers run exactly when every report
has a node id, and every report that is stored has its used and total resources. -/
theorem readersRun_iff (ids : List String) (order : RangeOrder String)
    (messages : String → List NodeReportProto) :
    (∃ cache, syncYARNNodeAllocatedResource (order.visit ids) (fun id => .reports (messages id)) =
        .synced cache ∧ ReadersRun cache) ↔
      ∀ id ∈ ids, (∀ report ∈ messages id, report.nodeId.isSome) ∧
        ∀ key report, lastReports (messages id) key = some report → HasResources report := by
  constructor
  · rintro ⟨cache, hsynced, hrun⟩ id hid
    have hvisit : id ∈ order.visit ids := order.mem_visit.mpr hid
    have hnodeIds : ∀ report ∈ messages id, report.nodeId.isSome :=
      isSome_clusterCache_iff.mp (isSome_clusterCache_of_synced hsynced hvisit rfl)
    have hcluster : cache id = some (lastReports (messages id)) := by
      rw [syncClusters_inv hsynced, if_pos hvisit, built, clusterCache_eq hnodeIds]
      rfl
    obtain ⟨o⟩ := hrun.ranges
    exact ⟨hnodeIds, fun key report =>
      (isSome_debug_iff o).mp (hrun.debug o) id _ key report hcluster⟩
  · intro h
    let p : Pass := ⟨ids, order, fun id => .reports (messages id), by
      intro id hid reports hreports
      obtain rfl := ClusterNodes.reports.inj hreports
      exact (h id hid).1⟩
    have hsucceeds : p.Succeeds := by
      intro id _ hfailed
      cases hfailed
    refine ⟨p.snapshot, p.result_of_succeeds hsucceeds, readersRun_of_hasResources ⟨p.orders⟩ ?_⟩
    intro id cluster key report hcluster hreport
    obtain ⟨hid, reports, hreports, rfl⟩ := Pass.snapshot_eq_some hcluster
    obtain rfl := ClusterNodes.reports.inj hreports
    exact (h id hid).2 key report hreport

/-! ## Three reports -/

/-- Some resources. -/
def someResources : ResourceProto := ⟨some 1024, some 1⟩

/-- The id of a node. -/
def someNodeId : NodeIdProto := ⟨some "worker-1", some 8041⟩

/-- The syncer panics on a report without a node id, `getYARNNodeAllocatedResource` on one without
`Used`, and `debug` on one without `Capability`. -/
theorem absent_fields_panic :
    (syncYARNNodeAllocatedResource ["batch"] fun _ =>
      .reports [⟨none, some someResources, some someResources⟩]) = .panic ∧
    (∃ cache, (syncYARNNodeAllocatedResource ["batch"] fun _ =>
        .reports [⟨some someNodeId, none, some someResources⟩]) = .synced cache ∧
      getYARNNodeAllocatedResource cache ⟨"worker-1", 8041, "batch"⟩ = none ∧ ¬ ReadersRun cache) ∧
    (∃ cache, (syncYARNNodeAllocatedResource ["batch"] fun _ =>
        .reports [⟨some someNodeId, some someResources, none⟩]) = .synced cache ∧
      (∀ o : Orders cache, debug cache o = none) ∧ ¬ ReadersRun cache) := by
  refine ⟨rfl, ⟨_, rfl, rfl, fun h => ?_⟩, ⟨_, rfl, ?_, fun h => ?_⟩⟩
  · cases h.allocated ⟨"worker-1", 8041, "batch"⟩
  · intro o
    rw [← Option.not_isSome_iff_eq_none, isSome_debug_iff]
    intro h
    cases (h "batch" _ (getKey "worker-1" 8041) _ rfl (Function.update_self _ _ _)).memory
  · obtain ⟨o⟩ := h.ranges
    have hrun := (isSome_debug_iff o).mp (h.debug o)
    cases (hrun "batch" _ (getKey "worker-1" 8041) _ rfl (Function.update_self _ _ _)).memory

end YarnCopilot.NodeResource
