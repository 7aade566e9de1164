import YarnCopilot.Cache.NodesSyncer
import YarnCopilot.Common.KeyedList

/-!
# Snapshots of the clusters

What the cache is for: to hold, at any time, what all clusters answered in one pass. `snapshot` says
this without the loops of the pass, and the cache of a syncer is followed through any number of
passes.
-/

namespace YarnCopilot.Cache

open KeyedList

/-! ## One cluster -/

/-- The key a report is stored under, if it has a host and a port. -/
def reportKey (report : NodeReportProto) : Option String :=
  report.nodeId.bind fun id => id.host.bind fun host => id.port.map fun port => getKey host port

/-- The last report of every key. -/
def lastReports (reports : List NodeReportProto) : ClusterCache := fun k =>
  lastWrite reportKey reports (some k)

/-- The body of the loop stores a report with a host and a port under its key. -/
theorem addReport_eq {report : NodeReportProto} (h : report.nodeId.isSome) (cache : ClusterCache) :
    addReport cache report =
      some (match reportKey report with
        | none => cache
        | some k => Function.update cache k (some report)) := by
  obtain ⟨id, hid⟩ := Option.isSome_iff_exists.mp h
  obtain ⟨host, port⟩ := id
  cases host <;> cases port <;> simp [addReport, reportKey, hid]

/-- One more report at the end hides the earlier ones of its key. -/
theorem lastReports_append_singleton (reports : List NodeReportProto) (report : NodeReportProto) :
    lastReports (reports ++ [report]) =
      match reportKey report with
      | none => lastReports reports
      | some k => Function.update (lastReports reports) k (some report) := by
  funext k
  rw [lastReports, lastWrite_append_singleton]
  cases hkey : reportKey report with
  | none => simp [lastReports]
  | some k' =>
    by_cases hk : k' = k
    · simp [hk]
    · rw [if_neg (by simpa using hk)]
      simp only [Function.update_of_ne (Ne.symm hk)]
      rfl

/-- The cache of a cluster whose reports all have a node id. -/
theorem clusterCache_eq {reports : List NodeReportProto}
    (h : ∀ report ∈ reports, report.nodeId.isSome) :
    clusterCache reports = some (lastReports reports) := by
  induction reports using List.reverseRecOn with
  | nil => rfl
  | append_singleton reports report ih =>
    have hinit : clusterCache reports = some (lastReports reports) :=
      ih fun r hr => h r (List.mem_append_left _ hr)
    rw [clusterCache, List.foldlM_append, ← clusterCache, hinit, lastReports_append_singleton]
    simp [addReport_eq (h report (by simp))]

/-- A report without a node id is the one thing that stops the loop. -/
theorem isSome_clusterCache_iff {reports : List NodeReportProto} :
    (clusterCache reports).isSome ↔ ∀ report ∈ reports, report.nodeId.isSome := by
  constructor
  · intro h
    rw [clusterCache] at h
    generalize (fun _ => none : ClusterCache) = cache at h
    induction reports generalizing cache with
    | nil => simp
    | cons report reports ih =>
      rw [List.foldlM_cons] at h
      cases hid : report.nodeId with
      | none =>
        simp only [addReport, hid] at h
        cases h
      | some id =>
        rw [addReport_eq (by rw [hid]; rfl)] at h
        rw [List.forall_mem_cons, hid]
        exact ⟨rfl, ih _ h⟩
  · intro h
    rw [clusterCache_eq h]
    rfl

/-- A stored report is one of those that came, under its own key. -/
theorem lastReports_eq_some {reports : List NodeReportProto} {k : String} {report : NodeReportProto}
    (h : lastReports reports k = some report) : report ∈ reports ∧ reportKey report = some k :=
  ⟨List.mem_reverse.mp (List.mem_of_find?_eq_some h), key_of_lastWrite h⟩

/-- The keys under which reports are stored. -/
theorem ranges_lastReports (reports : List NodeReportProto) :
    Ranges (lastReports reports) (reports.filterMap reportKey).dedup where
  nodup := List.nodup_dedup _
  mem_iff k := by
    simp [lastReports, lastWrite]

/-! ## One pass -/

/-- A pass over some clusters, in any order, with what they answer. Every report has a node id. -/
structure Pass where
  ids : List String
  order : RangeOrder String
  answer : String → ClusterNodes
  nodeIds : ∀ id ∈ ids, ∀ reports, answer id = .reports reports →
    ∀ report ∈ reports, report.nodeId.isSome

namespace Pass

/-- What the syncer makes of the pass. -/
def result (p : Pass) : PassResult := syncYARNNodeAllocatedResource (p.order.visit p.ids) p.answer

/-- No cluster fails to answer. -/
def Succeeds (p : Pass) : Prop := ∀ id ∈ p.ids, p.answer id ≠ .failed

/-- What is to be cached of a cluster. -/
def partition (answer : ClusterNodes) : Option ClusterCache :=
  match answer with
  | .reports reports => some (lastReports reports)
  | _ => none

/-- What the clusters answered, without those that answered nothing. -/
def snapshot (p : Pass) : NodeCache := fun id =>
  if id ∈ p.ids then partition (p.answer id) else none

theorem partition_eq_some {answer : ClusterNodes} {cluster : ClusterCache}
    (h : partition answer = some cluster) :
    ∃ reports, answer = .reports reports ∧ lastReports reports = cluster := by
  cases answer with
  | reports reports => exact ⟨reports, rfl, Option.some.inj h⟩
  | _ => cases h

/-- The clusters of a snapshot and what they reported. -/
theorem snapshot_eq_some {p : Pass} {id : String} {cluster : ClusterCache}
    (h : p.snapshot id = some cluster) :
    id ∈ p.ids ∧ ∃ reports, p.answer id = .reports reports ∧ lastReports reports = cluster := by
  rw [snapshot] at h
  split at h
  · rename_i hid
    exact ⟨hid, partition_eq_some h⟩
  · cases h

/-- An order for the readers of a snapshot: as the clusters and the nodes were listed. -/
def orders (p : Pass) : Orders p.snapshot where
  ids := (p.ids.filter fun id => (partition (p.answer id)).isSome).dedup
  keys := fun id =>
    match p.answer id with
    | .reports reports => (reports.filterMap reportKey).dedup
    | _ => []
  ids_ranges := by
    refine ⟨List.nodup_dedup _, fun id => ?_⟩
    rw [List.mem_dedup, List.mem_filter, snapshot]
    split
    · rename_i hid
      exact and_iff_right hid
    · rename_i hid
      exact iff_of_false (fun h => hid h.1) nofun
  keys_ranges := by
    intro id cluster h
    obtain ⟨-, reports, hanswer, rfl⟩ := snapshot_eq_some h
    rw [hanswer]
    exact ranges_lastReports reports

end Pass

section Loop

variable {answer : String → ClusterNodes} {ids : List String}

/-- What the pass builds of an answer. -/
def built : ClusterNodes → Option ClusterCache
  | .reports reports => clusterCache reports
  | _ => none

/-- The result of the loop with the answer of one more cluster. -/
def withAnswer (res : NodeCache) (id : String) (answer : ClusterNodes) : NodeCache := fun id' =>
  if id' = id then (built answer).or (res id') else res id'

/-- One cluster of the loop: it gives up the pass, its reports cannot be stored, or what is built of
its answer goes into the result. -/
theorem syncClusters_cons (answer : String → ClusterNodes) (id : String) (ids : List String)
    (res : NodeCache) :
    (answer id = .failed ∧ syncClusters answer (id :: ids) res = .failed) ∨
    (∃ reports, answer id = .reports reports ∧ clusterCache reports = none ∧
      syncClusters answer (id :: ids) res = .panic) ∨
    (answer id ≠ .failed ∧ syncClusters answer (id :: ids) res =
      syncClusters answer ids (withAnswer res id (answer id))) := by
  cases hid : answer id with
  | failed => exact .inl ⟨rfl, by simp only [syncClusters, hid]⟩
  | nil =>
    have hres : withAnswer res id .nil = res := by
      funext id'
      simp [withAnswer, built]
    exact .inr (.inr ⟨by simp, by simp only [syncClusters, hid, hres]⟩)
  | reports reports =>
    cases hnodes : clusterCache reports with
    | none => exact .inr (.inl ⟨reports, rfl, hnodes, by simp only [syncClusters, hid, hnodes]⟩)
    | some nodes =>
      have hres : withAnswer res id (.reports reports) = Function.update res id (some nodes) := by
        funext id'
        by_cases heq : id' = id
        · simp [withAnswer, heq, built, hnodes]
        · simp [withAnswer, heq]
      exact .inr (.inr ⟨by simp, by simp only [syncClusters, hid, hnodes, hres]⟩)

/-- In a loop that goes through, the reports of the first cluster could be stored, and the loop over
the others goes through with what was built of them. -/
theorem syncClusters_of_cons {id : String} {res snapshot : NodeCache}
    (h : syncClusters answer (id :: ids) res = .synced snapshot) :
    (∀ reports, answer id = .reports reports → (clusterCache reports).isSome) ∧
      syncClusters answer ids (withAnswer res id (answer id)) = .synced snapshot := by
  constructor
  · intro reports hreports
    by_contra hnone
    rw [Option.not_isSome_iff_eq_none] at hnone
    simp only [syncClusters, hreports, hnone] at h
    cases h
  · rcases syncClusters_cons answer id ids res with
      ⟨-, hfailed⟩ | ⟨_, -, -, hpanic⟩ | ⟨-, hrest⟩
    · rw [hfailed] at h
      cases h
    · rw [hpanic] at h
      cases h
    · rw [← hrest]
      exact h

/-- A loop that goes through has cached what it built of every answer. -/
theorem syncClusters_inv {res snapshot : NodeCache}
    (h : syncClusters answer ids res = .synced snapshot) (id : String) :
    snapshot id = if id ∈ ids then (built (answer id)).or (res id) else res id := by
  induction ids generalizing res with
  | nil =>
    obtain rfl := PassResult.synced.inj h
    simp
  | cons head ids ih =>
    rw [ih (syncClusters_of_cons h).2, withAnswer]
    by_cases heq : id = head
    · simp [heq, ← Option.or_assoc]
    · simp [heq]

/-- A loop that goes through could store the reports of every cluster. -/
theorem isSome_clusterCache_of_synced {res snapshot : NodeCache} {id : String}
    {reports : List NodeReportProto} (h : syncClusters answer ids res = .synced snapshot)
    (hid : id ∈ ids) (hreports : answer id = .reports reports) : (clusterCache reports).isSome := by
  induction ids generalizing res with
  | nil => cases hid
  | cons head ids ih =>
    obtain ⟨hhead, hrest⟩ := syncClusters_of_cons h
    rcases List.mem_cons.mp hid with rfl | hid
    · exact hhead reports hreports
    · exact ih hrest hid

/-- With node ids, what is built is what is to be cached. -/
theorem built_eq_partition {a : ClusterNodes}
    (h : ∀ reports, a = .reports reports → ∀ report ∈ reports, report.nodeId.isSome) :
    built a = Pass.partition a := by
  cases a with
  | reports reports => exact clusterCache_eq (h reports rfl)
  | _ => rfl

section NodeIds

variable (hnodeIds : ∀ id ∈ ids, ∀ reports, answer id = .reports reports →
  ∀ report ∈ reports, report.nodeId.isSome)

include hnodeIds

/-- With node ids, the loop goes through if every cluster answers. -/
theorem exists_synced (h : ∀ id ∈ ids, answer id ≠ .failed) (res : NodeCache) :
    ∃ snapshot, syncClusters answer ids res = .synced snapshot := by
  induction ids generalizing res with
  | nil => exact ⟨res, rfl⟩
  | cons id ids ih =>
    rcases syncClusters_cons answer id ids res with
      ⟨hfailed, -⟩ | ⟨reports, hreports, hpanic, -⟩ | ⟨-, hrest⟩
    · exact absurd hfailed (h id List.mem_cons_self)
    · rw [clusterCache_eq (hnodeIds id List.mem_cons_self reports hreports)] at hpanic
      cases hpanic
    · rw [hrest]
      exact ih (fun id' hid' => hnodeIds id' (List.mem_cons_of_mem _ hid'))
        (fun id' hid' => h id' (List.mem_cons_of_mem _ hid')) _

/-- The loop over clusters that all answer. -/
theorem syncClusters_synced (h : ∀ id ∈ ids, answer id ≠ .failed) (res : NodeCache) :
    syncClusters answer ids res =
      .synced fun id => if id ∈ ids then (Pass.partition (answer id)).or (res id) else res id := by
  obtain ⟨snapshot, hsynced⟩ := exists_synced hnodeIds h res
  rw [hsynced]
  congr 1
  funext id
  rw [syncClusters_inv hsynced]
  by_cases hid : id ∈ ids
  · rw [if_pos hid, if_pos hid, built_eq_partition (hnodeIds id hid)]
  · rw [if_neg hid, if_neg hid]

/-- The loop stops at a cluster that fails, wherever it stands. -/
theorem syncClusters_failed (h : ∃ id ∈ ids, answer id = .failed) (res : NodeCache) :
    syncClusters answer ids res = .failed := by
  induction ids generalizing res with
  | nil => simp at h
  | cons id ids ih =>
    rcases syncClusters_cons answer id ids res with
      ⟨-, hfailed⟩ | ⟨reports, hreports, hpanic, -⟩ | ⟨hne, hrest⟩
    · exact hfailed
    · rw [clusterCache_eq (hnodeIds id List.mem_cons_self reports hreports)] at hpanic
      cases hpanic
    · rw [hrest]
      apply ih fun id' hid' => hnodeIds id' (List.mem_cons_of_mem _ hid')
      obtain ⟨id', hmem, hfailed⟩ := h
      rcases List.mem_cons.mp hmem with rfl | hmem
      · exact absurd hfailed hne
      · exact ⟨id', hmem, hfailed⟩

end NodeIds

end Loop

/-- A pass in which no cluster fails caches its snapshot, in whatever order it goes. -/
theorem Pass.result_of_succeeds {p : Pass} (h : p.Succeeds) : p.result = .synced p.snapshot := by
  rw [Pass.result, syncYARNNodeAllocatedResource,
    syncClusters_synced (fun id hid => p.nodeIds id (p.order.mem_visit.mp hid))
      fun id hid => h id (p.order.mem_visit.mp hid)]
  congr 1
  funext id
  by_cases hid : id ∈ p.ids <;> simp [Pass.snapshot, hid]

/-- A pass in which a cluster fails gives up. -/
theorem Pass.result_of_not_succeeds {p : Pass} (h : ¬ p.Succeeds) : p.result = .failed := by
  have hfailed : ∃ id ∈ p.order.visit p.ids, p.answer id = .failed := by
    simpa [Pass.Succeeds] using h
  exact syncClusters_failed (fun id hid => p.nodeIds id (p.order.mem_visit.mp hid)) hfailed _

/-! ## Any number of passes -/

/-- The syncer after some passes. -/
def syncerAfter (passes : List Pass) : Option NodesSyncer :=
  passes.foldlM (fun s p => s.tick p.result) newNodesSyncer

/-- The syncer has the snapshot of the last pass that went through, and knows whether there was
one. -/
inductive HoldsSnapshot (passes : List Pass) : NodesSyncer → Prop
  | initial (h : ∀ p ∈ passes, ¬ p.Succeeds) : HoldsSnapshot passes ⟨fun _ => none, false⟩
  | synced {pre post : List Pass} {p : Pass} (hsplit : passes = pre ++ p :: post)
      (hp : p.Succeeds) (hpost : ∀ q ∈ post, ¬ q.Succeeds) : HoldsSnapshot passes ⟨p.snapshot, true⟩

theorem syncerAfter_append_singleton (passes : List Pass) (p : Pass) :
    syncerAfter (passes ++ [p]) = (syncerAfter passes).bind fun s => s.tick p.result := by
  simp [syncerAfter, List.foldlM_append]

/-- A pass that fails leaves the syncer as it was. -/
theorem syncerAfter_of_not_succeeds {passes : List Pass} {p : Pass} (h : ¬ p.Succeeds) :
    syncerAfter (passes ++ [p]) = syncerAfter passes := by
  rw [syncerAfter_append_singleton, p.result_of_not_succeeds h]
  cases syncerAfter passes <;> rfl

/-- After any number of passes the syncer has a snapshot. -/
theorem exists_syncerAfter (passes : List Pass) :
    ∃ s, syncerAfter passes = some s ∧ HoldsSnapshot passes s := by
  induction passes using List.reverseRecOn with
  | nil => exact ⟨_, rfl, .initial (by simp)⟩
  | append_singleton passes p ih =>
    obtain ⟨s, hs, hold⟩ := ih
    by_cases hp : p.Succeeds
    · refine ⟨⟨p.snapshot, true⟩, ?_, .synced rfl hp (by simp)⟩
      rw [syncerAfter_append_singleton, hs, p.result_of_succeeds hp]
      rfl
    · refine ⟨s, by rw [syncerAfter_of_not_succeeds hp, hs], ?_⟩
      cases hold with
      | initial h =>
        refine .initial fun q hq => ?_
        rcases List.mem_append.mp hq with hq | hq
        · exact h q hq
        · rwa [List.mem_singleton.mp hq]
      | @synced pre post q hsplit hq hpost =>
        have hsplit' : passes ++ [p] = pre ++ q :: (post ++ [p]) := by simp [hsplit]
        refine .synced hsplit' hq fun q' hq' => ?_
        rcases List.mem_append.mp hq' with hq' | hq'
        · exact hpost q' hq'
        · rwa [List.mem_singleton.mp hq']

theorem HoldsSnapshot.started_iff {passes : List Pass} {s : NodesSyncer}
    (h : HoldsSnapshot passes s) : s.started = true ↔ ∃ p ∈ passes, p.Succeeds := by
  cases h with
  | initial h => simpa using h
  | synced hsplit hp _ => exact ⟨fun _ => ⟨_, by simp [hsplit], hp⟩, fun _ => rfl⟩

/-- The maps of a cache that passes left can be ranged over. -/
theorem HoldsSnapshot.orders {passes : List Pass} {s : NodesSyncer} (h : HoldsSnapshot passes s) :
    Nonempty (Orders s.cache) := by
  cases h with
  | initial _ => exact ⟨⟨[], fun _ => [], ⟨List.nodup_nil, by simp⟩, nofun⟩⟩
  | @synced _ _ p _ _ _ => exact ⟨p.orders⟩

/-- In a cache that passes left every report is stored under its own key. -/
theorem HoldsSnapshot.reportKey_eq {passes : List Pass} {s : NodesSyncer}
    (h : HoldsSnapshot passes s) {id key : String} {cluster : ClusterCache}
    {report : NodeReportProto} (hcluster : s.cache id = some cluster)
    (hreport : cluster key = some report) : reportKey report = some key := by
  cases h with
  | initial _ => cases hcluster
  | synced _ _ _ =>
    obtain ⟨-, reports, -, rfl⟩ := Pass.snapshot_eq_some hcluster
    exact (lastReports_eq_some hreport).2

/-- The cache is the initial one or the snapshot of one pass, the last that went through; a pass
that fails changes nothing; and the syncer has started exactly when some pass went through, for
good. -/
theorem cache_snapshots (passes : List Pass) :
    ∃ s, syncerAfter passes = some s ∧ HoldsSnapshot passes s ∧
      (∀ p : Pass, ¬ p.Succeeds → syncerAfter (passes ++ [p]) = some s) ∧
      (s.started = true ↔ ∃ p ∈ passes, p.Succeeds) ∧
      ∀ later s', syncerAfter (passes ++ later) = some s' → s.started = true →
        s'.started = true := by
  obtain ⟨s, hs, hold⟩ := exists_syncerAfter passes
  refine ⟨s, hs, hold, fun p hp => by rw [syncerAfter_of_not_succeeds hp, hs], hold.started_iff, ?_⟩
  intro later s' hs' hstarted
  obtain ⟨s'', hs'', hold'⟩ := exists_syncerAfter (passes ++ later)
  obtain rfl := Option.some.inj (hs'.symm.trans hs'')
  obtain ⟨p, hp, hok⟩ := hold.started_iff.mp hstarted
  exact hold'.started_iff.mpr ⟨p, List.mem_append_left _ hp, hok⟩

end YarnCopilot.Cache
