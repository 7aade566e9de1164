import YarnCopilot.Cache.Lookup

/-!
# What the reports of a pass say

What the cache is read for is the use of a node, which is what the last report with its host and its
port says. `LastSays` and `Uses` say this over the reports of a pass, without keys and maps. A
lookup finds the last report of the node or of its twin: `foundUse_iff`.
-/

namespace YarnCopilot.Cache

open KeyedList

/-- The last of the reports with the property says that these cores and this memory are used;
numbers that are absent are zero. Without such a report nothing is used. -/
inductive LastSays (p : NodeReportProto → Prop) (reports : List NodeReportProto) : ℤ → ℤ → Prop
  | idle (h : ∀ report ∈ reports, ¬ p report) : LastSays p reports 0 0
  | last {pre post : List NodeReportProto} {report : NodeReportProto} {used : ResourceProto}
      (hsplit : reports = pre ++ report :: post) (hreport : p report)
      (hlast : ∀ later ∈ post, ¬ p later) (hused : report.used = some used) :
      LastSays p reports (used.virtualCores.getD 0) (used.memory.getD 0)

/-- What the reports of its cluster say that a node uses. -/
def Uses (yarnNode : YarnNode) : List NodeReportProto → ℤ → ℤ → Prop :=
  LastSays (ReportOf yarnNode)

/-- What the reports under the key of a node say, which may be those of its twin. -/
def FoundUse (yarnNode : YarnNode) : List NodeReportProto → ℤ → ℤ → Prop :=
  LastSays fun report => ReportOf yarnNode report ∨ TwinReport yarnNode report

/-! ## The reports of a pass -/

/-- The reports that a pass was given, by cluster. -/
abbrev PassReports := String → Option (List NodeReportProto)

/-- The reports of the clusters that a pass has asked. -/
def passReports (ids : List String) (answer : String → ClusterNodes) : PassReports := fun id =>
  if id ∈ ids then
    match answer id with
    | .reports reports => some reports
    | _ => none
  else none

/-- The reports of one cluster; none came from one that was not asked. -/
def PassReports.of (r : PassReports) (id : String) : List NodeReportProto := (r id).getD []

/-- The last reports of every cluster by key. -/
def PassReports.cache (r : PassReports) : NodeCache := fun id => (r id).map lastReports

theorem passReports_congr {ids ids' : List String} {answer : String → ClusterNodes}
    (h : ∀ id, id ∈ ids ↔ id ∈ ids') : passReports ids answer = passReports ids' answer := by
  funext id
  simp only [passReports, h id]

/-- A pass that goes through caches what it was given. -/
theorem cache_of_synced {ids : List String} {answer : String → ClusterNodes} {cache : NodeCache}
    (h : syncYARNNodeAllocatedResource ids answer = .synced cache) :
    cache = (passReports ids answer).cache := by
  funext id
  rw [syncClusters_inv h id, PassReports.cache, passReports]
  by_cases hid : id ∈ ids
  · rw [if_pos hid, if_pos hid, Option.or_none]
    cases hanswer : answer id with
    | failed => rfl
    | nil => rfl
    | reports reports =>
      have hsome := isSome_clusterCache_iff.mp (isSome_clusterCache_of_synced h hid hanswer)
      exact clusterCache_eq hsome
  · rw [if_neg hid, if_neg hid]
    rfl

/-! ## Lookups -/

variable {p q : NodeReportProto → Prop} {reports : List NodeReportProto} {core mb core' mb' : ℤ}

theorem LastSays.congr (h : LastSays p reports core mb) (hpq : ∀ report, p report ↔ q report) :
    LastSays q reports core mb := by
  obtain rfl : p = q := funext fun report => propext (hpq report)
  exact h

theorem LastSays.singleton {report : NodeReportProto} {used : ResourceProto} (h : p report)
    (hused : report.used = some used) :
    LastSays p [report] (used.virtualCores.getD 0) (used.memory.getD 0) :=
  .last (List.nil_append _).symm h (fun _ hlater => by cases hlater) hused

/-- What the last report under a key says is what the cache of the cluster has. -/
theorem lastSays_key_iff {key : String} :
    LastSays (fun report => reportKey report = some key) reports core mb ↔
      (lastReports reports key = none ∧ core = 0 ∧ mb = 0) ∨
      ∃ report used, lastReports reports key = some report ∧ report.used = some used ∧
        core = used.virtualCores.getD 0 ∧ mb = used.memory.getD 0 := by
  constructor
  · intro h
    cases h with
    | idle h => exact .inl ⟨lastWrite_eq_none_iff.mpr h, rfl, rfl⟩
    | last hsplit hreport hlast hused =>
      exact .inr ⟨_, _, lastWrite_eq_some_iff.mpr ⟨hreport, _, _, hsplit, hlast⟩, hused, rfl, rfl⟩
  · rintro (⟨hnone, rfl, rfl⟩ | ⟨report, used, hsome, hused, rfl, rfl⟩)
    · exact .idle (lastWrite_eq_none_iff.mp hnone)
    · obtain ⟨hreport, pre, post, hsplit, hlast⟩ := lastWrite_eq_some_iff.mp hsome
      exact .last hsplit hreport hlast hused

variable {yarnNode : YarnNode}

/-- A lookup finds the last report of the node or of its twin. -/
theorem foundUse_iff :
    FoundUse yarnNode reports core mb ↔
      LastSays (fun report => reportKey report = some (getKey yarnNode.name yarnNode.port)) reports
        core mb := by
  constructor
  · intro h
    exact h.congr fun report => reportKey_eq_iff.symm
  · intro h
    exact h.congr fun report => reportKey_eq_iff

end YarnCopilot.Cache
