import YarnCopilot.Cache.Snapshot

/-!
# Looking up a node

A report is stored under its host and port joined by `-`. The join is read back at the last `-` of
the key, except that the sign of a negative port stands right behind it: the host `h` with port `-5`
and the host `h-` with port `5` have the same key. `getKey_eq_iff` says that there are no other
collisions, and `getNodeResource_exact_iff` what they do to a lookup.
-/

namespace YarnCopilot.Cache

open KeyedList

/-! ## Keys -/

/-- What stands before the last `-` of a key: the host, and the separator again when the port has a
sign. -/
def keyStem (name : String) (port : ℤ) : List Char :=
  name.toList ++ if port < 0 then ['-'] else []

theorem toList_getKey (name : String) (port : ℤ) :
    (getKey name port).toList = keyStem name port ++ '-' :: Nat.toDigits 10 port.natAbs := by
  have hport : (toString port).toList = _ := toList_repr port
  rw [getKey, String.toList_append, String.toList_append, hport, keyStem]
  by_cases h : port < 0
  · simp [h]
  · simp [h]

variable {name name' : String} {port port' : ℤ}

/-- A key determines its stem and the absolute value of the port. -/
theorem getKey_eq_iff_stem :
    getKey name port = getKey name' port' ↔
      keyStem name port = keyStem name' port' ∧ port.natAbs = port'.natAbs := by
  rw [← String.toList_inj, toList_getKey, toList_getKey,
    append_cons_inj_of_last (not_mem_toDigits _ (by decide)) (not_mem_toDigits _ (by decide)),
    toDigits_inj]

/-- Ports of one sign: equal stems have equal hosts. -/
theorem keyStem_eq_iff (hsign : port < 0 ↔ port' < 0) :
    keyStem name port = keyStem name' port' ↔ name = name' := by
  rw [keyStem, keyStem, if_congr hsign rfl rfl, List.append_cancel_right_eq, String.toList_inj]

/-- Ports of different signs: the host with the port that has none ends in the separator. -/
theorem keyStem_eq_iff_of_neg (h : port < 0) (h' : ¬ port' < 0) :
    keyStem name port = keyStem name' port' ↔ name' = name ++ "-" := by
  rw [keyStem, keyStem, if_pos h, if_neg h', List.append_nil, eq_comm, ← String.toList_inj,
    String.toList_append]
  rfl

/-- A host and port that differ from the given ones and have the same key: the sign of the port
moves into the host, or out of it. -/
def Twin (name : String) (port : ℤ) (name' : String) (port' : ℤ) : Prop :=
  port' = -port ∧ (port < 0 ∧ name' = name ++ "-" ∨ 0 < port ∧ name = name' ++ "-")

/-- Two keys are equal only if they are the same host and port, or twins. -/
theorem getKey_eq_iff :
    getKey name port = getKey name' port' ↔
      name = name' ∧ port = port' ∨ Twin name port name' port' := by
  rw [getKey_eq_iff_stem, Twin]
  by_cases hsign : port < 0 ↔ port' < 0
  · rw [keyStem_eq_iff hsign]
    constructor
    · rintro ⟨rfl, habs⟩
      exact .inl ⟨rfl, by omega⟩
    · rintro (⟨rfl, rfl⟩ | ⟨hneg, htwin⟩)
      · exact ⟨rfl, rfl⟩
      · -- the ports of twins differ in their signs
        have hne : port ≠ 0 := htwin.elim (fun h => h.1.ne) fun h => h.1.ne'
        omega
  · by_cases h : port < 0
    · rw [keyStem_eq_iff_of_neg h (by tauto)]
      constructor
      · rintro ⟨hname, habs⟩
        exact .inr ⟨by omega, .inl ⟨h, hname⟩⟩
      · rintro (⟨-, rfl⟩ | ⟨hneg, ⟨-, hname⟩ | ⟨hpos, -⟩⟩)
        · exact absurd Iff.rfl hsign
        · exact ⟨hname, by omega⟩
        · exact absurd h hpos.not_gt
    · rw [eq_comm, keyStem_eq_iff_of_neg (by tauto) h]
      constructor
      · rintro ⟨hname, habs⟩
        exact .inr ⟨by omega, .inr ⟨by omega, hname⟩⟩
      · rintro (⟨-, rfl⟩ | ⟨hneg, ⟨hlt, -⟩ | ⟨-, hname⟩⟩)
        · exact absurd Iff.rfl hsign
        · exact absurd hlt h
        · exact ⟨hname, by omega⟩

/-! ## Lookups -/

/-- The report is of the node: it has its host and its port. -/
def ReportOf (yarnNode : YarnNode) (report : NodeReportProto) : Prop :=
  report.nodeId = some ⟨some yarnNode.name, some yarnNode.port⟩

instance (yarnNode : YarnNode) : DecidablePred (ReportOf yarnNode) := fun report =>
  inferInstanceAs (Decidable (report.nodeId = _))

/-- The report is of the twin of the node. -/
def TwinReport (yarnNode : YarnNode) (report : NodeReportProto) : Prop :=
  ∃ host port, report.nodeId = some ⟨some host, some port⟩ ∧
    Twin yarnNode.name yarnNode.port host port

/-- The last report of the node. -/
def lastReportOf (yarnNode : YarnNode) (reports : List NodeReportProto) : Option NodeReportProto :=
  reports.reverse.find? fun report => ReportOf yarnNode report

variable {yarnNode : YarnNode} {report : NodeReportProto}

/-- The reports under the key of a node are its own and those of its twin. -/
theorem reportKey_eq_iff :
    reportKey report = some (getKey yarnNode.name yarnNode.port) ↔
      ReportOf yarnNode report ∨ TwinReport yarnNode report := by
  rcases hid : report.nodeId with _ | ⟨_ | host, _ | port⟩
  · simp [reportKey, ReportOf, TwinReport, hid]
  · simp [reportKey, ReportOf, TwinReport, hid]
  · simp [reportKey, ReportOf, TwinReport, hid]
  · simp [reportKey, ReportOf, TwinReport, hid]
  · have hkey : reportKey report = some (getKey host port) := by simp [reportKey, hid]
    rw [hkey, Option.some.injEq, eq_comm, getKey_eq_iff]
    simp [ReportOf, TwinReport, hid, eq_comm]

theorem TwinReport.not_reportOf (h : TwinReport yarnNode report) : ¬ ReportOf yarnNode report := by
  obtain ⟨host, port, hid, hneg, htwin⟩ := h
  intro hof
  rw [ReportOf, hid] at hof
  have hport : port = yarnNode.port := by simp_all
  rcases htwin with ⟨hlt, -⟩ | ⟨hlt, -⟩ <;> omega

/-- The entry of a node is its last report exactly when every report of its twin is followed by one
of its own. -/
theorem lastReports_exact_iff (yarnNode : YarnNode) (reports : List NodeReportProto) :
    lastReports reports (getKey yarnNode.name yarnNode.port) = lastReportOf yarnNode reports ↔
      ∀ pre report post, reports = pre ++ report :: post → TwinReport yarnNode report →
        ∃ later ∈ post, ReportOf yarnNode later := by
  classical
  have hkey : (fun report => decide (reportKey report = some (getKey yarnNode.name yarnNode.port))) =
      fun report => decide (ReportOf yarnNode report) || decide (TwinReport yarnNode report) := by
    funext report
    rw [← Bool.decide_or]
    exact decide_eq_decide.mpr reportKey_eq_iff
  have hdisj : ∀ report, decide (TwinReport yarnNode report) = true →
      decide (ReportOf yarnNode report) = false := by
    intro report h
    exact decide_eq_false (of_decide_eq_true h).not_reportOf
  rw [lastReports, lastWrite, hkey, lastReportOf, find?_reverse_or_iff hdisj]
  simp only [decide_eq_true_eq]

/-- A lookup after a pass that went through finds the last report with the host and the port of the
node exactly when no report of the node's twin comes after all of its own. -/
theorem getNodeResource_exact_iff (p : Pass) (cache : NodeCache) (yarnNode : YarnNode)
    (reports : List NodeReportProto) (hsynced : p.result = .synced cache)
    (hid : yarnNode.clusterID ∈ p.ids) (hanswer : p.answer yarnNode.clusterID = .reports reports) :
    cache.getNodeResource yarnNode = lastReportOf yarnNode reports ↔
      ∀ pre report post, reports = pre ++ report :: post → TwinReport yarnNode report →
        ∃ later ∈ post, ReportOf yarnNode later := by
  have hsucceeds : p.Succeeds := by
    by_contra hnot
    rw [p.result_of_not_succeeds hnot] at hsynced
    cases hsynced
  obtain rfl : p.snapshot = cache :=
    PassResult.synced.inj ((p.result_of_succeeds hsucceeds).symm.trans hsynced)
  have hcluster : p.snapshot yarnNode.clusterID = some (lastReports reports) := by
    simp only [Pass.snapshot, if_pos hid, hanswer, Pass.partition]
  rw [NodeCache.getNodeResource, hcluster, Option.bind_some, lastReports_exact_iff]

/-! ## Two nodes with one key -/

/-- A pass over one cluster, with the reports of hosts and ports. -/
def passOf (hosts : List (String × ℤ)) : Pass where
  ids := ["batch"]
  order := .listed
  answer := fun _ => .reports (hosts.map fun h => ⟨some ⟨some h.1, some h.2⟩, none, none⟩)
  nodeIds := by
    intro id _ reports hreports report hreport
    obtain rfl := ClusterNodes.reports.inj hreports
    obtain ⟨h, -, rfl⟩ := List.mem_map.mp hreport
    rfl

/-- The report of the host `worker-1-` on port 8041 is found for the host `worker-1` on port -8041,
which has none. -/
theorem getNodeResource_finds_twin :
    getKey "worker-1" (-8041) = getKey "worker-1-" 8041 ∧
      (passOf [("worker-1-", 8041)]).snapshot.getNodeResource ⟨"worker-1", -8041, "batch"⟩ =
        some ⟨some ⟨some "worker-1-", some 8041⟩, none, none⟩ ∧
      lastReportOf ⟨"worker-1", -8041, "batch"⟩ [⟨some ⟨some "worker-1-", some 8041⟩, none, none⟩] =
        none := by
  refine ⟨by decide +kernel, by decide +kernel, by decide⟩

/-- A host with a separator in its name, reported after its twin. -/
theorem getNodeResource_exact_iff_worker :
    (passOf [("worker-1", -8041), ("worker-1-", 8041)]).snapshot.getNodeResource
        ⟨"worker-1-", 8041, "batch"⟩ = some ⟨some ⟨some "worker-1-", some 8041⟩, none, none⟩ := by
  have hsucceeds : (passOf [("worker-1", -8041), ("worker-1-", 8041)]).Succeeds := nofun
  refine (getNodeResource_exact_iff _ _ ⟨"worker-1-", 8041, "batch"⟩ _
    (Pass.result_of_succeeds hsucceeds) (by decide) rfl).mpr ?_
  intro pre report post hsplit htwin
  rcases pre with _ | ⟨first, pre⟩
  · -- the twin comes first, and the node itself after it
    obtain ⟨-, hrest⟩ := List.cons.inj hsplit
    exact ⟨⟨some ⟨some "worker-1-", some 8041⟩, none, none⟩, by rw [← hrest]; simp, rfl⟩
  · -- the other report is the node's own
    have hlast : report = ⟨some ⟨some "worker-1-", some 8041⟩, none, none⟩ := by
      rcases pre with _ | ⟨second, pre⟩
      · exact (List.cons.inj (List.cons.inj hsplit).2).1.symm
      · simp at hsplit
    exact absurd (hlast ▸ rfl) htwin.not_reportOf

end YarnCopilot.Cache
