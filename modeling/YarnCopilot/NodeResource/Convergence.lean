import YarnCopilot.Cache.Snapshot
import YarnCopilot.NodeResource.Frame
import YarnCopilot.NodeResource.Operator

/-!
# The closed loop

Reference: `Reconcile` and `updateYARNAllocatedResource` of
`pkg/controller/noderesource/resource_sync_controller.go`, `syncYARNNodeAllocatedResource` of
`pkg/yarn/cache/nodes_syncer.go`.

The operator runs against the stored nodes it writes to: `Get` returns the object as it is stored,
or fails, an accepted patch changes it, and others create, change and remove objects in between. The
other results take the answers as they come; here what YARN reports for one node is stable.
`converges` says that the loop then reaches and keeps what it is for: from the first `Reconcile` on
that goes through, the node records what YARN reports, whatever fails or is repeated afterwards and
whatever happens to the other nodes, in any order.
-/

namespace YarnCopilot.NodeResource

open Cache

variable {Client Rest : Type}

/-- The operator and the node objects of the store, under their names. -/
structure LoopState (Client Rest : Type) where
  operator : OperatorState Client
  stored : String → Option (NodeObject Rest)

/-- What a `Reconcile` meets besides the object. -/
structure Outcomes (Client : Type) where
  getOk : Bool
  pods : Option (List Pod)
  client : Option Client
  updateOk : Bool
  patchOk : Bool

/-- A pass, a `Reconcile`, or a change of an object by someone else. -/
inductive LoopAct (Client Rest : Type)
  | pass (order : RangeOrder String) (answer : String → ClusterNodes)
  | reconcile (name : String) (outcomes : Outcomes Client)
  | change (name : String) (object : Option (NodeObject Rest))

/-- What `Get` returns for an object of the store. -/
def getStored (getOk : Bool) (object : Option (NodeObject Rest)) : GetNode :=
  match getOk, object with
  | false, _ => .failed
  | true, none => .notFound
  | true, some object => .found object.node

/-- The answers to a `Reconcile` that reads the stored object. -/
def Outcomes.answers (outcomes : Outcomes Client) (object : Option (NodeObject Rest)) :
    Answers Client where
  node := getStored outcomes.getOk object
  pods := outcomes.pods
  client := outcomes.client
  updateOk := outcomes.updateOk
  patchOk := outcomes.patchOk

variable (lib : Library)

/-- The `Reconcile` of a stored node. -/
def LoopState.reconcile (s : LoopState Client Rest) (op : Operator Client) (name : String)
    (outcomes : Outcomes Client) : Trace Client :=
  op.reconcile lib name (outcomes.answers (s.stored name))

/-- One step of the loop. -/
def loopStep (s : LoopState Client Rest) : LoopAct Client Rest → LoopState Client Rest
  | .pass order answer => { s with operator := operatorStep lib s.operator (.pass order answer) }
  | .change name object => { s with stored := Function.update s.stored name object }
  | .reconcile name outcomes =>
    { operator := operatorStep lib s.operator
        (.reconcile name (outcomes.answers (s.stored name)))
      stored :=
        match s.operator.operator with
        | none => s.stored
        | some op =>
          Function.update s.stored name ((s.stored name).map (storedAfter
            (outcomes.answers (s.stored name)) (s.reconcile lib op name outcomes).calls)) }

/-! ## Stability -/

/-- A stored node records a use, in milli-cores and bytes. -/
def Recorded (core mb : ℤ) (object : Option (NodeObject Rest)) : Prop :=
  ∃ o, object = some o ∧ RecordsUse lib o.node.annotations core mb

variable (name : String) (yarnNode : YarnNode) (core mb : ℤ)

/-- The reports in the cache say what the node uses, under its host and port or those of its
twin. -/
def ReportsUse (s : LoopState Client Rest) : Prop :=
  ∀ op, s.operator.operator = some op → ∃ reports : PassReports,
    op.syncer.cache = reports.cache ∧ FoundUse yarnNode (reports.of yarnNode.clusterID) core mb

/-- A step does not disturb the node: a pass that goes through is told the same use, a `Reconcile`
of it that can read the pods finds the same NodeManager, and others leave YARN's entry alone. -/
def Undisturbed (s : LoopState Client Rest) : LoopAct Client Rest → Prop
  | .pass order answer => ∀ op cache, s.operator.operator = some op →
    op.pass order answer = .synced cache →
      FoundUse yarnNode
        ((passReports op.reconciler.yarnClients.keys answer).of yarnNode.clusterID) core mb
  | .reconcile name' outcomes => name' = name →
    ∀ result, getYARNNode outcomes.pods = .ok result → HasNodeManager outcomes.pods yarnNode
  | .change name' object => name' = name →
    Recorded lib core mb (s.stored name) → Recorded lib core mb object

/-- The step is a `Reconcile` of the node that finds it and its NodeManager and ends well. -/
def GoesThrough (s : LoopState Client Rest) : LoopAct Client Rest → Prop
  | .reconcile name' outcomes => name' = name ∧ outcomes.getOk = true ∧
    (s.stored name).isSome = true ∧ HasNodeManager outcomes.pods yarnNode ∧
    ∃ op, s.operator.operator = some op ∧ (s.reconcile lib op name outcomes).exit = .done
  | _ => False

variable {lib name yarnNode core mb} {s : LoopState Client Rest}

theorem recorded_withAllocated (object : NodeObject Rest) (hrange : InRange core mb) :
    Recorded lib core mb (some (object.withAllocated lib core mb)) :=
  ⟨_, rfl, recordsUse_set hrange⟩

/-- What is read from such a cache. -/
theorem ReportsUse.used (h : ReportsUse yarnNode core mb s) {op : Operator Client}
    (hop : s.operator.operator = some op) :
    getYARNNodeAllocatedResource op.syncer.cache yarnNode = some (core, mb) := by
  obtain ⟨reports, hcache, hfound⟩ := h op hop
  rw [hcache]
  exact getYARNNodeAllocatedResource_cache_iff.mpr hfound

theorem getStored_eq_found {getOk : Bool} {object : Option (NodeObject Rest)} {node : Node}
    (h : getStored getOk object = .found node) : ∃ o, object = some o ∧ o.node = node := by
  cases getOk with
  | false => cases h
  | true =>
    cases object with
    | none => cases h
    | some o => exact ⟨o, rfl, GetNode.found.inj h⟩

/-- A `Reconcile` leaves the cache alone. -/
theorem syncer_reconcile {t : OperatorState Client} {op' : Operator Client} {name : String}
    {answers : Answers Client}
    (h : (operatorStep lib t (.reconcile name answers)).operator = some op') :
    ∃ op, t.operator = some op ∧ op'.syncer = op.syncer := by
  unfold operatorStep at h
  cases hop : t.operator with
  | none =>
    simp only [hop] at h
    cases h
  | some op =>
    simp only [hop] at h
    split at h
    · cases h
    · obtain rfl := Option.some.inj h
      exact ⟨op, rfl, rfl⟩

/-- A pass replaces the cache when it goes through, and leaves it when a cluster fails. -/
theorem syncer_pass {t : OperatorState Client} {op' : Operator Client} {order : RangeOrder String}
    {answer : String → ClusterNodes}
    (h : (operatorStep lib t (.pass order answer)).operator = some op') :
    ∃ op, t.operator = some op ∧
      (op.pass order answer = .synced op'.syncer.cache ∨ op'.syncer = op.syncer) := by
  unfold operatorStep at h
  cases hop : t.operator with
  | none =>
    simp only [hop] at h
    cases h
  | some op =>
    simp only [hop] at h
    obtain ⟨syncer, hsyncer, rfl⟩ := Option.map_eq_some_iff.mp h
    refine ⟨op, rfl, ?_⟩
    cases hpass : op.pass order answer with
    | synced cache =>
      rw [hpass] at hsyncer
      obtain rfl := Option.some.inj hsyncer
      exact .inl rfl
    | failed =>
      rw [hpass] at hsyncer
      exact .inr (Option.some.inj hsyncer).symm
    | panic =>
      rw [hpass] at hsyncer
      cases hsyncer

/-- No step but a pass that goes through changes the use. -/
theorem reportsUse_loopStep (h : ReportsUse yarnNode core mb s) (act : LoopAct Client Rest)
    (hact : Undisturbed lib name yarnNode core mb s act) :
    ReportsUse yarnNode core mb (loopStep lib s act) := by
  intro op' hop'
  cases act with
  | change name' object => exact h op' hop'
  | reconcile name' outcomes =>
    obtain ⟨op, hop, hsyncer⟩ := syncer_reconcile hop'
    rw [hsyncer]
    exact h op hop
  | pass order answer =>
    obtain ⟨op, hop, hpass | hsame⟩ := @syncer_pass _ lib _ _ _ _ hop'
    · exact ⟨_, cache_of_pass_synced hpass, hact op _ hop hpass⟩
    · rw [hsame]
      exact h op hop

/-- A step on another node leaves the object. -/
theorem stored_reconcile_of_ne {name' : String} (hne : name ≠ name') (outcomes : Outcomes Client) :
    (loopStep lib s (.reconcile name' outcomes)).stored name = s.stored name := by
  cases hop : s.operator.operator with
  | none => simp only [loopStep, hop]
  | some op =>
    simp only [loopStep, hop]
    exact Function.update_of_ne hne _ _

/-- What a `Reconcile` that finds the NodeManager leaves: the object as it was, or with the use
recorded. It is the latter when the `Reconcile` goes through. -/
theorem stored_reconcile {op : Operator Client} (hop : s.operator.operator = some op)
    {object : NodeObject Rest} (hobject : s.stored name = some object)
    (h : ReportsUse yarnNode core mb s) {outcomes : Outcomes Client}
    (hact : Undisturbed lib name yarnNode core mb s (.reconcile name outcomes)) :
    (loopStep lib s (.reconcile name outcomes)).stored name =
        some (object.withAllocated lib core mb) ∨
      ((loopStep lib s (.reconcile name outcomes)).stored name = some object ∧
        ¬ GoesThrough lib name yarnNode s (.reconcile name outcomes)) := by
  have hpath : Path lib op.reconciler op.syncer.cache name
      (outcomes.answers (s.stored name)) _ (s.reconcile lib op name outcomes).calls
      (s.reconcile lib op name outcomes).exit := reconcile_path
  have hstep : (loopStep lib s (.reconcile name outcomes)).stored name =
      some (storedAfter (outcomes.answers (s.stored name))
        (s.reconcile lib op name outcomes).calls object) := by
    simp only [loopStep, hop, Function.update_self]
    rw [hobject]
    rfl
  rw [hstep]
  rcases hpath.patch with hno | ⟨node, core', mb', pre, hnode, hrec, hcalls, hpre, hexit⟩
  · refine .inr ⟨congrArg some (storedAfter_of_no_patch hno), ?_⟩
    rintro ⟨-, hget, -, hyarn, op', hop', hdone⟩
    obtain rfl := Option.some.inj (hop.symm.trans hop')
    have hfound : (outcomes.answers (s.stored name)).node = .found object.node := by
      rw [hobject]
      simp only [Outcomes.answers, hget, getStored]
    have herr := hpath.getYARNNode_of_no_patch hfound hno hdone
    rw [show (outcomes.answers (s.stored name)).pods = outcomes.pods from rfl, hyarn.1] at herr
    cases herr
  · obtain ⟨o, ho, rfl⟩ := getStored_eq_found hnode
    obtain rfl := Option.some.inj (hobject.symm.trans ho)
    obtain ⟨result, hread⟩ := hrec.read
    have hyarn := hact rfl result hread
    have hsame : core' = core ∧ mb' = mb := by
      rcases hrec with ⟨-, hnone, -⟩ | ⟨yarnNode', hyarn', -, hused⟩
      · exact absurd hyarn (hnone yarnNode)
      · obtain rfl := hyarn.unique hyarn'
        rw [h.used hop] at hused
        simpa [eq_comm] using hused
    rw [hcalls, storedAfter_append_patch hpre, hsame.1, hsame.2]
    cases hpatch : (outcomes.answers (s.stored name)).patchOk with
    | true => exact .inl rfl
    | false =>
      refine .inr ⟨rfl, ?_⟩
      rintro ⟨-, -, -, -, op', hop', hdone⟩
      obtain rfl := Option.some.inj (hop.symm.trans hop')
      rw [hexit, exitOfPatch, hpatch] at hdone
      cases hdone

/-- A step that does not disturb the node keeps what is recorded. -/
theorem recorded_loopStep (hrange : InRange core mb) (h : ReportsUse yarnNode core mb s)
    {act : LoopAct Client Rest} (hact : Undisturbed lib name yarnNode core mb s act)
    (hrec : Recorded lib core mb (s.stored name)) :
    Recorded lib core mb ((loopStep lib s act).stored name) := by
  cases act with
  | pass order answer => exact hrec
  | change name' object =>
    by_cases hname : name' = name
    · subst hname
      simpa only [loopStep, Function.update_self] using hact rfl hrec
    · simpa only [loopStep, Function.update_of_ne (Ne.symm hname)] using hrec
  | reconcile name' outcomes =>
    by_cases hname : name' = name
    · subst hname
      cases hop : s.operator.operator with
      | none =>
        simp only [loopStep, hop]
        exact hrec
      | some op =>
        obtain ⟨object, hobject, hget⟩ := hrec
        rcases stored_reconcile hop hobject h hact with hstored | ⟨hstored, -⟩
        · rw [hstored]
          exact recorded_withAllocated object hrange
        · rw [hstored]
          exact ⟨object, rfl, hget⟩
    · rw [stored_reconcile_of_ne (Ne.symm hname)]
      exact hrec

/-- A `Reconcile` that goes through records the use. -/
theorem recorded_of_goesThrough (hrange : InRange core mb) (h : ReportsUse yarnNode core mb s)
    {act : LoopAct Client Rest} (hact : Undisturbed lib name yarnNode core mb s act)
    (hgo : GoesThrough lib name yarnNode s act) :
    Recorded lib core mb ((loopStep lib s act).stored name) := by
  cases act with
  | pass order answer => exact hgo.elim
  | change name' object => exact hgo.elim
  | reconcile name' outcomes =>
    obtain rfl := hgo.1
    obtain ⟨object, hobject⟩ := Option.isSome_iff_exists.mp hgo.2.2.1
    obtain ⟨op, hop, -⟩ := hgo.2.2.2.2
    rcases stored_reconcile hop hobject h hact with hstored | ⟨-, hnot⟩
    · rw [hstored]
      exact recorded_withAllocated object hrange
    · exact absurd hgo hnot

/-- Along a run that does not disturb the node the use stays, and so does what is recorded. -/
theorem loop_invariant (hrange : InRange core mb) (acts : List (LoopAct Client Rest))
    (hmeets : Meets (loopStep lib) (Undisturbed lib name yarnNode core mb) s acts)
    (h : ReportsUse yarnNode core mb s) :
    ReportsUse yarnNode core mb (run (loopStep lib) s acts) ∧
      (Recorded lib core mb (s.stored name) →
        Recorded lib core mb ((run (loopStep lib) s acts).stored name)) := by
  have hstep : ∀ (t : LoopState Client Rest) (act : LoopAct Client Rest),
      Undisturbed lib name yarnNode core mb t act →
      (ReportsUse yarnNode core mb t ∧
        (Recorded lib core mb (s.stored name) → Recorded lib core mb (t.stored name))) →
      ReportsUse yarnNode core mb (loopStep lib t act) ∧
        (Recorded lib core mb (s.stored name) →
          Recorded lib core mb ((loopStep lib t act).stored name)) :=
    fun t act hact ht => ⟨reportsUse_loopStep ht.1 act hact,
      fun hrec => recorded_loopStep hrange ht.1 hact (ht.2 hrec)⟩
  exact run_invariant_of_meets hstep acts hmeets ⟨h, fun hrec => hrec⟩

/-- **Convergence.** Let the reports in the cache say what a node uses, in range, and a run not
disturb it: passes that go through are told the same use, the node's pods show the same NodeManager,
and others leave YARN's entry alone. Once a `Reconcile` of the node goes through, it records the use
to the unit from then on, through all failures and repetitions of what comes before and after, and
all that happens to other nodes. -/
theorem converges {pre post : List (LoopAct Client Rest)} {act : LoopAct Client Rest}
    (hrange : InRange core mb) (h : ReportsUse yarnNode core mb s)
    (hmeets : Meets (loopStep lib) (Undisturbed lib name yarnNode core mb) s (pre ++ act :: post))
    (hgo : GoesThrough lib name yarnNode (run (loopStep lib) s pre) act) :
    Recorded lib core mb ((run (loopStep lib) s (pre ++ act :: post)).stored name) := by
  have hbefore := (loop_invariant hrange pre hmeets.of_append h).1
  have hact := hmeets pre act post rfl
  have hafter := reportsUse_loopStep hbefore act hact
  have hrest : Meets (loopStep lib) (Undisturbed lib name yarnNode core mb)
      (loopStep lib (run (loopStep lib) s pre) act) post := by
    intro pre' act' post' hsplit
    have hstep := hmeets (pre ++ act :: pre') act' post' (by rw [hsplit]; simp)
    rwa [run_append, run_cons] at hstep
  rw [run_append, run_cons]
  exact (loop_invariant hrange post hrest hafter).2
    (recorded_of_goesThrough hrange hbefore hact hgo)

/-- The reports of a pass over the default cluster, in which `worker-1` uses 4 cores and 4 GiB. -/
def usedReports : PassReports := fun id =>
  if id = defaultClusterID then
    some [⟨some ⟨some "worker-1", some 8041⟩, some ⟨some 4096, some 4⟩, none⟩]
  else none

theorem foundUse_usedReports : FoundUse ⟨"worker-1", 8041, defaultClusterID⟩
    (usedReports.of defaultClusterID) 4 4096 :=
  @LastSays.singleton _ _ ⟨some 4096, some 4⟩ (.inl rfl) rfl

/-- The operator after that pass, and nodes that record nothing yet. -/
def usedLoop : LoopState ℕ Unit :=
  ⟨⟨some ⟨addedReconciler, ⟨usedReports.cache, true⟩⟩, some usedReports⟩,
    fun _ => some ⟨statusNode (.new 8000) 0, ()⟩⟩

/-- A `Reconcile` of such a node goes through. -/
theorem goesThrough_statusNode {s : LoopState ℕ Unit} {syncer : NodesSyncer}
    (hop : s.operator.operator = some ⟨addedReconciler, syncer⟩)
    (hobject : s.stored "node-1" = some ⟨statusNode (.new 8000) 0, ()⟩)
    (huse : ReportsUse ⟨"worker-1", 8041, defaultClusterID⟩ core mb s) :
    GoesThrough plainLib "node-1" ⟨"worker-1", 8041, defaultClusterID⟩ s
      (.reconcile "node-1" ⟨true, some [nodeManagerPod], some 0, true, true⟩) := by
  have hyarn : HasNodeManager (some [nodeManagerPod]) ⟨"worker-1", 8041, defaultClusterID⟩ :=
    hasNodeManager_calmAnswers (statusNode (.new 8000) 0)
  refine ⟨rfl, rfl, by rw [hobject]; rfl, hyarn, _, hop, ?_⟩
  rw [LoopState.reconcile, hobject, Operator.reconcile, reconcile_eq rfl hyarn
    (getNodeBatchResource_statusNode _ _) (by decide) rfl rfl (huse.used hop)]
  rfl

/-- A `Reconcile` that goes through, one that cannot read the node, the removal of another node, and
a `Reconcile` whose update fails. -/
theorem converges_usedLoop :
    Recorded plainLib 4 4096 ((run (loopStep plainLib) usedLoop
      [.reconcile "node-1" ⟨true, some [nodeManagerPod], some 0, true, true⟩,
        .reconcile "node-1" ⟨false, some [nodeManagerPod], some 0, true, true⟩,
        .change "node-2" none,
        .reconcile "node-1" ⟨true, some [nodeManagerPod], some 0, false, true⟩]).stored
          "node-1") := by
  have hyarn : HasNodeManager (some [nodeManagerPod]) ⟨"worker-1", 8041, defaultClusterID⟩ :=
    hasNodeManager_calmAnswers (statusNode (.new 8000) 0)
  have huse : ReportsUse ⟨"worker-1", 8041, defaultClusterID⟩ 4 4096 usedLoop := by
    intro op hop
    obtain rfl := Option.some.inj hop
    exact ⟨usedReports, rfl, foundUse_usedReports⟩
  refine @converges ℕ Unit plainLib "node-1" ⟨"worker-1", 8041, defaultClusterID⟩ 4 4096
    usedLoop []
    [.reconcile "node-1" ⟨false, some [nodeManagerPod], some 0, true, true⟩,
      .change "node-2" none,
      .reconcile "node-1" ⟨true, some [nodeManagerPod], some 0, false, true⟩]
    (.reconcile "node-1" ⟨true, some [nodeManagerPod], some 0, true, true⟩)
    (by rw [InRange]; omega) huse ?_ ?_
  · refine meets_cons.mpr ⟨fun _ _ _ => hyarn, meets_cons.mpr ⟨fun _ _ _ => hyarn,
      meets_cons.mpr ⟨?_, meets_cons.mpr ⟨fun _ _ _ => hyarn, meets_nil⟩⟩⟩⟩
    intro hname
    exact absurd hname (by decide)
  · exact goesThrough_statusNode rfl rfl huse

end YarnCopilot.NodeResource
