import YarnCopilot.Common.Simulation
import YarnCopilot.Cache.Snapshot
import YarnCopilot.NodeResource.Clusters

/-!
# A pass is not one step

Reference: `syncYARNNodeAllocatedResource` and `Start` of `pkg/yarn/cache/nodes_syncer.go`,
`getYARNClient` of `pkg/controller/noderesource/resource_sync_controller.go`.

The syncer runs in a goroutine of its own and asks one ResourceManager after the other; a
`Reconcile` can come between any two of its requests. Only the assignment of the cache is under the
lock. Here a pass is the sequence of its requests and the assignment.

The clients are shared without a lock. A `Reconcile` that creates a client while a pass ranges over
the map writes to it during the iteration, and Go gives such a run no meaning: the state only
remembers that it happened. A write between the last answer and the assignment is no race, but
counts as one here. `passes_atomic` says that every other run ends in a state, and its `Reconcile`s
have made the calls, of a run in which every pass is one step, at the moment it assigns the cache or
gives up. What `Reconcile` reads is therefore always a whole pass.

`started` is stored right after the assignment; nothing reads it, and it is set with the cache here.
-/

namespace YarnCopilot.NodeResource

open Cache

variable {Client : Type}

/-- A pass between two of its requests: the order of its `range`, what is still to be asked, and the
cache it builds. What it has asked and was answered so far is a record that the syncer does not
keep. -/
structure PassProgress where
  order : RangeOrder String
  visited : List String
  answer : String → ClusterNodes
  remaining : List String
  res : NodeCache

/-- The operator, the pass that is under way and whether the map of the clients was written to
between the start of a pass and its end. -/
structure FineState (Client : Type) where
  state : OperatorState Client
  pass : Option PassProgress
  raced : Bool

/-- The steps of the two goroutines. -/
inductive FineAct (Client : Type)
  | start (order : RangeOrder String)
  | query (answer : ClusterNodes)
  | swap
  | reconcile (name : String) (answers : Answers Client)

/-- The operator `Add` builds, before its first pass. -/
def fineAdd (clients : AList fun _ : String => Client) : FineState Client :=
  ⟨add clients, none, false⟩

/-- The pass goes on with what is built so far. -/
def PassProgress.next (p : PassProgress) (id : String) (ids : List String) (answer : ClusterNodes)
    (res : NodeCache) : PassProgress :=
  { p with
    visited := p.visited ++ [id]
    answer := Function.update p.answer id answer
    remaining := ids
    res := res }

/-- The body of the loop over the clients, with the answer of the next one. -/
def FineState.query (s : FineState Client) (p : PassProgress) (answer : ClusterNodes) :
    FineState Client :=
  match p.remaining with
  | [] => s
  | id :: ids =>
    match answer with
    | .failed => { s with pass := none }
    | .nil => { s with pass := some (p.next id ids .nil p.res) }
    | .reports reports =>
      match clusterCache reports with
      | none => { s with state := { s.state with operator := none }, pass := none }
      | some nodes =>
        { s with
          pass := some (p.next id ids (.reports reports) (Function.update p.res id (some nodes))) }

/-- The assignment of the cache once every client was asked. -/
def FineState.swap (s : FineState Client) (op : Operator Client) (p : PassProgress) :
    FineState Client :=
  match p.remaining with
  | [] =>
    ⟨⟨some { op with syncer := ⟨p.res, true⟩ }, some (passReports p.visited p.answer)⟩, none,
      s.raced⟩
  | _ :: _ => s

variable (lib : Library)

/-- A `Reconcile` puts a client into the map. -/
def Operator.writesClients (op : Operator Client) (name : String) (answers : Answers Client) :
    Bool :=
  (op.reconcile lib name answers).reconciler.yarnClients.keys ≠ op.reconciler.yarnClients.keys

/-- One step of one of the goroutines. A step that cannot be taken does nothing. -/
def fineStep (s : FineState Client) (act : FineAct Client) : FineState Client :=
  match s.raced, s.state.operator with
  | false, some op =>
    match act with
    | .start order =>
      match s.pass with
      | some _ => s
      | none =>
        { s with
          pass := some ⟨order, [], fun _ => .nil, order.visit op.reconciler.yarnClients.keys,
            fun _ => none⟩ }
    | .query answer =>
      match s.pass with
      | none => s
      | some p => s.query p answer
    | .swap =>
      match s.pass with
      | none => s
      | some p => s.swap op p
    | .reconcile name answers =>
      { s with
        state := operatorStep lib s.state (.reconcile name answers)
        raced := s.pass.isSome && op.writesClients lib name answers }
  | _, _ => s

/-- The calls of a `Reconcile` of the operator; the requests of its passes are not among them. -/
def operatorCalls (s : OperatorState Client) (act : OperatorAct Client) : List (Call Client) :=
  match act with
  | .pass _ _ => []
  | .reconcile name answers =>
    match s.operator with
    | none => []
    | some op => (op.reconcile lib name answers).calls

/-- The calls of a `Reconcile` between the requests of the passes. -/
def fineCalls (s : FineState Client) (act : FineAct Client) : List (Call Client) :=
  match s.raced, act with
  | false, .reconcile name answers => operatorCalls lib s.state (.reconcile name answers)
  | _, _ => []

/-! ## A pass under way -/

/-- Clusters that were not asked do not matter. -/
theorem syncClusters_congr {answer answer' : String → ClusterNodes} {ids : List String}
    (h : ∀ id ∈ ids, answer id = answer' id) (res : NodeCache) :
    syncClusters answer ids res = syncClusters answer' ids res := by
  induction ids generalizing res with
  | nil => rfl
  | cons id ids ih =>
    have hid : answer id = answer' id := h id List.mem_cons_self
    have hrest := ih fun id' hid' => h id' (List.mem_cons_of_mem _ hid')
    simp only [syncClusters, hid, hrest]

/-- A loop goes on where the loop over its first clusters ended. -/
theorem syncClusters_append {answer : String → ClusterNodes} {visited : List String}
    {start res : NodeCache} (h : syncClusters answer visited start = .synced res)
    (ids : List String) :
    syncClusters answer (visited ++ ids) start = syncClusters answer ids res := by
  induction visited generalizing start with
  | nil =>
    obtain rfl := PassResult.synced.inj h
    rfl
  | cons id visited ih =>
    rcases syncClusters_cons answer id (visited ++ ids) start with
      ⟨hfailed, -⟩ | ⟨reports, hreports, hnone, -⟩ | ⟨-, hrest⟩
    · simp only [syncClusters, hfailed] at h
      cases h
    · simp only [syncClusters, hreports, hnone] at h
      cases h
    · rw [List.cons_append, hrest]
      exact ih (syncClusters_of_cons h).2

/-- What a pass under way has built of the clients it has asked. -/
structure PassProgress.Valid (p : PassProgress) (keys : List String) : Prop where
  visit_eq : p.order.visit keys = p.visited ++ p.remaining
  nodup : (p.visited ++ p.remaining).Nodup
  synced : syncClusters p.answer p.visited (fun _ => none) = .synced p.res

namespace PassProgress.Valid

variable {p : PassProgress} {keys : List String}

/-- A pass that starts. -/
theorem start (order : RangeOrder String) (hkeys : keys.Nodup) :
    PassProgress.Valid ⟨order, [], fun _ => .nil, order.visit keys, fun _ => none⟩ keys :=
  ⟨rfl, (order.perm keys).nodup_iff.mpr hkeys, rfl⟩

/-- The next client was not asked before, so its answer changes nothing of what is built. -/
theorem synced_update (h : p.Valid keys) {id : String} {ids : List String}
    (hremaining : p.remaining = id :: ids) (answer : ClusterNodes) :
    syncClusters (Function.update p.answer id answer) p.visited (fun _ => none) = .synced p.res := by
  have hfresh : id ∉ p.visited := by
    intro hid
    have hnodup := h.nodup
    rw [hremaining, List.nodup_append] at hnodup
    exact hnodup.2.2 id hid id List.mem_cons_self rfl
  rw [← h.synced]
  refine syncClusters_congr (fun id' hid' => Function.update_of_ne ?_ _ _) _
  rintro rfl
  exact hfresh hid'

/-- With one more answer, the rest of the loop is what a whole pass does. -/
theorem pass_eq (h : p.Valid keys) {id : String} {ids : List String}
    (hremaining : p.remaining = id :: ids) (answer : ClusterNodes) :
    syncYARNNodeAllocatedResource (p.order.visit keys) (Function.update p.answer id answer) =
      syncClusters (Function.update p.answer id answer) (id :: ids) p.res := by
  rw [syncYARNNodeAllocatedResource, h.visit_eq, hremaining]
  exact syncClusters_append (h.synced_update hremaining answer) (id :: ids)

/-- The pass after an answer that it could store. -/
theorem next (h : p.Valid keys) {id : String} {ids : List String}
    (hremaining : p.remaining = id :: ids) {answer : ClusterNodes} {res : NodeCache}
    (hone : syncClusters (Function.update p.answer id answer) [id] p.res = .synced res) :
    (p.next id ids answer res).Valid keys := by
  have hvisit : p.visited ++ p.remaining = (p.visited ++ [id]) ++ ids := by
    rw [hremaining, List.append_assoc, List.singleton_append]
  exact ⟨h.visit_eq.trans hvisit, hvisit ▸ h.nodup,
    (syncClusters_append (h.synced_update hremaining answer) [id]).trans hone⟩

/-- A pass that has asked every client has built what a whole pass builds. -/
theorem pass_eq_of_done (h : p.Valid keys) (hremaining : p.remaining = []) :
    syncYARNNodeAllocatedResource (p.order.visit keys) p.answer = .synced p.res := by
  rw [syncYARNNodeAllocatedResource, h.visit_eq, hremaining, List.append_nil]
  exact h.synced

theorem passReports_of_done (h : p.Valid keys) (hremaining : p.remaining = []) :
    passReports keys p.answer = passReports p.visited p.answer := by
  refine passReports_congr fun id => ?_
  rw [← p.order.mem_visit, h.visit_eq, hremaining, List.append_nil]

end PassProgress.Valid

/-! ## The moment of a pass -/

section Moment

variable {lib : Library} {s : OperatorState Client} {op : Operator Client} {order : RangeOrder String}
  {answer : String → ClusterNodes}

theorem operatorStep_pass_synced {cache : NodeCache} (hop : s.operator = some op)
    (h : op.pass order answer = .synced cache) :
    operatorStep lib s (.pass order answer) =
      ⟨some { op with syncer := ⟨cache, true⟩ },
        some (passReports op.reconciler.yarnClients.keys answer)⟩ := by
  simp only [operatorStep, hop, h, NodesSyncer.tick, passedReports, Option.map_some,
    Option.some_or]

/-- A pass that gives up changes nothing. -/
theorem operatorStep_pass_failed (hop : s.operator = some op)
    (h : op.pass order answer = .failed) : operatorStep lib s (.pass order answer) = s := by
  simp only [operatorStep, hop, h, NodesSyncer.tick, passedReports, Option.map_some,
    Option.none_or]
  rw [← hop]

theorem operatorStep_pass_panic (hop : s.operator = some op)
    (h : op.pass order answer = .panic) :
    operatorStep lib s (.pass order answer) = { s with operator := none } := by
  simp only [operatorStep, hop, h, NodesSyncer.tick, passedReports, Option.map_none,
    Option.none_or]

end Moment

/-- The pass as one step, taken where it ends. -/
def momentOfPass (p : PassProgress) : FineAct Client → List (OperatorAct Client)
  | .query answer =>
    match p.remaining with
    | [] => []
    | id :: _ =>
      -- an answer that ends the pass is one of which nothing is built
      if answer ≠ .nil ∧ (built answer).isNone then
        [.pass p.order (Function.update p.answer id answer)]
      else []
  | .swap => if p.remaining = [] then [.pass p.order p.answer] else []
  | _ => []

/-- The steps of the operator at the moment of a step of one of the goroutines. -/
def moments (s : FineState Client) (act : FineAct Client) : List (OperatorAct Client) :=
  match s.raced, act, s.pass with
  | false, .reconcile name answers, _ => [.reconcile name answers]
  | false, act, some p => momentOfPass p act
  | _, _, _ => []

/-- The pass that is under way has built what it was answered. -/
def FineState.Valid (s : FineState Client) : Prop :=
  ∀ op p, s.state.operator = some op → s.pass = some p → p.Valid op.reconciler.yarnClients.keys

section Steps

variable {lib : Library} {s : FineState Client} {op : Operator Client} {p : PassProgress}

/-- The answer of a client: the pass goes on, or ends as the pass in one step does. -/
theorem query_moment (hop : s.state.operator = some op) (hpass : s.pass = some p)
    (h : p.Valid op.reconciler.yarnClients.keys) (answer : ClusterNodes) :
    run (operatorStep lib) s.state (momentOfPass p (.query answer)) = (s.query p answer).state ∧
      (s.query p answer).Valid := by
  have hvalid : s.Valid := by
    intro op' p' hop' hp'
    obtain rfl := Option.some.inj (hop.symm.trans hop')
    obtain rfl := Option.some.inj (hpass.symm.trans hp')
    exact h
  cases hremaining : p.remaining with
  | nil =>
    simp only [momentOfPass, FineState.query, hremaining]
    exact ⟨rfl, hvalid⟩
  | cons id ids =>
    have hwhole := h.pass_eq hremaining answer
    cases answer with
    | failed =>
      have hfailed : op.pass p.order (Function.update p.answer id .failed) = .failed := by
        rw [Operator.pass, hwhole]
        simp only [syncClusters, Function.update_self]
      simp only [momentOfPass, FineState.query, hremaining, built, ne_eq, reduceCtorEq,
        not_false_eq_true, Option.isNone_none, and_self, if_true, run_cons, run_nil]
      exact ⟨operatorStep_pass_failed hop hfailed, fun _ _ _ hp' => by cases hp'⟩
    | nil =>
      simp only [momentOfPass, FineState.query, hremaining, ne_eq, not_true_eq_false, false_and,
        if_false, run_nil]
      refine ⟨trivial, fun op' p' hop' hp' => ?_⟩
      obtain rfl := Option.some.inj (hop.symm.trans hop')
      obtain rfl := Option.some.inj hp'
      refine h.next hremaining ?_
      simp only [syncClusters, Function.update_self]
    | reports reports =>
      cases hnodes : clusterCache reports with
      | none =>
        have hpanic :
            op.pass p.order (Function.update p.answer id (.reports reports)) = .panic := by
          rw [Operator.pass, hwhole]
          simp only [syncClusters, Function.update_self, hnodes]
        simp only [momentOfPass, FineState.query, hremaining, built, hnodes, ne_eq, reduceCtorEq,
          not_false_eq_true, Option.isNone_none, and_self, if_true, run_cons, run_nil]
        exact ⟨operatorStep_pass_panic hop hpanic, fun _ _ _ hp' => by cases hp'⟩
      | some nodes =>
        simp only [momentOfPass, FineState.query, hremaining, built, hnodes, Option.isNone_some,
          Bool.false_eq_true, and_false, if_false, run_nil]
        refine ⟨trivial, fun op' p' hop' hp' => ?_⟩
        obtain rfl := Option.some.inj (hop.symm.trans hop')
        obtain rfl := Option.some.inj hp'
        refine h.next hremaining ?_
        simp only [syncClusters, Function.update_self, hnodes]

/-- The assignment of the cache is the pass in one step. -/
theorem swap_moment (hop : s.state.operator = some op) (hpass : s.pass = some p)
    (h : p.Valid op.reconciler.yarnClients.keys) :
    run (operatorStep lib) s.state (momentOfPass p .swap) = (s.swap op p).state ∧
      (s.swap op p).Valid := by
  cases hremaining : p.remaining with
  | nil =>
    simp only [momentOfPass, FineState.swap, hremaining, if_true, run_cons, run_nil]
    rw [← h.passReports_of_done hremaining]
    exact ⟨operatorStep_pass_synced hop (h.pass_eq_of_done hremaining),
      fun _ _ _ hp' => by cases hp'⟩
  | cons id ids =>
    simp only [momentOfPass, FineState.swap, hremaining, reduceCtorEq, if_false, run_nil]
    refine ⟨trivial, fun op' p' hop' hp' => ?_⟩
    obtain rfl := Option.some.inj (hop.symm.trans hop')
    obtain rfl := Option.some.inj (hpass.symm.trans hp')
    exact h

/-- A `Reconcile` that leaves the clients alone leaves the pass under way valid. -/
theorem valid_reconcile (h : s.Valid) (hop : s.state.operator = some op) {name : String}
    {answers : Answers Client}
    (hraced : (s.pass.isSome && op.writesClients lib name answers) = false) :
    FineState.Valid { s with
      state := operatorStep lib s.state (.reconcile name answers)
      raced := s.pass.isSome && op.writesClients lib name answers } := by
  intro op' p hop' hpass
  have hkeys : op.writesClients lib name answers = false := by
    have hsome : s.pass.isSome = true := by
      rw [show s.pass = some p from hpass]
      rfl
    rwa [hsome, Bool.true_and] at hraced
  simp only [operatorStep, hop] at hop'
  split at hop'
  · cases hop'
  · obtain rfl := Option.some.inj hop'
    rw [show (op.reconcile lib name answers).reconciler.yarnClients.keys =
      op.reconciler.yarnClients.keys by simpa [Operator.writesClients] using hkeys]
    exact h op p hop hpass

/-- Nothing happens after a panic. -/
theorem run_operatorStep_of_gone {t : OperatorState Client} (h : t.operator = none)
    (acts : List (OperatorAct Client)) : run (operatorStep lib) t acts = t := by
  refine @run_invariant _ _ (operatorStep lib) (fun t' => t' = t) (fun t' act ht' => ?_) acts t rfl
  rw [ht', operatorStep, h]

/-- A step of one of the goroutines is a race or the steps of the operator at its moment. -/
theorem fineStep_moments (hraced : s.raced = false) (h : s.Valid) (act : FineAct Client) :
    (fineStep lib s act).raced = true ∨
      (run (operatorStep lib) s.state (moments s act) = (fineStep lib s act).state ∧
        (fineStep lib s act).Valid) := by
  cases hop : s.state.operator with
  | none =>
    have hstep : fineStep lib s act = s := by simp only [fineStep, hraced, hop]
    rw [hstep]
    exact .inr ⟨run_operatorStep_of_gone hop _, h⟩
  | some op =>
    cases act with
    | reconcile name answers =>
      simp only [fineStep, hraced, hop, moments, run_cons, run_nil, true_and]
      cases hwrites : s.pass.isSome && op.writesClients lib name answers with
      | true => exact .inl rfl
      | false => exact .inr (hwrites ▸ valid_reconcile h hop hwrites)
    | start order =>
      refine .inr ?_
      cases hpass : s.pass with
      | some p =>
        simp only [fineStep, hraced, hop, hpass, moments, momentOfPass, run_nil, true_and]
        exact h
      | none =>
        simp only [fineStep, hraced, hop, hpass, moments, run_nil, true_and]
        intro op' p hop' hp
        obtain rfl := Option.some.inj (hop.symm.trans hop')
        obtain rfl := Option.some.inj hp
        exact .start order op.reconciler.yarnClients.nodupKeys
    | query answer =>
      refine .inr ?_
      cases hpass : s.pass with
      | none =>
        simp only [fineStep, hraced, hop, hpass, moments, run_nil, true_and]
        exact h
      | some p =>
        simp only [fineStep, hraced, hop, hpass, moments]
        exact query_moment hop hpass (h op p hop hpass) answer
    | swap =>
      refine .inr ?_
      cases hpass : s.pass with
      | none =>
        simp only [fineStep, hraced, hop, hpass, moments, run_nil, true_and]
        exact h
      | some p =>
        simp only [fineStep, hraced, hop, hpass, moments]
        exact swap_moment hop hpass (h op p hop hpass)

/-- A pass in one step adds nothing to the calls of the `Reconcile`s. -/
theorem log_momentOfPass (t : OperatorState Client × List (Call Client)) (act : FineAct Client) :
    (run (logged (operatorStep lib) (operatorCalls lib)) t (momentOfPass p act)).2 = t.2 := by
  have hpass : ∀ order answer,
      (logged (operatorStep lib) (operatorCalls lib) t (.pass order answer)).2 = t.2 :=
    fun _ _ => List.append_nil _
  cases act with
  | query answer =>
    cases hremaining : p.remaining with
    | nil => simp only [momentOfPass, hremaining, run_nil]
    | cons id ids =>
      simp only [momentOfPass, hremaining]
      split
      · exact hpass _ _
      · rfl
  | swap =>
    simp only [momentOfPass]
    split
    · exact hpass _ _
    · rfl
  | _ => rfl

/-- The calls at the moment of a step are the calls of the step. -/
theorem log_moments (hraced : s.raced = false) (log : List (Call Client)) (act : FineAct Client) :
    (run (logged (operatorStep lib) (operatorCalls lib)) (s.state, log) (moments s act)).2 =
      log ++ fineCalls lib s act := by
  cases act with
  | reconcile name answers =>
    simp only [moments, fineCalls, hraced, run_cons, run_nil, logged]
  | _ =>
    simp only [fineCalls, hraced, List.append_nil]
    cases hpass : s.pass with
    | none => simp only [moments, hraced, hpass, run_nil]
    | some p =>
      simp only [moments, hraced, hpass]
      exact log_momentOfPass _ _

end Steps

/-- The operator with passes of one step simulates the one with passes of many, until the first
race. -/
def fineSimulation (lib : Library) :
    Simulation
      (logged (fineStep lib) (fineCalls lib) : FineState Client × List (Call Client) → _ → _)
      (logged (operatorStep lib) (operatorCalls lib) : OperatorState Client × _ → _ → _) where
  Rel := fun s t => s.1.raced = true ∨ ((s.1.state, s.2) = t ∧ s.1.raced = false ∧ s.1.Valid)
  answer := fun s act => moments s.1 act
  step_rel := by
    rintro ⟨s, log⟩ t act (hraced | ⟨rfl, hraced, hvalid⟩)
    · left
      have hstep : fineStep lib s act = s := by
        rw [fineStep]
        split
        · rename_i hnot _
          cases hraced.symm.trans hnot
        · rfl
      rw [logged, hstep]
      exact hraced
    · cases hnext : (fineStep lib s act).raced with
      | true => exact .inl hnext
      | false =>
        rcases @fineStep_moments _ lib s hraced hvalid act with hrace | ⟨hstate, hvalid'⟩
        · cases hrace.symm.trans hnext
        · refine .inr ⟨Prod.ext ?_ (log_moments hraced log act).symm, hnext, hvalid'⟩
          rw [run_logged_fst]
          exact hstate.symm

/-! ## Runs without a race -/

section Known

variable {r r' : Reconciler Client} {answers : Answers Client}
  {clients : AList fun _ : String => Client}

/-- The NodeManagers are of clusters that have a client, or have an empty cluster id. -/
def KnownClusters (answers : Answers Client) (clients : AList fun _ : String => Client) : Prop :=
  ∀ yarnNode, HasNodeManager answers.pods yarnNode →
    yarnNode.clusterID = "" ∨ yarnNode.clusterID ∈ clients

theorem ClientWay.yarnClients_of_known {created client : Option Client} {yarnNode : YarnNode}
    {creates : List (Call Client)} (hway : ClientWay r created yarnNode client r' creates)
    (hid : yarnNode.clusterID = "" ∨ yarnNode.clusterID ∈ r.yarnClients) :
    r'.yarnClients = r.yarnClients := by
  cases hway with
  | added hne hnew _ => exact absurd (hid.resolve_left hne) (AList.lookup_eq_none.mp hnew)
  | _ => rfl

/-- A `Reconcile` of a known cluster creates no client. -/
theorem Path.yarnClients_of_known {cache : NodeCache} {name : String} {calls : List (Call Client)}
    {exit : Exit} (h : Path lib r cache name answers r' calls exit)
    (hknown : KnownClusters answers r.yarnClients) : r'.yarnClients = r.yarnClients := by
  cases h with
  | noClient _ hyarn hclient =>
    exact (ClientWay.of_eq hclient).yarnClients_of_known (hknown _ hyarn)
  | updateFailed hway _ =>
    exact (ClientWay.of_eq hway.client).yarnClients_of_known (hknown _ hway.hasNodeManager)
  | noUsed hway _ _ =>
    exact (ClientWay.of_eq hway.client).yarnClients_of_known (hknown _ hway.hasNodeManager)
  | recorded hway _ _ =>
    exact (ClientWay.of_eq hway.client).yarnClients_of_known (hknown _ hway.hasNodeManager)
  | _ => rfl

/-- Every `Reconcile` of a run is of a known cluster. -/
def FineAct.Known (clients : AList fun _ : String => Client) : FineAct Client → Prop
  | .reconcile _ answers => KnownClusters answers clients
  | _ => True

/-- The operator has the clients it was started with, and there was no race. -/
def Unraced (clients : AList fun _ : String => Client) (s : FineState Client) : Prop :=
  s.raced = false ∧ ∀ op, s.state.operator = some op → op.reconciler.yarnClients = clients

theorem unraced_query {s : FineState Client} {p : PassProgress} (h : Unraced clients s)
    (answer : ClusterNodes) : Unraced clients (s.query p answer) := by
  unfold FineState.query
  split
  · exact h
  · cases answer with
    | failed => exact h
    | nil => exact h
    | reports reports =>
      cases hnodes : clusterCache reports with
      | none =>
        simp only [hnodes]
        exact ⟨h.1, fun _ hop => by cases hop⟩
      | some nodes =>
        simp only [hnodes]
        exact h

theorem unraced_swap {s : FineState Client} {op : Operator Client} {p : PassProgress}
    (hop : s.state.operator = some op) (h : Unraced clients s) : Unraced clients (s.swap op p) := by
  unfold FineState.swap
  split
  · refine ⟨h.1, fun op' hop' => ?_⟩
    obtain rfl := Option.some.inj hop'
    exact h.2 op hop
  · exact h

theorem unraced_fineStep (s : FineState Client) (act : FineAct Client) (hact : act.Known clients)
    (h : Unraced clients s) : Unraced clients (fineStep lib s act) := by
  cases hop : s.state.operator with
  | none =>
    simp only [fineStep, h.1, hop]
    exact h
  | some op =>
    cases act with
    | reconcile name answers =>
      have hclients : (op.reconcile lib name answers).reconciler.yarnClients =
          op.reconciler.yarnClients := by
        refine op.path.yarnClients_of_known lib ?_
        rw [h.2 op hop]
        exact hact
      have hwrites : op.writesClients lib name answers = false := by
        rw [Operator.writesClients, hclients]
        exact decide_eq_false fun hne => hne rfl
      simp only [fineStep, h.1, hop, hwrites, Bool.and_false]
      refine ⟨rfl, fun op' hop' => ?_⟩
      simp only [operatorStep, hop] at hop'
      split at hop'
      · cases hop'
      · obtain rfl := Option.some.inj hop'
        exact hclients.trans (h.2 op hop)
    | start order =>
      cases hpass : s.pass with
      | some p =>
        simp only [fineStep, h.1, hop, hpass]
        exact h
      | none =>
        simp only [fineStep, h.1, hop, hpass]
        exact ⟨rfl, h.2⟩
    | query answer =>
      cases hpass : s.pass with
      | none =>
        simp only [fineStep, h.1, hop, hpass]
        exact h
      | some p =>
        simp only [fineStep, h.1, hop, hpass]
        exact unraced_query h answer
    | swap =>
      cases hpass : s.pass with
      | none =>
        simp only [fineStep, h.1, hop, hpass]
        exact h
      | some p =>
        simp only [fineStep, h.1, hop, hpass]
        exact unraced_swap hop h

/-- Where every NodeManager is of a cluster the operator was started with, no run races. -/
theorem raced_of_known (acts : List (FineAct Client)) (h : ∀ act ∈ acts, act.Known clients) :
    (run (fineStep lib) (fineAdd clients) acts).raced = false := by
  have hmeets : Meets (fineStep lib) (fun _ act => act.Known clients) (fineAdd clients) acts := by
    intro pre act post hsplit
    exact h act (by rw [hsplit]; simp)
  have hstart : Unraced clients (fineAdd clients) := by
    refine ⟨rfl, fun op hop => ?_⟩
    obtain rfl := Option.some.inj hop
    rfl
  exact (run_invariant_of_meets (fun s act hact hs => unraced_fineStep lib s act hact hs) acts
    hmeets hstart).1

end Known

/-- Every run of the two goroutines without a race ends in the state, with the calls of the
`Reconcile`s, of a run in which every pass is one step. The cache that it leaves is empty or that of
the last whole pass. -/
theorem passes_atomic (lib : Library) (clients : AList fun _ : String => Client)
    (acts : List (FineAct Client))
    (h : (run (fineStep lib) (fineAdd clients) acts).raced = false) :
    ∃ acts', run (logged (operatorStep lib) (operatorCalls lib)) (add clients, []) acts' =
        ((run (fineStep lib) (fineAdd clients) acts).state,
          (run (logged (fineStep lib) (fineCalls lib)) (fineAdd clients, []) acts).2) ∧
      Synced (run (fineStep lib) (fineAdd clients) acts).state := by
  have hstart : (fineSimulation lib).Rel (fineAdd clients, []) (add clients, []) :=
    .inr ⟨rfl, rfl, fun _ _ _ hp => by cases hp⟩
  have hfst := @run_logged_fst _ _ (fineStep lib) _ (fineCalls lib) acts (fineAdd clients, [])
  rcases (fineSimulation lib).run_rel acts hstart with hraced | ⟨heq, -, -⟩
  · rw [hfst, h] at hraced
    cases hraced
  · rw [hfst] at heq
    refine ⟨_, heq.symm, ?_⟩
    have hstate : (run (fineStep lib) (fineAdd clients) acts).state =
        run (operatorStep lib) (add clients) _ :=
      (congrArg Prod.fst heq).trans (run_logged_fst _ _)
    rw [hstate]
    exact run_invariant (synced_step lib) _ (synced_add clients)

/-- A `Reconcile` between the answer of the only cluster and the assignment of the cache. -/
theorem passes_atomic_between :
    let acts : List (FineAct ℕ) :=
      [.start .listed, .query (.reports [⟨some ⟨some "worker-1", some 8041⟩, none, none⟩]),
        .reconcile "worker-1" (calmAnswers allocatedNode), .swap]
    (run (fineStep plainLib) (fineAdd addedReconciler.yarnClients) acts).raced = false ∧
      ∃ acts', run (logged (operatorStep plainLib) (operatorCalls plainLib))
          (add addedReconciler.yarnClients, []) acts' =
        ((run (fineStep plainLib) (fineAdd addedReconciler.yarnClients) acts).state,
          (run (logged (fineStep plainLib) (fineCalls plainLib))
            (fineAdd addedReconciler.yarnClients, []) acts).2) ∧
        Synced (run (fineStep plainLib) (fineAdd addedReconciler.yarnClients) acts).state := by
  intro acts
  have hraced :
      (run (fineStep plainLib) (fineAdd addedReconciler.yarnClients) acts).raced = false := by
    refine raced_of_known plainLib acts fun act hact => ?_
    simp only [acts, List.mem_cons, List.not_mem_nil, or_false] at hact
    rcases hact with rfl | rfl | rfl | rfl
    · trivial
    · trivial
    · intro yarnNode hyarn
      obtain rfl := hyarn.unique (hasNodeManager_calmAnswers allocatedNode)
      exact .inr (by decide)
    · trivial
  exact ⟨hraced, passes_atomic plainLib addedReconciler.yarnClients acts hraced⟩

end YarnCopilot.NodeResource
