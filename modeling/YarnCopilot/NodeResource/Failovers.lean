import YarnCopilot.NodeResource.HaOperator

/-!
# Failovers

After a failover the clients of the operator still hold the addresses of the old RM, or none.
Nothing tells them: a client finds out when one of its requests fails, and is reinitialized then.
The pass or the `Reconcile` that ran into it is lost.

`Healing` is kept by every request and every new client once the RMs are stable: a client that
failed, or that was made since, holds what `Initialize` finds, and so does not fail. Every client
that is stale costs one pass or one `Reconcile`, and no more, in any order of the two.
-/

namespace YarnCopilot.NodeResource

open Cache

/-- A request meets the RMs as they are in `env`: whether it initializes its client or reinitializes
it, it finds them so, and a client that the factory gives there is answered. -/
structure Net.Stable (net : Net) (env : String → Client.InitEnv) : Prop where
  init : net.init = env
  reinit : net.reinit = env
  ready : net.ready = true
  nodes : ∀ clusterID c rm, Client.createYarnClientByClusterID (env clusterID) clusterID = some c →
    c.activeRMAddress = some rm → ∃ reports, net.nodes rm = some reports
  accepts : ∀ clusterID c admin request,
    Client.createYarnClientByClusterID (env clusterID) clusterID = some c →
    c.activeRMAdminAddress = some admin → net.accepts admin request = true

variable {net : Net} {env : String → Client.InitEnv} {first : ℕ} {heap : Heap}

theorem Net.Stable.up_clusterNodes (h : net.Stable env) (clusterID : String) :
    (net.clusterNodes clusterID).Up (env clusterID) clusterID := by
  refine ⟨h.ready, fun c hc => ?_⟩
  obtain ⟨rm, hrm⟩ := Option.isSome_iff_exists.mp (Client.of_createYarnClientByClusterID hc).2.2.2
  obtain ⟨reports, hreports⟩ := h.nodes clusterID c rm hc hrm
  exact ⟨rm, reports, hrm, hreports⟩

theorem Net.Stable.up_nodeResource (h : net.Stable env) (request : UpdateNodeResourceRequest)
    (clusterID : String) : (net.nodeResource request clusterID).Up (env clusterID) clusterID := by
  refine ⟨h.ready, fun c hc => ?_⟩
  obtain ⟨admin, hadmin⟩ :=
    Option.isSome_iff_exists.mp (Client.of_createYarnClientByClusterID hc).2.2.1
  exact ⟨admin, (), hadmin, if_pos (h.accepts clusterID c admin request hc hadmin)⟩

/-- `Initialize` can find the RM of every client. -/
def Recoverable (env : String → Client.InitEnv) (heap : Heap) : Prop :=
  ∀ p < heap.next, (Client.createYarnClientByClusterID (env (heap.client p).clusterID)
    (heap.client p).clusterID).isSome

/-- The clients since the RMs are stable, when `first` was the next pointer: the recorded failures
are of old clients, once each, and these and the new clients are settled. -/
structure Healing (env : String → Client.InitEnv) (first : ℕ) (heap : Heap) : Prop where
  configured : heap.Configured
  recoverable : Recoverable env heap
  first_le : first ≤ heap.next
  settled : ∀ p < heap.next, p ∈ heap.failed ∨ first ≤ p →
    Client.Settled (env (heap.client p).clusterID) (heap.client p)
  nodup : heap.failed.Nodup
  old : ∀ p ∈ heap.failed, p < first

/-- A new client is settled. -/
theorem Healing.create (h : Healing env first heap) (clusterID : String) :
    Healing env first (heap.create (env clusterID) clusterID).2 := by
  rcases create_cases heap (env clusterID) clusterID with hcreate | ⟨c, hc, hcreate⟩
  · rw [hcreate]
    exact h
  · have hconfigured := h.configured.create (env clusterID) clusterID
    rw [hcreate] at hconfigured ⊢
    have hid := (Client.of_createYarnClientByClusterID hc).1
    have hlt : ∀ p, p < heap.next + 1 → p ≠ heap.next → p < heap.next := fun p hp hne => by omega
    refine ⟨hconfigured, fun p hp => ?_, h.first_le.trans (Nat.le_succ _), fun p hp hor => ?_,
      h.nodup, h.old⟩
    · by_cases heq : p = heap.next
      · subst heq
        simp [hid, hc]
      · simpa [Function.update_of_ne heq] using h.recoverable p (hlt p hp heq)
    · by_cases heq : p = heap.next
      · subst heq
        simpa [hid] using Client.settled_of_create hc
      · simpa [Function.update_of_ne heq] using h.settled p (hlt p hp heq) hor

/-- A request of a settled client changes nothing. -/
theorem ask_of_settled {α : Type} {service : String → Client.Service α} {p : ℕ}
    (hsettled : Client.Settled (env (heap.client p).clusterID) (heap.client p))
    (hup : (service (heap.client p).clusterID).Up (env (heap.client p).clusterID)
      (heap.client p).clusterID) :
    heap.ask service p = heap := by
  obtain ⟨answer, hanswer⟩ := Client.askReinitializing_of_settled hsettled hup
  have hreply : heap.reply service p = (heap.client p, .answer answer) := hanswer
  simp only [Heap.ask, hreply, Function.update_eq_self]

/-- A client that is not settled is an old one and has not failed yet. -/
theorem Healing.fresh {p : ℕ} (h : Healing env first heap) (hp : p < heap.next)
    (hsettled : ¬ Client.Settled (env (heap.client p).clusterID) (heap.client p)) :
    p ∉ heap.failed ∧ p < first := by
  constructor
  · exact fun hmem => hsettled (h.settled p hp (.inl hmem))
  · by_contra hle
    exact hsettled (h.settled p hp (.inr (not_lt.mp hle)))

/-- A request leaves the cluster of every client. -/
theorem clusterID_ask {α : Type} {service : String → Client.Service α} {p : ℕ}
    (h : heap.Configured) (hp : p < heap.next) (q : ℕ) :
    ((heap.ask service p).client q).clusterID = (heap.client q).clusterID := by
  by_cases heq : q = p
  · subst heq
    rw [client_ask_self]
    exact (Client.askReinitializing_keeps _ (h q hp)).1
  · rw [client_ask_of_ne heq]

/-- A request of a settled client does not fail, and one that fails settles its client. -/
theorem Healing.ask {α : Type} {service : String → Client.Service α} {p : ℕ}
    (h : Healing env first heap) (hp : p < heap.next)
    (henv : ∀ clusterID, (service clusterID).reinit = env clusterID)
    (hup : ∀ clusterID, (service clusterID).Up (env clusterID) clusterID) :
    Healing env first (heap.ask service p) := by
  by_cases hsettled : Client.Settled (env (heap.client p).clusterID) (heap.client p)
  · rw [ask_of_settled hsettled (hup _)]
    exact h
  have hfresh := h.fresh hp hsettled
  have hid := @clusterID_ask heap α service p h.configured hp
  have hrecoverable : Recoverable env (heap.ask service p) := by
    intro q hq
    rw [hid]
    exact h.recoverable q hq
  have hothers : ∀ q < heap.next, q ≠ p → q ∈ heap.failed ∨ first ≤ q →
      Client.Settled (env ((heap.ask service p).client q).clusterID)
        ((heap.ask service p).client q) := by
    intro q hq hne hor
    rw [client_ask_of_ne hne]
    exact h.settled q hq hor
  have hconfigured := h.configured.ask service hp
  cases hreply : (heap.reply service p).2 with
  | panic => exact absurd hreply (h.configured.reply_ne_panic service hp)
  | answer a =>
    have hfailed : (heap.ask service p).failed = heap.failed := by simp only [Heap.ask, hreply]
    refine ⟨hconfigured, hrecoverable, h.first_le, fun q hq hor => ?_, hfailed ▸ h.nodup,
      hfailed ▸ h.old⟩
    rw [hfailed] at hor
    refine hothers q hq ?_ hor
    rintro rfl
    rcases hor with hmem | hle
    · exact hfresh.1 hmem
    · omega
  | failed =>
    have hfailed : (heap.ask service p).failed = p :: heap.failed := by simp only [Heap.ask, hreply]
    refine ⟨hconfigured, hrecoverable, h.first_le, fun q hq hor => ?_, ?_, ?_⟩
    · by_cases heq : q = p
      · subst heq
        rw [hid, ← henv, client_ask_self]
        refine Client.settled_of_failed (h.configured q hp) ?_ hreply
        rw [henv]
        exact h.recoverable q hp
      · rw [hfailed, List.mem_cons] at hor
        exact hothers q hq heq (hor.imp_left fun hmem => hmem.resolve_left heq)
    · rw [hfailed]
      exact List.nodup_cons.mpr ⟨hfresh.1, h.nodup⟩
    · rw [hfailed]
      intro q hq
      rcases List.mem_cons.mp hq with rfl | hmem
      · exact hfresh.2
      · exact h.old q hmem

/-- The requests of a step meet the RMs as they are in `env`. -/
structure StableIn (env : String → Client.InitEnv) (act : HaAct) : Prop where
  made : ∀ clusterID env', act.made clusterID env' → env' = env clusterID
  asked : ∀ net, act.asked net → net.Stable env

/-- So a step keeps the clients healing. -/
theorem Heap.Moves.healing {heap' : Heap} {act : HaAct} (h : heap.Moves act.made act.asked heap')
    (hstable : StableIn env act) (hhealing : Healing env first heap) :
    Healing env first heap' := by
  have hreinit : ∀ net, act.asked net → ∀ clusterID, net.reinit clusterID = env clusterID :=
    fun net hnet => congrFun (hstable.asked net hnet).reinit
  induction h with
  | refl => exact hhealing
  | create _ henv ih =>
    rw [hstable.made _ _ henv]
    exact ih.create _
  | clusterNodes _ hp hnet ih =>
    exact ih.ask hp (hreinit _ hnet) (hstable.asked _ hnet).up_clusterNodes
  | nodeResource _ hp hnet request ih =>
    exact ih.ask hp (hreinit _ hnet) ((hstable.asked _ hnet).up_nodeResource request)

/-! ## Lost steps -/

/-- 1 for a request that failed. -/
def failedReply {α : Type} : Client.Reply α → ℕ
  | .failed => 1
  | _ => 0

/-- A request records its failure. -/
theorem length_failed_ask {α : Type} (heap : Heap) (service : String → Client.Service α) (p : ℕ) :
    (heap.ask service p).failed.length =
      heap.failed.length + failedReply (heap.reply service p).2 := by
  cases hreply : (heap.reply service p).2 <;> simp [Heap.ask, hreply, failedReply]

/-- 1 for a pass that failed. -/
def failedPass : PassResult → ℕ
  | .failed => 1
  | _ => 0

/-- A pass records the failure it ran into. -/
theorem length_failed_syncClients {nets : String → Net} {clients : List (String × ℕ)}
    {res : NodeCache} :
    (syncClients nets clients res heap).2.failed.length =
      heap.failed.length + failedPass (syncClients nets clients res heap).1 := by
  induction clients generalizing res heap with
  | nil => rfl
  | cons c clients ih =>
    obtain ⟨id, p⟩ := c
    have hask := length_failed_ask heap (nets id).clusterNodes p
    rw [syncClients]
    cases hreply : (heap.reply (nets id).clusterNodes p).2 with
    | failed =>
      rw [hreply] at hask
      exact hask
    | panic =>
      rw [hreply] at hask
      exact hask
    | answer reports =>
      rw [hreply] at hask
      cases hnodes : clusterCache reports with
      | none =>
        simp only [hnodes]
        exact hask
      | some nodes =>
        simp only [hnodes]
        rw [ih, hask]
        rfl

/-- 1 for an update that had a client and failed. -/
def failedUpdate (env : String → Client.InitEnv) (net : Net) (r : Reconciler ℕ)
    (yarnNode : YarnNode) (vcores memoryMB : ℤ) (heap : Heap) : ℕ :=
  match (getClient env r yarnNode heap).1 with
  | none => 0
  | some _ => failedReply (sendUpdate env net r yarnNode vcores memoryMB heap).1

/-- An update records its failure. -/
theorem length_failed_sendUpdate {r : Reconciler ℕ} {yarnNode : YarnNode} {vcores memoryMB : ℤ} :
    (sendUpdate env net r yarnNode vcores memoryMB heap).2.failed.length =
      heap.failed.length + failedUpdate env net r yarnNode vcores memoryMB heap := by
  have hafter : (afterGetClient env r yarnNode heap).failed = heap.failed := by
    unfold afterGetClient
    split
    · rfl
    · rcases create_cases heap (env yarnNode.clusterID) yarnNode.clusterID with h | ⟨c, -, h⟩ <;> rw [h]
  rw [failedUpdate, sendUpdate]
  cases hget : (getClient env r yarnNode heap).1 with
  | none => exact congrArg List.length hafter
  | some p =>
    simp only
    rw [length_failed_ask, hafter]

/-! ## Runs -/

variable (lib : Library)

/-- 1 for a step that is lost to a client that fails: a pass that stores nothing, or a `Reconcile`
that is retried. -/
def lostStep (s : HaState) (act : HaAct) : ℕ :=
  match s.operator.operator with
  | none => 0
  | some op =>
    match act with
    | .pass nets order =>
      failedPass (syncClients nets (op.reconciler.visit order) (fun _ => none) s.heap).1
    | .reconcile env net _ node pods _ =>
      match updateOf lib node pods with
      | none => 0
      | some (yarnNode, vcores, memoryMB) =>
        failedUpdate env net op.reconciler yarnNode vcores memoryMB s.heap

/-- The number of steps of a run that are lost. -/
def lostSteps : HaState → List HaAct → ℕ
  | _, [] => 0
  | s, act :: acts => lostStep lib s act + lostSteps (haStep lib s act) acts

variable {lib} {s : HaState} {act : HaAct} {acts : List HaAct}

/-- Every step that is lost records one failure. -/
theorem length_failed_haStep (lib : Library) (s : HaState) (act : HaAct) :
    (haStep lib s act).heap.failed.length = s.heap.failed.length + lostStep lib s act := by
  unfold haStep lostStep
  cases s.operator.operator with
  | none => rfl
  | some op =>
    cases act with
    | pass nets order => exact length_failed_syncClients
    | reconcile env net name node pods patchOk =>
      dsimp only
      rw [haAnswers]
      rcases updateOf lib node pods with _ | ⟨yarnNode, vcores, memoryMB⟩
      · rfl
      · exact length_failed_sendUpdate

theorem length_failed_run (lib : Library) (s : HaState) (acts : List HaAct) :
    (run (haStep lib) s acts).heap.failed.length =
      s.heap.failed.length + lostSteps lib s acts := by
  induction acts generalizing s with
  | nil => rfl
  | cons act acts ih => rw [run_cons, ih, length_failed_haStep, lostSteps, Nat.add_assoc]

/-- While the RMs are stable the clients heal. -/
theorem healing_run (hvalid : s.Valid) (h : Healing env first s.heap)
    (hstable : ∀ act ∈ acts, StableIn env act) :
    Healing env first (run (haStep lib) s acts).heap := by
  have hstep : ∀ (s : HaState) act, StableIn env act → s.Valid ∧ Healing env first s.heap →
      (haStep lib s act).Valid ∧ Healing env first (haStep lib s act).heap :=
    fun s act hact hs => ⟨valid_haStep s act hs.1,
      (moves_haStep hs.1 lib act).healing hact hs.2⟩
  have hmeets : Meets (haStep lib) (fun _ act => StableIn env act) s acts := by
    rintro pre act post rfl
    exact hstable act (by simp)
  exact (run_invariant_of_meets hstep acts hmeets ⟨hvalid, h⟩).2

/-- **Failovers.** From any state of the operator on, whatever happened to the RMs before: once they
are stable and `Initialize` can find the RM of every client, each client fails at most once and new
clients never, in any order of passes and reconciles. The steps lost are no more than the clients
there were. -/
theorem failovers_once (hvalid : s.Valid) (hrecoverable : Recoverable env s.heap)
    (hclean : s.heap.failed = []) (hstable : ∀ act ∈ acts, StableIn env act) :
    (run (haStep lib) s acts).heap.failed.Nodup ∧
      (∀ p ∈ (run (haStep lib) s acts).heap.failed, p < s.heap.next) ∧
      lostSteps lib s acts ≤ s.heap.next := by
  have hstart : Healing env s.heap.next s.heap := by
    refine ⟨hvalid.configured, hrecoverable, le_rfl, fun p hp hor => ?_, ?_, ?_⟩
    · rw [hclean] at hor
      rcases hor with hmem | hle
      · cases hmem
      · omega
    · rw [hclean]
      exact List.nodup_nil
    · rw [hclean]
      intro p hp
      cases hp
  have h := @healing_run _ _ lib _ _ hvalid hstart hstable
  refine ⟨h.nodup, h.old, ?_⟩
  have hlength := length_failed_run lib s acts
  rw [hclean, List.length_nil, Nat.zero_add] at hlength
  have hsubset : (run (haStep lib) s acts).heap.failed ⊆ List.range s.heap.next := fun p hp =>
    List.mem_range.mpr (h.old p hp)
  rw [← hlength, ← List.length_range (n := s.heap.next)]
  exact (h.nodup.subperm hsubset).length_le

/-! ## A failover -/

/-- The first RM is active. -/
def beforeFailover : Client.InitEnv :=
  ⟨Client.haFiles, fun i => if i = 0 then some (some .ACTIVE) else some (some .STANDBY)⟩

/-- The second RM is active, and only it answers. -/
def afterFailover : Net :=
  ⟨fun _ => Client.failoverEnv, fun _ => Client.failoverEnv, true,
    fun address => if address = "host2:8032" then some [] else none,
    fun address _ => address = "host2:8033"⟩

theorem isSome_haStart_beforeFailover : (haStart [] beforeFailover).isSome := by decide +kernel

/-- The operator that was started before the failover. -/
def staleOperator : HaState := (haStart [] beforeFailover).get isSome_haStart_beforeFailover

/-- The only cluster with configuration files is the default one. -/
theorem clusterID_of_create_failoverEnv {clusterID : String} {c : Client.YarnClient}
    (h : Client.createYarnClientByClusterID Client.failoverEnv clusterID = some c) :
    clusterID = "" := by
  by_contra hne
  have hfile : Client.haFiles (Config.configPrefix clusterID ++ "yarn-site.xml") = .missing := by
    have hlength : Config.configPrefix clusterID ++ "yarn-site.xml" ≠ "yarn-site.xml" := by
      intro heq
      have := congrArg String.length heq
      simp [Config.configPrefix, hne] at this
    unfold Client.haFiles
    split
    · contradiction
    · rfl
  have hload : Config.newYarnConfiguration Client.haFiles clusterID = none :=
    Config.loadResources_of_missing ⟨"yarn-site.xml", true⟩ (by simp) rfl hfile _
  have hinit := Client.createYarnClientByClusterID_eq_some_iff.mp h
  simp only [Client.YarnClient.initializeClient, Client.newYarnClient, Client.failoverEnv, hload,
    Prod.mk.injEq, Bool.false_eq_true, and_false] at hinit

theorem addresses_failoverEnv {clusterID : String} {c : Client.YarnClient}
    (h : Client.createYarnClientByClusterID Client.failoverEnv clusterID = some c) :
    c.activeRMAdminAddress = some "host2:8033" ∧ c.activeRMAddress = some "host2:8032" := by
  obtain rfl := clusterID_of_create_failoverEnv h
  have hdefault : (Client.createYarnClientByClusterID Client.failoverEnv "").map
      (fun c => (c.activeRMAdminAddress, c.activeRMAddress)) =
        some (some "host2:8033", some "host2:8032") := by decide +kernel
  rw [h] at hdefault
  exact Prod.mk.inj (Option.some.inj hdefault)

theorem stable_afterFailover : afterFailover.Stable fun _ => Client.failoverEnv := by
  refine ⟨rfl, rfl, rfl, fun clusterID c rm hc hrm => ?_,
    fun clusterID c admin request hc hadmin => ?_⟩
  · obtain rfl := Option.some.inj (hrm.symm.trans (addresses_failoverEnv hc).2)
    exact ⟨[], rfl⟩
  · obtain rfl := Option.some.inj (hadmin.symm.trans (addresses_failoverEnv hc).1)
    rfl

/-- A pass after the failover, a `Reconcile` that updates YARN, and another pass. -/
def failoverSteps : List HaAct :=
  [.pass (fun _ => afterFailover) .listed,
    .reconcile (fun _ => Client.failoverEnv) afterFailover "worker-1"
      (.found (statusNode (.new 8000) 0)) (some [nodeManagerPod]) true,
    .pass (fun _ => afterFailover) .listed]

/-- The first of them is lost, and no other. -/
theorem failovers_once_staleOperator :
    lostSteps plainLib staleOperator failoverSteps = 1 ∧
      lostSteps plainLib staleOperator failoverSteps ≤ staleOperator.heap.next := by
  refine ⟨by decide +kernel, ?_⟩
  have hvalid : staleOperator.Valid := (valid_haStart (Option.some_get _).symm).1
  have hrecoverable : Recoverable (fun _ => Client.failoverEnv) staleOperator.heap := by
    unfold Recoverable
    decide +kernel
  refine (failovers_once hvalid hrecoverable rfl fun act hact => ?_).2.2
  constructor
  · rintro clusterID env hmade
    fin_cases hact
    · cases hmade
    · exact hmade
    · cases hmade
  · intro net hasked
    obtain rfl : net = afterFailover := by
      fin_cases hact
      · exact hasked.choose_spec
      · exact hasked
      · exact hasked.choose_spec
    exact stable_afterFailover

end YarnCopilot.NodeResource
