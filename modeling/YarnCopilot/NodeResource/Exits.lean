import YarnCopilot.NodeResource.Capacity

/-!
# The exits of Reconcile

`Path` lists the ways through one `Reconcile`, each with the reconciler it leaves, the calls made on
it and how it ends. What is said of every `Reconcile` is then said of each of them: here, which
failures are retried.
-/

namespace YarnCopilot.NodeResource

open Cache

variable {Client : Type}

section Path

variable (lib : Library) (r : Reconciler Client) (cache : NodeCache) (name : String)
  (answers : Answers Client)

/-- The calls with which every `Reconcile` of an existing node begins. -/
abbrev readCalls (name : String) (node : Node) : List (Call Client) :=
  [.getNode name, .listNodeManagerPods node.name]

/-- How a `Reconcile` ends that got as far as the patch. -/
def exitOfPatch : Exit := if answers.patchOk then .done else .requeue

/-- The way of a `Reconcile` to the update of YARN: the node has a NodeManager, its batch resources
are readable and `creates` is what it took to get the client. -/
structure ToUpdate (node : Node) (yarnNode : YarnNode) (client : Client)
    (request : UpdateNodeResourceRequest) (r' : Reconciler Client) (creates : List (Call Client)) :
    Prop where
  found : answers.node = .found node
  hasNodeManager : HasNodeManager answers.pods yarnNode
  client : getYARNClient r answers.client yarnNode = (some client, r', creates)
  batch : ∃ batch, getNodeBatchResource lib node = .ok batch ∧
    request = updateRequest yarnNode (calculate lib batch.1 batch.2).1 (calculate lib batch.1 batch.2).2

/-- A way through `Reconcile`. -/
inductive Path : Reconciler Client → List (Call Client) → Exit → Prop
  | notFound (h : answers.node = .notFound) : Path r [.getNode name] .done
  | getFailed (h : answers.node = .failed) : Path r [.getNode name] .requeue
  | noNodeId {node : Node} (hnode : answers.node = .found node)
      (h : getYARNNode answers.pods = .error ()) :
      Path r (readCalls name node) .done
  | cleared {node : Node} (hnode : answers.node = .found node)
      (hread : ∃ result, getYARNNode answers.pods = .ok result)
      (hnone : ∀ yarnNode, ¬ HasNodeManager answers.pods yarnNode) :
      Path r (readCalls name node ++
        [.patchNode node.name (allocatedResourcePatch lib node 0 0)]) (exitOfPatch answers)
  | badOrigin {node : Node} {yarnNode : YarnNode} (hnode : answers.node = .found node)
      (hyarn : HasNodeManager answers.pods yarnNode)
      (h : getNodeBatchResource lib node = .error ()) :
      Path r (readCalls name node) .requeue
  | noClient {node : Node} {yarnNode : YarnNode} {r' : Reconciler Client}
      {creates : List (Call Client)} (hnode : answers.node = .found node)
      (hyarn : HasNodeManager answers.pods yarnNode)
      (h : getYARNClient r answers.client yarnNode = (none, r', creates)) :
      Path r' (readCalls name node ++ creates) .requeue
  | updateFailed {node : Node} {yarnNode : YarnNode} {client : Client}
      {request : UpdateNodeResourceRequest} {r' : Reconciler Client} {creates : List (Call Client)}
      (hway : ToUpdate lib r answers node yarnNode client request r' creates)
      (h : answers.updateOk = false) :
      Path r' (readCalls name node ++ creates ++
        [.updateNodeResource client request, .reinitializeClient client]) .requeue
  | noUsed {node : Node} {yarnNode : YarnNode} {client : Client}
      {request : UpdateNodeResourceRequest} {r' : Reconciler Client} {creates : List (Call Client)}
      (hway : ToUpdate lib r answers node yarnNode client request r' creates)
      (hok : answers.updateOk = true) (h : getYARNNodeAllocatedResource cache yarnNode = none) :
      Path r' (readCalls name node ++ creates ++
        [.updateNodeResource client request]) .panic
  | recorded {node : Node} {yarnNode : YarnNode} {client : Client}
      {request : UpdateNodeResourceRequest} {r' : Reconciler Client} {creates : List (Call Client)}
      {core mb : ℤ}
      (hway : ToUpdate lib r answers node yarnNode client request r' creates)
      (hok : answers.updateOk = true)
      (hused : getYARNNodeAllocatedResource cache yarnNode = some (core, mb)) :
      Path r' (readCalls name node ++ creates ++
        [.updateNodeResource client request,
          .patchNode node.name (allocatedResourcePatch lib node core mb)]) (exitOfPatch answers)

end Path

variable {lib : Library} {r : Reconciler Client} {cache : NodeCache} {name : String}
  {answers : Answers Client}

/-- The part of `Reconcile` for a node with a NodeManager takes one of the ways. -/
theorem path_reconcileYARNNode {node : Node} {yarnNode : YarnNode}
    (hnode : answers.node = .found node) (hyarn : HasNodeManager answers.pods yarnNode) :
    Path lib r cache name answers (reconcileYARNNode lib r cache answers node yarnNode).reconciler
      (readCalls name node ++
        (reconcileYARNNode lib r cache answers node yarnNode).calls)
      (reconcileYARNNode lib r cache answers node yarnNode).exit := by
  cases hbatch : getNodeBatchResource lib node with
  | error e =>
    simp only [reconcileYARNNode, hbatch]
    exact .badOrigin hnode hyarn hbatch
  | ok batch =>
    rcases hclient : getYARNClient r answers.client yarnNode with ⟨_ | client, r', creates⟩
    · simp only [reconcileYARNNode, hbatch, updateYARNNodeResource, hclient]
      exact .noClient hnode hyarn hclient
    · have hway : ToUpdate lib r answers node yarnNode client
          (updateRequest yarnNode (calculate lib batch.1 batch.2).1 (calculate lib batch.1 batch.2).2) r'
          creates := ⟨hnode, hyarn, hclient, ⟨batch, hbatch, rfl⟩⟩
      cases hok : answers.updateOk with
      | false =>
        simp only [reconcileYARNNode, hbatch, updateYARNNodeResource, hclient, hok,
          Bool.false_eq_true, if_false]
        rw [← List.append_assoc]
        exact .updateFailed hway hok
      | true =>
        cases hused : getYARNNodeAllocatedResource cache yarnNode with
        | none =>
          simp only [reconcileYARNNode, hbatch, updateYARNNodeResource, hclient, hok, if_true,
            recordAllocated, hused, Trace.after]
          rw [List.append_nil, ← List.append_assoc]
          exact .noUsed hway hok hused
        | some used =>
          simp only [reconcileYARNNode, hbatch, updateYARNNodeResource, hclient, hok, if_true,
            recordAllocated, hused, Trace.after, updateYARNAllocatedResource]
          have hpath : Path lib r cache name answers _ _ _ := .recorded hway hok hused
          simpa [exitOfPatch] using hpath

/-- Every `Reconcile` takes one of the ways. -/
theorem reconcile_path :
    Path lib r cache name answers (reconcile lib r cache name answers).reconciler
      (reconcile lib r cache name answers).calls (reconcile lib r cache name answers).exit := by
  cases hnode : answers.node with
  | notFound =>
    simp only [reconcile, hnode]
    exact .notFound hnode
  | failed =>
    simp only [reconcile, hnode]
    exact .getFailed hnode
  | found node =>
    simp only [reconcile, hnode, Trace.after]
    by_cases hyarn : ∃ yarnNode, HasNodeManager answers.pods yarnNode
    · obtain ⟨yarnNode, hyarn⟩ := hyarn
      rw [reconcileNode_of_hasNodeManager hyarn]
      exact path_reconcileYARNNode hnode hyarn
    · have hnone := not_exists.mp hyarn
      cases hread : getYARNNode answers.pods with
      | error e =>
        simp only [reconcileNode, hread]
        exact .noNodeId hnode hread
      | ok result =>
        have hclear : reconcileNode lib r cache answers node =
            updateYARNAllocatedResource lib r answers node 0 0 := by
          cases result with
          | none => simp only [reconcileNode, hread]
          | some yarnNode =>
            have hunusable : yarnNode.name = "" ∨ yarnNode.port = 0 := by
              by_contra hvalid
              exact hnone yarnNode ⟨hread, not_or.mp hvalid⟩
            simp only [reconcileNode, hread, if_pos hunusable]
        rw [hclear]
        exact .cleared hnode ⟨result, hread⟩ hnone

/-! ## Updates and patches -/

/-- A node has one NodeManager. -/
theorem HasNodeManager.unique {pods : Option (List Pod)} {yarnNode yarnNode' : YarnNode}
    (h : HasNodeManager pods yarnNode) (h' : HasNodeManager pods yarnNode') :
    yarnNode = yarnNode' := by
  have heq := h.1.symm.trans h'.1
  simpa using heq

/-- The call is an update of YARN. -/
def Call.isUpdate : Call Client → Bool
  | .updateNodeResource _ _ => true
  | _ => false

/-- The call is a patch of the node. -/
def Call.isPatch : Call Client → Bool
  | .patchNode _ _ => true
  | _ => false

theorem Call.IsCreate.not_isPatch {call : Call Client} (h : call.IsCreate) :
    call.isPatch = false := by
  cases call with
  | patchNode _ _ => exact h.elim
  | _ => rfl

theorem Call.IsCreate.not_isUpdate {call : Call Client} (h : call.IsCreate) :
    call.isUpdate = false := by
  cases call with
  | updateNodeResource _ _ => exact h.elim
  | _ => rfl

section ToUpdate

variable {node : Node} {yarnNode : YarnNode} {client : Client} {request : UpdateNodeResourceRequest}
  {r' : Reconciler Client} {creates tail : List (Call Client)} {call : Call Client}

/-- There is neither an update nor a patch before there is a client. -/
theorem ClientWay.neither {created found : Option Client}
    (h : ClientWay r created yarnNode found r' creates)
    (hcall : call ∈ readCalls name node ++ creates) :
    call.isUpdate = false ∧ call.isPatch = false := by
  rcases List.mem_append.mp hcall with hcall | hcall
  · rcases List.mem_pair.mp hcall with rfl | rfl <;> exact ⟨rfl, rfl⟩
  · exact ⟨(h.isCreate hcall).not_isUpdate, (h.isCreate hcall).not_isPatch⟩

/-- An update or a patch stands behind the way to the update. -/
theorem ToUpdate.mem_tail (hway : ToUpdate lib r answers node yarnNode client request r' creates)
    (hcall : call ∈ readCalls name node ++ creates ++ tail)
    (heffect : call.isUpdate = true ∨ call.isPatch = true) : call ∈ tail := by
  rcases List.mem_append.mp hcall with hcall | hcall
  · obtain ⟨hupdate, hpatch⟩ := (ClientWay.of_eq hway.client).neither hcall
    rw [hupdate, hpatch] at heffect
    exact absurd heffect (by decide)
  · exact hcall

end ToUpdate

/-! ## Retries -/

/-- The call failed. A node that does not exist is no failure, and what `Reinitialize` returns is
only put into the text of the error that is returned anyway. -/
def Call.Failed (answers : Answers Client) : Call Client → Prop
  | .getNode _ => answers.node = .failed
  | .listNodeManagerPods _ => answers.pods = none
  | .createDefaultYarnClient => answers.client = none
  | .createYarnClientByClusterID _ => answers.client = none
  | .updateNodeResource _ _ => answers.updateOk = false
  | .reinitializeClient _ => False
  | .patchNode _ _ => answers.patchOk = false

/-- The NodeManager pod carries no well-formed node id. -/
def MalformedNodeId (pods : Option (List Pod)) : Prop :=
  ∃ nmPod rest, pods = some (nmPod :: rest) ∧ yarnNodeOfPod nmPod = .error ()

/-- What YARN holds on the node: what the cache has for its NodeManager, and nothing without one. -/
def Holds (cache : NodeCache) (pods : Option (List Pod)) (core mb : ℤ) : Prop :=
  (∃ yarnNode, HasNodeManager pods yarnNode ∧
    getYARNNodeAllocatedResource cache yarnNode = some (core, mb)) ∨
  (∀ yarnNode, ¬ HasNodeManager pods yarnNode) ∧ core = 0 ∧ mb = 0

/-- The recorded allocation of the node was brought up to date. -/
def UpToDate (lib : Library) (cache : NodeCache) (answers : Answers Client)
    (calls : List (Call Client)) : Prop :=
  ∃ node core mb, answers.node = .found node ∧ Holds cache answers.pods core mb ∧
    .patchNode node.name (allocatedResourcePatch lib node core mb) ∈ calls ∧
    answers.patchOk = true

/-- Failures are retried: a failed call makes the request come back, and a request that does not
come back had nothing left to do. -/
structure Retries (lib : Library) (cache : NodeCache) (answers : Answers Client)
    (calls : List (Call Client)) (exit : Exit) : Prop where
  requeued : ∀ call ∈ calls, call.Failed answers → exit = .requeue
  settled : exit = .done →
    answers.node = .notFound ∨ MalformedNodeId answers.pods ∨ UpToDate lib cache answers calls

/-- The factory is asked only when there is no client yet, and a client it returned is used. -/
theorem ClientWay.created {created : Option Client} {yarnNode : YarnNode} {client : Client}
    {r' : Reconciler Client} {creates : List (Call Client)} {call : Call Client}
    (h : ClientWay r created yarnNode (some client) r' creates) (hcall : call ∈ creates) :
    created = some client := by
  cases h with
  | held _ _ => cases hcall
  | asked _ _ => rfl
  | known _ _ => cases hcall
  | added _ _ h => exact h

/-- No call before the update failed if the update is reached. -/
theorem ToUpdate.not_failed {node : Node} {yarnNode : YarnNode} {client : Client}
    {request : UpdateNodeResourceRequest} {r' : Reconciler Client} {creates : List (Call Client)}
    (hway : ToUpdate lib r answers node yarnNode client request r' creates) {call : Call Client}
    (hcall : call ∈ readCalls name node ++ creates) :
    ¬ call.Failed answers := by
  rcases List.mem_append.mp hcall with hcall | hcall
  · rcases List.mem_pair.mp hcall with rfl | rfl
    · simp [Call.Failed, hway.found]
    · intro hpods
      have hread := hway.hasNodeManager.1
      rw [show answers.pods = none from hpods] at hread
      cases hread
  · have hcreated := (ClientWay.of_eq hway.client).created hcall
    have hcreate := (ClientWay.of_eq hway.client).isCreate hcall
    cases call <;> simp_all [Call.IsCreate, Call.Failed]

/-- What the last call of a way is worth, when no call before it failed. -/
theorem retries_of_patch {node : Node} {core mb : ℤ} {pre : List (Call Client)}
    (hnode : answers.node = .found node) (hholds : Holds cache answers.pods core mb)
    (hpre : ∀ call ∈ pre, ¬ call.Failed answers) :
    Retries lib cache answers
      (pre ++ [.patchNode node.name (allocatedResourcePatch lib node core mb)])
      (exitOfPatch answers) := by
  cases hpatch : answers.patchOk with
  | false =>
    refine ⟨fun _ _ _ => by simp [exitOfPatch, hpatch], fun hdone => ?_⟩
    simp [exitOfPatch, hpatch] at hdone
  | true =>
    constructor
    · intro call hcall hfailed
      rcases List.mem_append.mp hcall with hcall | hcall
      · exact absurd hfailed (hpre call hcall)
      · rw [List.mem_singleton.mp hcall, Call.Failed, hpatch] at hfailed
        cases hfailed
    · intro _
      exact .inr (.inr ⟨node, core, mb, hnode, hholds, by simp, hpatch⟩)

/-- Unless the pods of an existing node cannot be listed, failures are retried. -/
theorem retries_of_path {r' : Reconciler Client} {calls : List (Call Client)} {exit : Exit}
    (hpods : ∀ node, answers.node = .found node → answers.pods ≠ none)
    (h : Path lib r cache name answers r' calls exit) : Retries lib cache answers calls exit := by
  cases h with
  | notFound h => exact ⟨by simp [Call.Failed, h], fun _ => .inl h⟩
  | getFailed h => exact ⟨fun _ _ _ => rfl, nofun⟩
  | noNodeId hnode h =>
    refine ⟨?_, fun _ => .inr (.inl ?_)⟩
    · simp [Call.Failed, hnode, hpods _ hnode]
    · -- with a list of pods, the error is that of parsing the first of them
      cases hlist : answers.pods with
      | none => exact absurd hlist (hpods _ hnode)
      | some pods =>
        rw [hlist] at h
        cases pods with
        | nil => cases h
        | cons nmPod rest =>
          refine ⟨nmPod, rest, rfl, ?_⟩
          cases hpod : yarnNodeOfPod nmPod with
          | error e => rfl
          | ok yarnNode => simp [getYARNNode, getYARNNodeManagerPod, hpod, Except.map] at h
  | @cleared node hnode hread hnone =>
    have hpre : ∀ call ∈ readCalls name node, ¬ call.Failed answers := by
      simp [Call.Failed, hnode, hpods _ hnode]
    exact retries_of_patch hnode (.inr ⟨hnone, rfl, rfl⟩) hpre
  | badOrigin _ _ _ => exact ⟨fun _ _ _ => rfl, nofun⟩
  | noClient _ _ _ => exact ⟨fun _ _ _ => rfl, nofun⟩
  | updateFailed _ _ => exact ⟨fun _ _ _ => rfl, nofun⟩
  | noUsed hway hok _ =>
    refine ⟨fun call hcall hfailed => ?_, nofun⟩
    rcases List.mem_append.mp hcall with hcall | hcall
    · exact absurd hfailed (hway.not_failed hcall)
    · rw [List.mem_singleton.mp hcall, Call.Failed, hok] at hfailed
      cases hfailed
  | @recorded node yarnNode client request _ creates core mb hway hok hused =>
    have hpre : ∀ call ∈ readCalls name node ++ creates ++
        [.updateNodeResource client request], ¬ call.Failed answers := by
      intro call hcall
      rcases List.mem_append.mp hcall with hcall | hcall
      · exact hway.not_failed hcall
      · rw [List.mem_singleton.mp hcall, Call.Failed, hok]
        exact Bool.noConfusion
    have hret : Retries lib cache answers _ _ :=
      retries_of_patch hway.found (.inl ⟨yarnNode, hway.hasNodeManager, hused⟩) hpre
    simpa using hret

/-- Failures are retried exactly when it is not the listing of the pods of an existing node that
fails. -/
theorem reconcile_retries_iff (lib : Library) (r : Reconciler Client) (cache : NodeCache)
    (name : String) (answers : Answers Client) :
    Retries lib cache answers (reconcile lib r cache name answers).calls
        (reconcile lib r cache name answers).exit ↔
      ¬ ((∃ node, answers.node = .found node) ∧ answers.pods = none) := by
  constructor
  · rintro h ⟨⟨node, hnode⟩, hpods⟩
    have hread : getYARNNode answers.pods = .error () := by rw [hpods]; rfl
    -- the failed call is in the trace, and the trace ends without an error
    have hcall : .listNodeManagerPods node.name ∈ (reconcile lib r cache name answers).calls :=
      (mem_reconcile hnode).mpr (.inr (.inl rfl))
    have hdone : (reconcile lib r cache name answers).exit = .done := by
      simp only [reconcile, hnode, reconcileNode, hread, Trace.after]
    rw [h.requeued _ hcall hpods] at hdone
    cases hdone
  · intro h
    apply retries_of_path _ reconcile_path
    intro node hnode hpods
    exact h ⟨⟨node, hnode⟩, hpods⟩

/-- A node that exists and whose pods cannot be listed. -/
def unlistedAnswers : Answers ℕ :=
  { calmAnswers (statusNode (.new 4000) (.new 4096)) with pods := none }

/-- The listing fails, and the request is dropped. -/
theorem reconcile_drops_unlisted :
    ¬ Retries plainLib (fun _ => none) unlistedAnswers
      (reconcile plainLib addedReconciler (fun _ => none) "worker-1" unlistedAnswers).calls
      (reconcile plainLib addedReconciler (fun _ => none) "worker-1" unlistedAnswers).exit := by
  intro h
  have hcall : .listNodeManagerPods "worker-1" ∈
      (reconcile plainLib addedReconciler (fun _ => none) "worker-1" unlistedAnswers).calls :=
    (mem_reconcile rfl).mpr (.inr (.inl rfl))
  have hrequeue := h.requeued _ hcall rfl
  cases hrequeue

end YarnCopilot.NodeResource
