import YarnCopilot.NodeResource.AllocationMap
import YarnCopilot.NodeResource.Exits

/-!
# What Reconcile leaves on the node

The patch is computed from the whole node object and a copy of it with one annotation set. Here the
object is what `Reconcile` reads of it and a rest, patches are those of whole objects, and the
stored object is followed through the calls of a `Reconcile`: first what one `Reconcile` may change,
then that the next one has nothing to change.
-/

namespace YarnCopilot.NodeResource

open Cache KeyedList

variable {Client Rest : Type}

/-! ## Node objects and their patches -/

/-- A node as it is stored. -/
structure NodeObject (Rest : Type) where
  node : Node
  rest : Rest

/-- A merge patch of a node object; `none` leaves a part alone. -/
@[ext] structure NodePatch (Rest : Type) where
  name : Option String
  annotations : MergePatch String String
  allocatable : Option ResourceList
  rest : Option Rest

namespace NodePatch

/-- A patch of annotations alone. -/
def ofAnnotations (annotations : MergePatch String String) : NodePatch Rest :=
  ⟨none, annotations, none, none⟩

/-- The new value of a part that changes. -/
def changed {α : Type} [DecidableEq α] (old new : α) : Option α :=
  if old = new then none else some new

@[simp] theorem changed_self {α : Type} [DecidableEq α] (a : α) : changed a a = none := by
  simp [changed]

@[simp] theorem getD_changed {α : Type} [DecidableEq α] (old new : α) :
    (changed old new).getD old = new := by
  by_cases h : old = new <;> simp [changed, h]

/-- `CreateTwoWayMergePatch` for node objects. -/
def diff [DecidableEq Rest] (old new : NodeObject Rest) : NodePatch Rest where
  name := changed old.node.name new.node.name
  annotations := .diff old.node.annotations new.node.annotations
  allocatable := changed old.node.allocatable new.node.allocatable
  rest := changed old.rest new.rest

/-- What the API server makes of an accepted patch. -/
def apply (patch : NodePatch Rest) (object : NodeObject Rest) : NodeObject Rest where
  node :=
    { name := patch.name.getD object.node.name
      annotations := patch.annotations.apply object.node.annotations
      allocatable := patch.allocatable.getD object.node.allocatable }
  rest := patch.rest.getD object.rest

/-- The patch between two objects turns the one into the other. -/
@[simp] theorem apply_diff [DecidableEq Rest] (old new : NodeObject Rest) :
    (diff old new).apply old = new := by
  simp [diff, apply]

end NodePatch

/-- The copy of the object that `updateYARNAllocatedResource` writes to. -/
def NodeObject.withAllocated (lib : Library) (object : NodeObject Rest) (core mb : ℤ) :
    NodeObject Rest :=
  { object with
    node := { object.node with
      annotations := setYARNAllocatedResource lib object.node.annotations core mb } }

/-- The patch of the whole object is the one of its annotations. -/
theorem diff_withAllocated [DecidableEq Rest] (lib : Library) (object : NodeObject Rest)
    (core mb : ℤ) :
    NodePatch.diff object (object.withAllocated lib core mb) =
      .ofAnnotations (allocatedResourcePatch lib object.node core mb) := by
  simp [NodePatch.diff, NodeObject.withAllocated, NodePatch.ofAnnotations, allocatedResourcePatch]

/-! ## The stored node -/

/-- The stored object after a call: only an accepted patch changes it. -/
def storeCall (answers : Answers Client) (object : NodeObject Rest) : Call Client → NodeObject Rest
  | .patchNode _ patch =>
    if answers.patchOk then (NodePatch.ofAnnotations patch).apply object else object
  | _ => object

/-- The stored object after some calls. -/
def storedAfter (answers : Answers Client) (calls : List (Call Client)) (object : NodeObject Rest) :
    NodeObject Rest :=
  calls.foldl (storeCall answers) object

variable {lib : Library} {r r' : Reconciler Client} {cache : NodeCache} {name : String}
  {answers : Answers Client} {calls : List (Call Client)} {exit : Exit} {stored : NodeObject Rest}

/-- Without a patch the object stays. -/
theorem storedAfter_of_no_patch (h : ∀ call ∈ calls, call.isPatch = false) :
    storedAfter answers calls stored = stored := by
  induction calls with
  | nil => rfl
  | cons call calls ih =>
    have hcall : storeCall answers stored call = stored := by
      have hno := h call List.mem_cons_self
      cases call with
      | patchNode _ _ => cases hno
      | _ => rfl
    rw [storedAfter, List.foldl_cons, hcall]
    exact ih fun call hmem => h call (List.mem_cons_of_mem _ hmem)

theorem storedAfter_append_patch {pre : List (Call Client)} {core mb : ℤ} {nodeName : String}
    (hpre : ∀ call ∈ pre, call.isPatch = false) :
    storedAfter answers
        (pre ++ [.patchNode nodeName (allocatedResourcePatch lib stored.node core mb)]) stored =
      if answers.patchOk then stored.withAllocated lib core mb else stored := by
  classical
  have hbefore : pre.foldl (storeCall answers) stored = stored := storedAfter_of_no_patch hpre
  rw [storedAfter, List.foldl_append, hbefore, List.foldl_cons, List.foldl_nil, storeCall,
    ← diff_withAllocated, NodePatch.apply_diff]

/-! ## The patch of a Reconcile -/

theorem countP_eq_zero_of_false {p : Call Client → Bool} (h : ∀ call ∈ calls, p call = false) :
    calls.countP p = 0 :=
  List.countP_eq_zero.mpr fun call hcall => by simp [h call hcall]

/-- Where no call is a patch, none of these is. -/
theorem patch_not_mem {nodeName : String} {patch : MergePatch String String}
    (h : ∀ call ∈ calls, call.isPatch = false) : .patchNode nodeName patch ∉ calls := by
  intro hmem
  cases h _ hmem

/-- The one patch at the end. -/
theorem patch_of_mem_append {pre : List (Call Client)} {nodeName nodeName' : String}
    {patch patch' : MergePatch String String} (hpre : ∀ call ∈ pre, call.isPatch = false)
    (hmem : .patchNode nodeName patch ∈ pre ++ [.patchNode nodeName' patch']) : patch = patch' := by
  rcases List.mem_append.mp hmem with hmem | hmem
  · exact absurd hmem (patch_not_mem hpre)
  · exact (Call.patchNode.inj (List.mem_singleton.mp hmem)).2

theorem ToUpdate.records {node : Node} {yarnNode : YarnNode} {client : Client}
    {request : UpdateNodeResourceRequest} {creates : List (Call Client)}
    (hway : ToUpdate lib r answers node yarnNode client request r' creates)
    (hok : answers.updateOk = true) : Records lib r answers node yarnNode := by
  obtain ⟨batch, hbatch, -⟩ := hway.batch
  refine ⟨⟨batch, hbatch⟩, ?_, hok⟩
  rw [hway.client]
  rfl

/-- Behind the way to the update, a patch is one of the rest. -/
theorem ToUpdate.isPatch_append {node : Node} {yarnNode : YarnNode} {client : Client}
    {request : UpdateNodeResourceRequest} {creates tail : List (Call Client)}
    (hway : ToUpdate lib r answers node yarnNode client request r' creates)
    (htail : ∀ call ∈ tail, call.isPatch = false) :
    ∀ call ∈ readCalls name node ++ creates ++ tail, call.isPatch = false := by
  intro call hcall
  by_contra hpatch
  rw [Bool.not_eq_false] at hpatch
  rw [htail call (hway.mem_tail hcall (.inr hpatch))] at hpatch
  cases hpatch

/-- Behind the way to the update, the updates are those of the rest. -/
theorem ToUpdate.countP_isUpdate {node : Node} {yarnNode : YarnNode} {client : Client}
    {request : UpdateNodeResourceRequest} {creates : List (Call Client)}
    (hway : ToUpdate lib r answers node yarnNode client request r' creates)
    (tail : List (Call Client)) :
    (readCalls name node ++ creates ++ tail).countP Call.isUpdate = tail.countP Call.isUpdate := by
  have hzero : (readCalls name node ++ creates).countP Call.isUpdate = 0 :=
    countP_eq_zero_of_false fun call hcall => ((ClientWay.of_eq hway.client).neither hcall).1
  rw [List.countP_append, hzero, Nat.zero_add]

/-- What a `Reconcile` that gets as far as the patch records: nothing held without a NodeManager,
and otherwise what the cache has for it. -/
def Recording (lib : Library) (r : Reconciler Client) (cache : NodeCache) (answers : Answers Client)
    (node : Node) (core mb : ℤ) : Prop :=
  ((∃ result, getYARNNode answers.pods = .ok result) ∧
    (∀ yarnNode, ¬ HasNodeManager answers.pods yarnNode) ∧ core = 0 ∧ mb = 0) ∨
  ∃ yarnNode, HasNodeManager answers.pods yarnNode ∧ Records lib r answers node yarnNode ∧
    getYARNNodeAllocatedResource cache yarnNode = some (core, mb)

theorem Recording.holds {node : Node} {core mb : ℤ}
    (h : Recording lib r cache answers node core mb) : Holds cache answers.pods core mb := by
  rcases h with ⟨-, hnone⟩ | ⟨yarnNode, hyarn, -, hused⟩
  · exact .inr hnone
  · exact .inl ⟨yarnNode, hyarn, hused⟩

theorem Recording.read {node : Node} {core mb : ℤ}
    (h : Recording lib r cache answers node core mb) :
    ∃ result, getYARNNode answers.pods = .ok result := by
  rcases h with ⟨hread, -⟩ | ⟨yarnNode, hyarn, -⟩
  · exact hread
  · exact ⟨some yarnNode, hyarn.1⟩

/-- A way ends with the one patch of what it records, or has none. -/
theorem Path.patch (h : Path lib r cache name answers r' calls exit) :
    (∀ call ∈ calls, call.isPatch = false) ∨
      ∃ node core mb pre, answers.node = .found node ∧
        Recording lib r cache answers node core mb ∧
        calls = pre ++ [.patchNode node.name (allocatedResourcePatch lib node core mb)] ∧
        (∀ call ∈ pre, call.isPatch = false) ∧ exit = exitOfPatch answers := by
  cases h with
  | notFound _ => exact .inl (by simp [Call.isPatch])
  | getFailed _ => exact .inl (by simp [Call.isPatch])
  | noNodeId _ _ => exact .inl (by simp [Call.isPatch])
  | @cleared node hnode hread hnone =>
    refine .inr ⟨node, 0, 0, readCalls name node, hnode,
      .inl ⟨hread, hnone, rfl, rfl⟩, rfl, ?_, rfl⟩
    simp [Call.isPatch]
  | badOrigin _ _ _ => exact .inl (by simp [Call.isPatch])
  | noClient _ _ h => exact .inl fun call hcall => ((ClientWay.of_eq h).neither hcall).2
  | updateFailed hway _ => exact .inl (hway.isPatch_append (by simp [Call.isPatch]))
  | noUsed hway _ _ => exact .inl (hway.isPatch_append (by simp [Call.isPatch]))
  | @recorded node yarnNode client request _ creates core mb hway hok hused =>
    refine .inr ⟨node, core, mb, readCalls name node ++ creates ++
      [.updateNodeResource client request], hway.found,
      .inr ⟨yarnNode, hway.hasNodeManager, hway.records hok, hused⟩, by simp, ?_, rfl⟩
    exact hway.isPatch_append (by simp [Call.isPatch])

/-- There is at most one update on a way. -/
theorem Path.countP_isUpdate (h : Path lib r cache name answers r' calls exit) :
    calls.countP Call.isUpdate ≤ 1 := by
  cases h with
  | notFound _ => simp [Call.isUpdate]
  | getFailed _ => simp [Call.isUpdate]
  | noNodeId _ _ => simp [Call.isUpdate]
  | cleared _ _ _ => simp [Call.isUpdate]
  | badOrigin _ _ _ => simp [Call.isUpdate]
  | noClient _ _ h =>
    rw [countP_eq_zero_of_false fun call hcall => ((ClientWay.of_eq h).neither hcall).1]
    exact Nat.zero_le _
  | updateFailed hway _ =>
    rw [hway.countP_isUpdate]
    simp [List.countP_cons, Call.isUpdate]
  | noUsed hway _ _ =>
    rw [hway.countP_isUpdate]
    simp [Call.isUpdate]
  | recorded hway _ _ =>
    rw [hway.countP_isUpdate]
    simp [List.countP_cons, Call.isUpdate]

/-- There is at most one patch on a way. -/
theorem Path.countP_isPatch (h : Path lib r cache name answers r' calls exit) :
    calls.countP Call.isPatch ≤ 1 := by
  rcases h.patch with hno | ⟨node, core, mb, pre, _, _, rfl, hpre, _⟩
  · rw [countP_eq_zero_of_false hno]
    exact Nat.zero_le _
  · rw [List.countP_append, countP_eq_zero_of_false hpre]
    simp [Call.isPatch]

/-- With a NodeManager, a patch comes right after an update that succeeded. -/
theorem Path.after_update {nodeName : String} {patch : MergePatch String String}
    {yarnNode : YarnNode} (h : Path lib r cache name answers r' calls exit)
    (hpatch : .patchNode nodeName patch ∈ calls) (hyarn : HasNodeManager answers.pods yarnNode) :
    answers.updateOk = true ∧ ∃ pre client request,
      calls = pre ++ [.updateNodeResource client request, .patchNode nodeName patch] := by
  cases h with
  | notFound _ => simp at hpatch
  | getFailed _ => simp at hpatch
  | noNodeId _ _ => simp at hpatch
  | cleared _ _ hnone => exact absurd hyarn (hnone yarnNode)
  | badOrigin _ _ _ => simp at hpatch
  | noClient _ _ h => cases ((ClientWay.of_eq h).neither hpatch).2
  | updateFailed hway _ => simpa using hway.mem_tail hpatch (.inr rfl)
  | noUsed hway _ _ => simpa using hway.mem_tail hpatch (.inr rfl)
  | @recorded node _ client request _ creates core mb hway hok _ =>
    have heq : nodeName = node.name ∧ patch = allocatedResourcePatch lib node core mb := by
      simpa using hway.mem_tail hpatch (.inr rfl)
    rw [heq.1, heq.2]
    exact ⟨hok, _, client, request, rfl⟩

/-- A step before the patch fails: there is no node to read, its NodeManager cannot be told, its
batch resources cannot be read, there is no client, or YARN refuses the update. -/
inductive StepFailed (lib : Library) (r : Reconciler Client) (answers : Answers Client) (node : Node) :
    Prop
  | get (h : ∀ node, answers.node ≠ .found node)
  | list (h : answers.pods = none)
  | nodeId (h : MalformedNodeId answers.pods)
  | batch {yarnNode : YarnNode} (hyarn : HasNodeManager answers.pods yarnNode)
      (h : getNodeBatchResource lib node = .error ())
  | client {yarnNode : YarnNode} (hyarn : HasNodeManager answers.pods yarnNode)
      (h : (getYARNClient r answers.client yarnNode).1 = none)
  | update {yarnNode : YarnNode} (hyarn : HasNodeManager answers.pods yarnNode)
      (h : answers.updateOk = false)

theorem getYARNNode_of_malformed {pods : Option (List Pod)} (h : MalformedNodeId pods) :
    getYARNNode pods = .error () := by
  obtain ⟨nmPod, rest, rfl, hpod⟩ := h
  simp [getYARNNode, getYARNNodeManagerPod, hpod, Except.map]

/-- Nothing is recorded after a failed step. -/
theorem StepFailed.not_records {node : Node} {core mb : ℤ}
    (hfailed : StepFailed lib r answers node) (hnode : answers.node = .found node)
    (hrecords : Recording lib r cache answers node core mb) : False := by
  obtain ⟨result, hread⟩ := hrecords.read
  -- with a NodeManager, everything up to the update went through
  have hway : ∀ {yarnNode}, HasNodeManager answers.pods yarnNode →
      Records lib r answers node yarnNode := by
    intro yarnNode hyarn
    rcases hrecords with ⟨-, hnone, -⟩ | ⟨yarnNode', hyarn', hrecords, -⟩
    · exact absurd hyarn (hnone yarnNode)
    · rw [hyarn.unique hyarn']
      exact hrecords
  cases hfailed with
  | get h => exact h node hnode
  | list h =>
    rw [h] at hread
    cases hread
  | nodeId h =>
    rw [getYARNNode_of_malformed h] at hread
    cases hread
  | batch hyarn h =>
    obtain ⟨batch, hbatch⟩ := (hway hyarn).1
    rw [h] at hbatch
    cases hbatch
  | client hyarn h =>
    have hsome := (hway hyarn).2.1
    rw [h] at hsome
    cases hsome
  | update hyarn h =>
    have hok := (hway hyarn).2.2
    rw [h] at hok
    cases hok

/-! ## One Reconcile -/

/-- The two objects differ in the recorded allocations alone, and those in YARN's entry: it is
replaced or appended, and is the only one where no list could be read. -/
structure AllocationReplaced (lib : Library) (core mb : ℤ) (stored after : NodeObject Rest) : Prop where
  rest : after.rest = stored.rest
  name : after.node.name = stored.node.name
  allocatable : after.node.allocatable = stored.node.allocatable
  annotations : ∀ key, key ≠ nodeThirdPartyAllocationsAnnotationKey →
    after.node.annotations key = stored.node.annotations key
  allocations : ∃ allocs,
    getThirdPartyAllocations lib after.node.annotations = .ok (some ⟨allocs⟩) ∧
    (∀ old, getThirdPartyAllocations lib stored.node.annotations = .ok (some old) →
      Replaces ThirdPartyAllocation.name (yarnAllocation core mb) old.allocations allocs) ∧
    ((∀ old, getThirdPartyAllocations lib stored.node.annotations ≠ .ok (some old)) →
      allocs = [yarnAllocation core mb])

theorem allocationReplaced_withAllocated (lib : Library) (stored : NodeObject Rest) (core mb : ℤ) :
    AllocationReplaced lib core mb stored (stored.withAllocated lib core mb) where
  rest := rfl
  name := rfl
  allocatable := rfl
  annotations := fun _ hkey => setThirdPartyAllocation_of_ne hkey
  allocations := by
    refine ⟨_, getThirdPartyAllocations_set, fun old hold => ?_, fun hnone => ?_⟩
    · have hlist : oldAllocations lib stored.node.annotations = old.allocations := by
        simp only [oldAllocations, hold]
      rw [createOrUpdate_eq_upsert, hlist]
      exact replaces_upsert old.allocations
    · have hempty : oldAllocations lib stored.node.annotations = [] := by
        unfold oldAllocations
        split
        · next old hold => exact absurd hold (hnone old)
        · rfl
      rw [hempty]
      rfl

/-- What one `Reconcile` may do between the object it read and the one it leaves. -/
structure Frame (lib : Library) (r : Reconciler Client) (cache : NodeCache) (answers : Answers Client)
    (calls : List (Call Client)) (stored after : NodeObject Rest) : Prop where
  one_update : calls.countP Call.isUpdate ≤ 1
  one_patch : calls.countP Call.isPatch ≤ 1
  after_update : ∀ nodeName patch yarnNode, .patchNode nodeName patch ∈ calls →
    HasNodeManager answers.pods yarnNode → answers.updateOk = true ∧ ∃ pre client request,
      calls = pre ++ [.updateNodeResource client request, .patchNode nodeName patch]
  clears : ∀ nodeName patch, .patchNode nodeName patch ∈ calls →
    (∀ yarnNode, ¬ HasNodeManager answers.pods yarnNode) →
      patch = allocatedResourcePatch lib stored.node 0 0
  kept : StepFailed lib r answers stored.node ∨ answers.patchOk = false → after = stored
  patched : ∀ nodeName patch, .patchNode nodeName patch ∈ calls → answers.patchOk = true →
    ∃ core mb, Holds cache answers.pods core mb ∧ AllocationReplaced lib core mb stored after

/-- At most one update and one patch; the patch after a successful update, or to clear; and a node
that is left alone but for YARN's entry. -/
theorem reconcile_frame (lib : Library) (r : Reconciler Client) (cache : NodeCache) (name : String)
    (answers : Answers Client) (stored : NodeObject Rest)
    (hread : ∀ node, answers.node = .found node → node = stored.node) :
    Frame lib r cache answers (reconcile lib r cache name answers).calls stored
      (storedAfter answers (reconcile lib r cache name answers).calls stored) := by
  have hpath : Path lib r cache name answers _ (reconcile lib r cache name answers).calls
      (reconcile lib r cache name answers).exit := reconcile_path
  generalize (reconcile lib r cache name answers).calls = calls at hpath ⊢
  have hafter : ∀ nodeName patch yarnNode, .patchNode nodeName patch ∈ calls →
      HasNodeManager answers.pods yarnNode → answers.updateOk = true ∧ ∃ pre client request,
        calls = pre ++ [.updateNodeResource client request, .patchNode nodeName patch] :=
    fun _ _ _ hmem hyarn => hpath.after_update hmem hyarn
  rcases hpath.patch with hno | ⟨node, core, mb, pre, hnode, hrec, hcalls, hpre, -⟩
  · have hkept : storedAfter answers calls stored = stored := storedAfter_of_no_patch hno
    exact ⟨hpath.countP_isUpdate, hpath.countP_isPatch, hafter,
      fun _ _ hmem => absurd hmem (patch_not_mem hno), fun _ => hkept,
      fun _ _ hmem => absurd hmem (patch_not_mem hno)⟩
  · obtain rfl := hread node hnode
    have hstored : storedAfter answers calls stored =
        if answers.patchOk then stored.withAllocated lib core mb else stored := by
      rw [hcalls]
      exact storedAfter_append_patch hpre
    refine ⟨hpath.countP_isUpdate, hpath.countP_isPatch, hafter, ?_, ?_, ?_⟩
    · intro nodeName patch hmem hnone
      have hzero : core = 0 ∧ mb = 0 := by
        rcases hrec with ⟨-, -, hzero⟩ | ⟨yarnNode, hyarn, -⟩
        · exact hzero
        · exact absurd hyarn (hnone yarnNode)
      rw [hcalls] at hmem
      rw [patch_of_mem_append hpre hmem, hzero.1, hzero.2]
    · rintro (hfailed | hrefused)
      · exact (hfailed.not_records hnode hrec).elim
      · rw [hstored, hrefused]
        rfl
    · intro _ _ _ haccepted
      rw [hstored, haccepted]
      exact ⟨core, mb, hrec.holds, allocationReplaced_withAllocated lib stored core mb⟩

/-- A calm `Reconcile` of a node with a label. -/
theorem reconcile_frame_calm :
    Frame plainLib addedReconciler (fun _ => none) (calmAnswers (statusNode (.new 2000) 0))
      (reconcile plainLib addedReconciler (fun _ => none) "worker-1"
        (calmAnswers (statusNode (.new 2000) 0))).calls
      (⟨statusNode (.new 2000) 0, "zone=a"⟩ : NodeObject String)
      (storedAfter (calmAnswers (statusNode (.new 2000) 0))
        (reconcile plainLib addedReconciler (fun _ => none) "worker-1"
          (calmAnswers (statusNode (.new 2000) 0))).calls ⟨statusNode (.new 2000) 0, "zone=a"⟩) := by
  apply reconcile_frame
  intro node hnode
  exact (GetNode.found.inj hnode).symm

/-! ## The next Reconcile -/

/-- Setting the same allocation a second time changes nothing, whatever the annotation held before
the first. -/
theorem setThirdPartyAllocation_idem (lib : Library) (annotations : Annotations)
    (alloc : ThirdPartyAllocation) :
    setThirdPartyAllocation lib (setThirdPartyAllocation lib annotations alloc) alloc =
      setThirdPartyAllocation lib annotations alloc := by
  have hlist : createOrUpdate alloc
      (oldAllocations lib (setThirdPartyAllocation lib annotations alloc)) =
        createOrUpdate alloc (oldAllocations lib annotations) := by
    rw [oldAllocations_set, createOrUpdate_eq_upsert, upsert_upsert, createOrUpdate_eq_upsert]
  funext key
  by_cases hkey : key = nodeThirdPartyAllocationsAnnotationKey
  · rw [hkey, setThirdPartyAllocation_key, setThirdPartyAllocation_key, hlist]
  · rw [setThirdPartyAllocation_of_ne hkey]

/-- The patch for an allocation that is recorded already is empty. -/
theorem allocatedResourcePatch_withAllocated (stored : NodeObject Rest) (core mb : ℤ) :
    allocatedResourcePatch lib (stored.withAllocated lib core mb).node core mb = fun _ => none := by
  have hidem := setThirdPartyAllocation_idem lib stored.node.annotations (yarnAllocation core mb)
  funext key
  simp only [allocatedResourcePatch, NodeObject.withAllocated, setYARNAllocatedResource, hidem,
    MergePatch.diff, if_true]

/-- What YARN holds is determined by the pods and by what the cache has for the NodeManager. -/
theorem Holds.unique {cache' : NodeCache} {pods : Option (List Pod)} {core mb core' mb' : ℤ}
    (hcache : ∀ yarnNode, HasNodeManager pods yarnNode →
      cache'.getNodeResource yarnNode = cache.getNodeResource yarnNode)
    (h : Holds cache pods core mb) (h' : Holds cache' pods core' mb') : core' = core ∧ mb' = mb := by
  rcases h with ⟨yarnNode, hyarn, hused⟩ | ⟨hnone, rfl, rfl⟩
  · rcases h' with ⟨yarnNode', hyarn', hused'⟩ | ⟨hnone', -, -⟩
    · obtain rfl := hyarn.unique hyarn'
      rw [getYARNNodeAllocatedResource, hcache yarnNode hyarn, ← getYARNNodeAllocatedResource,
        hused] at hused'
      simpa using hused'.symm
    · exact absurd hyarn (hnone' yarnNode)
  · rcases h' with ⟨yarnNode', hyarn', -⟩ | ⟨-, rfl, rfl⟩
    · exact absurd hyarn' (hnone yarnNode')
    · exact ⟨rfl, rfl⟩

theorem withAllocated_idem (stored : NodeObject Rest) (core mb : ℤ) :
    (stored.withAllocated lib core mb).withAllocated lib core mb =
      stored.withAllocated lib core mb := by
  simp only [NodeObject.withAllocated, setYARNAllocatedResource, setThirdPartyAllocation_idem]

/-- A way that ends well without a patch is the one without a node id. -/
theorem Path.getYARNNode_of_no_patch {node : Node} (h : Path lib r cache name answers r' calls exit)
    (hnode : answers.node = .found node) (hno : ∀ call ∈ calls, call.isPatch = false)
    (hdone : exit = .done) : getYARNNode answers.pods = .error () := by
  cases h with
  | notFound h => exact absurd (hnode.symm.trans h) nofun
  | noNodeId _ h => exact h
  | cleared _ _ _ => simp [Call.isPatch] at hno
  | recorded _ _ _ =>
    have hpatch := hno _ (List.mem_append_right _ (List.mem_cons_of_mem _ List.mem_cons_self))
    cases hpatch
  | _ => cases hdone

/-- After a `Reconcile` that ended well, the next one of the stored node has nothing to change, as
long as neither the pods nor what the cache has for the NodeManager change. -/
theorem reconcile_fixed_point (lib : Library) (r r' : Reconciler Client) (cache cache' : NodeCache)
    (name name' : String) (answers answers' : Answers Client) (stored : NodeObject Rest)
    (hnode : answers.node = .found stored.node)
    (hdone : (reconcile lib r cache name answers).exit = .done)
    (hnode' : answers'.node =
      .found (storedAfter answers (reconcile lib r cache name answers).calls stored).node)
    (hpods : answers'.pods = answers.pods)
    (hcache : ∀ yarnNode, HasNodeManager answers.pods yarnNode →
      cache'.getNodeResource yarnNode = cache.getNodeResource yarnNode) :
    (∀ nodeName patch,
      .patchNode nodeName patch ∈ (reconcile lib r' cache' name' answers').calls →
        patch = fun _ => none) ∧
    storedAfter answers' (reconcile lib r' cache' name' answers').calls
        (storedAfter answers (reconcile lib r cache name answers).calls stored) =
      storedAfter answers (reconcile lib r cache name answers).calls stored := by
  have hpath : Path lib r cache name answers _ _ _ := reconcile_path
  have hpath' : Path lib r' cache' name' answers' _ _ _ := reconcile_path
  rw [hdone] at hpath
  generalize (reconcile lib r cache name answers).calls = calls at *
  generalize (reconcile lib r' cache' name' answers').calls = calls' at *
  rcases hpath'.patch with hno' | ⟨node', core', mb', pre', hfound', hrec', hcalls', hpre', -⟩
  · exact ⟨fun _ _ hmem => absurd hmem (patch_not_mem hno'), storedAfter_of_no_patch hno'⟩
  · obtain rfl : node' = (storedAfter answers calls stored).node :=
      GetNode.found.inj (hfound'.symm.trans hnode')
    rcases hpath.patch with hno | ⟨node, core, mb, pre, hfound, hrec, hcalls, hpre, hexit⟩
    · -- without a node id the next one has no patch either
      obtain ⟨result, hread⟩ := hrec'.read
      rw [hpods, hpath.getYARNNode_of_no_patch hnode hno rfl] at hread
      cases hread
    · obtain rfl : node = stored.node := GetNode.found.inj (hfound.symm.trans hnode)
      -- the first patch was accepted, and the second records the same
      have haccepted : answers.patchOk = true := by
        by_contra hrefused
        simp [exitOfPatch, hrefused] at hexit
      have hstored : storedAfter answers calls stored = stored.withAllocated lib core mb := by
        rw [hcalls, storedAfter_append_patch hpre, haccepted, if_pos rfl]
      have hsame : core' = core ∧ mb' = mb := by
        have hholds' := hrec'.holds
        rw [hpods] at hholds'
        exact hrec.holds.unique hcache hholds'
      rw [hsame.1, hsame.2, hstored] at hcalls'
      rw [hstored]
      constructor
      · intro nodeName patch hmem
        rw [hcalls'] at hmem
        rw [patch_of_mem_append hpre' hmem, allocatedResourcePatch_withAllocated]
      · rw [hcalls', storedAfter_append_patch hpre', withAllocated_idem, ite_self]

/-- The node that a calm `Reconcile` leaves. -/
def calmlyStored : NodeObject String :=
  storedAfter (calmAnswers (statusNode (.new 2000) 0))
    (reconcile plainLib addedReconciler (fun _ => none) "worker-1"
      (calmAnswers (statusNode (.new 2000) 0))).calls ⟨statusNode (.new 2000) 0, "zone=a"⟩

theorem reconcile_fixed_point_calm :
    (∀ nodeName patch,
      .patchNode nodeName patch ∈ (reconcile plainLib addedReconciler (fun _ => none) "worker-1"
        (calmAnswers calmlyStored.node)).calls → patch = fun _ => none) ∧
    storedAfter (calmAnswers calmlyStored.node)
      (reconcile plainLib addedReconciler (fun _ => none) "worker-1"
        (calmAnswers calmlyStored.node)).calls calmlyStored = calmlyStored := by
  have hdone : (reconcile plainLib addedReconciler (fun _ => none) "worker-1"
      (calmAnswers (statusNode (.new 2000) 0))).exit = .done := by
    rw [reconcile_eq rfl (hasNodeManager_calmAnswers _) (getNodeBatchResource_statusNode _ _)
      (by decide) rfl rfl rfl]
    rfl
  exact reconcile_fixed_point plainLib addedReconciler addedReconciler (fun _ => none)
    (fun _ => none) "worker-1" "worker-1" _ _ ⟨statusNode (.new 2000) 0, "zone=a"⟩ rfl hdone rfl rfl
    fun _ _ => rfl

end YarnCopilot.NodeResource
