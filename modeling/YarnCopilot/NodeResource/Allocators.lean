import YarnCopilot.Common.Run
import YarnCopilot.NodeResource.Frame
import YarnCopilot.NodeResource.Json

/-!
# Several allocators on one node

The list of allocations is one annotation, and the patch that sets one allocation carries the whole
list as its writer saw it. Each allocator reads the node, sets its own allocation on the copy, and
sends the patch; the API server applies it to whatever the annotation is by then.

`allocations_kept` is what the annotation is for: every allocator finds its last accepted allocation
on the node. It needs that the annotation is still the one that was read when a patch arrives that
changes it, which nothing in the patch asks the server to check. `sharedStep_reconcile` says that
the patches of `Reconcile` are steps of this kind.
-/

namespace YarnCopilot.NodeResource

/-- The node on the API server, the copies the allocators have read and not used yet, and the last
accepted allocation of each. Allocators are known by name. -/
structure SharedNode where
  annotations : Annotations
  copies : String → Option Annotations
  accepted : String → Option ThirdPartyAllocation

/-- An allocator reads the node, or sends the patch for its allocation. -/
inductive AllocatorAct
  | read (name : String)
  | patch (alloc : ThirdPartyAllocation)

variable (lib : Library)

/-- One step. A patch is computed from the copy and applied unconditionally. -/
def sharedStep (s : SharedNode) : AllocatorAct → SharedNode
  | .read name => { s with copies := Function.update s.copies name (some s.annotations) }
  | .patch alloc =>
    match s.copies alloc.name with
    | none => s
    | some copy =>
      { annotations := (thirdPartyPatch lib copy alloc).apply s.annotations
        copies := Function.update s.copies alloc.name none
        accepted := Function.update s.accepted alloc.name (some alloc) }

/-- The node before any of them has come to it. -/
def freshNode (annotations : Annotations) : SharedNode :=
  ⟨annotations, fun _ => none, fun _ => none⟩

/-- The annotation lists the last accepted allocation of every allocator. -/
def AllKept (s : SharedNode) : Prop :=
  ∀ name alloc, s.accepted name = some alloc →
    ∃ l, getThirdPartyAllocations lib s.annotations = .ok (some l) ∧ alloc ∈ l.allocations

/-- A patch reaches the annotation its allocator has read, or is empty. -/
def CopyFresh (s : SharedNode) : AllocatorAct → Prop
  | .read _ => True
  | .patch alloc => ∀ copy, s.copies alloc.name = some copy →
    s.annotations nodeThirdPartyAllocationsAnnotationKey =
        copy nodeThirdPartyAllocationsAnnotationKey ∨
      thirdPartyPatch lib copy alloc = fun _ => none

/-! ## The reconciler -/

/-- The reconciler is the allocator of this name. -/
theorem allocatedResourcePatch_eq (node : Node) (vcores memoryMB : ℤ) :
    allocatedResourcePatch lib node vcores memoryMB =
      thirdPartyPatch lib node.annotations (yarnAllocation vcores memoryMB) :=
  rfl

/-- A patch of `Reconcile` does to the annotations what a step of this allocator does that has read
them with the node. -/
theorem sharedStep_reconcile {Client : Type} (r : Reconciler Client) (cache : Cache.NodeCache)
    (name : String) (answers : Answers Client) {nodeName : String}
    {patch : MergePatch String String}
    (h : .patchNode nodeName patch ∈ (reconcile lib r cache name answers).calls) :
    ∃ node core mb, answers.node = .found node ∧
      ∀ s : SharedNode, s.copies yarnAllocationName = some node.annotations →
        (sharedStep lib s (.patch (yarnAllocation core mb))).annotations =
          patch.apply s.annotations := by
  have hpath : Path lib r cache name answers _ (reconcile lib r cache name answers).calls _ :=
    reconcile_path
  rcases hpath.patch with hnone | ⟨node, core, mb, pre, hnode, -, hcalls, hpre, -⟩
  · cases hnone _ h
  · rw [hcalls] at h
    refine ⟨node, core, mb, hnode, fun s hcopy => ?_⟩
    have hcopy' : s.copies (yarnAllocation core mb).name = some node.annotations := hcopy
    rw [patch_of_mem_append hpre h, allocatedResourcePatch_eq]
    simp only [sharedStep, hcopy']

/-! ## The invariant -/

/-- `AllKept`, each allocation under its own name, and for a patch that is empty: what an allocator
has read of its own is still on the node. -/
structure Kept (s : SharedNode) : Prop where
  named : ∀ name alloc, s.accepted name = some alloc → alloc.name = name
  kept : AllKept lib s
  own : ∀ copy alloc, s.copies alloc.name = some copy → alloc ∈ oldAllocations lib copy →
    alloc ∈ oldAllocations lib s.annotations

variable {lib}

theorem kept_freshNode (annotations : Annotations) : Kept lib (freshNode annotations) where
  named := by
    intro name alloc h
    cases h
  kept := by
    intro name alloc h
    cases h
  own := by
    intro copy alloc h
    cases h

theorem mem_oldAllocations {annotations : Annotations} {alloc : ThirdPartyAllocation} :
    alloc ∈ oldAllocations lib annotations ↔
      ∃ l, getThirdPartyAllocations lib annotations = .ok (some l) ∧ alloc ∈ l.allocations := by
  unfold oldAllocations
  split
  · rename_i old hold
    simp [hold]
  · rename_i hold
    exact iff_of_false List.not_mem_nil fun ⟨l, hl, _⟩ => hold l hl

/-- A patch is empty only if the allocation is in the copy already. -/
theorem mem_oldAllocations_of_empty {copy : Annotations} {alloc : ThirdPartyAllocation}
    (h : thirdPartyPatch lib copy alloc = fun _ => none) : alloc ∈ oldAllocations lib copy := by
  have hkey := congrFun h nodeThirdPartyAllocationsAnnotationKey
  rw [thirdPartyPatch, MergePatch.diff, ite_eq_left_iff] at hkey
  have hsame : copy nodeThirdPartyAllocationsAnnotationKey =
      setThirdPartyAllocation lib copy alloc nodeThirdPartyAllocationsAnnotationKey := by
    by_contra hne
    cases hkey hne
  rw [setThirdPartyAllocation_key] at hsame
  exact mem_oldAllocations.mpr
    ⟨_, getThirdPartyAllocations_of_encode hsame, mem_createOrUpdate_self _ _⟩

/-- A patch computed from a fresh copy leaves the new list on the node. -/
theorem getThirdPartyAllocations_apply {annotations copy : Annotations}
    (h : annotations nodeThirdPartyAllocationsAnnotationKey =
      copy nodeThirdPartyAllocationsAnnotationKey) (alloc : ThirdPartyAllocation) :
    getThirdPartyAllocations lib ((thirdPartyPatch lib copy alloc).apply annotations) =
      .ok (some ⟨createOrUpdate alloc (oldAllocations lib annotations)⟩) := by
  refine getThirdPartyAllocations_of_encode ?_
  rw [oldAllocations_congr h, ← setThirdPartyAllocation_key]
  exact MergePatch.apply_diff_of_fresh h

/-- After a patch the accepted allocations are the new one and those of the others. -/
theorem accepted_update {accepted : String → Option ThirdPartyAllocation}
    {alloc a : ThirdPartyAllocation} {name : String}
    (h : Function.update accepted alloc.name (some alloc) name = some a) :
    (name = alloc.name ∧ a = alloc) ∨ (name ≠ alloc.name ∧ accepted name = some a) := by
  by_cases hname : name = alloc.name
  · rw [hname, Function.update_self] at h
    exact .inl ⟨hname, (Option.some.inj h).symm⟩
  · rw [Function.update_of_ne hname] at h
    exact .inr ⟨hname, h⟩

/-- After a patch only the other allocators have copies. -/
theorem copies_update {copies : String → Option Annotations} {copy : Annotations}
    {alloc a : ThirdPartyAllocation}
    (h : Function.update copies alloc.name none a.name = some copy) :
    a.name ≠ alloc.name ∧ copies a.name = some copy := by
  by_cases hname : a.name = alloc.name
  · rw [hname, Function.update_self] at h
    cases h
  · rw [Function.update_of_ne hname] at h
    exact ⟨hname, h⟩

/-- A patch keeps the invariant if it leaves the new allocation on the node, and those under other
names that were there. -/
theorem Kept.patch {s : SharedNode} (h : Kept lib s) {annotations : Annotations}
    {alloc : ThirdPartyAllocation} (hself : alloc ∈ oldAllocations lib annotations)
    (hothers : ∀ a ∈ oldAllocations lib s.annotations, a.name ≠ alloc.name →
      a ∈ oldAllocations lib annotations) :
    Kept lib ⟨annotations, Function.update s.copies alloc.name none,
      Function.update s.accepted alloc.name (some alloc)⟩ where
  named := by
    intro name a ha
    rcases accepted_update ha with ⟨rfl, rfl⟩ | ⟨_, ha⟩
    · rfl
    · exact h.named name a ha
  kept := by
    intro name a ha
    refine mem_oldAllocations.mp ?_
    rcases accepted_update ha with ⟨_, rfl⟩ | ⟨hname, ha⟩
    · exact hself
    · have hne : a.name ≠ alloc.name := by rwa [h.named name a ha]
      exact hothers a (mem_oldAllocations.mpr (h.kept name a ha)) hne
  own := by
    intro copy a hcopy hmem
    obtain ⟨hne, hcopy⟩ := copies_update hcopy
    exact hothers a (h.own copy a hcopy hmem) hne

/-- A step that is fresh keeps every accepted allocation. -/
theorem kept_step (s : SharedNode) (act : AllocatorAct) (hfresh : CopyFresh lib s act)
    (h : Kept lib s) : Kept lib (sharedStep lib s act) := by
  cases act with
  | read name =>
    refine ⟨h.named, h.kept, fun copy alloc hcopy hmem => ?_⟩
    simp only [sharedStep] at hcopy ⊢
    by_cases hname : alloc.name = name
    · rw [hname, Function.update_self] at hcopy
      rwa [← Option.some.inj hcopy] at hmem
    · rw [Function.update_of_ne hname] at hcopy
      exact h.own copy alloc hcopy hmem
  | patch alloc =>
    rw [sharedStep]
    split
    · exact h
    · rename_i copy hcopy
      rcases hfresh copy hcopy with hsame | hempty
      · have hlist := @getThirdPartyAllocations_apply lib _ _ hsame alloc
        refine h.patch (mem_oldAllocations.mpr ⟨_, hlist, mem_createOrUpdate_self _ _⟩) ?_
        exact fun a ha hne =>
          mem_oldAllocations.mpr ⟨_, hlist, mem_createOrUpdate_of_mem ha hne⟩
      · -- nothing changes, and the allocation was there when the copy was read
        have hunchanged : (thirdPartyPatch lib copy alloc).apply s.annotations = s.annotations := by
          rw [hempty]
          rfl
        rw [hunchanged]
        exact h.patch (h.own copy alloc hcopy (mem_oldAllocations_of_empty hempty))
          fun a ha _ => ha

/-! ## Runs -/

/-- In a run in which every patch arrives at the annotation it was computed from, or is empty, no
accepted allocation is ever lost. -/
theorem allocations_kept (lib : Library) (annotations : Annotations) (acts : List AllocatorAct)
    (hfresh : Meets (sharedStep lib) (CopyFresh lib) (freshNode annotations) acts) :
    ∀ pre, pre <+: acts → AllKept lib (run (sharedStep lib) (freshNode annotations) pre) := by
  rintro pre ⟨post, rfl⟩
  exact (run_invariant_of_meets kept_step pre hfresh.of_append
    (kept_freshNode annotations)).kept

/-! ## Two allocators -/

/-- The allocation of another framework. -/
def otherAllocation : ThirdPartyAllocation :=
  ⟨"other", yarnResourcePriority, batchList (.new 500) (.new 0)⟩

/-- The node without annotations. -/
def bareNode : SharedNode := freshNode fun _ => none

/-- One after the other. -/
def takingTurns : List AllocatorAct :=
  [.read "other", .patch otherAllocation, .read yarnAllocationName, .patch (yarnAllocation 0 0)]

/-- Both read before the first patch arrives. -/
def readingTogether : List AllocatorAct :=
  [.read "other", .read yarnAllocationName, .patch otherAllocation, .patch (yarnAllocation 0 0)]

/-- Taking turns, both allocations are on the node in the end. -/
theorem allocations_kept_takingTurns :
    AllKept plainLib (run (sharedStep plainLib) bareNode takingTurns) := by
  refine allocations_kept plainLib _ takingTurns ?_ _ (List.prefix_refl _)
  simp only [takingTurns, meets_cons]
  refine ⟨trivial, fun copy hcopy => ?_, trivial, fun copy hcopy => ?_, by simp [Meets]⟩
  · obtain rfl := Option.some.inj hcopy
    exact .inl rfl
  · obtain rfl := Option.some.inj hcopy
    exact .inl rfl

/-- A patch from a copy without the annotation leaves one entry, whatever is there by then. -/
theorem getThirdPartyAllocations_apply_bare {lib : Library} (annotations : Annotations)
    (alloc : ThirdPartyAllocation) :
    getThirdPartyAllocations lib ((thirdPartyPatch lib (fun _ => none) alloc).apply annotations) =
      .ok (some ⟨[alloc]⟩) := by
  refine getThirdPartyAllocations_of_encode ?_
  exact MergePatch.apply_diff_of_ne (by simp)

/-- Reading together, the patch that arrives last takes the other's allocation away. -/
theorem allocation_lost :
    (run (sharedStep plainLib) bareNode readingTogether).accepted "other" = some otherAllocation ∧
      getThirdPartyAllocations plainLib
        (run (sharedStep plainLib) bareNode readingTogether).annotations =
          .ok (some ⟨[yarnAllocation 0 0]⟩) ∧
      ¬ AllKept plainLib (run (sharedStep plainLib) bareNode readingTogether) := by
  have hother : (run (sharedStep plainLib) bareNode readingTogether).accepted "other" =
      some otherAllocation := rfl
  have hlist : getThirdPartyAllocations plainLib
      (run (sharedStep plainLib) bareNode readingTogether).annotations =
        .ok (some ⟨[yarnAllocation 0 0]⟩) :=
    getThirdPartyAllocations_apply_bare _ _
  refine ⟨hother, hlist, fun h => ?_⟩
  obtain ⟨l, hl, hmem⟩ := h _ _ hother
  rw [hlist] at hl
  cases hl
  have hname : otherAllocation.name = yarnAllocationName :=
    congrArg ThirdPartyAllocation.name (List.mem_singleton.mp hmem)
  exact absurd hname (by decide)

end YarnCopilot.NodeResource
