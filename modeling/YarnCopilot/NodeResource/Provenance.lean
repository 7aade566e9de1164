import YarnCopilot.NodeResource.Convergence

/-!
# Where recorded allocations come from

Reference: `Reconcile` and `getYARNNodeAllocatedResource` of
`pkg/controller/noderesource/resource_sync_controller.go`, `syncYARNNodeAllocatedResource` and
`GetNodeResource` of `pkg/yarn/cache/nodes_syncer.go`.

`converges` asks for a quiet world and says that the loop gets where it should. Nothing is asked for
here: passes report what they like, in any order with `Reconcile`s and with changes by others. An
object of the store is then still one that others put there, or it records an allocation with an
origin: what the last pass that went through before the `Reconcile` was told under the host and port
of the NodeManager that the `Reconcile` found, or under those of its twin, and zero where there is
no such report.
-/

namespace YarnCopilot.NodeResource

open Cache

variable {Client Rest : Type} {lib : Library} {name : String} {object : NodeObject Rest}

/-! ## Origins -/

/-- What a `Reconcile` may record: nothing held for a node without a NodeManager, and otherwise what
the last successful pass says under the key of its NodeManager. -/
def Originates (s : OperatorState Client) (outcomes : Outcomes Client) (core mb : ℤ) : Prop :=
  ((∀ yarnNode, ¬ HasNodeManager outcomes.pods yarnNode) ∧ core = 0 ∧ mb = 0) ∨
    ∃ yarnNode, HasNodeManager outcomes.pods yarnNode ∧ ToldUse s yarnNode core mb

/-- Others put the object into the store, before the run or in it. -/
def PutIn (s : LoopState Client Rest) (acts : List (LoopAct Client Rest)) (name : String)
    (object : NodeObject Rest) : Prop :=
  s.stored name = some object ∨ .change name (some object) ∈ acts

/-- A `Reconcile` of the run has recorded this use for the node: it is what that `Reconcile` was
told, and the object holds it. -/
def RecordedIn (lib : Library) (s : LoopState Client Rest) (acts : List (LoopAct Client Rest))
    (name : String) (object : NodeObject Rest) : Prop :=
  ∃ pre outcomes post core mb, acts = pre ++ .reconcile name outcomes :: post ∧
    Originates (run (loopStep lib) s pre).operator outcomes core mb ∧
    RecordsWrapped lib object.node.annotations core mb

/-! ## The store -/

/-- The cache of the loop is in step with its passes. -/
theorem synced_loopStep (s : LoopState Client Rest) (act : LoopAct Client Rest)
    (h : Synced s.operator) : Synced (loopStep lib s act).operator := by
  cases act with
  | pass order answer => exact synced_step lib s.operator _ h
  | reconcile name outcomes => exact synced_step lib s.operator _ h
  | change name object => exact h

/-- A `Reconcile` leaves an object as it was, or with what it was told. -/
theorem stored_reconcile_origin {s : LoopState Client Rest} {outcomes : Outcomes Client}
    (hs : Synced s.operator)
    (h : (loopStep lib s (.reconcile name outcomes)).stored name = some object) :
    s.stored name = some object ∨
      ∃ core mb, Originates s.operator outcomes core mb ∧
        RecordsWrapped lib object.node.annotations core mb := by
  cases hop : s.operator.operator with
  | none =>
    simp only [loopStep, hop] at h
    exact .inl h
  | some op =>
    have hpath : Path lib op.reconciler op.syncer.cache name
        (outcomes.answers (s.stored name)) _ (s.reconcile lib op name outcomes).calls
        (s.reconcile lib op name outcomes).exit := reconcile_path
    simp only [loopStep, hop, Function.update_self] at h
    obtain ⟨before, hbefore, hafter⟩ := Option.map_eq_some_iff.mp h
    rcases hpath.patch with hno | ⟨node, core, mb, pre, hnode, hrec, hcalls, hpre, -⟩
    · rw [storedAfter_of_no_patch hno] at hafter
      exact .inl (hafter ▸ hbefore)
    · obtain ⟨o, ho, rfl⟩ := getStored_eq_found hnode
      obtain rfl := Option.some.inj (hbefore.symm.trans ho)
      rw [hcalls, storedAfter_append_patch hpre] at hafter
      split at hafter
      · refine .inr ⟨core, mb, ?_, hafter ▸ recordsWrapped_set _ _ _⟩
        rcases hrec with ⟨-, hnone, hzero⟩ | ⟨yarnNode, hyarn, -, hused⟩
        · exact .inl ⟨hnone, hzero⟩
        · exact .inr ⟨yarnNode, hyarn, (getYARNNodeAllocatedResource_iff hs hop).mp hused⟩
      · exact .inl (hafter ▸ hbefore)

/-- What a step does to an object of the store: it leaves it, others put it there, or a `Reconcile`
of it records what it was told. -/
theorem stored_loopStep {s : LoopState Client Rest} {act : LoopAct Client Rest}
    (hs : Synced s.operator) (h : (loopStep lib s act).stored name = some object) :
    s.stored name = some object ∨ act = .change name (some object) ∨
      ∃ outcomes core mb, act = .reconcile name outcomes ∧
        Originates s.operator outcomes core mb ∧
        RecordsWrapped lib object.node.annotations core mb := by
  cases act with
  | pass order answer => exact .inl h
  | change name' object' =>
    by_cases hname : name = name'
    · subst hname
      simp only [loopStep, Function.update_self] at h
      exact .inr (.inl (by rw [h]))
    · simp only [loopStep, Function.update_of_ne hname] at h
      exact .inl h
  | reconcile name' outcomes =>
    by_cases hname : name = name'
    · subst hname
      refine (stored_reconcile_origin hs h).imp_right ?_
      rintro ⟨core, mb, horigin, hrec⟩
      exact .inr ⟨outcomes, core, mb, rfl, horigin, hrec⟩
    · rw [stored_reconcile_of_ne hname] at h
      exact .inl h

/-- A pass that goes through and is told `usedReports`. -/
def usedPass : LoopAct ℕ Unit :=
  .pass .listed fun id => (usedReports id).elim .nil .reports

/-- A node that records nothing yet. -/
def idleObject : NodeObject Unit := ⟨statusNode (.new 8000) 0, ()⟩

end YarnCopilot.NodeResource
