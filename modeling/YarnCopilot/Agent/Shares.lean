import YarnCopilot.Agent.Loop

/-!
# The cpu shares of YARN

Reference: `syncParentCgroup` of `pkg/copilot-agent/nm/nm.go`.

Every tick sets the shares of the cgroup above all containers to 1024 for each core the running
containers need. A sum of zero is not written: when the last container is gone the shares stay what
they were. `cpuShares_run` says what the file holds after any steps of the loop.
-/

namespace YarnCopilot.Agent

variable {n : NodeMangerOperator} {fs : Fs} {s : AgentState}

/-- The cores that the containers need that are not in a final state. -/
def neededVCores (containers : List YarnContainer) : ℤ :=
  ((containers.filter fun c => !c.isFinalState).map YarnContainer.totalVCoresNeeded).sum

/-- The sum of the loop, truncated once. -/
theorem allCpuShare_eq (containers : List YarnContainer) :
    allCpuShare containers = int64 (neededVCores containers * 1024) := by
  have hloop : ∀ (cs : List YarnContainer) (x : ℤ),
      cs.foldl (fun sum con => if con.isFinalState then sum
        else int64 (sum + int64 (con.totalVCoresNeeded * 1024))) (int64 x) =
          int64 (x + neededVCores cs * 1024) := by
    intro cs
    induction cs with
    | nil => simp [neededVCores]
    | cons con cs ih =>
      intro x
      cases hfinal : con.isFinalState with
      | true => simpa [neededVCores, hfinal] using ih x
      | false =>
        have hstep : int64 (int64 x + int64 (con.totalVCoresNeeded * 1024)) =
            int64 (x + con.totalVCoresNeeded * 1024) := by
          simp [int64]
        simp only [List.foldl_cons, hfinal, Bool.false_eq_true, if_false, hstep, ih]
        simp only [neededVCores, List.filter_cons, hfinal, Bool.not_false, if_true, List.map_cons,
          List.sum_cons]
        congr 1
        ring
  have hzero : (0 : ℤ) = int64 0 := by decide
  rw [allCpuShare, hzero, hloop, zero_add]

/-- What a step of the loop writes as the shares. -/
def sharesWritten (s : AgentState) : AgentAct → Option String
  | .tick t =>
    (listContainers (t.nodeManager s.client.baseURL)).bind fun containers =>
      if 0 < int64 (neededVCores containers * 1024) ∧ t.sharesOk = true then
        some (toString (int64 (neededVCores containers * 1024)))
      else none
  | _ => none

variable (n) in
/-- What the steps of a run write, in order. -/
def allSharesWritten : AgentState → List AgentAct → List String
  | _, [] => []
  | s, act :: acts => (sharesWritten s act).toList ++ allSharesWritten (agentStep n s act) acts

/-- The file is in no memory cgroup of a container. -/
theorem not_isUnder_cpuShares (name : String) (hname : IsContainer name) :
    ¬ (n.memDir.child name).IsUnder n.cpuShares := by
  intro hunder
  by_cases heq : n.cpuDir = n.memDir
  · rw [NodeMangerOperator.cpuShares, heq] at hunder
    obtain rfl := Path.child_isUnder_child.mp hunder
    exact absurd hname (by decide)
  · exact not_isUnder_both heq (Path.child_isUnder_child.mpr rfl) hunder

/-- No cpu cgroup has the name of the file, so the walk does not remove it. -/
theorem sameAt_cpuShares_syncNoneProcCgroup (h : n.cpuShares ∉ fs.dirs) (t : Tick) :
    SameAt ∅ fs (syncNoneProcCgroup n t fs) n.cpuShares := by
  refine .foldl (fun fs' p hp => ?_) fs
  obtain ⟨hdir, name, rfl⟩ := Fs.mem_subDirs.mp
    ((RangeOrder.mem_visit _).mp (List.mem_of_mem_take hp))
  unfold removeNoneProc
  split
  · refine sameAt_removeAll fun hunder => h ?_
    rwa [NodeMangerOperator.cpuShares, ← Path.child_isUnder_child.mp hunder]
  · exact .refl

theorem sameAt_cpuShares_syncAllCgroup (pass : Pass) (fs : Fs) :
    SameAt ∅ fs (syncAllCgroup n pass fs) n.cpuShares :=
  (SameAt.foldl (fun _ p _ => sameAt_createMemoryCgroup (not_isUnder_cpuShares p.base) _) fs).trans
    (.foldl (fun _ p _ => sameAt_removeMemoryCgroup (not_isUnder_cpuShares p.base) _) _)

/-- One step of the loop writes its shares or leaves the file alone. -/
theorem cpuShares_agentStep (h : n.cpuShares ∉ s.fs.dirs) (act : AgentAct) :
    n.cpuShares ∉ (agentStep n s act).fs.dirs ∧
      (agentStep n s act).fs.files n.cpuShares =
        (sharesWritten s act).or (s.fs.files n.cpuShares) := by
  have hsame : ∀ fs', SameAt ∅ s.fs fs' n.cpuShares →
      n.cpuShares ∉ fs'.dirs ∧ fs'.files n.cpuShares = s.fs.files n.cpuShares := fun fs' hfs' =>
    ⟨fun hin => h (hfs'.dirs.mp hin), hfs'.files (Set.notMem_empty _)⟩
  cases act with
  | dirCreated name outcome =>
    exact hsame _ (sameAt_createMemoryCgroup (not_isUnder_cpuShares name.base) _)
  | dirRemoved name ok =>
    exact hsame _ (sameAt_removeMemoryCgroup (not_isUnder_cpuShares name.base) ok)
  | skipped => exact ⟨h, rfl⟩
  | nmTick pods => exact ⟨h, rfl⟩
  | tick t =>
    obtain ⟨hdirs, hfiles⟩ := hsame _ ((sameAt_cpuShares_syncNoneProcCgroup h t).trans
      (sameAt_cpuShares_syncAllCgroup (t.pass n ⟨_, s.client⟩) _))
    simp only [agentStep, tickFs, syncParentCgroup, sharesWritten, ← allCpuShare_eq]
    cases listContainers (t.nodeManager s.client.baseURL) with
    | none => exact ⟨hdirs, hfiles⟩
    | some containers =>
      simp only [Option.bind_some]
      split
      · exact ⟨hdirs, Function.update_self _ _ _⟩
      · exact ⟨hdirs, hfiles⟩

/-- **The cpu shares.** After any steps of the loop the file holds the last sum that a tick could
write: 1024 shares for each core that the containers of the NodeManager needed at that tick. Sums
that are not positive are never written, so the shares of the last containers outlive them. -/
theorem cpuShares_run (acts : List AgentAct) (h : n.cpuShares ∉ s.fs.dirs) :
    (run (agentStep n) s acts).fs.files n.cpuShares =
      (allSharesWritten n s acts).getLast?.or (s.fs.files n.cpuShares) := by
  induction acts generalizing s with
  | nil => rfl
  | cons act acts ih =>
    obtain ⟨hdirs, hfiles⟩ := cpuShares_agentStep h act
    rw [run_cons, ih hdirs, hfiles, allSharesWritten, List.getLast?_append, Option.or_assoc]
    cases sharesWritten s act <;> rfl

/-- A container of one core, and then none. -/
theorem cpuShares_run_liveFs :
    (run (agentStep yarnOperator) ⟨liveFs, newNmClient yarnOperator "localhost:8042"⟩
      [.tick calmTick, .tick { calmTick with nodeManager := fun _ => some ⟨200, []⟩ }]).fs.files
        yarnOperator.cpuShares = some "1024" := by
  rw [cpuShares_run _ (by decide +kernel)]
  decide +kernel

end YarnCopilot.Agent
