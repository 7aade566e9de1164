import YarnCopilot.Agent.Loop
import YarnCopilot.Agent.Recovery

/-!
# The ticker and a live container

Every tick creates a memory cgroup for the containers that have none and tries to remove those it
had listed (see `Mirror`). The kernel refuses to remove one that has processes, so what becomes of
the memory cgroup of a container that runs throughout depends on how the removals end. `flapping`
follows it by `mirrorStep`: a tick makes one that is not there, and takes one away that is there and
can be removed. When a tick makes one and nothing fails, it is complete, with its processes moved
and its limit set.
-/

namespace YarnCopilot.Agent

variable {n : NodeMangerOperator} {fs fs' : Fs} {name : String} {q : Path}

/-- A container that runs: it has a cpu cgroup with processes, and there is a place for its memory
cgroup. -/
structure Live (n : NodeMangerOperator) (fs : Fs) (name : String) : Prop where
  isContainer : IsContainer name
  cpu : n.cpuDir.child name ∈ fs.dirs
  procs : fs.procs (n.cpuDir.child name) ≠ []
  memDir : n.memDir ∈ fs.dirs

section

variable (hne : n.cpuDir ≠ n.memDir)
include hne

/-- What the agent does leaves a live container alive, with its processes. -/
theorem Live.confined (h : Live n fs name) (hconfined : Confined n fs fs') :
    Live n fs' name ∧ fs'.procs (n.cpuDir.child name) = fs.procs (n.cpuDir.child name) := by
  have hcpu := hconfined _ (protected_cpuCgroup hne h.procs)
  have hmem := hconfined _ (protected_memDir hne)
  exact ⟨⟨h.isContainer, hcpu.dirs.mpr h.cpu, hcpu.procs ▸ h.procs, hmem.dirs.mpr h.memDir⟩,
    hcpu.procs⟩

/-- The walk over the cpu cgroups leaves the memory hierarchy alone. -/
theorem sameAt_syncNoneProcCgroup (hq : (n.memDir.child name).IsUnder q) (t : Tick) (fs : Fs) :
    SameAt {n.cpuShares} fs (syncNoneProcCgroup n t fs) q := by
  refine .foldl (fun fs p hp => ?_) fs
  obtain ⟨-, name', rfl⟩ := Fs.mem_subDirs.mp
    ((RangeOrder.mem_visit _).mp (List.mem_of_mem_take hp))
  unfold removeNoneProc
  split
  · exact sameAt_removeAll fun hcpu => not_isUnder_both hne hcpu hq
  · exact .refl

end

/-- Work on other containers leaves a memory cgroup alone. -/
theorem sameAt_createOther {p : Path} (hq : (n.memDir.child name).IsUnder q) (hp : p.base ≠ name)
    (env : CreateEnv) : SameAt {n.cpuShares} fs (createMemoryCgroup n env fs p) q :=
  sameAt_createMemoryCgroup (fun _ hunder => hp (Path.child_inj_of_isUnder hunder hq)) env

theorem sameAt_removeOther {p : Path} (hq : (n.memDir.child name).IsUnder q) (hp : p.base ≠ name)
    (ok : Bool) : SameAt {n.cpuShares} fs (removeMemoryCgroup n ok fs p) q :=
  sameAt_removeMemoryCgroup (fun _ hunder => hp (Path.child_inj_of_isUnder hunder hq)) ok

/-- The first call for a container. -/
theorem created_fill {p : Path} (hp : p.base = name) (hcontainer : IsContainer name)
    (hparent : n.memDir ∈ fs.dirs) (hnew : n.memDir.child name ∉ fs.dirs) (env : CreateEnv) :
    ∃ made : Fs, made.files = fs.files ∧ made.procs = fs.procs ∧ n.memDir.child name ∈ made.dirs ∧
      createMemoryCgroup n env fs p = fillMemoryCgroup env (n.memDir.child name) made := by
  subst hp
  exact createMemoryCgroup_of_not_mem env hcontainer hparent hnew

/-- With a place for it, a container has a memory cgroup after every call. -/
theorem inMem_createMemoryCgroup {p : Path} (hp : p.base = name) (hcontainer : IsContainer name)
    (hparent : n.memDir ∈ fs.dirs) (env : CreateEnv) :
    InMem n (createMemoryCgroup n env fs p) name := by
  by_cases hin : n.memDir.child name ∈ fs.dirs
  · exact ⟨hcontainer, mem_createMemoryCgroup hin⟩
  · obtain ⟨made, -, -, hmade, heq⟩ := created_fill hp hcontainer hparent hin env
    refine ⟨hcontainer, ?_⟩
    rw [heq, fillMemoryCgroup_dirs]
    exact hmade

/-! ## One tick -/

section

variable (hne : n.cpuDir ≠ n.memDir) (pass : Pass)
include hne

/-- The calls of `syncAllCgroup` that matter to a live container without a memory cgroup: the one
that creates it. Everything before and after it leaves its place in the memory hierarchy alone. -/
theorem syncAllCgroup_creates (h : Live n fs name) (hmem : ¬ InMem n fs name) :
    ∃ before : Fs, (∀ q, (n.memDir.child name).IsUnder q → SameAt {n.cpuShares} fs before q) ∧
      n.memDir ∈ before.dirs ∧ n.memDir.child name ∉ before.dirs ∧
      ∀ q, (n.memDir.child name).IsUnder q →
        SameAt {n.cpuShares} (createMemoryCgroup n (pass.create (n.cpuDir.child name)) before
          (n.cpuDir.child name)) (syncAllCgroup n pass fs) q := by
  have hnew : n.memDir.child name ∉ fs.dirs := fun hin => hmem ⟨h.isContainer, hin⟩
  -- the creation loop gets to the container once
  have hvisit : n.cpuDir.child name ∈ pass.createOrder.visit (toCreate n fs) := by
    rw [RangeOrder.mem_visit, mem_toCreate hne]
    exact Fs.mem_subDirs.mpr ⟨h.cpu, name, rfl⟩
  have hnodup : (pass.createOrder.visit (toCreate n fs)).Nodup := by
    refine (pass.createOrder.perm _).nodup_iff.mpr ?_
    exact (List.nodup_dedup _).filter _
  obtain ⟨l, l', hsplit⟩ := List.append_of_mem hvisit
  have hbase : ∀ p ∈ toCreate n fs, p ≠ n.cpuDir.child name → p.base ≠ name := by
    rintro p hp hpne rfl
    obtain ⟨-, name', rfl⟩ := Fs.mem_subDirs.mp ((mem_toCreate hne).mp hp)
    exact hpne (by rw [Path.base_child])
  have hin : ∀ p, p ∈ l ∨ p ∈ l' → p.base ≠ name := by
    intro p hp
    refine hbase p ((RangeOrder.mem_visit pass.createOrder).mp ?_) ?_
    · rw [hsplit]
      rcases hp with hp | hp <;> simp [hp]
    · rintro rfl
      rw [hsplit, List.nodup_append] at hnodup
      rcases hp with hp | hp
      · exact hnodup.2.2 _ hp _ List.mem_cons_self rfl
      · exact (List.nodup_cons.mp hnodup.2.1).1 hp
  have hbefore : ∀ q, (n.memDir.child name).IsUnder q →
      SameAt {n.cpuShares} fs
        (l.foldl (fun fs p => createMemoryCgroup n (pass.create p) fs p) fs) q :=
    fun q hq => .foldl (fun fs p hp => sameAt_createOther hq (hin p (.inl hp)) _) fs
  refine ⟨_, hbefore, mem_foldl_createMemoryCgroup l h.memDir, ?_, fun q hq => ?_⟩
  · rw [(hbefore _ (Path.child_isUnder_child.mpr rfl)).dirs]
    exact hnew
  · rw [syncAllCgroup, hsplit, List.foldl_append, List.foldl_cons]
    refine SameAt.trans (.foldl (fun fs p hp => sameAt_createOther hq (hin p (.inr hp)) _) _)
      (.foldl (fun fs p hp => sameAt_removeOther hq ?_ _) _)
    -- what is removed was there before the pass
    rintro rfl
    obtain ⟨hdir, name', rfl⟩ := Fs.mem_subDirs.mp
      ((mem_toDelete hne).mp ((RangeOrder.mem_visit _).mp hp))
    rw [Path.base_child] at hnew
    exact hnew hdir

/-- After a pass a live container has a memory cgroup, unless it had one that could be removed. -/
theorem inMem_syncAllCgroup (h : Live n fs name) :
    InMem n (syncAllCgroup n pass fs) name ↔
      (InMem n fs name → pass.removeOk (n.memDir.child name) = false) := by
  by_cases hmem : InMem n fs name
  · simp only [hmem, true_implies]
    cases hok : pass.removeOk (n.memDir.child name) with
    | true =>
      exact iff_of_false (not_inMem_syncAllCgroup hne hmem hok) Bool.true_eq_false.mp
    | false =>
      refine iff_of_true ⟨hmem.1, ?_⟩ rfl
      rw [syncAllCgroup, mem_foldl_removeMemoryCgroup]
      refine ⟨mem_foldl_createMemoryCgroup _ hmem.2, fun p hp _ hokp hunder => ?_⟩
      -- only the removal of the container itself could reach it, and that one fails
      obtain ⟨-, name', rfl⟩ := Fs.mem_subDirs.mp
        ((mem_toDelete hne).mp ((RangeOrder.mem_visit _).mp hp))
      rw [Path.base_child] at hunder
      obtain rfl := Path.child_isUnder_child.mp hunder
      exact Bool.false_ne_true (hok.symm.trans hokp)
  · simp only [hmem, false_implies, iff_true]
    obtain ⟨before, -, hparent, hnew, hafter⟩ := syncAllCgroup_creates hne pass h hmem
    refine ⟨h.isContainer, (hafter _ (Path.child_isUnder_child.mpr rfl)).dirs.mpr ?_⟩
    exact (inMem_createMemoryCgroup (Path.base_child _ _) h.isContainer hparent _).2

/-- The same for a tick. -/
theorem inMem_tickFs {s : AgentState} (h : Live n s.fs name) (t : Tick) :
    InMem n (tickFs n t s) name ↔
      (InMem n s.fs name → t.memRemoveOk (n.memDir.child name) = false) := by
  have hlive := (h.confined hne (confined_syncNoneProcCgroup t s.fs)).1
  have hwalk : InMem n (syncNoneProcCgroup n t s.fs) name ↔ InMem n s.fs name :=
    and_congr_right fun _ =>
      (sameAt_syncNoneProcCgroup hne (Path.child_isUnder_child.mpr rfl) t s.fs).dirs
  have hpass := inMem_syncAllCgroup hne (t.pass n ⟨syncNoneProcCgroup n t s.fs, s.client⟩) hlive
  rw [hwalk] at hpass
  exact (and_congr_right fun _ => (sameAt_syncParentCgroup t s.client _).dirs).trans hpass

/-- When there is no memory cgroup there is nothing in its place. -/
def Tidy (n : NodeMangerOperator) (fs : Fs) (name : String) : Prop :=
  ¬ InMem n fs name → fs.Vacant (n.memDir.child name)

/-- The one file that `SameAt` leaves out is in no memory cgroup. -/
theorem not_mem_cpuShares (hq : (n.memDir.child name).IsUnder q) :
    q ∉ ({n.cpuShares} : Set Path) := by
  rintro rfl
  exact not_isUnder_both hne (Path.child_isUnder_child.mpr rfl) hq

theorem vacant_of_sameAt (h : ∀ q, (n.memDir.child name).IsUnder q → SameAt {n.cpuShares} fs fs' q)
    (hvacant : fs.Vacant (n.memDir.child name)) : fs'.Vacant (n.memDir.child name) := by
  refine ⟨fun file => ?_, ?_⟩
  · have hunder := (n.memDir.child name).isUnder_child file
    rw [(h _ hunder).files (not_mem_cpuShares hne hunder)]
    exact hvacant.files file
  · rw [(h _ (Path.child_isUnder_child.mpr rfl)).procs]
    exact hvacant.procs

theorem complete_of_sameAt {pids : List ℕ} {mb : ℤ}
    (h : ∀ q, (n.memDir.child name).IsUnder q → SameAt {n.cpuShares} fs fs' q)
    (hcomplete : Complete fs (n.memDir.child name) pids mb) :
    Complete fs' (n.memDir.child name) pids mb := by
  have hfiles : ∀ file, fs'.files ((n.memDir.child name).child file) =
      fs.files ((n.memDir.child name).child file) := by
    intro file
    have hunder := (n.memDir.child name).isUnder_child file
    exact (h _ hunder).files (not_mem_cpuShares hne hunder)
  refine ⟨?_, ?_, ?_, ?_⟩
  · rw [hfiles]
    exact hcomplete.moveCharge
  · rw [hfiles]
    exact hcomplete.oomGroup
  · rw [(h _ (Path.child_isUnder_child.mpr rfl)).procs]
    exact hcomplete.procs
  · rw [hfiles]
    exact hcomplete.limit

/-- The tick that creates the memory cgroup of a live container completes it, if nothing fails. -/
theorem complete_tickFs {s : AgentState} (h : Live n s.fs name) (hmem : ¬ InMem n s.fs name)
    (hvacant : s.fs.Vacant (n.memDir.child name)) {t : Tick} {mb : ℤ}
    (hcalm : ((t.create (n.cpuDir.child name)).createEnv n s name).GoesThrough
      (s.fs.procs (n.cpuDir.child name)) mb)
    (hmb : int64 (mb * 1024 * 1024) = mb * 1024 * 1024) :
    Complete (tickFs n t s) (n.memDir.child name) (s.fs.procs (n.cpuDir.child name)) mb := by
  obtain ⟨hlive, hprocs⟩ := h.confined hne (confined_syncNoneProcCgroup t s.fs)
  have hwalk := fun q (hq : (n.memDir.child name).IsUnder q) =>
    sameAt_syncNoneProcCgroup hne hq t s.fs
  have hmem' : ¬ InMem n (syncNoneProcCgroup n t s.fs) name := fun hin =>
    hmem ⟨hin.1, (hwalk _ (Path.child_isUnder_child.mpr rfl)).dirs.mp hin.2⟩
  -- the walk does not change what the creation reads
  have henv : (t.pass n ⟨syncNoneProcCgroup n t s.fs, s.client⟩).create (n.cpuDir.child name) =
      (t.create (n.cpuDir.child name)).createEnv n s name := by
    simp only [Tick.pass, CreateOutcome.createEnv, Path.base_child, hprocs]
  obtain ⟨before, hbefore, hparent, hnew, hafter⟩ := syncAllCgroup_creates hne
    (t.pass n ⟨syncNoneProcCgroup n t s.fs, s.client⟩) hlive hmem'
  obtain ⟨made, hfiles, hprocs', -, heq⟩ := created_fill (Path.base_child n.cpuDir name)
    h.isContainer hparent hnew ((t.create (n.cpuDir.child name)).createEnv n s name)
  have hvacant' := vacant_of_sameAt hne hbefore (vacant_of_sameAt hne hwalk hvacant)
  have hmade : made.Vacant (n.memDir.child name) :=
    ⟨by rw [hfiles]; exact hvacant'.files, by rw [hprocs']; exact hvacant'.procs⟩
  have hcomplete := (complete_fill_iff hmade).mpr ⟨_, mb, hcalm, fun _ hpid => hpid, hmb⟩
  rw [← heq, ← henv] at hcomplete
  exact complete_of_sameAt hne (fun q _ => sameAt_syncParentCgroup t s.client _)
    (complete_of_sameAt hne hafter hcomplete)

/-! ## Nothing is left behind -/

theorem Tidy.of_sameAt (htidy : Tidy n fs name)
    (h : ∀ q, (n.memDir.child name).IsUnder q → SameAt {n.cpuShares} fs fs' q) :
    Tidy n fs' name := by
  intro hgone
  refine vacant_of_sameAt hne h (htidy fun hin => hgone ⟨hin.1, ?_⟩)
  exact (h _ (Path.child_isUnder_child.mpr rfl)).dirs.mpr hin.2

/-- A creation that fails after its `Mkdir` leaves the directory. -/
theorem Tidy.createMemoryCgroup (htidy : Tidy n fs name) (env : CreateEnv) (p : Path) :
    Tidy n (createMemoryCgroup n env fs p) name := by
  by_cases hbase : p.base = name
  · intro hgone
    unfold Agent.createMemoryCgroup at hgone ⊢
    split at hgone
    · rename_i hcontainer
      rw [if_pos hcontainer]
      cases hmkdir : fs.mkdir (n.memDir.child p.base) with
      | none =>
        rw [hmkdir] at hgone
        exact htidy hgone
      | some made =>
        rw [hmkdir] at hgone
        refine absurd ⟨hbase ▸ hcontainer, ?_⟩ hgone
        rw [fillMemoryCgroup_dirs, ← hbase]
        exact Fs.mem_mkdir hmkdir
    · rename_i hcontainer
      rw [if_neg hcontainer]
      exact htidy hgone
  · exact htidy.of_sameAt hne fun q hq => sameAt_createOther hq hbase env

theorem Tidy.removeMemoryCgroup (htidy : Tidy n fs name) (ok : Bool) (p : Path) :
    Tidy n (removeMemoryCgroup n ok fs p) name := by
  by_cases hbase : p.base = name
  · subst hbase
    unfold Agent.removeMemoryCgroup
    split
    · cases ok with
      | false => exact htidy
      | true =>
        intro _
        refine ⟨fun file => if_pos ((n.memDir.child p.base).isUnder_child file), ?_⟩
        exact if_pos (Path.child_isUnder_child.mpr rfl)
    · exact htidy
  · exact htidy.of_sameAt hne fun q hq => sameAt_removeOther hq hbase ok

omit hne in
theorem Tidy.foldl {α : Type} {f : Fs → α → Fs} (h : ∀ fs a, Tidy n fs name → Tidy n (f fs a) name)
    (l : List α) {fs : Fs} (htidy : Tidy n fs name) : Tidy n (l.foldl f fs) name := by
  induction l generalizing fs with
  | nil => exact htidy
  | cons a l ih => exact ih (h fs a htidy)

theorem Tidy.syncAllCgroup (htidy : Tidy n fs name) (pass : Pass) :
    Tidy n (syncAllCgroup n pass fs) name :=
  Tidy.foldl (fun _ p h => h.removeMemoryCgroup hne _ p) _
    (Tidy.foldl (fun _ p h => h.createMemoryCgroup hne _ p) _ htidy)

/-- A step of the loop leaves nothing behind in the place of a memory cgroup. -/
theorem Tidy.agentStep {s : AgentState} (htidy : Tidy n s.fs name) (act : AgentAct) :
    Tidy n (agentStep n s act).fs name := by
  cases act with
  | dirCreated p outcome => exact htidy.createMemoryCgroup hne _ p
  | dirRemoved p ok => exact htidy.removeMemoryCgroup hne ok p
  | skipped => exact htidy
  | nmTick pods => exact htidy
  | tick t =>
    have hwalk : Tidy n (syncNoneProcCgroup n t s.fs) name :=
      htidy.of_sameAt hne fun q hq => sameAt_syncNoneProcCgroup hne hq t s.fs
    exact (hwalk.syncAllCgroup hne _).of_sameAt hne fun q _ =>
      sameAt_syncParentCgroup t s.client _

/-! ## Runs -/

omit hne in
variable (n name) in
/-- Whether a container that runs has a memory cgroup, from step to step. -/
def mirrorStep (has : Bool) : NodeAct → Bool
  | .agent (.dirCreated p _) => has || p.base == name
  | .agent (.dirRemoved p ok) => has && !(p.base == name && ok)
  | .agent (.tick t) => !has || !t.memRemoveOk (n.memDir.child name)
  | _ => has

omit hne in
variable (n name) in
/-- The others let the container run, and leave its memory cgroup alone. -/
def OthersKeepRunning (s : AgentState) : NodeAct → Prop
  | .agent _ => True
  | .others fs => Live n fs name ∧
    ∀ q, (n.memDir.child name).IsUnder q → SameAt {n.cpuShares} s.fs fs q

/-- One step of the loop for a live container. -/
theorem inMem_agentStep {s : AgentState} (h : Live n s.fs name) (act : AgentAct) :
    InMem n (agentStep n s act).fs name ↔
      mirrorStep n name (decide (InMem n s.fs name)) (.agent act) = true := by
  have hself : (n.memDir.child name).IsUnder (n.memDir.child name) :=
    Path.child_isUnder_child.mpr rfl
  cases act with
  | skipped => simp [agentStep, mirrorStep]
  | nmTick pods => simp [agentStep, mirrorStep]
  | tick t =>
    refine (inMem_tickFs hne h t).trans ?_
    by_cases hmem : InMem n s.fs name <;> simp [mirrorStep, hmem]
  | dirCreated p outcome =>
    by_cases hbase : p.base = name
    · have hin := inMem_createMemoryCgroup hbase h.isContainer h.memDir
        (outcome.createEnv n s p.base)
      exact iff_of_true hin (by simp [mirrorStep, hbase])
    · have hsame : InMem n (createMemoryCgroup n (outcome.createEnv n s p.base) s.fs p) name ↔
          InMem n s.fs name :=
        and_congr_right fun _ => (sameAt_createOther hself hbase _).dirs
      refine hsame.trans ?_
      simp [mirrorStep, hbase]
  | dirRemoved p ok =>
    by_cases hbase : p.base = name
    · subst hbase
      refine (and_congr_right fun _ => mem_removeMemoryCgroup).trans ?_
      cases ok <;> simp [mirrorStep, InMem, h.isContainer, hself]
    · have hsame : InMem n (removeMemoryCgroup n ok s.fs p) name ↔ InMem n s.fs name :=
        and_congr_right fun _ => (sameAt_removeOther hself hbase ok).dirs
      refine hsame.trans ?_
      simp [mirrorStep, hbase]

/-- One step on the node for a live container. -/
theorem nodeStep_live {s : AgentState} {act : NodeAct} (hact : OthersKeepRunning n name s act)
    (h : Live n s.fs name) (htidy : Tidy n s.fs name) :
    Live n (nodeStep n s act).fs name ∧ Tidy n (nodeStep n s act).fs name ∧
      (InMem n (nodeStep n s act).fs name ↔
        mirrorStep n name (decide (InMem n s.fs name)) act = true) := by
  cases act with
  | agent act =>
    exact ⟨(h.confined hne (confined_agentStep s act)).1, htidy.agentStep hne act,
      inMem_agentStep hne h act⟩
  | others fs =>
    have hsame : InMem n fs name ↔ InMem n s.fs name :=
      and_congr_right fun _ => (hact.2 _ (Path.child_isUnder_child.mpr rfl)).dirs
    exact ⟨hact.1, htidy.of_sameAt hne hact.2, hsame.trans decide_eq_true_iff.symm⟩

/-- Any steps on the node. -/
theorem run_live {s : AgentState} {acts : List NodeAct} (h : Live n s.fs name)
    (htidy : Tidy n s.fs name) (hothers : Meets (nodeStep n) (OthersKeepRunning n name) s acts) :
    Live n (run (nodeStep n) s acts).fs name ∧ Tidy n (run (nodeStep n) s acts).fs name ∧
      (InMem n (run (nodeStep n) s acts).fs name ↔
        run (mirrorStep n name) (decide (InMem n s.fs name)) acts = true) := by
  induction acts generalizing s with
  | nil => exact ⟨h, htidy, decide_eq_true_iff.symm⟩
  | cons act acts ih =>
    obtain ⟨hact, hrest⟩ := meets_cons.mp hothers
    obtain ⟨hlive, htidy', hmem⟩ := nodeStep_live hne hact h htidy
    have hnext : decide (InMem n (nodeStep n s act).fs name) =
        mirrorStep n name (decide (InMem n s.fs name)) act :=
      Bool.eq_iff_iff.mpr (decide_eq_true_iff.trans hmem)
    rw [run_cons, run_cons, ← hnext]
    exact ih hlive htidy' hrest

end

/-! ## A container with one process -/

theorem live_liveFs : Live yarnOperator liveFs "container_1" :=
  ⟨by decide +kernel, by decide +kernel, by decide +kernel, by decide +kernel⟩

/-- A tick in which the kernel refuses to remove a memory cgroup. -/
def busyTick : Tick := { calmTick with memRemoveOk := fun _ => false }

end YarnCopilot.Agent
