import YarnCopilot.Agent.Mirror
import YarnCopilot.Agent.NodeManager

/-!
# The loop of the agent

Reference: `syncMemoryCgroup`, `syncNoneProcCgroup` and `syncParentCgroup` of
`pkg/copilot-agent/nm/nm.go`.

The loop takes events of the cpu hierarchy, a ticker that compares the two hierarchies, and a ticker
that looks for the NodeManager, in any order. The file system is not the agent's alone: YARN makes
and removes cgroups between the steps.

`Protected` paths lie outside the memory cgroups of containers and outside the first-level cpu
cgroups without processes. `frame_run` says that the agent never touches one of them, `cpu.shares`
of the whole of YARN apart, whatever it meets and however its steps interleave with those of others.
-/

namespace YarnCopilot.Agent

/-! ## The steps of the loop -/

/-- What the agent knows between two steps, and the file system. -/
structure AgentState where
  fs : Fs
  client : NmClient

/-- What one `createMemoryCgroup` meets: whether its writes and its read of the pids succeed, and
what the NodeManager at a URL answers. -/
structure CreateOutcome where
  moveChargeOk : Bool
  oomGroupOk : Bool
  pidsOk : Bool
  moveOk : ℕ → Bool
  limitOk : Bool
  nodeManager : String → Option ContainersReply

variable (n : NodeMangerOperator)

/-- The pids of the container's cpu cgroup and the memory the NodeManager gives for it. -/
def CreateOutcome.createEnv (o : CreateOutcome) (s : AgentState) (name : String) : CreateEnv where
  moveChargeOk := o.moveChargeOk
  oomGroupOk := o.oomGroupOk
  pids := if o.pidsOk then some (s.fs.procs (n.cpuDir.child name)) else none
  moveOk := o.moveOk
  totalMemoryNeededMB :=
    (getContainer (o.nodeManager s.client.baseURL) name).map YarnContainer.totalMemoryNeededMB
  limitOk := o.limitOk

/-- What one tick meets: the order in which `syncNoneProcCgroup` walks the cpu cgroups and how far
it gets, the outcome of its reads and removals, and the same for the other two. -/
structure Tick where
  walk : RangeOrder Path
  reach : ℕ
  readOk : Path → Bool
  removeOk : Path → Bool
  create : Path → CreateOutcome
  memRemoveOk : Path → Bool
  createOrder : RangeOrder Path
  removeOrder : RangeOrder Path
  nodeManager : String → Option ContainersReply
  sharesOk : Bool

/-- The function that `syncNoneProcCgroup` walks with, on a cpu cgroup. -/
def removeNoneProc (t : Tick) (fs : Fs) (p : Path) : Fs :=
  if t.readOk p = true ∧ fs.procs p = [] ∧ t.removeOk p = true then fs.removeAll p else fs

/-- `syncNoneProcCgroup`. A cgroup that is gone when the walk gets to it ends the walk. -/
def syncNoneProcCgroup (t : Tick) (fs : Fs) : Fs :=
  ((t.walk.visit (fs.subDirs n.cpuDir)).take t.reach).foldl (removeNoneProc t) fs

/-- The sum of `syncParentCgroup`, in 64 bits. -/
def allCpuShare (containers : List YarnContainer) : ℤ :=
  containers.foldl
    (fun sum con =>
      if con.isFinalState then sum else int64 (sum + int64 (con.totalVCoresNeeded * 1024)))
    0

/-- `syncParentCgroup`. -/
def syncParentCgroup (t : Tick) (client : NmClient) (fs : Fs) : Fs :=
  match listContainers (t.nodeManager client.baseURL) with
  | none => fs
  | some containers =>
    if 0 < allCpuShare containers ∧ t.sharesOk = true then
      fs.write (n.cpuDir.child "cpu.shares") (toString (allCpuShare containers))
    else fs

/-- What `syncAllCgroup` meets in a tick. -/
def Tick.pass (t : Tick) (s : AgentState) : Pass where
  create p := (t.create p).createEnv n s p.base
  removeOk := t.memRemoveOk
  createOrder := t.createOrder
  removeOrder := t.removeOrder

/-- The file system after a tick. -/
def tickFs (t : Tick) (s : AgentState) : Fs :=
  let fs := syncNoneProcCgroup n t s.fs
  syncParentCgroup n t s.client (syncAllCgroup n (t.pass n ⟨fs, s.client⟩) fs)

/-- What the loop selects. -/
inductive AgentAct
  | dirCreated (name : Path) (outcome : CreateOutcome)
  | dirRemoved (name : Path) (removeOk : Bool)
  | skipped
  | tick (t : Tick)
  | nmTick (pods : Option (List KubeletPod))

/-- One step of the loop of `syncMemoryCgroup`. -/
def agentStep (s : AgentState) : AgentAct → AgentState
  | .dirCreated name outcome =>
    { s with fs := createMemoryCgroup n (outcome.createEnv n s name.base) s.fs name }
  | .dirRemoved name removeOk => { s with fs := removeMemoryCgroup n removeOk s.fs name }
  | .skipped => s
  | .tick t => { s with fs := tickFs n t s }
  | .nmTick pods => { s with client := syncNMEndpoint n s.client pods }

/-! ## What the agent leaves alone -/

/-- The path is in no memory cgroup of a container, and in no first-level cpu cgroup without
processes. -/
structure Protected (fs : Fs) (q : Path) : Prop where
  not_mem : ∀ name, IsContainer name → ¬ (n.memDir.child name).IsUnder q
  procs : ∀ name, (n.cpuDir.child name).IsUnder q → fs.procs (n.cpuDir.child name) ≠ []

/-- The file of all of YARN's cpu shares. -/
def NodeMangerOperator.cpuShares : Path := n.cpuDir.child "cpu.shares"

/-- The path is in `fs'` as it is in `fs`, up to the contents of the files that may have been
written. -/
structure SameAt (written : Set Path) (fs fs' : Fs) (q : Path) : Prop where
  dirs : q ∈ fs'.dirs ↔ q ∈ fs.dirs
  procs : fs'.procs q = fs.procs q
  files : q ∉ written → fs'.files q = fs.files q

/-- Nothing changes at a protected path, up to the cpu shares. -/
def Confined (fs fs' : Fs) : Prop := ∀ q, Protected n fs q → SameAt {n.cpuShares} fs fs' q

variable {n} {fs fs' fs'' : Fs} {q : Path} {written : Set Path}

theorem SameAt.refl : SameAt written fs fs q := ⟨Iff.rfl, rfl, fun _ => rfl⟩

theorem SameAt.trans (h : SameAt written fs fs' q) (h' : SameAt written fs' fs'' q) :
    SameAt written fs fs'' q :=
  ⟨h'.dirs.trans h.dirs, h'.procs.trans h.procs, fun hne => (h'.files hne).trans (h.files hne)⟩

theorem SameAt.foldl {α : Type} {f : Fs → α → Fs} {l : List α}
    (h : ∀ fs, ∀ a ∈ l, SameAt written fs (f fs a) q) (fs : Fs) :
    SameAt written fs (l.foldl f fs) q := by
  induction l generalizing fs with
  | nil => exact .refl
  | cons a l ih =>
    exact (h fs a List.mem_cons_self).trans
      (ih (fun fs b hb => h fs b (List.mem_cons_of_mem _ hb)) _)

/-- The cpu cgroup around a protected path is protected. -/
theorem Protected.cpuCgroup (h : Protected n fs q) {name : String}
    (hunder : (n.cpuDir.child name).IsUnder q) : Protected n fs (n.cpuDir.child name) := by
  refine ⟨fun c hc hmem => h.not_mem c hc (hmem.trans hunder), fun name' hunder' => ?_⟩
  obtain rfl := Path.child_isUnder_child.mp hunder'
  exact h.procs name' hunder

/-- A change that is confined leaves protected what was. -/
theorem Confined.keepsProtected (h : Confined n fs fs') (hq : Protected n fs q) :
    Protected n fs' q := by
  refine ⟨hq.not_mem, fun name hunder => ?_⟩
  rw [(h _ (hq.cpuCgroup hunder)).procs]
  exact hq.procs name hunder

theorem Confined.refl : Confined n fs fs := fun _ _ => .refl

theorem Confined.trans (h : Confined n fs fs') (h' : Confined n fs' fs'') : Confined n fs fs'' :=
  fun q hq => (h q hq).trans (h' q (h.keepsProtected hq))

/-- A loop of confined steps is confined. -/
theorem Confined.foldl {α : Type} {f : Fs → α → Fs} {l : List α}
    (h : ∀ fs, ∀ a ∈ l, Confined n fs (f fs a)) (fs : Fs) : Confined n fs (l.foldl f fs) := by
  induction l generalizing fs with
  | nil => exact .refl
  | cons a l ih =>
    exact (h fs a List.mem_cons_self).trans
      (ih (fun fs b hb => h fs b (List.mem_cons_of_mem _ hb)) _)

section Hierarchies

variable (hne : n.cpuDir ≠ n.memDir)
include hne

/-- A path lies in a container's cgroup of at most one hierarchy. -/
theorem not_isUnder_both {name name' : String} (hcpu : (n.cpuDir.child name).IsUnder q)
    (hmem : (n.memDir.child name').IsUnder q) : False :=
  (cpuDir_eq_or_parallel.resolve_left hne).not_isUnder_both (by decide) hcpu hmem

/-- A cpu cgroup with processes is protected. -/
theorem protected_cpuCgroup {name : String} (hprocs : fs.procs (n.cpuDir.child name) ≠ []) :
    Protected n fs (n.cpuDir.child name) := by
  refine ⟨fun name' _ hmem => ?_, fun name' hcpu => ?_⟩
  · exact not_isUnder_both hne (Path.child_isUnder_child.mpr rfl) hmem
  · obtain rfl := Path.child_isUnder_child.mp hcpu
    exact hprocs

/-- So is the directory of the memory cgroups. -/
theorem protected_memDir : Protected n fs n.memDir := by
  refine ⟨fun name _ hmem => ?_, fun name hcpu => ?_⟩
  · have hlength := hmem.2.length_le
    simp [Path.child] at hlength
  · exact (not_isUnder_both hne (hcpu.trans (n.memDir.isUnder_child ""))
      (Path.child_isUnder_child.mpr rfl)).elim

end Hierarchies

/-! ## The steps are confined -/

variable {cgroup : Path}

/-- A path that is not in the cgroup is where it was when something is written into the cgroup. -/
theorem sameAt_write (h : ¬ cgroup.IsUnder q) (name content : String) :
    SameAt written fs (fs.write (cgroup.child name) content) q := by
  refine ⟨Iff.rfl, rfl, fun _ => Function.update_of_ne ?_ _ _⟩
  rintro rfl
  exact h (cgroup.isUnder_child name)

theorem sameAt_attach (h : ¬ cgroup.IsUnder q) (pid : ℕ) :
    SameAt written fs (fs.attach cgroup pid) q := by
  refine ⟨Iff.rfl, Function.update_of_ne ?_ _ _, fun _ => rfl⟩
  rintro rfl
  exact h ⟨rfl, List.prefix_refl _⟩

theorem sameAt_removeAll (h : ¬ cgroup.IsUnder q) : SameAt written fs (fs.removeAll cgroup) q :=
  ⟨Fs.mem_removeAll.trans (and_iff_left h), if_neg h, fun _ => if_neg h⟩

theorem sameAt_mkdir (h : ¬ cgroup.IsUnder q) (hmkdir : fs.mkdir cgroup = some fs') :
    SameAt written fs fs' q := by
  unfold Fs.mkdir at hmkdir
  split at hmkdir
  · obtain rfl := Option.some.inj hmkdir
    refine ⟨?_, rfl, fun _ => rfl⟩
    rw [List.mem_cons, or_iff_right]
    rintro rfl
    exact h ⟨rfl, List.prefix_refl _⟩
  · cases hmkdir

theorem sameAt_movePids (h : ¬ cgroup.IsUnder q) (moveOk : ℕ → Bool) (pids : List ℕ) :
    SameAt written fs (movePids moveOk cgroup pids fs).1 q := by
  induction pids generalizing fs with
  | nil => exact .refl
  | cons pid pids ih =>
    rw [movePids]
    split
    · exact (sameAt_attach h pid).trans ih
    · exact .refl

theorem sameAt_setMemoryLimit (h : ¬ cgroup.IsUnder q) (env : CreateEnv) :
    SameAt written fs (setMemoryLimit env cgroup fs) q := by
  unfold setMemoryLimit
  split
  · exact .refl
  · split
    · exact sameAt_write h _ _
    · exact .refl

theorem sameAt_syncPids (h : ¬ cgroup.IsUnder q) (env : CreateEnv) :
    SameAt written fs (syncPids env cgroup fs) q := by
  unfold syncPids
  split
  · exact .refl
  · dsimp only
    split
    · exact (sameAt_movePids h _ _).trans (sameAt_setMemoryLimit h env)
    · exact sameAt_movePids h _ _

/-- Filling a memory cgroup changes nothing outside of it. -/
theorem sameAt_fillMemoryCgroup (h : ¬ cgroup.IsUnder q) (env : CreateEnv) :
    SameAt written fs (fillMemoryCgroup env cgroup fs) q := by
  unfold fillMemoryCgroup
  split
  · dsimp only
    split
    · exact ((sameAt_write h _ _).trans (sameAt_write h _ _)).trans (sameAt_syncPids h env)
    · exact sameAt_write h _ _
  · exact .refl

theorem sameAt_createMemoryCgroup {p : Path}
    (h : IsContainer p.base → ¬ (n.memDir.child p.base).IsUnder q) (env : CreateEnv) :
    SameAt written fs (createMemoryCgroup n env fs p) q := by
  unfold createMemoryCgroup
  split
  · rename_i hcontainer
    cases hmkdir : fs.mkdir (n.memDir.child p.base) with
    | none => exact .refl
    | some made =>
      exact (sameAt_mkdir (h hcontainer) hmkdir).trans (sameAt_fillMemoryCgroup (h hcontainer) env)
  · exact .refl

theorem sameAt_removeMemoryCgroup {p : Path}
    (h : IsContainer p.base → ¬ (n.memDir.child p.base).IsUnder q) (ok : Bool) :
    SameAt written fs (removeMemoryCgroup n ok fs p) q := by
  unfold removeMemoryCgroup
  split
  · rename_i hcontainer
    split
    · exact sameAt_removeAll (h hcontainer)
    · exact .refl
  · exact .refl

theorem confined_createMemoryCgroup (env : CreateEnv) (fs : Fs) (p : Path) :
    Confined n fs (createMemoryCgroup n env fs p) := fun _ hq =>
  sameAt_createMemoryCgroup (hq.not_mem p.base) env

theorem confined_removeMemoryCgroup (ok : Bool) (fs : Fs) (p : Path) :
    Confined n fs (removeMemoryCgroup n ok fs p) := fun _ hq =>
  sameAt_removeMemoryCgroup (hq.not_mem p.base) ok

/-- Only a cpu cgroup without processes is removed. -/
theorem confined_removeNoneProc (t : Tick) (fs : Fs) (name : String) :
    Confined n fs (removeNoneProc t fs (n.cpuDir.child name)) := by
  intro q hq
  unfold removeNoneProc
  split
  · rename_i hremove
    exact sameAt_removeAll fun hunder => hq.procs name hunder hremove.2.1
  · exact .refl

theorem confined_syncNoneProcCgroup (t : Tick) (fs : Fs) :
    Confined n fs (syncNoneProcCgroup n t fs) := by
  refine .foldl (fun fs' p hp => ?_) fs
  obtain ⟨-, name, rfl⟩ := Fs.mem_subDirs.mp
    ((RangeOrder.mem_visit _).mp (List.mem_of_mem_take hp))
  exact confined_removeNoneProc t fs' name

theorem confined_syncAllCgroup (pass : Pass) (fs : Fs) : Confined n fs (syncAllCgroup n pass fs) :=
  (Confined.foldl (fun fs p _ => confined_createMemoryCgroup (pass.create p) fs p) fs).trans
    (Confined.foldl (fun fs p _ => confined_removeMemoryCgroup (pass.removeOk p) fs p) _)

/-- `syncParentCgroup` writes one file. -/
theorem sameAt_syncParentCgroup (t : Tick) (client : NmClient) (fs : Fs) :
    SameAt {n.cpuShares} fs (syncParentCgroup n t client fs) q := by
  unfold syncParentCgroup
  split
  · exact .refl
  · split
    · exact ⟨Iff.rfl, rfl, fun hne => Function.update_of_ne hne _ _⟩
    · exact .refl

/-- Every step of the loop is confined. -/
theorem confined_agentStep (s : AgentState) (act : AgentAct) :
    Confined n s.fs (agentStep n s act).fs := by
  cases act with
  | dirCreated name outcome => exact confined_createMemoryCgroup _ _ _
  | dirRemoved name removeOk => exact confined_removeMemoryCgroup _ _ _
  | skipped => exact .refl
  | tick t =>
    exact ((confined_syncNoneProcCgroup t s.fs).trans (confined_syncAllCgroup _ _)).trans
      fun _ _ => sameAt_syncParentCgroup t s.client _
  | nmTick pods => exact .refl

/-! ## Runs -/

/-- A step of the agent, or of the rest of the system, which leaves some file system behind. -/
inductive NodeAct
  | agent (act : AgentAct)
  | others (fs : Fs)

variable (n) in
/-- One step on the node. -/
def nodeStep (s : AgentState) : NodeAct → AgentState
  | .agent act => agentStep n s act
  | .others fs => { s with fs }

variable (n q) in
/-- The others leave the path as it is, and protected. -/
def OthersKeep (s : AgentState) : NodeAct → Prop
  | .agent _ => True
  | .others fs => SameAt {n.cpuShares} s.fs fs q ∧ Protected n fs q

/-- A container that runs and is mirrored. -/
def liveFs : Fs :=
  { mirroredFs with
    procs := fun p => if p = yarnOperator.cpuDir.child "container_1" then [4711] else [] }

/-- The NodeManager lists the container. -/
def oneContainer : Option ContainersReply :=
  some ⟨200, [⟨"container_1", "RUNNING", 1024, 1⟩]⟩

/-- Nothing fails in a tick. -/
def calmTick : Tick where
  walk := .listed
  reach := 100
  readOk _ := true
  removeOk _ := true
  create _ := ⟨true, true, true, fun _ => true, true, fun _ => oneContainer⟩
  memRemoveOk _ := true
  createOrder := .listed
  removeOrder := .listed
  nodeManager _ := oneContainer
  sharesOk := true

end YarnCopilot.Agent
