import Mathlib.Data.List.DropRight
import YarnCopilot.Agent.Cgroup

/-!
# Mirroring the cpu cgroups

`Mirrors` says what a run of `syncAllCgroup` is for: afterwards the memory hierarchy has a cgroup
for exactly the containers of the cpu hierarchy, and getting there touches only the differences.

The two lists `syncAllCgroup` compares hold full paths, and a full path of one hierarchy is never
one of the other. So each run creates a memory cgroup for every container and then removes every
memory cgroup it had listed. With removals that succeed, this mirrors the cpu hierarchy only when
that one has no container to mirror (`mirrors_iff`).
-/

namespace YarnCopilot.Agent

variable (n : NodeMangerOperator)

/-! ## The steps -/

@[simp] theorem movePids_dirs (moveOk : ℕ → Bool) (cgroup : Path) (pids : List ℕ) (fs : Fs) :
    (movePids moveOk cgroup pids fs).1.dirs = fs.dirs := by
  induction pids generalizing fs with
  | nil => rfl
  | cons pid pids ih =>
    unfold movePids
    split
    · rw [ih]
      rfl
    · rfl

@[simp] theorem setMemoryLimit_dirs (env : CreateEnv) (cgroup : Path) (fs : Fs) :
    (setMemoryLimit env cgroup fs).dirs = fs.dirs := by
  unfold setMemoryLimit
  split
  · rfl
  · split <;> rfl

@[simp] theorem syncPids_dirs (env : CreateEnv) (cgroup : Path) (fs : Fs) :
    (syncPids env cgroup fs).dirs = fs.dirs := by
  unfold syncPids
  split
  · rfl
  · dsimp only
    split <;> simp

/-- The settings of a memory cgroup make no directory. -/
@[simp] theorem fillMemoryCgroup_dirs (env : CreateEnv) (cgroup : Path) (fs : Fs) :
    (fillMemoryCgroup env cgroup fs).dirs = fs.dirs := by
  unfold fillMemoryCgroup
  split
  · dsimp only
    split
    · rw [syncPids_dirs]
      rfl
    · rfl
  · rfl

variable {n}

theorem createMemoryCgroup_of_not_isContainer {p : Path} (h : ¬ IsContainer p.base)
    (env : CreateEnv) (fs : Fs) : createMemoryCgroup n env fs p = fs := by
  rw [createMemoryCgroup, if_neg h]

theorem removeMemoryCgroup_of_not_isContainer {p : Path} (h : ¬ IsContainer p.base) (ok : Bool)
    (fs : Fs) : removeMemoryCgroup n ok fs p = fs := by
  rw [removeMemoryCgroup, if_neg h]

/-- Creating a memory cgroup removes nothing. -/
theorem mem_createMemoryCgroup {env : CreateEnv} {fs : Fs} {p q : Path} (hq : q ∈ fs.dirs) :
    q ∈ (createMemoryCgroup n env fs p).dirs := by
  unfold createMemoryCgroup
  split
  · split
    · exact hq
    · rename_i hmk
      rw [fillMemoryCgroup_dirs]
      exact Fs.mem_of_mkdir hmk hq
  · exact hq

theorem mem_removeMemoryCgroup {ok : Bool} {fs : Fs} {p q : Path} :
    q ∈ (removeMemoryCgroup n ok fs p).dirs ↔
      q ∈ fs.dirs ∧ (IsContainer p.base → ok = true → ¬ (n.memDir.child p.base).IsUnder q) := by
  unfold removeMemoryCgroup
  split
  · rename_i h
    cases ok <;> simp [Fs.mem_removeAll, h]
  · rename_i h
    simp [h]

/-! ## The two loops -/

/-- A loop whose steps do nothing does nothing. -/
theorem foldl_eq_self {α β : Type*} {f : β → α → β} {b : β} {l : List α}
    (h : ∀ a ∈ l, f b a = b) : l.foldl f b = b := by
  induction l with
  | nil => rfl
  | cons a l ih =>
    rw [List.foldl_cons, h a List.mem_cons_self]
    exact ih fun x hx => h x (List.mem_cons_of_mem _ hx)

theorem mem_foldl_createMemoryCgroup {env : Path → CreateEnv} {q : Path} (ps : List Path) {fs : Fs}
    (hq : q ∈ fs.dirs) :
    q ∈ (ps.foldl (fun fs p => createMemoryCgroup n (env p) fs p) fs).dirs := by
  induction ps generalizing fs with
  | nil => exact hq
  | cons p ps ih => exact ih (mem_createMemoryCgroup hq)

theorem mem_foldl_removeMemoryCgroup {ok : Path → Bool} {q : Path} (ps : List Path) {fs : Fs} :
    q ∈ (ps.foldl (fun fs p => removeMemoryCgroup n (ok p) fs p) fs).dirs ↔
      q ∈ fs.dirs ∧
        ∀ p ∈ ps, IsContainer p.base → ok p = true → ¬ (n.memDir.child p.base).IsUnder q := by
  induction ps generalizing fs with
  | nil => simp
  | cons p ps ih =>
    rw [List.foldl_cons, ih, mem_removeMemoryCgroup, List.forall_mem_cons, and_assoc]

/-! ## The two hierarchies -/

/-- The directories of the two hierarchies are the same one, or neither holds the other's
entries. -/
theorem cpuDir_eq_or_parallel :
    n.cpuDir = n.memDir ∨
      Path.Parallel (.ofString n.cgroupRoot) "cpu" "memory" n.cpuDir n.memDir :=
  Path.foldl_push_parallel (by decide) (by decide) _ (.inr ⟨[], by simp, rfl, rfl⟩)

/-- Memory cgroups are not on the way to a cpu cgroup. -/
theorem memDir_child_not_isUnder (h : n.cpuDir ≠ n.memDir) (a b : String) :
    ¬ (n.memDir.child a).IsUnder (n.cpuDir.child b) :=
  (cpuDir_eq_or_parallel.resolve_left h).symm.not_isUnder (by decide) a b

/-- No path of one hierarchy is among the paths of the other, so comparing the two lists by path
leaves each as it is. -/
theorem mem_subDirs_diff {a b : Path} (h : a ≠ b) {fs : Fs} {p : Path} :
    p ∈ (fs.subDirs a).filter (· ∉ fs.subDirs b) ↔ p ∈ fs.subDirs a := by
  simp only [List.mem_filter, decide_eq_true_eq]
  refine and_iff_left_of_imp fun hp hb => ?_
  obtain ⟨_, name, rfl⟩ := Fs.mem_subDirs.mp hp
  obtain ⟨_, name', heq⟩ := Fs.mem_subDirs.mp hb
  exact h (Path.child_inj.mp heq).1

/-- Every cpu cgroup is to be created. -/
theorem mem_toCreate (h : n.cpuDir ≠ n.memDir) {fs : Fs} {p : Path} :
    p ∈ toCreate n fs ↔ p ∈ fs.subDirs n.cpuDir :=
  mem_subDirs_diff h

/-- Every memory cgroup is to be deleted. -/
theorem mem_toDelete (h : n.cpuDir ≠ n.memDir) {fs : Fs} {p : Path} :
    p ∈ toDelete n fs ↔ p ∈ fs.subDirs n.memDir :=
  mem_subDirs_diff h.symm

/-- A directory that was there before `syncAllCgroup` is still there unless it lies in a memory
cgroup on the list. -/
theorem mem_syncAllCgroup {pass : Pass} {fs : Fs} {q : Path} (hq : q ∈ fs.dirs)
    (hkeep : ∀ p ∈ toDelete n fs, IsContainer p.base → ¬ (n.memDir.child p.base).IsUnder q) :
    q ∈ (syncAllCgroup n pass fs).dirs := by
  rw [syncAllCgroup, mem_foldl_removeMemoryCgroup]
  exact ⟨mem_foldl_createMemoryCgroup _ hq,
    fun p hp hname _ => hkeep p ((RangeOrder.mem_visit _).mp hp) hname⟩

/-- `syncAllCgroup` leaves no memory cgroup that is on its list and that it can remove. -/
theorem not_mem_syncAllCgroup {pass : Pass} {fs : Fs} {name : String}
    (hname : IsContainer name) (h : n.memDir.child name ∈ toDelete n fs)
    (hok : pass.removeOk (n.memDir.child name) = true) :
    n.memDir.child name ∉ (syncAllCgroup n pass fs).dirs := by
  rw [syncAllCgroup, mem_foldl_removeMemoryCgroup]
  rintro ⟨_, hkeep⟩
  have := hkeep _ ((RangeOrder.mem_visit _).mpr h)
  rw [Path.base_child] at this
  exact this hname hok (Path.child_isUnder_child.mpr rfl)

/-- A run with no container to create ends as its second loop alone. -/
theorem syncAllCgroup_eq_foldl {pass : Pass} {fs : Fs}
    (hcreate : ∀ p ∈ toCreate n fs, ¬ IsContainer p.base) :
    syncAllCgroup n pass fs =
      (pass.removeOrder.visit (toDelete n fs)).foldl
        (fun fs p => removeMemoryCgroup n (pass.removeOk p) fs p) fs := by
  have hloop : (pass.createOrder.visit (toCreate n fs)).foldl
      (fun fs p => createMemoryCgroup n (pass.create p) fs p) fs = fs :=
    foldl_eq_self fun p hp => createMemoryCgroup_of_not_isContainer
      (hcreate p ((RangeOrder.mem_visit _).mp hp)) _ _
  rw [syncAllCgroup, hloop]

/-- A run whose lists name no container does nothing. -/
theorem syncAllCgroup_eq_self {pass : Pass} {fs : Fs}
    (hcreate : ∀ p ∈ toCreate n fs, ¬ IsContainer p.base)
    (hdelete : ∀ p ∈ toDelete n fs, ¬ IsContainer p.base) : syncAllCgroup n pass fs = fs := by
  rw [syncAllCgroup_eq_foldl hcreate]
  exact foldl_eq_self fun p hp => removeMemoryCgroup_of_not_isContainer
    (hdelete p ((RangeOrder.mem_visit _).mp hp)) _ _

/-! ## What a run is for -/

variable (n) in
/-- The container has a cgroup in the cpu hierarchy. -/
def InCpu (fs : Fs) (name : String) : Prop := IsContainer name ∧ n.cpuDir.child name ∈ fs.dirs

variable (n) in
/-- The container has a cgroup in the memory hierarchy. -/
def InMem (fs : Fs) (name : String) : Prop := IsContainer name ∧ n.memDir.child name ∈ fs.dirs

variable (n) in
/-- A run of `syncAllCgroup` from `fs` mirrors the cpu hierarchy: it creates exactly the containers
that have no memory cgroup, removes exactly those that have no cpu cgroup, ends with the same
containers in both hierarchies, keeps those that are live in both, and leaves the next run nothing
to do. -/
structure Mirrors (pass next : Pass) (fs : Fs) : Prop where
  creates : ∀ name, IsContainer name →
    ((∃ p ∈ toCreate n fs, p.base = name) ↔ InCpu n fs name ∧ ¬ InMem n fs name)
  removes : ∀ name, IsContainer name →
    ((∃ p ∈ toDelete n fs, p.base = name) ↔ InMem n fs name ∧ ¬ InCpu n fs name)
  mirrored : ∀ name,
    InMem n (syncAllCgroup n pass fs) name ↔ InCpu n (syncAllCgroup n pass fs) name
  kept : ∀ name, InCpu n fs name → InMem n fs name → InMem n (syncAllCgroup n pass fs) name
  idle : syncAllCgroup n next (syncAllCgroup n pass fs) = syncAllCgroup n pass fs

/-- Every removal of the run succeeds. -/
def Pass.Removes (pass : Pass) : Prop := ∀ p, pass.removeOk p = true

variable {pass next : Pass} {fs : Fs}

/-- The cpu hierarchy keeps its containers. -/
theorem InCpu.syncAllCgroup (hne : n.cpuDir ≠ n.memDir) {name : String} (h : InCpu n fs name) :
    InCpu n (syncAllCgroup n pass fs) name :=
  ⟨h.1, mem_syncAllCgroup h.2 fun _ _ _ => memDir_child_not_isUnder hne _ _⟩

/-- The memory cgroups that a run finds and can remove are gone when it ends. -/
theorem not_inMem_syncAllCgroup (hne : n.cpuDir ≠ n.memDir) {name : String} (h : InMem n fs name)
    (hok : pass.removeOk (n.memDir.child name) = true) :
    ¬ InMem n (syncAllCgroup n pass fs) name := fun hafter =>
  not_mem_syncAllCgroup h.1 ((mem_toDelete hne).mpr (Fs.mem_subDirs.mpr ⟨h.2, name, rfl⟩)) hok
    hafter.2

/-- A container to mirror is enough for a run, or the one after it, to go wrong: what the first run
created the second one removes. -/
theorem not_mirrors_of_inCpu (hne : n.cpuDir ≠ n.memDir) (hnext : next.Removes) {name : String}
    (h : InCpu n fs name) : ¬ Mirrors n pass next fs := by
  intro hm
  -- the first run must have left a memory cgroup, and the second removes what it finds
  have hafter : InMem n (syncAllCgroup n pass fs) name :=
    (hm.mirrored name).mpr (h.syncAllCgroup hne)
  have hgone : ¬ InMem n (syncAllCgroup n next (syncAllCgroup n pass fs)) name :=
    not_inMem_syncAllCgroup hne hafter (hnext _)
  rw [hm.idle] at hgone
  exact hgone hafter

/-- With one directory for both hierarchies there is nothing to do. -/
theorem mirrors_of_eq (h : n.cpuDir = n.memDir) : Mirrors n pass next fs := by
  have hcreate : toCreate n fs = [] := by simp [toCreate, diffMap, h]
  have hdelete : toDelete n fs = [] := by simp [toDelete, diffMap, h]
  have hsync : ∀ pass, syncAllCgroup n pass fs = fs := fun pass =>
    syncAllCgroup_eq_self (by simp [hcreate]) (by simp [hdelete])
  have hin : ∀ fs name, InMem n fs name ↔ InCpu n fs name := by
    intro fs name
    rw [InMem, InCpu, h]
  exact
    { creates := by simp [hcreate, hin]
      removes := by simp [hdelete, hin]
      mirrored := fun name => hin _ name
      kept := fun name _ hmem => (hsync pass).symm ▸ hmem
      idle := by rw [hsync, hsync] }

/-- The base names of the directories in `dir`. -/
theorem exists_mem_subDirs {dir : Path} {name : String} :
    (∃ p ∈ fs.subDirs dir, p.base = name) ↔ dir.child name ∈ fs.dirs := by
  constructor
  · rintro ⟨p, hp, rfl⟩
    obtain ⟨hmem, name, rfl⟩ := Fs.mem_subDirs.mp hp
    rwa [Path.base_child]
  · intro h
    exact ⟨_, Fs.mem_subDirs.mpr ⟨h, name, rfl⟩, Path.base_child _ _⟩

/-- The containers on the list to create are those of the cpu hierarchy. -/
theorem exists_mem_toCreate (hne : n.cpuDir ≠ n.memDir) {name : String} (hname : IsContainer name) :
    (∃ p ∈ toCreate n fs, p.base = name) ↔ InCpu n fs name := by
  simp only [mem_toCreate hne, exists_mem_subDirs, InCpu, hname, true_and]

/-- The containers on the list to delete are those of the memory hierarchy. -/
theorem exists_mem_toDelete (hne : n.cpuDir ≠ n.memDir) {name : String} (hname : IsContainer name) :
    (∃ p ∈ toDelete n fs, p.base = name) ↔ InMem n fs name := by
  simp only [mem_toDelete hne, exists_mem_subDirs, InMem, hname, true_and]

/-- Without containers in the cpu hierarchy, removing every memory cgroup is right. -/
theorem mirrors_of_not_inCpu (hne : n.cpuDir ≠ n.memDir) (hpass : pass.Removes)
    (h : ∀ name, ¬ InCpu n fs name) : Mirrors n pass next fs := by
  have hcreate : ∀ fs, (∀ name, ¬ InCpu n fs name) → ∀ p ∈ toCreate n fs, ¬ IsContainer p.base :=
    fun fs h p hp hname => h _ ((exists_mem_toCreate hne hname).mp ⟨p, hp, rfl⟩)
  -- no directory is new after the run, so both hierarchies are without containers
  have hold : ∀ q ∈ (syncAllCgroup n pass fs).dirs, q ∈ fs.dirs := by
    intro q hq
    rw [syncAllCgroup_eq_foldl (hcreate fs h), mem_foldl_removeMemoryCgroup] at hq
    exact hq.1
  have hcpu : ∀ name, ¬ InCpu n (syncAllCgroup n pass fs) name :=
    fun name hafter => h name ⟨hafter.1, hold _ hafter.2⟩
  have hmem : ∀ name, ¬ InMem n (syncAllCgroup n pass fs) name :=
    fun name hafter => not_inMem_syncAllCgroup hne ⟨hafter.1, hold _ hafter.2⟩ (hpass _) hafter
  refine
    { creates := fun name hname => ?_
      removes := fun name hname => ?_
      mirrored := fun name => iff_of_false (hmem name) (hcpu name)
      kept := fun name hin => absurd hin (h name)
      idle := syncAllCgroup_eq_self (hcreate _ hcpu) ?_ }
  · rw [exists_mem_toCreate hne hname]
    exact iff_of_false (h name) fun hin => h name hin.1
  · rw [exists_mem_toDelete hne hname]
    exact (and_iff_left (h name)).symm
  · exact fun p hp hname => hmem _ ((exists_mem_toDelete hne hname).mp ⟨p, hp, rfl⟩)

/-- Where its removals succeed, `syncAllCgroup` mirrors the cpu hierarchy exactly when the two
hierarchies are one directory or the cpu hierarchy has no container. -/
theorem mirrors_iff (n : NodeMangerOperator) (pass next : Pass) (fs : Fs) (hpass : pass.Removes)
    (hnext : next.Removes) :
    Mirrors n pass next fs ↔ n.cpuDir = n.memDir ∨ ∀ name, ¬ InCpu n fs name := by
  constructor
  · intro hm
    refine or_iff_not_imp_left.mpr fun hne name h => ?_
    exact not_mirrors_of_inCpu hne hnext h hm
  · intro h
    by_cases heq : n.cpuDir = n.memDir
    · exact mirrors_of_eq heq
    · exact mirrors_of_not_inCpu heq hpass (h.resolve_left heq)

/-! ## A container in both hierarchies -/

/-- The agent with the cgroups of YARN below the usual root; its HTTP client cuts slashes off the
end of a URL. -/
def yarnOperator : NodeMangerOperator where
  cgroupRoot := "/sys/fs/cgroup"
  cgroupPath := "kubepods.slice/hadoop-yarn"
  setBaseURL url := .ofList (url.toList.rdropWhile (· == '/'))

/-- Every step of every creation and every removal succeeds, on a container of 1 GiB with one
process. -/
def calmPass : Pass :=
  { create := fun _ => ⟨true, true, some [4711], fun _ => true, some 1024, true⟩
    removeOk := fun _ => true
    createOrder := .listed
    removeOrder := .listed }

/-- A container that runs in both hierarchies, with its limit set. -/
def mirroredFs : Fs where
  dirs := [yarnOperator.cpuDir.child "container_1", yarnOperator.memDir.child "container_1",
    ⟨true, ["sys", "fs", "cgroup", "cpu", "kubepods.slice", "hadoop-yarn"]⟩,
    ⟨true, ["sys", "fs", "cgroup", "cpu", "kubepods.slice"]⟩,
    ⟨true, ["sys", "fs", "cgroup", "cpu"]⟩,
    ⟨true, ["sys", "fs", "cgroup", "memory", "kubepods.slice", "hadoop-yarn"]⟩,
    ⟨true, ["sys", "fs", "cgroup", "memory", "kubepods.slice"]⟩,
    ⟨true, ["sys", "fs", "cgroup", "memory"]⟩,
    ⟨true, ["sys", "fs", "cgroup"]⟩, ⟨true, ["sys", "fs"]⟩, ⟨true, ["sys"]⟩, ⟨true, []⟩]
  files := fun _ => none
  procs := fun _ => []
  parent_mem := by decide +kernel

instance (n : NodeMangerOperator) (fs : Fs) (name : String) : Decidable (InCpu n fs name) :=
  inferInstanceAs (Decidable (_ ∧ _))

instance (n : NodeMangerOperator) (fs : Fs) (name : String) : Decidable (InMem n fs name) :=
  inferInstanceAs (Decidable (_ ∧ _))

/-- The run takes the memory cgroup of a container away that lives in both hierarchies. -/
theorem syncAllCgroup_removes_live :
    InCpu yarnOperator mirroredFs "container_1" ∧ InMem yarnOperator mirroredFs "container_1" ∧
      ¬ InMem yarnOperator (syncAllCgroup yarnOperator calmPass mirroredFs) "container_1" ∧
      InCpu yarnOperator (syncAllCgroup yarnOperator calmPass mirroredFs) "container_1" ∧
      ¬ Mirrors yarnOperator calmPass calmPass mirroredFs := by
  have hcpu : InCpu yarnOperator mirroredFs "container_1" := by decide +kernel
  have hmem : InMem yarnOperator mirroredFs "container_1" := by decide +kernel
  have hgone : ¬ InMem yarnOperator (syncAllCgroup yarnOperator calmPass mirroredFs)
      "container_1" := by
    decide +kernel
  exact ⟨hcpu, hmem, hgone, by decide +kernel, fun hm => hgone (hm.kept _ hcpu hmem)⟩

/-- Without the cpu cgroup the run is right to do so. -/
theorem mirrors_iff_removedCpu :
    Mirrors yarnOperator calmPass calmPass (mirroredFs.removeAll yarnOperator.cpuDir) := by
  refine (mirrors_iff yarnOperator calmPass calmPass _ (fun _ => rfl) fun _ => rfl).mpr (.inr ?_)
  rintro name ⟨-, hin⟩
  exact (Fs.mem_removeAll.mp hin).2 (yarnOperator.cpuDir.isUnder_child name)

end YarnCopilot.Agent
