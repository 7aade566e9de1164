import YarnCopilot.Common.Path
import YarnCopilot.Common.Range
import YarnCopilot.Common.Word

/-!
# Memory cgroups of the node agent

Reference: `pkg/copilot-agent/nm/nm.go` and `pkg/copilot-agent/utils/utils.go`.

YARN makes a cpu cgroup for every container; the agent is to mirror them in the memory hierarchy.
`createMemoryCgroup` and `removeMemoryCgroup` take the path of a directory in either hierarchy and
work on the memory cgroup of the same base name. `syncAllCgroup` lists both hierarchies, compares
the two lists by full path, and calls them on the differences.
-/

namespace YarnCopilot.Agent

/-! ## The cgroup file system -/

/-- The part of the cgroup file system the agent sees: the directories, each in a directory, the
contents of the control files that were written, and the pids moved into each cgroup. -/
structure Fs where
  dirs : List Path
  files : Path → Option String
  procs : Path → List ℕ
  parent_mem : ∀ p ∈ dirs, p.parent ∈ dirs

namespace Fs

/-- `os.Mkdir`: the directory must be new and its parent exist. -/
def mkdir (fs : Fs) (p : Path) : Option Fs :=
  if h : p ∉ fs.dirs ∧ p.parent ∈ fs.dirs then
    some
      { fs with
        dirs := p :: fs.dirs
        parent_mem := by
          intro q hq
          rcases List.mem_cons.mp hq with rfl | hq
          · exact List.mem_cons_of_mem _ h.2
          · exact List.mem_cons_of_mem _ (fs.parent_mem q hq) }
  else none

/-- `os.RemoveAll`. -/
def removeAll (fs : Fs) (p : Path) : Fs where
  dirs := fs.dirs.filter fun q => ¬ p.IsUnder q
  files := fun q => if p.IsUnder q then none else fs.files q
  procs := fun q => if p.IsUnder q then [] else fs.procs q
  parent_mem := by
    intro q hq
    simp only [List.mem_filter, decide_eq_true_eq] at hq ⊢
    exact ⟨fs.parent_mem q hq.1, fun hunder => hq.2 hunder.of_parent⟩

/-- Write a control file. -/
def write (fs : Fs) (p : Path) (content : String) : Fs :=
  { fs with files := Function.update fs.files p (some content) }

/-- Move a pid into a cgroup. -/
def attach (fs : Fs) (cgroup : Path) (pid : ℕ) : Fs :=
  { fs with procs := Function.update fs.procs cgroup (fs.procs cgroup ++ [pid]) }

/-- The walk of `syncAllCgroup`: the directories directly below `dir`, by full path. -/
def subDirs (fs : Fs) (dir : Path) : List Path :=
  (fs.dirs.filter fun q => q = dir.child q.base).dedup

variable {fs fs' : Fs} {p q : Path}

theorem mem_subDirs {dir : Path} :
    q ∈ fs.subDirs dir ↔ q ∈ fs.dirs ∧ ∃ name, q = dir.child name := by
  simp only [subDirs, List.mem_dedup, List.mem_filter, decide_eq_true_eq]
  refine and_congr_right fun _ => ⟨fun h => ⟨_, h⟩, ?_⟩
  rintro ⟨name, rfl⟩
  rw [Path.base_child]

theorem mem_removeAll : q ∈ (fs.removeAll p).dirs ↔ q ∈ fs.dirs ∧ ¬ p.IsUnder q := by
  simp [removeAll]

/-- What `Mkdir` does when it succeeds. -/
theorem of_mkdir (h : fs.mkdir p = some fs') :
    p ∉ fs.dirs ∧ fs'.dirs = p :: fs.dirs ∧ fs'.files = fs.files ∧ fs'.procs = fs.procs := by
  unfold mkdir at h
  split at h
  · rename_i hnew
    obtain rfl := Option.some.inj h
    exact ⟨hnew.1, rfl, rfl, rfl⟩
  · cases h

theorem mem_mkdir (h : fs.mkdir p = some fs') : p ∈ fs'.dirs := by
  rw [(of_mkdir h).2.1]
  exact List.mem_cons_self

theorem mem_of_mkdir (h : fs.mkdir p = some fs') (hq : q ∈ fs.dirs) : q ∈ fs'.dirs := by
  rw [(of_mkdir h).2.1]
  exact List.mem_cons_of_mem _ hq

end Fs

/-! ## The operator -/

/-- The fields of `NodeMangerOperator` that locate the cgroups, and what `SetBaseURL` of its HTTP
client makes of a URL. -/
structure NodeMangerOperator where
  cgroupRoot : String
  cgroupPath : String
  setBaseURL : String → String

variable (n : NodeMangerOperator)

/-- The directory of the containers in one hierarchy: `filepath.Join` of the root, the name of the
hierarchy and the cgroup path. -/
def NodeMangerOperator.cgroupDir (hierarchy : String) : Path :=
  ((Path.ofString n.cgroupRoot).child hierarchy).append n.cgroupPath

/-- The directory of the containers in the cpu hierarchy. -/
def NodeMangerOperator.cpuDir : Path := n.cgroupDir "cpu"

/-- The directory of the containers in the memory hierarchy. -/
def NodeMangerOperator.memDir : Path := n.cgroupDir "memory"

/-- The base name of a YARN container's cgroup. -/
def IsContainer (name : String) : Prop := hasPrefix name "container_"

instance (name : String) : Decidable (IsContainer name) := inferInstanceAs (Decidable (_ = true))

/-- What the steps of one `createMemoryCgroup` behind the `Mkdir` meet: whether each write succeeds,
the pids of the cpu cgroup, and the memory the NodeManager wants for the container. -/
structure CreateEnv where
  moveChargeOk : Bool
  oomGroupOk : Bool
  pids : Option (List ℕ)
  moveOk : ℕ → Bool
  totalMemoryNeededMB : Option ℤ
  limitOk : Bool

/-- The loop that moves the pids, and whether it went through. -/
def movePids (moveOk : ℕ → Bool) (memCgroupPath : Path) : List ℕ → Fs → Fs × Bool
  | [], fs => (fs, true)
  | pid :: pids, fs =>
    if moveOk pid then movePids moveOk memCgroupPath pids (fs.attach memCgroupPath pid)
    else (fs, false)

/-- The end of `createMemoryCgroup`: ask the NodeManager for the container and set its limit. -/
def setMemoryLimit (env : CreateEnv) (memCgroupPath : Path) (fs : Fs) : Fs :=
  match env.totalMemoryNeededMB with
  | none => fs
  | some mb =>
    if env.limitOk then
      fs.write (memCgroupPath.child "memory.limit_in_bytes")
        (toString (int64 (int64 (mb * 1024) * 1024)))
    else fs

/-- The middle of `createMemoryCgroup`: the pids of the cpu cgroup, then the limit. -/
def syncPids (env : CreateEnv) (memCgroupPath : Path) (fs : Fs) : Fs :=
  match env.pids with
  | none => fs
  | some pids =>
    let moved := movePids env.moveOk memCgroupPath pids fs
    if moved.2 then setMemoryLimit env memCgroupPath moved.1 else moved.1

/-- `createMemoryCgroup` behind its `Mkdir`: the settings, the pids, and the limit. Each step that
fails ends it. -/
def fillMemoryCgroup (env : CreateEnv) (memCgroupPath : Path) (fs : Fs) : Fs :=
  if env.moveChargeOk then
    let charged := fs.write (memCgroupPath.child "memory.move_charge_at_immigrate") "3"
    if env.oomGroupOk then
      syncPids env memCgroupPath (charged.write (memCgroupPath.child "memory.oom.group") "1")
    else charged
  else fs

/-- `createMemoryCgroup`: only the base name of the path matters. -/
def createMemoryCgroup (env : CreateEnv) (fs : Fs) (fileName : Path) : Fs :=
  if IsContainer fileName.base then
    match fs.mkdir (n.memDir.child fileName.base) with
    -- also the end when the directory is there already
    | none => fs
    | some fs => fillMemoryCgroup env (n.memDir.child fileName.base) fs
  else fs

/-- `removeMemoryCgroup`, given whether its `RemoveAll` succeeds. One that fails leaves the cgroup
there, as the kernel does while it has processes. -/
def removeMemoryCgroup (ok : Bool) (fs : Fs) (fileName : Path) : Fs :=
  if IsContainer fileName.base then
    if ok then fs.removeAll (n.memDir.child fileName.base) else fs
  else fs

/-- `DiffMap`: the keys of each map that the other one lacks. -/
def diffMap {α : Type} [DecidableEq α] (m1 m2 : List α) : List α × List α :=
  (m1.filter (· ∉ m2), m2.filter (· ∉ m1))

/-- What one run of `syncAllCgroup` meets: the steps of each creation, whether each removal
succeeds, and the order in which the two loops visit their maps. -/
structure Pass where
  create : Path → CreateEnv
  removeOk : Path → Bool
  createOrder : RangeOrder Path
  removeOrder : RangeOrder Path

/-- The paths `syncAllCgroup` calls `createMemoryCgroup` on. -/
def toCreate (fs : Fs) : List Path := (diffMap (fs.subDirs n.cpuDir) (fs.subDirs n.memDir)).1

/-- The paths `syncAllCgroup` calls `removeMemoryCgroup` on. -/
def toDelete (fs : Fs) : List Path := (diffMap (fs.subDirs n.cpuDir) (fs.subDirs n.memDir)).2

/-- `syncAllCgroup`. -/
def syncAllCgroup (pass : Pass) (fs : Fs) : Fs :=
  (pass.removeOrder.visit (toDelete n fs)).foldl
    (fun fs p => removeMemoryCgroup n (pass.removeOk p) fs p)
    ((pass.createOrder.visit (toCreate n fs)).foldl
      (fun fs p => createMemoryCgroup n (pass.create p) fs p) fs)

end YarnCopilot.Agent
