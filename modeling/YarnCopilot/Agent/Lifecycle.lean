import YarnCopilot.Agent.Flapping

/-!
# The agent from its start to its stop

Reference: `NewNodeMangerOperator`, `Run`, `syncMemoryCgroup` and `ensureCgroupDir` of
`pkg/copilot-agent/nm/nm.go`.

Before its loop the agent makes the directories of YARN's cgroups in the two hierarchies and opens
them to everyone. `startSync_spec` says what a start that goes through leaves, and
`mirrored_from_start` that from then until the stop every container that runs has a place in the
memory hierarchy, which a tick in which nothing fails fills.

The loop is also what looks for the NodeManager. An agent that is not to sync the cgroups, or that
fails to start, has no loop; `baseURL_lifecycle` says where its client is.
-/

namespace YarnCopilot.Agent

/-! ## The start -/

/-- The file system with the permissions of its entries. -/
structure PermFs where
  fs : Fs
  perm : Path → ℕ

/-- What `os.Stat` returns. -/
inductive Stat
  | missing
  | failed
  | found (perm : ℕ)

/-- What one `ensureCgroupDir` meets: whether its calls succeed, and the permissions a new directory
gets. -/
structure EnsureOutcome where
  statOk : Bool
  mkdirOk : Path → Bool
  made : ℕ
  chmodOk : Bool

/-- `os.Stat`. -/
def PermFs.stat (s : PermFs) (ok : Bool) (p : Path) : Stat :=
  if ok then
    if p ∈ s.fs.dirs ∨ (s.fs.files p).isSome then .found (s.perm p) else .missing
  else .failed

/-- `os.Chmod` to 0777, and whether it succeeds. -/
def PermFs.chmod (s : PermFs) (ok : Bool) (p : Path) : PermFs × Bool :=
  if ok then ({ s with perm := Function.update s.perm p 0o777 }, true) else (s, false)

/-- The directories on the way to one, from the top. -/
def dirsTo (dir : Path) : List Path := dir.names.inits.map fun names => ⟨dir.rooted, names⟩

/-- `os.MkdirAll` on the directories of the way. One that is there is passed; a file in its place or
a `Mkdir` that fails ends the call. -/
def mkdirAll (o : EnsureOutcome) : List Path → PermFs → PermFs × Bool
  | [], s => (s, true)
  | p :: ps, s =>
    if p ∈ s.fs.dirs then mkdirAll o ps s
    else if (s.fs.files p).isSome ∨ o.mkdirOk p = false then (s, false)
    else
      match s.fs.mkdir p with
      | none => (s, false)
      | some fs => mkdirAll o ps ⟨fs, Function.update s.perm p o.made⟩

/-- `ensureCgroupDir`, and whether it returns without an error. It does not ask whether what it
finds is a directory. -/
def ensureCgroupDir (o : EnsureOutcome) (dir : Path) (s : PermFs) : PermFs × Bool :=
  match s.stat o.statOk dir with
  | .failed => (s, false)
  | .missing =>
    let made := mkdirAll o (dirsTo dir) s
    if made.2 then made.1.chmod o.chmodOk dir else made
  | .found perm => if perm = 0o777 then (s, true) else s.chmod o.chmodOk dir

/-- What the start of `syncMemoryCgroup` meets. -/
structure StartOutcome where
  cpu : EnsureOutcome
  watchOk : Bool
  mem : EnsureOutcome

variable (n : NodeMangerOperator)

/-- `syncMemoryCgroup` up to its loop, and whether it gets there. -/
def startSync (o : StartOutcome) (s : PermFs) : PermFs × Bool :=
  let cpu := ensureCgroupDir o.cpu n.cpuDir s
  if cpu.2 then
    if o.watchOk then ensureCgroupDir o.mem n.memDir cpu.1 else (cpu.1, false)
  else cpu

variable {n} {s s' : PermFs} {dir : Path} {opened : Set Path}

/-- What the start does to the file system: directories are added, and the permissions of those that
were there stay, apart from those that are opened. -/
structure Grows (opened : Set Path) (s s' : PermFs) : Prop where
  files : s'.fs.files = s.fs.files
  procs : s'.fs.procs = s.fs.procs
  dirs : ∀ q ∈ s.fs.dirs, q ∈ s'.fs.dirs
  perm : ∀ q ∈ s.fs.dirs, q ∉ opened → s'.perm q = s.perm q

theorem Grows.refl : Grows opened s s := ⟨rfl, rfl, fun _ h => h, fun _ _ _ => rfl⟩

theorem Grows.trans {s'' : PermFs} (h : Grows opened s s') (h' : Grows opened s' s'') :
    Grows opened s s'' :=
  ⟨h'.files.trans h.files, h'.procs.trans h.procs, fun q hq => h'.dirs q (h.dirs q hq),
    fun q hq hnot => (h'.perm q (h.dirs q hq) hnot).trans (h.perm q hq hnot)⟩

theorem Grows.mono {opened' : Set Path} (h : Grows opened s s') (hsub : opened ⊆ opened') :
    Grows opened' s s' :=
  ⟨h.files, h.procs, h.dirs, fun q hq hnot => h.perm q hq fun hin => hnot (hsub hin)⟩

theorem grows_chmod (ok : Bool) : Grows {dir} s (s.chmod ok dir).1 := by
  unfold PermFs.chmod
  split
  · exact ⟨rfl, rfl, fun _ h => h, fun q _ hne => Function.update_of_ne hne _ _⟩
  · exact .refl

theorem chmod_perm {ok : Bool} (h : (s.chmod ok dir).2 = true) :
    (s.chmod ok dir).1.perm dir = 0o777 := by
  unfold PermFs.chmod at h ⊢
  split
  · exact Function.update_self _ _ _
  · rename_i hok
    rw [if_neg hok] at h
    cases h

theorem grows_mkdir {fs : Fs} {p : Path} (h : s.fs.mkdir p = some fs) (perm : ℕ) :
    Grows opened s ⟨fs, Function.update s.perm p perm⟩ := by
  obtain ⟨hnew, hdirs, hfiles, hprocs⟩ := Fs.of_mkdir h
  refine ⟨hfiles, hprocs, fun q hq => hdirs ▸ List.mem_cons_of_mem _ hq, fun q hq _ => ?_⟩
  refine Function.update_of_ne ?_ _ _
  rintro rfl
  exact hnew hq

/-- `MkdirAll` only adds directories, and all of them when it goes through. -/
theorem mkdirAll_spec (o : EnsureOutcome) (ps : List Path) (s : PermFs) :
    Grows opened s (mkdirAll o ps s).1 ∧
      ((mkdirAll o ps s).2 = true → ∀ p ∈ ps, p ∈ (mkdirAll o ps s).1.fs.dirs) := by
  induction ps generalizing s with
  | nil => exact ⟨.refl, fun _ _ hp => absurd hp List.not_mem_nil⟩
  | cons p ps ih =>
    rw [mkdirAll]
    split
    · rename_i hp
      obtain ⟨hgrows, hdirs⟩ := ih s
      exact ⟨hgrows, fun hok => List.forall_mem_cons.mpr ⟨hgrows.dirs p hp, hdirs hok⟩⟩
    · split
      · exact ⟨.refl, fun hok => absurd hok Bool.false_ne_true⟩
      · cases hmkdir : s.fs.mkdir p with
        | none => exact ⟨.refl, fun hok => absurd hok Bool.false_ne_true⟩
        | some fs =>
          obtain ⟨hgrows, hdirs⟩ := ih ⟨fs, Function.update s.perm p o.made⟩
          exact ⟨(grows_mkdir hmkdir o.made).trans hgrows, fun hok =>
            List.forall_mem_cons.mpr ⟨hgrows.dirs p (Fs.mem_mkdir hmkdir), hdirs hok⟩⟩

theorem mem_dirsTo (dir : Path) : dir ∈ dirsTo dir :=
  List.mem_map.mpr ⟨dir.names, (List.mem_inits _ _).mpr (List.prefix_refl _), rfl⟩

/-- A directory that everyone may use. -/
structure IsOpen (s : PermFs) (dir : Path) : Prop where
  there : dir ∈ s.fs.dirs
  perm : s.perm dir = 0o777

/-- `ensureCgroupDir` leaves an open directory, unless there is a file in its place. -/
theorem ensureCgroupDir_spec (o : EnsureOutcome) (dir : Path) (s : PermFs) :
    Grows {dir} s (ensureCgroupDir o dir s).1 ∧
      ((ensureCgroupDir o dir s).2 = true → s.fs.files dir = none →
        IsOpen (ensureCgroupDir o dir s).1 dir) := by
  unfold ensureCgroupDir PermFs.stat
  cases o.statOk with
  | false => exact ⟨.refl, fun hok => absurd hok Bool.false_ne_true⟩
  | true =>
    by_cases hthere : dir ∈ s.fs.dirs ∨ (s.fs.files dir).isSome
    · have hdir : s.fs.files dir = none → dir ∈ s.fs.dirs := fun hnone =>
        hthere.resolve_right (by simp [hnone])
      simp only [if_true, if_pos hthere]
      split
      · rename_i hperm
        exact ⟨.refl, fun _ hnone => ⟨hdir hnone, hperm⟩⟩
      · have hgrows := @grows_chmod s dir o.chmodOk
        exact ⟨hgrows, fun hok hnone => ⟨hgrows.dirs dir (hdir hnone), chmod_perm hok⟩⟩
    · simp only [if_true, if_neg hthere]
      obtain ⟨hmade, hdirs⟩ := @mkdirAll_spec {dir} o (dirsTo dir) s
      split
      · rename_i hok
        have hgrows := @grows_chmod (mkdirAll o (dirsTo dir) s).1 dir o.chmodOk
        exact ⟨hmade.trans hgrows, fun hchmod _ =>
          ⟨hgrows.dirs dir (hdirs hok dir (mem_dirsTo dir)), chmod_perm hchmod⟩⟩
      · rename_i hfailed
        exact ⟨hmade, fun hok => absurd hok hfailed⟩

/-- **The start.** Whatever fails, the start takes nothing away and closes nothing. When it gets to
the loop, both directories of YARN's cgroups are there and open, apart from one that has a file in
its place. -/
theorem startSync_spec (n : NodeMangerOperator) (o : StartOutcome) (s : PermFs) :
    Grows {n.cpuDir, n.memDir} s (startSync n o s).1 ∧
      ((startSync n o s).2 = true → ∀ dir, dir = n.cpuDir ∨ dir = n.memDir →
        s.fs.files dir = none → IsOpen (startSync n o s).1 dir) := by
  obtain ⟨hgrows, hcpu⟩ := ensureCgroupDir_spec o.cpu n.cpuDir s
  obtain ⟨hgrows', hmem⟩ :=
    ensureCgroupDir_spec o.mem n.memDir (ensureCgroupDir o.cpu n.cpuDir s).1
  have hfirst : Grows {n.cpuDir, n.memDir} s (ensureCgroupDir o.cpu n.cpuDir s).1 :=
    hgrows.mono (by simp)
  unfold startSync
  dsimp only
  split
  · rename_i hok
    split
    · refine ⟨hfirst.trans (hgrows'.mono (by simp)), fun hok' dir hdir hnone => ?_⟩
      rw [hgrows.files] at hmem
      by_cases heq : dir = n.memDir
      · subst heq
        exact hmem hok' hnone
      · -- the second call leaves the directory of the first as it is
        obtain rfl := hdir.resolve_right heq
        have hopen := hcpu hok hnone
        exact ⟨hgrows'.dirs _ hopen.there, (hgrows'.perm _ hopen.there heq).trans hopen.perm⟩
    · exact ⟨hfirst, fun hok => absurd hok Bool.false_ne_true⟩
  · rename_i hfailed
    exact ⟨hfirst, fun hok => absurd hok hfailed⟩

/-! ## The process -/

/-- `Run`: in its loop, or back with or without an error. -/
inductive RunPhase
  | looping
  | returned (err : Bool)
deriving DecidableEq

/-- The agent and what it works on. -/
structure AgentProcess where
  phase : RunPhase
  state : AgentState

variable (n) in
/-- `NewNodeMangerOperator` and `Run`, up to the loop. -/
def startAgent (syncMemoryCgroup : Bool) (endpoint : String) (o : StartOutcome) (s : PermFs) :
    AgentProcess :=
  if syncMemoryCgroup then
    { phase := if (startSync n o s).2 then .looping else .returned true
      state := ⟨(startSync n o s).1.fs, newNmClient n endpoint⟩ }
  else
    { phase := .returned false
      state := ⟨s.fs, newNmClient n endpoint⟩ }

/-- A step of the loop, a step of the rest of the system, which leaves some file system behind, or
the stop. -/
inductive ProcessAct
  | agent (act : AgentAct)
  | others (fs : Fs)
  | stop

variable (n) in
/-- One step of the process. -/
def processStep (p : AgentProcess) : ProcessAct → AgentProcess
  | .agent act => if p.phase = .looping then { p with state := agentStep n p.state act } else p
  | .others fs => { p with state := { p.state with fs } }
  | .stop => if p.phase = .looping then { p with phase := .returned false } else p

/-- A process that is in its loop has been all along. -/
theorem looping_of_run {p : AgentProcess} (acts : List ProcessAct)
    (h : (run (processStep n) p acts).phase = .looping) : p.phase = .looping := by
  by_contra hphase
  have hstep : ∀ (p : AgentProcess) act, p.phase ≠ .looping →
      (processStep n p act).phase ≠ .looping := by
    intro p act hphase
    cases act with
    | agent act => rwa [processStep, if_neg hphase]
    | others fs => exact hphase
    | stop => rwa [processStep, if_neg hphase]
  exact run_invariant hstep acts hphase h

/-! ## A place for every container -/

/-- There is a directory for the memory cgroups, and nothing in the place of one that is not
there. -/
structure Ready (n : NodeMangerOperator) (fs : Fs) : Prop where
  memDir : n.memDir ∈ fs.dirs
  tidy : ∀ name, IsContainer name → Tidy n fs name

variable (n) in
/-- The others leave the memory hierarchy of YARN alone. -/
def OthersLeaveMemory (p : AgentProcess) : ProcessAct → Prop
  | .others fs => ∀ q, n.memDir.IsUnder q → SameAt {n.cpuShares} p.state.fs fs q
  | _ => True

section

variable (hne : n.cpuDir ≠ n.memDir)
include hne

theorem Ready.agentStep {s : AgentState} (h : Ready n s.fs) (act : AgentAct) :
    Ready n (agentStep n s act).fs :=
  ⟨(confined_agentStep s act _ (protected_memDir hne)).dirs.mpr h.memDir,
    fun name hname => (h.tidy name hname).agentStep hne act⟩

theorem Ready.processStep {p : AgentProcess} (h : Ready n p.state.fs) {act : ProcessAct}
    (hact : OthersLeaveMemory n p act) : Ready n (processStep n p act).state.fs := by
  cases act with
  | agent act =>
    rw [Agent.processStep]
    split
    · exact h.agentStep hne act
    · exact h
  | others fs =>
    refine ⟨(hact _ ⟨rfl, List.prefix_refl _⟩).dirs.mpr h.memDir, fun name hname => ?_⟩
    exact (h.tidy name hname).of_sameAt hne fun q hq =>
      hact q ((n.memDir.isUnder_child name).trans hq)
  | stop =>
    rw [Agent.processStep]
    split <;> exact h

end

/-- A start that gets to the loop leaves everything ready. -/
theorem ready_startAgent {syncMemoryCgroup : Bool} {endpoint : String} {o : StartOutcome}
    (hmem : s.fs.files n.memDir = none) (htidy : ∀ name, IsContainer name → Tidy n s.fs name)
    (hlooping : (startAgent n syncMemoryCgroup endpoint o s).phase = .looping) :
    Ready n (startAgent n syncMemoryCgroup endpoint o s).state.fs := by
  unfold startAgent at hlooping ⊢
  cases syncMemoryCgroup with
  | false => cases hlooping
  | true =>
    simp only [if_true] at hlooping ⊢
    obtain ⟨hgrows, hopen⟩ := startSync_spec n o s
    split at hlooping
    · rename_i hok
      refine ⟨(hopen hok _ (.inr rfl) hmem).there, fun name hname hgone => ?_⟩
      have hvacant := htidy name hname fun hin => hgone ⟨hin.1, hgrows.dirs _ hin.2⟩
      exact ⟨by rw [hgrows.files]; exact hvacant.files, by rw [hgrows.procs]; exact hvacant.procs⟩
    · cases hlooping

/-- **From the start on.** Let the agent start with no file in the place of the directory of the
memory cgroups and nothing in the places of those that are not there, and let the others leave the
memory hierarchy alone. As long as it is in its loop, through all events, failures and changes by
others, a container with processes that has no memory cgroup gets a complete one from a tick in
which nothing fails. -/
theorem mirrored_from_start {syncMemoryCgroup : Bool} {endpoint : String} {o : StartOutcome}
    {acts : List ProcessAct} {p : AgentProcess} {name : String} {t : Tick} {mb : ℤ}
    (hne : n.cpuDir ≠ n.memDir) (hmem : s.fs.files n.memDir = none)
    (htidy : ∀ name, IsContainer name → Tidy n s.fs name)
    (hothers : Meets (processStep n) (OthersLeaveMemory n)
      (startAgent n syncMemoryCgroup endpoint o s) acts)
    (hp : run (processStep n) (startAgent n syncMemoryCgroup endpoint o s) acts = p)
    (hlooping : p.phase = .looping)
    (hcontainer : InCpu n p.state.fs name) (hgone : ¬ InMem n p.state.fs name)
    (hprocs : p.state.fs.procs (n.cpuDir.child name) ≠ [])
    (hcalm : ((t.create (n.cpuDir.child name)).createEnv n p.state name).GoesThrough
      (p.state.fs.procs (n.cpuDir.child name)) mb)
    (hmb : int64 (mb * 1024 * 1024) = mb * 1024 * 1024) :
    Complete (processStep n p (.agent (.tick t))).state.fs (n.memDir.child name)
      (p.state.fs.procs (n.cpuDir.child name)) mb := by
  subst hp
  have hstart := ready_startAgent hmem htidy (looping_of_run acts hlooping)
  have hstep : ∀ (p : AgentProcess) act, OthersLeaveMemory n p act → Ready n p.state.fs →
      Ready n (processStep n p act).state.fs := fun _ _ hact h => h.processStep hne hact
  have hready := run_invariant_of_meets hstep acts hothers hstart
  rw [processStep, if_pos hlooping]
  have hlive : Live n _ name := ⟨hcontainer.1, hcontainer.2, hprocs, hready.memDir⟩
  exact complete_tickFs hne hlive hgone (hready.tidy name hcontainer.1 hgone) hcalm hmb

/-- A node on which YARN runs a container and nothing is in the memory hierarchy yet. -/
def coldFs : PermFs := ⟨liveFs.removeAll yarnOperator.memDir, fun _ => 0o755⟩

/-- Nothing fails in a start. -/
def calmStart : StartOutcome where
  cpu := ⟨true, fun _ => true, 0o755, true⟩
  watchOk := true
  mem := ⟨true, fun _ => true, 0o755, true⟩

/-- The agent after such a start. -/
def coldAgent : AgentProcess := startAgent yarnOperator true "localhost:8042" calmStart coldFs

theorem tidy_coldFs (name : String) : Tidy yarnOperator coldFs.fs name := by
  intro _
  have hunder := yarnOperator.memDir.isUnder_child name
  refine ⟨fun file => ?_, by simp [coldFs, Fs.removeAll, hunder]⟩
  have hfile := hunder.trans ((yarnOperator.memDir.child name).isUnder_child file)
  simp [coldFs, Fs.removeAll, hfile]

/-- The first tick after the start, behind a poll for the NodeManager. -/
theorem mirrored_from_start_coldAgent :
    Complete (processStep yarnOperator
      (run (processStep yarnOperator) coldAgent [.agent (.nmTick none)])
      (.agent (.tick calmTick))).state.fs (yarnOperator.memDir.child "container_1") [4711] 1024 := by
  refine @mirrored_from_start yarnOperator coldFs true "localhost:8042" calmStart
    [.agent (.nmTick none)] _ "container_1" calmTick 1024 (by decide +kernel) (by decide +kernel)
    (fun name _ => tidy_coldFs name) (meets_cons.mpr ⟨trivial, meets_nil⟩) rfl
    (by decide +kernel) (by decide +kernel) (by decide +kernel) (by decide +kernel) ?_ (by decide)
  exact ⟨rfl, rfl, by decide +kernel, fun _ _ => rfl, by decide +kernel, rfl⟩

/-! ## The client -/

/-- What a step of the loop hears of the NodeManager. -/
def ProcessAct.poll : ProcessAct → Option (Option (List KubeletPod))
  | .agent (.nmTick pods) => some pods
  | _ => none

/-- The stop. -/
def ProcessAct.isStop : ProcessAct → Bool
  | .stop => true
  | _ => false

/-- The polls of a loop up to its stop. -/
def polls (acts : List ProcessAct) : List (Option (List KubeletPod)) :=
  (acts.takeWhile fun act => !act.isStop).filterMap ProcessAct.poll

/-- A process that is not in its loop leaves its client alone. -/
theorem client_run_of_returned {p : AgentProcess} (h : p.phase ≠ .looping)
    (acts : List ProcessAct) :
    (run (processStep n) p acts).state.client = p.state.client := by
  induction acts generalizing p with
  | nil => rfl
  | cons act acts ih =>
    rw [run_cons]
    cases act with
    | agent act =>
      rw [processStep, if_neg h]
      exact ih h
    | others fs => exact @ih (processStep n p (.others fs)) h
    | stop =>
      rw [processStep, if_neg h]
      exact ih h

/-- In its loop, it moves its client by the polls up to the stop. -/
theorem client_run_of_looping {p : AgentProcess} (h : p.phase = .looping) (acts : List ProcessAct) :
    (run (processStep n) p acts).state.client =
      run (syncNMEndpoint n) p.state.client (polls acts) := by
  induction acts generalizing p with
  | nil => rfl
  | cons act acts ih =>
    rw [run_cons]
    cases act with
    | agent act =>
      have hstate : AgentProcess.phase { p with state := agentStep n p.state act } = .looping := h
      rw [processStep, if_pos h, ih hstate]
      cases act <;> rfl
    | others fs => exact @ih (processStep n p (.others fs)) h
    | stop =>
      rw [processStep, if_pos h]
      refine client_run_of_returned ?_ acts
      exact RunPhase.noConfusion

/-- **The endpoint of the client.** The server of the agent asks the NodeManager whose pod was found
last by a loop that had started and not stopped yet: a poll that fails or finds no pod leaves the
client where it is, and a NodeManager that comes back is found again. Without such a loop the client
stays at the endpoint of the command line. -/
theorem baseURL_lifecycle (n : NodeMangerOperator) (syncMemoryCgroup : Bool) (endpoint : String)
    (o : StartOutcome) (s : PermFs) (acts : List ProcessAct) :
    (run (processStep n) (startAgent n syncMemoryCgroup endpoint o s) acts).state.client.baseURL =
      n.setBaseURL ("http://" ++ lastEndpoint
        (if syncMemoryCgroup = true ∧ (startSync n o s).2 = true then polls acts else [])
        endpoint) := by
  have hclient :
      (startAgent n syncMemoryCgroup endpoint o s).state.client = newNmClient n endpoint := by
    unfold startAgent
    split <;> rfl
  have hphase : (startAgent n syncMemoryCgroup endpoint o s).phase = .looping ↔
      syncMemoryCgroup = true ∧ (startSync n o s).2 = true := by
    unfold startAgent
    cases syncMemoryCgroup <;> cases (startSync n o s).2 <;> simp
  have hat : AtEndpoint n (newNmClient n endpoint) endpoint := ⟨rfl, .inl rfl⟩
  split
  · rename_i hloop
    rw [client_run_of_looping (hphase.mpr hloop), hclient]
    exact (atEndpoint_run _ hat).baseURL
  · rename_i hloop
    rw [client_run_of_returned (fun h => hloop (hphase.mp h)), hclient]
    exact hat.baseURL

end YarnCopilot.Agent
