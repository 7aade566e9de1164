import YarnCopilot.Agent.Lifecycle

/-!
# Where the contents of memory cgroups come from

Reference: `createMemoryCgroup`, `syncAllCgroup` and `syncMemoryCgroup` of
`pkg/copilot-agent/nm/nm.go`.

The agent moves processes from one container's cpu cgroup into a memory cgroup and writes a limit
that it asked the NodeManager for; both are looked up by name, in different calls, while YARN and
the other steps of the agent change the two hierarchies. `provenance` says that nothing gets mixed
up: in every run, a process in the memory cgroup of a container was in the cpu cgroup of the same
container at some moment of the run, and a limit was the NodeManager's answer for that container.
-/

namespace YarnCopilot.Agent

variable {n : NodeMangerOperator} {fs fs' fs'' : Fs} {cgroup : Path} {pids : Set ℕ}
  {limits : Set String} {name : String}

/-! ## What is put into a cgroup -/

/-- The processes and the limit of the cgroup are what they were, or among the given ones. -/
structure Sourced (cgroup : Path) (pids : Set ℕ) (limits : Set String) (fs fs' : Fs) : Prop where
  procs : ∀ pid ∈ fs'.procs cgroup, pid ∈ fs.procs cgroup ∨ pid ∈ pids
  limit : ∀ text, fs'.files (cgroup.child "memory.limit_in_bytes") = some text →
    fs.files (cgroup.child "memory.limit_in_bytes") = some text ∨ text ∈ limits

namespace Sourced

theorem refl : Sourced cgroup pids limits fs fs := ⟨fun _ h => .inl h, fun _ h => .inl h⟩

theorem trans (h : Sourced cgroup pids limits fs fs') (h' : Sourced cgroup pids limits fs' fs'') :
    Sourced cgroup pids limits fs fs'' :=
  ⟨fun pid hpid => (h'.procs pid hpid).elim (h.procs pid) .inr,
    fun text htext => (h'.limit text htext).elim (h.limit text) .inr⟩

theorem mono {pids' : Set ℕ} {limits' : Set String} (h : Sourced cgroup pids limits fs fs')
    (hpids : pids ⊆ pids') (hlimits : limits ⊆ limits') : Sourced cgroup pids' limits' fs fs' :=
  ⟨fun pid hpid => (h.procs pid hpid).imp_right fun hin => hpids hin,
    fun text htext => (h.limit text htext).imp_right fun hin => hlimits hin⟩

theorem foldl {α : Type} {f : Fs → α → Fs} {l : List α}
    (h : ∀ fs, ∀ a ∈ l, Sourced cgroup pids limits fs (f fs a)) (fs : Fs) :
    Sourced cgroup pids limits fs (l.foldl f fs) := by
  induction l generalizing fs with
  | nil => exact refl
  | cons a l ih =>
    exact (h fs a List.mem_cons_self).trans
      (ih (fun fs b hb => h fs b (List.mem_cons_of_mem _ hb)) _)

theorem of_files_procs (hfiles : fs'.files = fs.files) (hprocs : fs'.procs = fs.procs) :
    Sourced cgroup pids limits fs fs' :=
  ⟨fun _ hpid => .inl (hprocs ▸ hpid), fun _ htext => .inl (hfiles ▸ htext)⟩

/-- Another file of the cgroup. -/
theorem write {file text : String} (h : "memory.limit_in_bytes" ≠ file) :
    Sourced cgroup pids limits fs (fs.write (cgroup.child file) text) :=
  ⟨fun _ hpid => .inl hpid, fun _ htext => .inl (files_write_of_ne h ▸ htext)⟩

theorem writeLimit {text : String} (h : text ∈ limits) :
    Sourced cgroup pids limits fs (fs.write (cgroup.child "memory.limit_in_bytes") text) := by
  refine ⟨fun _ hpid => .inl hpid, fun text' htext' => .inr ?_⟩
  simp only [Fs.write, Function.update_self] at htext'
  exact Option.some.inj htext' ▸ h

theorem attach {pid : ℕ} (h : pid ∈ pids) :
    Sourced cgroup pids limits fs (fs.attach cgroup pid) := by
  refine ⟨fun pid' hpid' => ?_, fun _ htext => .inl htext⟩
  simp only [Fs.attach, Function.update_self, List.mem_append, List.mem_singleton] at hpid'
  rcases hpid' with hpid' | rfl
  · exact .inl hpid'
  · exact .inr h

theorem removeAll (p : Path) : Sourced cgroup pids limits fs (fs.removeAll p) := by
  refine ⟨fun pid hpid => .inl ?_, fun text htext => .inl ?_⟩
  · simp only [Fs.removeAll] at hpid
    split at hpid
    · cases hpid
    · exact hpid
  · simp only [Fs.removeAll] at htext
    split at htext
    · cases htext
    · exact htext

theorem movePids {l : List ℕ} (h : ∀ pid ∈ l, pid ∈ pids) (moveOk : ℕ → Bool) :
    Sourced cgroup pids limits fs (movePids moveOk cgroup l fs).1 := by
  induction l generalizing fs with
  | nil => exact refl
  | cons pid l ih =>
    rw [Agent.movePids]
    split
    · exact (attach (h pid List.mem_cons_self)).trans
        (ih fun pid' hpid' => h pid' (List.mem_cons_of_mem _ hpid'))
    · exact refl

end Sourced

/-- The pids that a creation reads. -/
def CreateEnv.pidsRead (env : CreateEnv) : Set ℕ := {pid | ∃ l, env.pids = some l ∧ pid ∈ l}

/-- The text of the limit for the memory that a creation reads. -/
def CreateEnv.limitsRead (env : CreateEnv) : Set String :=
  {text | ∃ mb, env.totalMemoryNeededMB = some mb ∧ text = toString (int64 (mb * 1024 * 1024))}

theorem sourced_setMemoryLimit (env : CreateEnv) :
    Sourced cgroup pids env.limitsRead fs (setMemoryLimit env cgroup fs) := by
  unfold setMemoryLimit
  cases hmb : env.totalMemoryNeededMB with
  | none => exact .refl
  | some mb =>
    dsimp only
    split
    · exact .writeLimit ⟨mb, hmb, by rw [int64_int64_mul]⟩
    · exact .refl

theorem sourced_syncPids (env : CreateEnv) :
    Sourced cgroup env.pidsRead env.limitsRead fs (syncPids env cgroup fs) := by
  unfold syncPids
  cases hpids : env.pids with
  | none => exact .refl
  | some l =>
    have hread : ∀ pid ∈ l, pid ∈ env.pidsRead := fun pid hpid => ⟨l, hpids, hpid⟩
    have hmoved : Sourced cgroup env.pidsRead env.limitsRead fs
        (movePids env.moveOk cgroup l fs).1 := .movePids hread _
    dsimp only
    split
    · exact hmoved.trans (sourced_setMemoryLimit env)
    · exact hmoved

/-- A memory cgroup is filled from what its creation reads. -/
theorem sourced_fillMemoryCgroup (env : CreateEnv) :
    Sourced cgroup env.pidsRead env.limitsRead fs (fillMemoryCgroup env cgroup fs) := by
  unfold fillMemoryCgroup
  split
  · dsimp only
    split
    · exact ((Sourced.write (by decide)).trans (.write (by decide))).trans (sourced_syncPids env)
    · exact .write (by decide)
  · exact .refl

/-! ## The steps of the loop -/

/-- The creation for the container itself. -/
theorem sourced_createMemoryCgroup {p : Path} (hp : p.base = name) (env : CreateEnv) :
    Sourced (n.memDir.child name) env.pidsRead env.limitsRead fs (createMemoryCgroup n env fs p) := by
  subst hp
  unfold createMemoryCgroup
  split
  · cases hmkdir : fs.mkdir (n.memDir.child p.base) with
    | none => exact .refl
    | some made =>
      obtain ⟨-, -, hfiles, hprocs⟩ := Fs.of_mkdir hmkdir
      exact (Sourced.of_files_procs hfiles hprocs).trans (sourced_fillMemoryCgroup env)
  · exact .refl

theorem sourced_removeMemoryCgroup (ok : Bool) (p : Path) :
    Sourced cgroup pids limits fs (removeMemoryCgroup n ok fs p) := by
  unfold removeMemoryCgroup
  split
  · split
    · exact .removeAll _
    · exact .refl
  · exact .refl

theorem sourced_syncNoneProcCgroup (t : Tick) (fs : Fs) :
    Sourced cgroup pids limits fs (syncNoneProcCgroup n t fs) := by
  refine .foldl (fun fs p _ => ?_) fs
  unfold removeNoneProc
  split
  · exact .removeAll _
  · exact .refl

theorem sourced_of_sameAt
    (h : ∀ q, cgroup.IsUnder q → SameAt {n.cpuShares} fs fs' q)
    (hshares : cgroup.child "memory.limit_in_bytes" ≠ n.cpuShares) :
    Sourced cgroup pids limits fs fs' := by
  refine ⟨fun pid hpid => .inl ?_, fun text htext => .inl ?_⟩
  · rwa [(h cgroup ⟨rfl, List.prefix_refl _⟩).procs] at hpid
  · rwa [(h _ (cgroup.isUnder_child _)).files hshares] at htext

/-- A step of the loop is answered by the NodeManager that the container needs some memory. -/
def Answered (n : NodeMangerOperator) (s : AgentState) (name : String) (mb : ℤ) : AgentAct → Prop
  | .dirCreated _ o => (getContainer (o.nodeManager s.client.baseURL) name).map
      YarnContainer.totalMemoryNeededMB = some mb
  | .tick t => (getContainer ((t.create (n.cpuDir.child name)).nodeManager s.client.baseURL)
      name).map YarnContainer.totalMemoryNeededMB = some mb
  | _ => False

/-- The limits of those answers. -/
def answeredLimits (n : NodeMangerOperator) (s : AgentState) (name : String) (act : AgentAct) :
    Set String :=
  {text | ∃ mb, Answered n s name mb act ∧ text = toString (int64 (mb * 1024 * 1024))}

theorem pidsRead_createEnv (o : CreateOutcome) (s : AgentState) (name : String) :
    (o.createEnv n s name).pidsRead ⊆ {pid | pid ∈ s.fs.procs (n.cpuDir.child name)} := by
  rintro pid ⟨l, hl, hpid⟩
  simp only [CreateOutcome.createEnv] at hl
  split at hl
  · exact Option.some.inj hl ▸ hpid
  · cases hl

section

variable (hne : n.cpuDir ≠ n.memDir)
include hne

theorem limit_ne_cpuShares (name file : String) :
    (n.memDir.child name).child file ≠ n.cpuShares := by
  intro heq
  refine not_mem_cpuShares hne ((n.memDir.child name).isUnder_child file) ?_
  exact heq

/-- A creation for another container. -/
theorem sourced_createOther {p : Path} (hp : p.base ≠ name) (env : CreateEnv) :
    Sourced (n.memDir.child name) pids limits fs (createMemoryCgroup n env fs p) :=
  sourced_of_sameAt (fun _ hq => sameAt_createOther hq hp env) (limit_ne_cpuShares hne name _)

/-- A pass of `syncAllCgroup` makes one call for the container, with the path of its cpu cgroup. -/
theorem sourced_syncAllCgroup (pass : Pass) (fs : Fs) (name : String) :
    Sourced (n.memDir.child name) (pass.create (n.cpuDir.child name)).pidsRead
      (pass.create (n.cpuDir.child name)).limitsRead fs (syncAllCgroup n pass fs) := by
  refine Sourced.trans (.foldl (fun fs' p hp => ?_) fs)
    (.foldl (fun _ p _ => sourced_removeMemoryCgroup _ p) _)
  obtain ⟨-, name', rfl⟩ := Fs.mem_subDirs.mp
    ((mem_toCreate hne).mp ((RangeOrder.mem_visit _).mp hp))
  by_cases hname : name' = name
  · subst hname
    exact sourced_createMemoryCgroup (Path.base_child _ _) _
  · exact sourced_createOther hne (by rwa [Path.base_child]) _

/-- What a step of the loop puts into a memory cgroup was in the cpu cgroup before it, or is a limit
that the step was answered. -/
theorem sourced_agentStep (s : AgentState) (act : AgentAct) (name : String) :
    Sourced (n.memDir.child name) {pid | pid ∈ s.fs.procs (n.cpuDir.child name)}
      (answeredLimits n s name act) s.fs (agentStep n s act).fs := by
  cases act with
  | skipped => exact .refl
  | nmTick pods => exact .refl
  | dirRemoved p ok => exact sourced_removeMemoryCgroup ok p
  | dirCreated p o =>
    by_cases hp : p.base = name
    · subst hp
      refine (sourced_createMemoryCgroup rfl _).mono (pidsRead_createEnv o s p.base) ?_
      exact fun text htext => htext
    · exact sourced_createOther hne hp _
  | tick t =>
    have hwalk := @sourced_syncNoneProcCgroup n (n.cpuDir.child name) ∅ ∅ t s.fs
    have hpass := sourced_syncAllCgroup hne (t.pass n ⟨syncNoneProcCgroup n t s.fs, s.client⟩)
      (syncNoneProcCgroup n t s.fs) name
    have hparent : Sourced (n.memDir.child name) {pid | pid ∈ s.fs.procs (n.cpuDir.child name)}
        (answeredLimits n s name (.tick t)) _ (agentStep n s (.tick t)).fs :=
      sourced_of_sameAt (fun q _ => sameAt_syncParentCgroup t s.client _)
        (limit_ne_cpuShares hne name _)
    refine (sourced_syncNoneProcCgroup t s.fs).trans ((hpass.mono ?_ ?_).trans hparent)
    · -- the walk moves no process into the cpu cgroup
      intro pid hpid
      have hread := pidsRead_createEnv (t.create (n.cpuDir.child name)) _ _ hpid
      rw [Path.base_child] at hread
      exact (hwalk.procs pid hread).resolve_right (Set.notMem_empty pid)
    · intro text htext
      simp only [Tick.pass, CreateEnv.limitsRead, CreateOutcome.createEnv, Path.base_child]
        at htext
      exact htext

/-- The same for a step of the process. -/
theorem sourced_processStep {p : AgentProcess} {act : ProcessAct}
    (hact : OthersLeaveMemory n p act) (name : String) :
    Sourced (n.memDir.child name) {pid | pid ∈ p.state.fs.procs (n.cpuDir.child name)}
      {text | ∃ a, act = .agent a ∧ text ∈ answeredLimits n p.state name a} p.state.fs
      (processStep n p act).state.fs := by
  cases act with
  | agent a =>
    rw [processStep]
    split
    · exact (sourced_agentStep hne p.state a name).mono (fun _ h => h) fun _ h => ⟨a, rfl, h⟩
    · exact .refl
  | others fs =>
    exact sourced_of_sameAt (fun q hq => hact q ((n.memDir.isUnder_child name).trans hq))
      (limit_ne_cpuShares hne name _)
  | stop =>
    rw [processStep]
    split <;> exact .refl

end

/-! ## Runs -/

/-- The process was in the cpu cgroup of the container at some moment of the run. -/
def SeenIn (n : NodeMangerOperator) (p : AgentProcess) (acts : List ProcessAct) (name : String)
    (pid : ℕ) : Prop :=
  ∃ pre post, acts = pre ++ post ∧
    pid ∈ (run (processStep n) p pre).state.fs.procs (n.cpuDir.child name)

/-- At some moment of the run the NodeManager answered what the container needs, and this is the
limit for it. -/
def LimitAnsweredIn (n : NodeMangerOperator) (p : AgentProcess) (acts : List ProcessAct)
    (name : String) (text : String) : Prop :=
  ∃ pre act post, acts = pre ++ .agent act :: post ∧
    text ∈ answeredLimits n (run (processStep n) p pre).state name act

/-- **Provenance.** In every run in which the others leave the memory hierarchy alone, a process in
the memory cgroup of a container was there at the start, or in the cpu cgroup of the same container
at some moment of the run; and its limit is that of the start, or the one for what the NodeManager
answered for this container. -/
theorem provenance {p : AgentProcess} {acts : List ProcessAct} (hne : n.cpuDir ≠ n.memDir)
    (hothers : Meets (processStep n) (OthersLeaveMemory n) p acts) (name : String) :
    Sourced (n.memDir.child name) {pid | SeenIn n p acts name pid}
      {text | LimitAnsweredIn n p acts name text} p.state.fs
      (run (processStep n) p acts).state.fs := by
  have hstep : ∀ pre act post, acts = pre ++ act :: post → _ := fun pre act post hsplit =>
    sourced_processStep hne (hothers pre act post hsplit) name
  constructor
  · intro pid hpid
    rcases run_origin (P := fun q : AgentProcess => pid ∈ q.state.fs.procs (n.memDir.child name))
        (fun pre act post hsplit => (hstep pre act post hsplit).procs pid) hpid with
      hstart | ⟨pre, act, post, hsplit, hseen⟩
    · exact .inl hstart
    · exact .inr ⟨pre, act :: post, hsplit, hseen⟩
  · intro text htext
    rcases run_origin (P := fun q : AgentProcess =>
          q.state.fs.files ((n.memDir.child name).child "memory.limit_in_bytes") = some text)
        (fun pre act post hsplit => (hstep pre act post hsplit).limit text) htext with
      hstart | ⟨pre, _, post, hsplit, act, rfl, hanswered⟩
    · exact .inl hstart
    · exact .inr ⟨pre, act, post, hsplit, hanswered⟩

/-- The process that the first tick after a cold start has moved. -/
theorem provenance_coldAgent :
    SeenIn yarnOperator coldAgent [.agent (.tick calmTick)] "container_1" 4711 := by
  have h := @provenance yarnOperator coldAgent [.agent (.tick calmTick)] (by decide +kernel)
    (meets_cons.mpr ⟨trivial, meets_nil⟩) "container_1"
  exact (h.procs 4711 (by decide +kernel)).resolve_left (by decide +kernel)

end YarnCopilot.Agent
