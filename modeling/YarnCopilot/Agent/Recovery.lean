import YarnCopilot.Agent.Mirror
import YarnCopilot.Common.Run

/-!
# Creating a memory cgroup again

`createMemoryCgroup` makes the directory of a memory cgroup and then fills it step by step; each
step can fail and ends the call. The calls come from events and from a ticker, so a cgroup that was
left half filled is asked for again. `Mkdir` fails on a directory that exists: `recovers_iff` says
what the later calls can still do.
-/

namespace YarnCopilot.Agent

variable (n : NodeMangerOperator)

/-- The memory cgroup of a container is as it should be: both settings, the pids, and the limit. -/
structure Complete (fs : Fs) (cgroup : Path) (pids : List ℕ) (totalMemoryNeededMB : ℤ) : Prop where
  moveCharge : fs.files (cgroup.child "memory.move_charge_at_immigrate") = some "3"
  oomGroup : fs.files (cgroup.child "memory.oom.group") = some "1"
  procs : ∀ pid ∈ pids, pid ∈ fs.procs cgroup
  limit : fs.files (cgroup.child "memory.limit_in_bytes") =
    some (toString (totalMemoryNeededMB * 1024 * 1024))

/-- No step of a call fails: it reads these pids and this memory. -/
structure CreateEnv.GoesThrough (env : CreateEnv) (pids : List ℕ) (totalMemoryNeededMB : ℤ) :
    Prop where
  moveChargeOk : env.moveChargeOk = true
  oomGroupOk : env.oomGroupOk = true
  pidsRead : env.pids = some pids
  moveOk : ∀ pid ∈ pids, env.moveOk pid = true
  memoryRead : env.totalMemoryNeededMB = some totalMemoryNeededMB
  limitOk : env.limitOk = true

/-- Nothing has been written to a directory, as before it exists. -/
structure Fs.Vacant (fs : Fs) (dir : Path) : Prop where
  files : ∀ name, fs.files (dir.child name) = none
  procs : fs.procs dir = []

/-! ## One call -/

/-- Moving the pids changes no file, and moves all of them if no move fails. -/
theorem movePids_spec (moveOk : ℕ → Bool) (cgroup : Path) (pids : List ℕ) (fs : Fs) :
    (movePids moveOk cgroup pids fs).1.files = fs.files ∧
    ((movePids moveOk cgroup pids fs).2 = true ↔ ∀ pid ∈ pids, moveOk pid = true) ∧
    ((movePids moveOk cgroup pids fs).2 = true →
      (movePids moveOk cgroup pids fs).1.procs cgroup = fs.procs cgroup ++ pids) := by
  induction pids generalizing fs with
  | nil => simp [movePids]
  | cons pid pids ih =>
    obtain ⟨hfiles, hok, hprocs⟩ := ih (fs.attach cgroup pid)
    cases hmove : moveOk pid with
    | false => simp [movePids, hmove]
    | true =>
      have hstep : movePids moveOk cgroup (pid :: pids) fs =
          movePids moveOk cgroup pids (fs.attach cgroup pid) := by
        simp [movePids, hmove]
      rw [hstep]
      refine ⟨hfiles, by simp [hok, hmove], fun h => ?_⟩
      rw [hprocs h]
      simp [Fs.attach]

variable {env : CreateEnv} {cgroup : Path} {fs : Fs} {pids : List ℕ} {mb : ℤ}

/-- A file of a cgroup is not touched by a write to another one. -/
theorem files_write_of_ne {name name' text : String} (h : name' ≠ name) :
    (fs.write (cgroup.child name) text).files (cgroup.child name') =
      fs.files (cgroup.child name') :=
  Function.update_of_ne (fun heq => h (Path.child_inj.mp heq).2) _ _

/-- A cgroup with both settings written. -/
def withSettings (cgroup : Path) (fs : Fs) : Fs :=
  (fs.write (cgroup.child "memory.move_charge_at_immigrate") "3").write
    (cgroup.child "memory.oom.group") "1"

/-- The settings come first, and the rest of a call starts from them. -/
theorem fill_eq_syncPids (hcharge : env.moveChargeOk = true) (hoom : env.oomGroupOk = true) :
    fillMemoryCgroup env cgroup fs = syncPids env cgroup (withSettings cgroup fs) := by
  simp only [fillMemoryCgroup, hcharge, hoom, if_true, withSettings]

/-- The end of a call writes the limit if nothing fails, and no file otherwise. -/
theorem syncPids_files (env : CreateEnv) (cgroup : Path) (fs : Fs) :
    (∃ pids mb, env.pids = some pids ∧ (∀ pid ∈ pids, env.moveOk pid = true) ∧
      env.totalMemoryNeededMB = some mb ∧ env.limitOk = true) ∨
    (syncPids env cgroup fs).files = fs.files := by
  unfold syncPids
  cases hpids : env.pids with
  | none => exact .inr rfl
  | some pids =>
    obtain ⟨hfiles, hok, -⟩ := movePids_spec env.moveOk cgroup pids fs
    dsimp only
    split
    · rename_i hmoved
      unfold setMemoryLimit
      cases hmb : env.totalMemoryNeededMB with
      | none => exact .inr hfiles
      | some mb =>
        cases hlimit : env.limitOk with
        | false => exact .inr hfiles
        | true => exact .inl ⟨pids, mb, rfl, hok.mp hmoved, rfl, rfl⟩
    · exact .inr hfiles

/-- The limit comes last: it is written only by a call that goes through. -/
theorem fill_limit_of_not_goesThrough (h : ∀ pids mb, ¬ env.GoesThrough pids mb) :
    (fillMemoryCgroup env cgroup fs).files (cgroup.child "memory.limit_in_bytes") =
      fs.files (cgroup.child "memory.limit_in_bytes") := by
  cases hcharge : env.moveChargeOk with
  | false => simp only [fillMemoryCgroup, hcharge, Bool.false_eq_true, if_false]
  | true =>
    cases hoom : env.oomGroupOk with
    | false =>
      simp only [fillMemoryCgroup, hcharge, hoom, Bool.false_eq_true, if_true, if_false]
      exact files_write_of_ne (by decide)
    | true =>
      rw [fill_eq_syncPids hcharge hoom]
      rcases syncPids_files env cgroup (withSettings cgroup fs) with
        ⟨pids, mb, hpids, hok, hmb, hlimit⟩ | hfiles
      · exact absurd ⟨hcharge, hoom, hpids, hok, hmb, hlimit⟩ (h pids mb)
      · rw [hfiles, withSettings, files_write_of_ne (by decide), files_write_of_ne (by decide)]

/-- What a call that goes through leaves in a vacant directory. -/
theorem fill_of_goesThrough (h : env.GoesThrough pids mb) (hprocs : fs.procs cgroup = []) :
    (fillMemoryCgroup env cgroup fs).files (cgroup.child "memory.move_charge_at_immigrate") =
      some "3" ∧
    (fillMemoryCgroup env cgroup fs).files (cgroup.child "memory.oom.group") = some "1" ∧
    (fillMemoryCgroup env cgroup fs).procs cgroup = pids ∧
    (fillMemoryCgroup env cgroup fs).files (cgroup.child "memory.limit_in_bytes") =
      some (toString (int64 (mb * 1024 * 1024))) := by
  obtain ⟨hfiles, hok, hmoved⟩ := movePids_spec env.moveOk cgroup pids (withSettings cgroup fs)
  have hdone := hok.mpr h.moveOk
  have hfill : fillMemoryCgroup env cgroup fs =
      (movePids env.moveOk cgroup pids (withSettings cgroup fs)).1.write
        (cgroup.child "memory.limit_in_bytes") (toString (int64 (mb * 1024 * 1024))) := by
    simp only [fill_eq_syncPids h.moveChargeOk h.oomGroupOk, syncPids, h.pidsRead, hdone, if_true,
      setMemoryLimit, h.memoryRead, h.limitOk, int64_int64_mul]
  rw [hfill]
  refine ⟨?_, ?_, ?_, Function.update_self _ _ _⟩
  · rw [files_write_of_ne (by decide), hfiles, withSettings, files_write_of_ne (by decide)]
    exact Function.update_self _ _ _
  · rw [files_write_of_ne (by decide), hfiles]
    exact Function.update_self _ _ _
  · have hprocs' := hmoved hdone
    rw [show (withSettings cgroup fs).procs cgroup = [] from hprocs] at hprocs'
    exact hprocs'

theorem toString_int_inj {x y : ℤ} : toString x = toString y ↔ x = y := by
  constructor
  · intro h
    have hread : parseInt x.repr.toList = parseInt y.repr.toList := congrArg (parseInt ·.toList) h
    rw [parseInt_repr, parseInt_repr] at hread
    exact Option.some.inj hread
  · exact congrArg _

/-- A call on a vacant directory completes the cgroup exactly when no step of it fails, on all of
the pids and with the same limit. -/
theorem complete_fill_iff (hvacant : fs.Vacant cgroup) :
    Complete (fillMemoryCgroup env cgroup fs) cgroup pids mb ↔
      ∃ pids' mb', env.GoesThrough pids' mb' ∧ pids ⊆ pids' ∧
        int64 (mb' * 1024 * 1024) = mb * 1024 * 1024 := by
  constructor
  · intro h
    by_contra hnot
    by_cases hgoes : ∃ pids' mb', env.GoesThrough pids' mb'
    · obtain ⟨pids', mb', hgoes⟩ := hgoes
      obtain ⟨-, -, hprocs, hlimit⟩ := fill_of_goesThrough hgoes hvacant.procs
      refine hnot ⟨pids', mb', hgoes, fun pid hpid => ?_, ?_⟩
      · rw [← hprocs]
        exact h.procs pid hpid
      · have htext := h.limit
        rw [hlimit, Option.some.injEq, toString_int_inj] at htext
        exact htext
    · have hlimit := h.limit
      rw [fill_limit_of_not_goesThrough fun pids mb hgo => hgoes ⟨pids, mb, hgo⟩,
        hvacant.files] at hlimit
      cases hlimit
  · rintro ⟨pids', mb', hgoes, hsub, hmb⟩
    obtain ⟨hcharge, hoom, hprocs, hlimit⟩ := fill_of_goesThrough hgoes hvacant.procs
    refine ⟨hcharge, hoom, fun pid hpid => ?_, ?_⟩
    · rw [hprocs]
      exact hsub hpid
    · rw [hlimit, hmb]

/-! ## Calls on the same container -/

variable {n} {fileName : Path}

/-- A call for a container whose directory exists does nothing. -/
theorem createMemoryCgroup_of_mem (h : n.memDir.child fileName.base ∈ fs.dirs) :
    createMemoryCgroup n env fs fileName = fs := by
  have hmkdir : fs.mkdir (n.memDir.child fileName.base) = none := by
    rw [Fs.mkdir, dif_neg (fun hnew => hnew.1 h)]
  rw [createMemoryCgroup, hmkdir]
  split <;> rfl

/-- Nor do any number of such calls. -/
theorem run_createMemoryCgroup_of_mem (h : n.memDir.child fileName.base ∈ fs.dirs)
    (retries : List CreateEnv) :
    run (fun fs env => createMemoryCgroup n env fs fileName) fs retries = fs := by
  have hstep : ∀ (fs' : Fs) (env : CreateEnv), fs' = fs →
      createMemoryCgroup n env fs' fileName = fs := by
    rintro _ env rfl
    exact createMemoryCgroup_of_mem h
  exact run_invariant hstep retries rfl

/-- The first call: a new directory, and what the steps put into it. -/
theorem createMemoryCgroup_of_not_mem (env : CreateEnv) (hcontainer : IsContainer fileName.base)
    (hparent : n.memDir ∈ fs.dirs) (hnew : n.memDir.child fileName.base ∉ fs.dirs) :
    ∃ made : Fs, made.files = fs.files ∧ made.procs = fs.procs ∧
      n.memDir.child fileName.base ∈ made.dirs ∧
      createMemoryCgroup n env fs fileName =
        fillMemoryCgroup env (n.memDir.child fileName.base) made := by
  have hmkdir : n.memDir.child fileName.base ∉ fs.dirs ∧
      (n.memDir.child fileName.base).parent ∈ fs.dirs :=
    ⟨hnew, by rw [Path.parent_child]; exact hparent⟩
  refine ⟨_, ?_, ?_, ?_, by rw [createMemoryCgroup, if_pos hcontainer, Fs.mkdir, dif_pos hmkdir]⟩
  · rfl
  · rfl
  · exact List.mem_cons_self

/-- A call in which every step succeeds, on the given pids and memory. -/
def calmEnv (pids : List ℕ) (totalMemoryNeededMB : ℤ) : CreateEnv :=
  ⟨true, true, some pids, fun _ => true, some totalMemoryNeededMB, true⟩

theorem goesThrough_calmEnv (pids : List ℕ) (mb : ℤ) : (calmEnv pids mb).GoesThrough pids mb :=
  ⟨rfl, rfl, rfl, fun _ _ => rfl, rfl, rfl⟩

/-- The calls for a container, one after the other. -/
def createAgain (n : NodeMangerOperator) (fileName : Path) (fs : Fs) (calls : List CreateEnv) : Fs :=
  run (fun fs env => createMemoryCgroup n env fs fileName) fs calls

/-- Whatever the later calls meet, the cgroup is as the first one left it. -/
theorem createAgain_eq_first (hcontainer : IsContainer fileName.base) (hparent : n.memDir ∈ fs.dirs)
    (hnew : n.memDir.child fileName.base ∉ fs.dirs) (first : CreateEnv) (calls : List CreateEnv) :
    createAgain n fileName fs (first :: calls) = createMemoryCgroup n first fs fileName := by
  obtain ⟨made, -, -, hmem, heq⟩ := createMemoryCgroup_of_not_mem first hcontainer hparent hnew
  rw [createAgain, run_cons]
  refine run_createMemoryCgroup_of_mem ?_ calls
  rw [heq, fillMemoryCgroup_dirs]
  exact hmem

/-- A later call in which every step succeeds, after any number of others, leaves the cgroup
complete exactly when no step of the first call failed, and that one had all of the pids and the
same limit. -/
theorem recovers_iff (n : NodeMangerOperator) (fileName : Path) (fs : Fs) (first : CreateEnv)
    (pids : List ℕ) (totalMemoryNeededMB : ℤ) (hcontainer : IsContainer fileName.base)
    (hparent : n.memDir ∈ fs.dirs) (hnew : n.memDir.child fileName.base ∉ fs.dirs)
    (hvacant : fs.Vacant (n.memDir.child fileName.base)) :
    (∀ retries later, later.GoesThrough pids totalMemoryNeededMB →
      Complete (createAgain n fileName fs (first :: retries ++ [later]))
        (n.memDir.child fileName.base) pids totalMemoryNeededMB) ↔
      ∃ pids' mb', first.GoesThrough pids' mb' ∧ pids ⊆ pids' ∧
        int64 (mb' * 1024 * 1024) = totalMemoryNeededMB * 1024 * 1024 := by
  obtain ⟨made, hfiles, hprocs, -, heq⟩ :=
    createMemoryCgroup_of_not_mem first hcontainer hparent hnew
  have hmade : made.Vacant (n.memDir.child fileName.base) :=
    ⟨by rw [hfiles]; exact hvacant.files, by rw [hprocs]; exact hvacant.procs⟩
  rw [← complete_fill_iff hmade, ← heq]
  constructor
  · intro h
    have hcalm := h [] _ (goesThrough_calmEnv pids totalMemoryNeededMB)
    rw [List.cons_append, createAgain_eq_first hcontainer hparent hnew] at hcalm
    exact hcalm
  · intro h retries later _
    rw [List.cons_append, createAgain_eq_first hcontainer hparent hnew]
    exact h

/-! ## A container whose limit was not written -/

/-- A container with a cpu cgroup and none in the memory hierarchy. -/
def newContainerFs : Fs := mirroredFs.removeAll (yarnOperator.memDir.child "container_1")

theorem vacant_newContainerFs :
    newContainerFs.Vacant (yarnOperator.memDir.child "container_1") where
  files := by
    intro name
    simp [newContainerFs, Fs.removeAll, mirroredFs]
  procs := by
    simp [newContainerFs, Fs.removeAll, mirroredFs]

/-- The event of its cpu cgroup. -/
def containerEvent : Path := yarnOperator.cpuDir.child "container_1"

/-- The first call fails to write the limit; a second one in which everything would succeed leaves
the container without it. -/
theorem limit_never_written :
    (createAgain yarnOperator containerEvent newContainerFs
      [{ calmEnv [4711] 1024 with limitOk := false }, calmEnv [4711] 1024]).files
        ((yarnOperator.memDir.child "container_1").child "memory.limit_in_bytes") = none ∧
    ¬ Complete (createAgain yarnOperator containerEvent newContainerFs
        [{ calmEnv [4711] 1024 with limitOk := false }, calmEnv [4711] 1024])
      (yarnOperator.memDir.child "container_1") [4711] 1024 := by
  have hnone : (createAgain yarnOperator containerEvent newContainerFs
      [{ calmEnv [4711] 1024 with limitOk := false }, calmEnv [4711] 1024]).files
        ((yarnOperator.memDir.child "container_1").child "memory.limit_in_bytes") = none := by
    decide +kernel
  refine ⟨hnone, fun h => ?_⟩
  have hlimit := h.limit
  rw [hnone] at hlimit
  cases hlimit

/-- A container whose first call went through. -/
theorem recovers_iff_calm :
    Complete (createAgain yarnOperator containerEvent newContainerFs
        [calmEnv [4711] 1024, calmEnv [4711] 1024])
      (yarnOperator.memDir.child "container_1") [4711] 1024 := by
  have hbase : containerEvent.base = "container_1" := Path.base_child _ _
  have h := (recovers_iff yarnOperator containerEvent newContainerFs (calmEnv [4711] 1024) [4711] 1024
    (by decide +kernel) (by decide +kernel) (by decide +kernel)
    (by rw [hbase]; exact vacant_newContainerFs)).mpr
    ⟨[4711], 1024, goesThrough_calmEnv _ _, fun _ => id, by decide⟩
  rw [hbase] at h
  exact h [] _ (goesThrough_calmEnv _ _)

end YarnCopilot.Agent
