import YarnCopilot.Common.FileTree
import YarnCopilot.Common.MapLoop
import YarnCopilot.Common.Run

/-!
# The registry of runtime plugins

Reference: `pkg/copilot-agent/runtime/manager.go` and `pkg/copilot-agent/runtime/runtime.go`.

Every minute the manager walks the directory of sockets and asks each of them for its name. The
answer is given to the walk: a socket that does not answer ends it, and the sockets behind it are
not asked. `run_registers_iff` says for which answers one pass still registers every plugin that can
be reached, and `ticks_registered` what holds of the registry after any number of passes.
-/

namespace YarnCopilot.Runtime

/-- What the mode of a file tells the walk. -/
inductive FileKind
  | socket
  | other
deriving DecidableEq

structure PluginInfo where
  name : String

/-- A client of the plugin that listens on a socket. -/
structure HttpPlugin where
  socket : List String
deriving DecidableEq

/-- `newHttpPlugin`. -/
def newHttpPlugin (socket : List String) : HttpPlugin := ⟨socket⟩

/-- A reply: its status, and the result that the client library has read from it. There is none when
the library reads nothing, as for a status that is not a success or a body of another type than
JSON, and for `null`; a malformed body of type JSON is an error of the request. -/
structure Response where
  status : Nat
  result : Option PluginInfo

def Response.isError (r : Response) : Bool := 399 < r.status

def Response.isSuccess (r : Response) : Bool := 199 < r.status && r.status < 300

/-- What the sockets answer to a request of a path; none is an error of the request. -/
abbrev Answers := HttpPlugin → String → Option Response

/-- `IsAlive`. -/
def HttpPlugin.isAlive (get : Answers) (h : HttpPlugin) : Bool :=
  match get h "/health" with
  | none => false
  | some resp => if resp.isError then false else resp.isSuccess

/-- `Info`: none is its error, and `some none` a nil result without an error. -/
def HttpPlugin.info (get : Answers) (h : HttpPlugin) : Option (Option PluginInfo) :=
  (get h "/information").map Response.result

/-- The plugins by name. -/
structure Manger where
  plugins : AList fun _ : String => HttpPlugin

/-- `NewManger`. -/
def newManger : Manger := ⟨∅⟩

/-- How a walk ends early. -/
inductive Stop
  | err
  | panic
deriving DecidableEq

/-- The function that `run` walks the directory with. The name is read from a nil result too. -/
def discover (get : Answers) (v : Visit FileKind) : ExceptT Stop (StateM Manger) Unit :=
  match v.file with
  | some .socket =>
    match (newHttpPlugin v.path).info get with
    | none => throw .err
    | some none => throw .panic
    | some (some pluginInfo) =>
      modify fun m => ⟨m.plugins.insert pluginInfo.name (newHttpPlugin v.path)⟩
  | _ => pure ()

/-- `run`. For a directory that does not exist the function is called with a nil entry, and
panics. -/
def Manger.run (get : Answers) (socketDir : Option (Entries FileKind)) (m : Manger) :
    Except Stop Unit × Manger :=
  match socketDir with
  | none => (.error .panic, m)
  | some t => (Entries.walk (discover get) t).run.run m

/-- `GetCopilot`. -/
def Manger.getCopilot (m : Manger) (name : String) : Option HttpPlugin := m.plugins.lookup name

/-- `GetAliveCopilots`, with the entries of the map in the order of the loop. -/
def getAliveCopilots (get : Answers) (entries : List (Sigma fun _ : String => HttpPlugin)) :
    Finmap fun _ : String => HttpPlugin :=
  entries.foldl (fun res e => if e.2.isAlive get then res.insert e.1 e.2 else res) ∅

/-! ## Live and dead sockets -/

/-- What a visited entry is registered as: the name it answers with, and its plugin. -/
def live (get : Answers) (v : Visit FileKind) : Option (String × HttpPlugin) :=
  match v.file with
  | some .socket =>
    ((newHttpPlugin v.path).info get).join.map fun info => (info.name, newHttpPlugin v.path)
  | _ => none

/-- The last of the entries that answers with the name. -/
def lastLive (get : Answers) (vs : List (Visit FileKind)) (name : String) : Option HttpPlugin :=
  (KeyedList.lastWrite Prod.fst (vs.filterMap (live get)) name).map Prod.snd

/-- A socket that gives no name. -/
def Dead (get : Answers) (v : Visit FileKind) : Prop :=
  v.file = some .socket ∧ live get v = none

instance (get : Answers) (v : Visit FileKind) : Decidable (Dead get v) :=
  inferInstanceAs (Decidable (v.file = some .socket ∧ live get v = none))

/-- The plugin passes the health check. -/
def Healthy (get : Answers) (h : HttpPlugin) : Prop :=
  ∃ resp, get h "/health" = some resp ∧ 200 ≤ resp.status ∧ resp.status < 300

/-- A pass that dead sockets do not disturb: it comes back, every name that a socket answers with
has the last such socket, no name is lost, and the copilots that are alive are those registered that
pass the health check. -/
structure Registers (get : Answers) (t : Entries FileKind) (m : Manger)
    (r : Except Stop Unit × Manger) : Prop where
  returns : r.1 ≠ .error .panic
  registered : ∀ name h, lastLive get t.visits name = some h → r.2.getCopilot name = some h
  kept : ∀ name, (m.getCopilot name).isSome → (r.2.getCopilot name).isSome
  alive : ∀ (later : Answers) entries, entries.Perm r.2.plugins.entries → ∀ name h,
    (getAliveCopilots later entries).lookup name = some h ↔
      r.2.getCopilot name = some h ∧ Healthy later h

variable {get : Answers}

theorem isAlive_iff {h : HttpPlugin} : h.isAlive get ↔ Healthy get h := by
  unfold HttpPlugin.isAlive Healthy
  cases get h "/health" with
  | none => simp
  | some resp =>
    simp [Response.isError, Response.isSuccess]
    omega

/-- The copilots that are alive, whatever the order of the loop. -/
theorem lookup_getAliveCopilots {m : Manger} {entries : List (Sigma fun _ : String => HttpPlugin)}
    (hperm : entries.Perm m.plugins.entries) {name : String} {h : HttpPlugin} :
    (getAliveCopilots get entries).lookup name = some h ↔
      m.getCopilot name = some h ∧ Healthy get h := by
  have hnodup : entries.NodupKeys := (List.perm_nodupKeys hperm).mpr m.plugins.nodupKeys
  have hkept : (entries.filter fun e => e.2.isAlive get).NodupKeys :=
    hnodup.sublist List.filter_sublist
  have hloop : getAliveCopilots get entries =
      insertAll (fun _ p => p) (entries.filter fun e => e.2.isAlive get) ∅ := by
    rw [insertAll, List.foldl_filter, getAliveCopilots]
  rw [hloop, lookup_insertAll hkept, Finmap.lookup_empty, Option.or_none, Option.map_id',
    ← Option.mem_def, List.mem_dlookup_iff hkept, List.mem_filter, isAlive_iff, hperm.mem_iff,
    ← List.mem_dlookup_iff m.plugins.nodupKeys]
  rfl

/-! ## One pass -/

/-- The registry after an entry that does not end the walk. -/
def register (get : Answers) (m : Manger) (v : Visit FileKind) : Manger :=
  match live get v with
  | none => m
  | some (name, p) => ⟨m.plugins.insert name p⟩

/-- How a dead socket ends the walk. -/
def stopAt (get : Answers) (v : Visit FileKind) : Stop :=
  if (newHttpPlugin v.path).info get = none then .err else .panic

section Entry

variable {v : Visit FileKind}

theorem live_of_socket (hfile : v.file = some .socket) :
    live get v = ((newHttpPlugin v.path).info get).join.map fun info =>
      (info.name, newHttpPlugin v.path) := by
  rw [live, hfile]

theorem run_discover_of_not_dead (h : ¬ Dead get v) (m : Manger) :
    (discover get v).run.run m = (.ok (), register get m v) := by
  by_cases hfile : v.file = some .socket
  · have hlive : live get v ≠ none := fun hnone => h ⟨hfile, hnone⟩
    rw [live_of_socket hfile] at hlive
    rw [discover, hfile, register, live_of_socket hfile]
    cases hinfo : (newHttpPlugin v.path).info get with
    | none => simp [hinfo] at hlive
    | some answer =>
      cases answer with
      | none => simp [hinfo] at hlive
      | some pluginInfo => rfl
  · rw [register]
    unfold discover live
    cases hkind : v.file with
    | none => rfl
    | some kind =>
      cases kind with
      | socket => exact absurd hkind hfile
      | other => rfl

theorem run_discover_of_dead (h : Dead get v) (m : Manger) :
    (discover get v).run.run m = (.error (stopAt get v), m) := by
  obtain ⟨hfile, hlive⟩ := h
  rw [live_of_socket hfile] at hlive
  rw [discover, hfile, stopAt]
  cases hinfo : (newHttpPlugin v.path).info get with
  | none => rfl
  | some answer =>
    cases answer with
    | none => rfl
    | some pluginInfo => simp [hinfo] at hlive

end Entry

theorem getCopilot_foldl_register (vs : List (Visit FileKind)) (m : Manger) (name : String) :
    (vs.foldl (register get) m).getCopilot name = (lastLive get vs name).or (m.getCopilot name) := by
  have hloop : (vs.foldl (register get) m).plugins =
      (vs.filterMap (live get)).foldl (fun s w => s.insert w.1 w.2) m.plugins := by
    rw [List.foldl_filterMap]
    induction vs generalizing m with
    | nil => rfl
    | cons v vs ih =>
      rw [List.foldl_cons, List.foldl_cons, ih]
      unfold register
      cases live get v <;> rfl
  rw [Manger.getCopilot, hloop, lookup_foldl_insert]
  rfl

theorem lastLive_append_dead {pre post : List (Visit FileKind)} {v : Visit FileKind}
    (h : Dead get v) (name : String) :
    lastLive get (pre ++ v :: post) name = (lastLive get post name).or (lastLive get pre name) := by
  rw [lastLive, List.filterMap_append, List.filterMap_cons_none h.2, KeyedList.lastWrite_append,
    Option.map_or]
  rfl

/-- The entries that a pass gets to: those in front of the first dead socket. -/
def reached (get : Answers) (t : Entries FileKind) : List (Visit FileKind) :=
  t.visits.takeWhile fun v => ¬ Dead get v

section Pass

variable {t : Entries FileKind} {pre post : List (Visit FileKind)} {v : Visit FileKind}

/-- A pass over a directory without dead sockets. -/
theorem run_of_live (h : ∀ v ∈ t.visits, ¬ Dead get v) (m : Manger) :
    m.run get (some t) = (.ok (), t.visits.foldl (register get) m) := by
  rw [Manger.run, Entries.walk_eq_forM]
  exact Entries.run_forM_of_ok _ (fun v hv => run_discover_of_not_dead (h v hv)) m

/-- A pass stops at the first dead socket. -/
theorem run_of_dead (hsplit : t.visits = pre ++ v :: post) (hpre : ∀ u ∈ pre, ¬ Dead get u)
    (hv : Dead get v) (m : Manger) :
    m.run get (some t) = (.error (stopAt get v), pre.foldl (register get) m) := by
  rw [Manger.run, Entries.walk_eq_forM, hsplit]
  exact Entries.run_forM_of_error _ (fun u hu => run_discover_of_not_dead (hpre u hu))
    (run_discover_of_dead hv) m

/-- A directory has no dead socket, or a first one. -/
theorem all_live_or_first_dead (get : Answers) (t : Entries FileKind) :
    (∀ v ∈ t.visits, ¬ Dead get v) ∨
      ∃ pre v post, t.visits = pre ++ v :: post ∧ (∀ u ∈ pre, ¬ Dead get u) ∧ Dead get v := by
  cases hfind : t.visits.find? fun v => Dead get v with
  | none => exact .inl (by simpa using hfind)
  | some v =>
    obtain ⟨hv, pre, post, hsplit, hpre⟩ := List.find?_eq_some_iff_append.mp hfind
    exact .inr ⟨pre, v, post, hsplit, by simpa using hpre, by simpa using hv⟩

/-- However it ends, a pass registers the sockets that it gets to. -/
theorem run_snd (get : Answers) (t : Entries FileKind) (m : Manger) :
    (m.run get (some t)).2 = (reached get t).foldl (register get) m := by
  rcases all_live_or_first_dead get t with hlive | ⟨pre, v, post, hsplit, hpre, hv⟩
  · rw [run_of_live hlive, reached, List.takeWhile_eq_self_iff.mpr (by simpa using hlive)]
  · rw [run_of_dead hsplit hpre hv, reached, hsplit,
      List.takeWhile_append_of_pos (by simpa using hpre), List.takeWhile_cons_of_neg (by simpa using hv),
      List.append_nil]

/-- However it ends, a pass loses no name. -/
theorem isSome_getCopilot_run {m : Manger} {name : String} (h : (m.getCopilot name).isSome) :
    ((m.run get (some t)).2.getCopilot name).isSome := by
  rw [run_snd, getCopilot_foldl_register, Option.isSome_or, h, Bool.or_true]

/-- A pass registers every plugin that can be reached exactly when the first dead socket, if there
is one, fails the request instead of answering without a name, and every name that a socket behind
it answers with has the last such socket already, from in front of the dead one or from an earlier
pass. -/
theorem run_registers_iff (get : Answers) (t : Entries FileKind) (m : Manger) :
    Registers get t m (m.run get (some t)) ↔
      ∀ pre v post, t.visits = pre ++ v :: post → (∀ u ∈ pre, ¬ Dead get u) → Dead get v →
        (newHttpPlugin v.path).info get = none ∧
          ∀ name h, lastLive get post name = some h →
            (lastLive get pre name).or (m.getCopilot name) = some h := by
  constructor
  · intro hreg pre v post hsplit hpre hv
    rw [run_of_dead hsplit hpre hv] at hreg
    constructor
    · by_contra hinfo
      exact hreg.returns (by rw [stopAt, if_neg hinfo])
    · intro name h hpost
      rw [← getCopilot_foldl_register]
      refine hreg.registered name h ?_
      rw [hsplit, lastLive_append_dead hv, hpost, Option.some_or]
  · intro hcond
    refine ⟨?_, ?_, fun name => isSome_getCopilot_run,
      fun later entries hperm name h => lookup_getAliveCopilots hperm⟩
    · rcases all_live_or_first_dead get t with hlive | ⟨pre, v, post, hsplit, hpre, hv⟩
      · rw [run_of_live hlive]
        simp
      · rw [run_of_dead hsplit hpre hv, stopAt, if_pos (hcond pre v post hsplit hpre hv).1]
        simp
    · intro name h hlast
      rcases all_live_or_first_dead get t with hlive | ⟨pre, v, post, hsplit, hpre, hv⟩
      · rw [run_of_live hlive, getCopilot_foldl_register, hlast, Option.some_or]
      · rw [run_of_dead hsplit hpre hv, getCopilot_foldl_register]
        rw [hsplit, lastLive_append_dead hv] at hlast
        cases hpost : lastLive get post name with
        | some h' =>
          rw [hpost, Option.some_or] at hlast
          exact (hcond pre v post hsplit hpre hv).2 name h (hpost.trans hlast)
        | none =>
          rw [hpost, Option.none_or] at hlast
          rw [hlast, Option.some_or]

end Pass

/-- A stale socket, listed in front of the socket of a plugin that is alive. -/
def staleDir : Entries FileKind := .file "a.sock" .socket (.file "b.sock" .socket .nil)

/-- Only the second socket answers, as `yarn`. -/
def staleAnswers : Answers := fun h _ =>
  if h.socket = ["b.sock"] then some ⟨200, some ⟨"yarn"⟩⟩ else none

/-- The live plugin is behind the stale socket, and is not registered. -/
theorem stale_socket_hides_yarn :
    lastLive staleAnswers staleDir.visits "yarn" = some ⟨["b.sock"]⟩ ∧
      (newManger.run staleAnswers (some staleDir)).2.getCopilot "yarn" = none ∧
      ¬ Registers staleAnswers staleDir newManger (newManger.run staleAnswers (some staleDir)) := by
  have hlast : lastLive staleAnswers staleDir.visits "yarn" = some ⟨["b.sock"]⟩ := by decide +kernel
  have hnone : (newManger.run staleAnswers (some staleDir)).2.getCopilot "yarn" = none := by
    decide +kernel
  refine ⟨hlast, hnone, fun hreg => ?_⟩
  have hyarn := hreg.registered "yarn" _ hlast
  rw [hnone] at hyarn
  cases hyarn

/-! ## All passes -/

/-- One tick: a pass with what the directory and the sockets are by then. After a panic the manager
is gone. -/
def tick (m : Option Manger) (pass : Answers × Option (Entries FileKind)) : Option Manger :=
  m.bind fun m =>
    match m.run pass.1 pass.2 with
    | (.error .panic, _) => none
    | (_, m) => some m

/-- What a pass finds. -/
def found (pass : Answers × Option (Entries FileKind)) : List (String × HttpPlugin) :=
  (pass.2.elim [] (reached pass.1)).filterMap (live pass.1)

theorem tick_eq_some {m m' : Manger} {pass : Answers × Option (Entries FileKind)}
    (h : tick (some m) pass = some m') : m' = (m.run pass.1 pass.2).2 := by
  unfold tick at h
  rw [Option.bind_some] at h
  cases hrun : m.run pass.1 pass.2 with
  | mk result m'' =>
    rw [hrun] at h
    cases result with
    | ok _ => exact (Option.some.inj h).symm
    | error stop =>
      cases stop with
      | err => exact (Option.some.inj h).symm
      | panic => cases h

theorem getCopilot_run (pass : Answers × Option (Entries FileKind)) (m : Manger) (name : String) :
    (m.run pass.1 pass.2).2.getCopilot name =
      ((KeyedList.lastWrite Prod.fst (found pass) name).map Prod.snd).or (m.getCopilot name) := by
  obtain ⟨get, socketDir⟩ := pass
  cases socketDir with
  | none => rfl
  | some t =>
    rw [run_snd, getCopilot_foldl_register]
    rfl

theorem run_tick_none (passes : List (Answers × Option (Entries FileKind))) :
    run tick none passes = none := by
  induction passes with
  | nil => rfl
  | cons pass passes ih => exact ih

/-- After any number of passes a name has the socket that answered with it last among all that a
pass got to, and nothing else is registered. -/
theorem ticks_registered {passes : List (Answers × Option (Entries FileKind))} {m m' : Manger}
    (h : run tick (some m) passes = some m') (name : String) :
    m'.getCopilot name =
      ((KeyedList.lastWrite Prod.fst (passes.flatMap found) name).map Prod.snd).or
        (m.getCopilot name) := by
  induction passes generalizing m with
  | nil =>
    cases h
    rfl
  | cons pass passes ih =>
    rw [run_cons] at h
    cases htick : tick (some m) pass with
    | none =>
      rw [htick, run_tick_none] at h
      cases h
    | some m₁ =>
      rw [htick] at h
      rw [ih h, tick_eq_some htick, getCopilot_run, List.flatMap_cons, KeyedList.lastWrite_append,
        Option.map_or, Option.or_assoc]

/-- The live plugin is found once the stale socket is gone, and stays when its own is. -/
theorem ticks_registered_stale : ∃ m', run tick (some newManger) [(staleAnswers, some staleDir),
      (staleAnswers, some (.file "b.sock" .socket .nil)), (staleAnswers, some .nil)] = some m' ∧
    m'.getCopilot "yarn" = some ⟨["b.sock"]⟩ := by
  have hsome : (run tick (some newManger) [(staleAnswers, some staleDir),
      (staleAnswers, some (.file "b.sock" .socket .nil)), (staleAnswers, some .nil)]).isSome := by
    decide +kernel
  obtain ⟨m', hm'⟩ := Option.isSome_iff_exists.mp hsome
  refine ⟨m', hm', ?_⟩
  rw [ticks_registered hm' "yarn"]
  decide +kernel

end YarnCopilot.Runtime
