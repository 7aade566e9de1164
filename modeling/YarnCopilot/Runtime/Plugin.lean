import YarnCopilot.Agent.Server
import YarnCopilot.Runtime.Manager

/-!
# Plugins served by the agent

Reference: `pkg/copilot-agent/runtime/runtime.go`, with `pkg/copilot-agent/server/server.go` on the
other side of the socket.

A plugin is a client of the agent's server, by way of a client library that is a parameter here. The
library is documented to read the result of a reply only from a success, and the plugin looks at
nothing but the error of the request: a reply that says the server failed becomes a nil result
without an error. `killContainer_acknowledged` and `listContainer_served` say what the caller can
conclude from a result all the same, and `registers_yarn` what the registry makes of sockets that
are served by agents.
-/

namespace YarnCopilot.Runtime

open Agent

/-! ## The client -/

/-- `ContainerInfo` on the side of the caller: there is no priority. -/
structure ContainerInfo where
  name : String
  podNamespace : String
  uid : String
  cgroupDir : Path
  hostNetwork : Bool
  limits : ResourceList
  requests : ResourceList

/-- What the caller reads of a container in a reply. -/
def received (c : Agent.ContainerInfo) : ContainerInfo :=
  ⟨c.name, c.podNamespace, c.uid, c.cgroupDir, c.hostNetwork, c.limits, c.requests⟩

/-- The client library: what a request that asks for a result makes of a reply. `none` is an error
of the request, and `some none` a result that is left nil. -/
structure Resty where
  pluginInfo : HttpReply → Option (Option PluginInfo)
  containers : HttpReply → Option (Option (List ContainerInfo))
  container : HttpReply → Option (Option ContainerInfo)
  killInfo : HttpReply → Option (Option (List ContainerInfo))

/-- What the library documents for one type of result: a success is read, and has the value that was
marshalled; a reply that is not a success is not read. Nothing is said of a body of another type. -/
structure Reads {α : Type} (marshalled : Body → Option α) (read : HttpReply → Option (Option α)) :
    Prop where
  success : ∀ status body value, 199 < status → status < 300 → status ≠ 204 →
    marshalled body = some value → read ⟨status, body⟩ = some (some value)
  failure : ∀ status body, ¬ (199 < status ∧ status < 300) → read ⟨status, body⟩ = some none

/-- The plugin information of a body. -/
def infoOf : Body → Option PluginInfo
  | .pluginInfo name _ => some ⟨name⟩
  | _ => none

/-- The list of containers of a body. -/
def containersOf : Body → Option (List ContainerInfo)
  | .containers cs => some (cs.map received)
  | _ => none

/-- The container of a body. -/
def containerOf : Body → Option ContainerInfo
  | .container c => some (received c)
  | _ => none

/-- The items of the `KillInfo` of a body. -/
def killInfoOf : Body → Option (List ContainerInfo)
  | .killInfo items => some (items.map received)
  | _ => none

/-- The library does what it documents. -/
structure Resty.Documented (resty : Resty) : Prop where
  pluginInfo : Reads infoOf resty.pluginInfo
  containers : Reads containersOf resty.containers
  container : Reads containerOf resty.container
  killInfo : Reads killInfoOf resty.killInfo

/-- One way to read a result: nothing is read from a body of another type. -/
def readPlain {α : Type} (marshalled : Body → Option α) (reply : HttpReply) : Option (Option α) :=
  if 199 < reply.status ∧ reply.status < 300 then some (marshalled reply.body) else some none

theorem reads_readPlain {α : Type} (marshalled : Body → Option α) :
    Reads marshalled (readPlain marshalled) where
  success := by
    intro status body value hlo hhi _ hbody
    rw [readPlain, if_pos ⟨hlo, hhi⟩, hbody]
  failure := by
    intro status body h
    exact if_neg h

/-- A library that does what is documented. -/
def Resty.plain : Resty :=
  ⟨readPlain infoOf, readPlain containersOf, readPlain containerOf, readPlain killInfoOf⟩

theorem Resty.plain_documented : Resty.plain.Documented :=
  ⟨reads_readPlain _, reads_readPlain _, reads_readPlain _, reads_readPlain _⟩

variable (resty : Resty)

/-- `ListContainer`. -/
def listContainer (reply : Option HttpReply) : Option (Option (List ContainerInfo)) :=
  reply.bind resty.containers

/-- `GetContainer`. -/
def getContainer (reply : Option HttpReply) : Option (Option ContainerInfo) :=
  reply.bind resty.container

/-- `KillContainer` and `KillContainersByResource`: the items of the `KillInfo`. -/
def killContainer (reply : Option HttpReply) : Option (Option (List ContainerInfo)) :=
  reply.bind resty.killInfo

variable {resty} (hresty : resty.Documented)

variable (n : NodeMangerOperator)

/-! ## Kills -/

include hresty in
/-- **Acknowledged kills.** A kill request that reaches the server never comes back as an error. It
is acknowledged, with the container it names, exactly when `SIGKILL` went to a process group: that
of the first process of the container's cpu cgroup, for a container that the NodeManager lists.
Every other outcome is a nil result. -/
theorem killContainer_acknowledged (env : ServeEnv) (containerID : String) :
    (killContainer resty (some (serve n env (.killContainer (some containerID))).1) = some none ∨
      ∃ c, killContainer resty (some (serve n env (.killContainer (some containerID))).1) =
        some (some [c]) ∧ c.name = containerID) ∧
    ((∃ items, killContainer resty (some (serve n env (.killContainer (some containerID))).1) =
        some (some items)) ↔
      ∃ g, Kills n env (.killContainer (some containerID)) g ∧ env.killOk g = true) := by
  have hrefused : killContainer resty (some ⟨400, .error⟩) = some none :=
    hresty.killInfo.failure _ _ (by decide)
  rcases @serve_killContainer n env containerID with ⟨hnone, hserve⟩ | ⟨c, hget, hserve⟩
  · have hresult : killContainer resty (some (serve n env (.killContainer (some containerID))).1) =
        some none := by
      rw [hserve]
      exact hrefused
    refine ⟨.inl hresult, iff_of_false ?_ ?_⟩
    · rintro ⟨items, h⟩
      rw [hresult] at h
      cases h
    · rintro ⟨g, hg, -⟩
      rw [← neg_neg g, ← serve_signal_iff, hserve] at hg
      cases hg
  · have hid : c.id = containerID := by
      obtain ⟨items, -, hfind⟩ := Option.bind_eq_some_iff.mp hget
      simpa using List.find?_some hfind
    -- the signal goes out for a group above 1, and the reply says whether it could be sent
    have hkill : (Agent.killContainer n env containerID).1 = true ↔
        ∃ g, Kills n env (.killContainer (some containerID)) g ∧ env.killOk g = true := by
      have hsignal : ∀ g, Kills n env (.killContainer (some containerID)) g ↔
          1 < g ∧ getProcessGroupID n env containerID = g := by
        intro g
        rw [← neg_neg g, ← serve_signal_iff, hserve, killContainer_snd]
      simp only [hsignal]
      exact killContainer_fst
    rw [hserve, ← hkill]
    cases (Agent.killContainer n env containerID).1 with
    | false =>
      refine ⟨.inl hrefused, iff_of_false ?_ Bool.false_ne_true⟩
      rintro ⟨items, h⟩
      cases hrefused.symm.trans h
    | true =>
      have hresult : killContainer resty (some ⟨200, .killInfo [parseContainerInfo n c]⟩) =
          some (some [received (parseContainerInfo n c)]) :=
        hresty.killInfo.success _ _ _ (by decide) (by decide) (by decide) rfl
      exact ⟨.inr ⟨_, hresult, hid⟩, iff_of_true ⟨_, hresult⟩ rfl⟩

/-- The agent on a node. -/
def yarnNode : NodeMangerOperator where
  cgroupRoot := "/host-cgroup/"
  cgroupPath := "kubepods/besteffort/hadoop-yarn"
  setBaseURL := id

/-- Its NodeManager runs one container, which has one process. -/
def oneRunning : ServeEnv where
  nodeManager := some ⟨200, [⟨"container_1", "RUNNING", 1024, 1⟩]⟩
  pids _ := some [4711]
  killOk _ := true

theorem killContainer_acknowledged_oneRunning :
    ∃ items, killContainer Resty.plain (some (serve yarnNode oneRunning
      (.killContainer (some "container_1"))).1) = some (some items) :=
  (killContainer_acknowledged Resty.plain_documented yarnNode oneRunning "container_1").2.mpr
    ⟨4711, ⟨⟨_, _, rfl, rfl, ⟨_, List.mem_cons_self, rfl⟩, ⟨_, rfl⟩⟩, by decide⟩, rfl⟩

/-! ## Lists -/

/-- The caller sees the container as it is: its id, its cores and its memory. -/
structure Describes (c : YarnContainer) (info : ContainerInfo) : Prop where
  name : info.name = c.id
  uid : info.uid = c.id
  cpu : info.limits.lookup "cpu" = some (.new c.totalVCoresNeeded)
  memory : info.limits.lookup "memory" = some (.new (c.totalMemoryNeededMB * 1024 * 1024))
  requests : info.requests = info.limits

theorem newMilli_eq_new_iff {x y : ℤ} : Quantity.newMilli x = .new y ↔ x = y * 1000 := by
  rw [← Quantity.newMilli_mul]
  constructor
  · intro h
    have hnano := congrArg Quantity.nano h
    exact mul_left_injective₀ (by norm_num) hnano
  · exact congrArg _

/-- It does exactly when the resources fit into 64 bits as thousandths. -/
theorem describes_iff (c : YarnContainer) :
    Describes c (received (parseContainerInfo n c)) ↔
      int64 (c.totalVCoresNeeded * 1000) = c.totalVCoresNeeded * 1000 ∧
        int64 (c.totalMemoryNeededMB * 1024 * 1024 * 1000) =
          c.totalMemoryNeededMB * 1024 * 1024 * 1000 := by
  have hcpu : (containerResources c).lookup "cpu" =
      some (.newMilli (int64 (c.totalVCoresNeeded * 1000))) := by
    rw [containerResources, Finmap.lookup_insert_of_ne _ (by decide), Finmap.lookup_insert]
  have hmemory : (containerResources c).lookup "memory" =
      some (.newMilli (int64 (c.totalMemoryNeededMB * 1024 * 1024 * 1000))) := by
    rw [containerResources, Finmap.lookup_insert, int64_int64_mul (c.totalMemoryNeededMB * 1024),
      int64_int64_mul]
  constructor
  · intro h
    have h₁ := h.cpu
    have h₂ := h.memory
    simp only [received, parseContainerInfo, hcpu, hmemory, Option.some.injEq,
      newMilli_eq_new_iff] at h₁ h₂
    exact ⟨h₁, h₂⟩
  · rintro ⟨h₁, h₂⟩
    refine ⟨rfl, rfl, ?_, ?_, rfl⟩
    · simp only [received, parseContainerInfo, hcpu, Option.some.injEq, newMilli_eq_new_iff, h₁]
    · simp only [received, parseContainerInfo, hmemory, Option.some.injEq, newMilli_eq_new_iff, h₂]

include hresty in
/-- **Listed containers.** A list request that reaches the server never comes back as an error. The
result is nil exactly when the server could not ask the NodeManager; otherwise it is the containers
of the NodeManager that are not in a final state, in its order, each as it is exactly when its
resources fit into 64 bits as thousandths. -/
theorem listContainer_served (env : ServeEnv) :
    ∃ result, listContainer resty (some (serve n env .listContainers).1) = some result ∧
      (result = none ↔ listContainers env.nodeManager = none) ∧
      ∀ infos items, result = some infos → listContainers env.nodeManager = some items →
        infos.map ContainerInfo.name =
          (items.filter fun c => !c.isFinalState).map YarnContainer.id ∧
        (List.Forall₂ Describes (items.filter fun c => !c.isFinalState) infos ↔
          ∀ c ∈ items, c.isFinalState = false →
            int64 (c.totalVCoresNeeded * 1000) = c.totalVCoresNeeded * 1000 ∧
              int64 (c.totalMemoryNeededMB * 1024 * 1024 * 1000) =
                c.totalMemoryNeededMB * 1024 * 1024 * 1000) := by
  cases hlist : listContainers env.nodeManager with
  | none =>
    refine ⟨none, ?_, iff_of_true rfl rfl, fun infos items hinfos => by cases hinfos⟩
    simp only [serve, hlist]
    exact hresty.containers.failure _ _ (by decide)
  | some items =>
    have hreply : listContainer resty (some (serve n env .listContainers).1) =
        some (some ((items.filter fun c => !c.isFinalState).map
          (received ∘ parseContainerInfo n))) := by
      simp only [serve, hlist]
      refine hresty.containers.success _ _ _ (by decide) (by decide) (by decide) ?_
      rw [containersOf, List.map_map]
    refine ⟨_, hreply, by simp, ?_⟩
    rintro infos _ hinfos ⟨⟩
    obtain rfl := Option.some.inj hinfos
    refine ⟨by simp [Function.comp_def, received, parseContainerInfo], ?_⟩
    rw [List.forall₂_map_right_iff, List.forall₂_same]
    simp only [Function.comp, describes_iff, List.mem_filter, Bool.not_eq_eq_eq_not, Bool.not_true,
      and_imp]

theorem listContainer_served_oneRunning :
    ∃ infos, listContainer Resty.plain (some (serve yarnNode oneRunning .listContainers).1) =
        some (some infos) ∧ infos.map ContainerInfo.name = ["container_1"] := by
  obtain ⟨result, hresult, hnone, hinfos⟩ :=
    listContainer_served Resty.plain_documented yarnNode oneRunning
  cases result with
  | none => exact absurd (hnone.mp rfl) (by decide)
  | some infos => exact ⟨infos, hresult, (hinfos infos _ rfl rfl).1⟩

/-! ## The registry -/

variable (resty) in
/-- The socket is served by an agent. A health check asks for no result. -/
structure Served (get : Answers) (h : HttpPlugin) : Prop where
  health : ∃ n env, get h "/health" = some ⟨(serve n env .health).1.status, none⟩
  information : ∃ n env, get h "/information" =
    (resty.pluginInfo (serve n env .information).1).map fun result =>
      ⟨(serve n env .information).1.status, result⟩

/-- The last socket of a directory, in the order of the walk. -/
def lastSocket (t : Entries FileKind) : Option HttpPlugin :=
  (t.visits.filter fun v => v.file = some .socket).getLast?.map fun v => newHttpPlugin v.path

variable {get : Answers} {t : Entries FileKind}

section

include hresty

/-- An agent is registered as `yarn`. -/
theorem live_of_served {v : Visit FileKind} (hfile : v.file = some .socket)
    (h : Served resty get (newHttpPlugin v.path)) :
    live get v = some ("yarn", newHttpPlugin v.path) := by
  obtain ⟨n, env, hinfo⟩ := h.information
  have hread : resty.pluginInfo (serve n env .information).1 = some (some ⟨"yarn"⟩) :=
    hresty.pluginInfo.success _ _ _ (by decide) (by decide) (by decide) rfl
  rw [hread] at hinfo
  rw [live_of_socket hfile, HttpPlugin.info, hinfo]
  rfl

/-- Only sockets are registered, all of them under one name. -/
theorem filterMap_live (vs : List (Visit FileKind))
    (hserved : ∀ v ∈ vs, v.file = some .socket → Served resty get (newHttpPlugin v.path)) :
    vs.filterMap (live get) = (vs.filter fun v => v.file = some .socket).map
      fun v => ("yarn", newHttpPlugin v.path) := by
  induction vs with
  | nil => rfl
  | cons v vs ih =>
    have hrest := ih fun u hu => hserved u (List.mem_cons_of_mem _ hu)
    by_cases hfile : v.file = some .socket
    · have hlive := live_of_served hresty hfile (hserved v List.mem_cons_self hfile)
      rw [List.filterMap_cons_some hlive, hrest, List.filter_cons_of_pos (by simpa using hfile),
        List.map_cons]
    · have hlive : live get v = none := by
        unfold live
        split
        · contradiction
        · rfl
      rw [List.filterMap_cons_none hlive, hrest, List.filter_cons_of_neg (by simpa using hfile)]

/-- **Agents in the registry.** A pass over a directory in which every socket is served by an agent
registers them all under one name: the last socket of the walk is found as `yarn`, it passes the
health check, and the others are not found. No other name changes. -/
theorem registers_yarn (m : Manger)
    (hserved : ∀ v ∈ t.visits, v.file = some .socket → Served resty get (newHttpPlugin v.path)) :
    (m.run get (some t)).1 = .ok () ∧
      (m.run get (some t)).2.getCopilot "yarn" = (lastSocket t).or (m.getCopilot "yarn") ∧
      (∀ name, name ≠ "yarn" → (m.run get (some t)).2.getCopilot name = m.getCopilot name) ∧
      ∀ h, lastSocket t = some h → Healthy get h := by
  have hdead : ∀ v ∈ t.visits, ¬ Dead get v := by
    rintro v hv ⟨hfile, hnone⟩
    rw [live_of_served hresty hfile (hserved v hv hfile)] at hnone
    cases hnone
  have hlast : ∀ name,
      lastLive get t.visits name = if name = "yarn" then lastSocket t else none := by
    intro name
    have hkey : ∀ w ∈ (t.visits.filter fun v => v.file = some .socket).map
        fun v => ("yarn", newHttpPlugin v.path), w.1 = "yarn" := by
      intro w hw
      obtain ⟨v, -, rfl⟩ := List.mem_map.mp hw
      rfl
    rw [lastLive, filterMap_live hresty t.visits hserved]
    split
    · rename_i hname
      rw [KeyedList.lastWrite_of_forall_eq fun w hw => (hkey w hw).trans hname.symm,
        List.getLast?_map, Option.map_map]
      rfl
    · rename_i hname
      rw [KeyedList.lastWrite_of_forall_ne fun w hw heq => hname (heq.symm.trans (hkey w hw)),
        Option.map_none]
  rw [run_of_live hdead]
  refine ⟨rfl, ?_, fun name hname => ?_, fun h hsocket => ?_⟩
  · rw [getCopilot_foldl_register, hlast, if_pos rfl]
  · rw [getCopilot_foldl_register, hlast, if_neg hname, Option.none_or]
  · obtain ⟨v, hv, rfl⟩ := Option.map_eq_some_iff.mp hsocket
    obtain ⟨hmem, hfile⟩ := List.mem_filter.mp (List.mem_of_getLast? hv)
    obtain ⟨n, env, hhealth⟩ := (hserved v hmem (by simpa using hfile)).health
    have hstatus : (serve n env .health).1.status = 200 := rfl
    rw [hstatus] at hhealth
    exact ⟨_, hhealth, by decide, by decide⟩

end

/-- Two agents on one node. -/
def twoAgents : Entries FileKind := .file "a.sock" .socket (.file "b.sock" .socket .nil)

/-- Every socket answers as the server of an agent does. -/
def agentAnswers : Answers := fun _ path =>
  if path = "/health" then some ⟨200, none⟩ else some ⟨200, some ⟨"yarn"⟩⟩

theorem registers_yarn_twoAgents :
    (newManger.run agentAnswers (some twoAgents)).2.getCopilot "yarn" = some ⟨["b.sock"]⟩ := by
  rw [(registers_yarn Resty.plain_documented newManger fun v _ _ =>
    ⟨⟨yarnNode, oneRunning, rfl⟩, ⟨yarnNode, oneRunning, rfl⟩⟩).2.1]
  decide +kernel

end YarnCopilot.Runtime
