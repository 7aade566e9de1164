import YarnCopilot.Agent.NodeManager
import YarnCopilot.Common.Quantity

/-!
# The server of the agent

Reference: `pkg/copilot-agent/server/server.go`, `pkg/copilot-agent/server/helper.go`, and
`KillContainer` of `pkg/copilot-agent/nm/nm.go`.

The agent serves the containers of the NodeManager over a socket, and kills one on request: it
signals the process group of the first process in the container's cpu cgroup. `serve_signal_iff`
says which process group a request signals, if any.
-/

namespace YarnCopilot.Agent

variable (n : NodeMangerOperator)

/-! ## Killing a container -/

/-- What a request meets: the reply of the NodeManager, the pids of the cgroup in a directory (an
error if it is not one), and whether the signal to a process group can be sent. -/
structure ServeEnv where
  nodeManager : Option ContainersReply
  pids : Path → Option (List ℤ)
  killOk : ℤ → Bool

/-- `getProcessGroupID`: the first pid, or 0 when there is none. The id is joined as it is given. -/
def getProcessGroupID (env : ServeEnv) (containerID : String) : ℤ :=
  match env.pids (n.cpuDir.append containerID) with
  | none => 0
  | some [] => 0
  | some (pid :: _) => pid

/-- `KillContainer`: whether it succeeds, and the pid it sends `SIGKILL` to, which is negative for a
process group. -/
def killContainer (env : ServeEnv) (containerID : String) : Bool × Option ℤ :=
  if getProcessGroupID n env containerID ≤ 1 then (false, none)
  else
    (env.killOk (getProcessGroupID n env containerID), some (-getProcessGroupID n env containerID))

/-! ## Replies -/

/-- `ContainerInfo`, without what is never set. -/
structure ContainerInfo where
  name : String
  podNamespace : String
  uid : String
  priority : ℤ
  cgroupDir : Path
  hostNetwork : Bool
  limits : ResourceList
  requests : ResourceList

/-- `GenerateCgroupPath`. -/
def generateCgroupPath (containerID : String) : Path :=
  if n.cgroupPath = "" then .ofString containerID
  else (Path.ofString n.cgroupPath).append containerID

/-- The resources of a container, in 64 bits. -/
def containerResources (c : YarnContainer) : ResourceList :=
  ((∅ : ResourceList).insert "cpu" (.newMilli (int64 (c.totalVCoresNeeded * 1000)))).insert "memory"
    (.newMilli (int64 (int64 (int64 (c.totalMemoryNeededMB * 1024) * 1024) * 1000)))

/-- `ParseContainerInfo`. -/
def parseContainerInfo (c : YarnContainer) : ContainerInfo where
  name := c.id
  podNamespace := "yarn"
  uid := c.id
  priority := 1
  cgroupDir := generateCgroupPath n c.id
  hostNetwork := true
  limits := containerResources c
  requests := containerResources c

/-- The requests that the server routes. A body that is not a `KillRequest` is an error. -/
inductive Request
  | health
  | information
  | getContainer (containerID : String)
  | listContainers
  | killContainer (containerID : Option String)
  | killContainerByResource
  | other

/-- The body of a reply. -/
inductive Body
  | text (s : String)
  | error
  | pluginInfo (name version : String)
  | container (c : ContainerInfo)
  | containers (cs : List ContainerInfo)
  | killInfo (items : List ContainerInfo)
  | empty

structure HttpReply where
  status : ℕ
  body : Body

/-- The handlers of the server: the reply, and the pid that was sent `SIGKILL`, if any. -/
def serve (env : ServeEnv) : Request → HttpReply × Option ℤ
  | .health => (⟨200, .text "ok"⟩, none)
  | .information => (⟨200, .pluginInfo "yarn" "v1"⟩, none)
  | .listContainers =>
    match listContainers env.nodeManager with
    | none => (⟨400, .error⟩, none)
    | some items =>
      (⟨200, .containers ((items.filter fun c => !c.isFinalState).map (parseContainerInfo n))⟩, none)
  | .getContainer containerID =>
    match getContainer env.nodeManager containerID with
    | none => (⟨400, .error⟩, none)
    | some c => (⟨200, .container (parseContainerInfo n c)⟩, none)
  | .killContainer none => (⟨400, .error⟩, none)
  | .killContainer (some containerID) =>
    match getContainer env.nodeManager containerID with
    | none => (⟨400, .error⟩, none)
    | some c =>
      match killContainer n env containerID with
      | (false, signal) => (⟨400, .error⟩, signal)
      | (true, signal) => (⟨200, .killInfo [parseContainerInfo n c]⟩, signal)
  -- the handler is empty
  | .killContainerByResource => (⟨200, .empty⟩, none)
  | .other => (⟨404, .text "404 page not found"⟩, none)

/-! ## What is killed -/

/-- The request kills the process group `g`: it names a container that the NodeManager lists, and
the first process of its cpu cgroup is `g`, which is not init. -/
structure Kills (env : ServeEnv) (request : Request) (g : ℤ) : Prop where
  listed : ∃ containerID items, request = .killContainer (some containerID) ∧
    listContainers env.nodeManager = some items ∧ (∃ c ∈ items, c.id = containerID) ∧
    ∃ rest, env.pids (n.cpuDir.append containerID) = some (g :: rest)
  not_init : 1 < g

variable {n} {env : ServeEnv}

theorem getContainer_isSome {containerID : String} :
    (getContainer env.nodeManager containerID).isSome ↔
      ∃ items, listContainers env.nodeManager = some items ∧ ∃ c ∈ items, c.id = containerID := by
  unfold getContainer
  cases listContainers env.nodeManager with
  | none => simp
  | some items => simp [List.find?_isSome]

/-- A process group above 1 is the first pid of the cgroup. -/
theorem getProcessGroupID_eq {containerID : String} {g : ℤ} (hg : 1 < g) :
    getProcessGroupID n env containerID = g ↔
      ∃ rest, env.pids (n.cpuDir.append containerID) = some (g :: rest) := by
  unfold getProcessGroupID
  rcases env.pids (n.cpuDir.append containerID) with _ | _ | ⟨pid, rest⟩
  · simp
    omega
  · simp
    omega
  · simp

theorem killContainer_snd {containerID : String} {p : ℤ} :
    (killContainer n env containerID).2 = some p ↔
      1 < -p ∧ getProcessGroupID n env containerID = -p := by
  unfold killContainer
  split
  · simp
    omega
  · simp
    omega

/-- It succeeds when the signal can be sent to a group above 1. -/
theorem killContainer_fst {containerID : String} :
    (killContainer n env containerID).1 = true ↔
      ∃ g, (1 < g ∧ getProcessGroupID n env containerID = g) ∧ env.killOk g = true := by
  unfold killContainer
  split
  · simp
    omega
  · rename_i hgroup
    constructor
    · exact fun hok => ⟨_, ⟨by omega, rfl⟩, hok⟩
    · rintro ⟨g, ⟨-, rfl⟩, hok⟩
      exact hok

/-- The reply to a kill request that names a container, and its signal. -/
theorem serve_killContainer (containerID : String) :
    (getContainer env.nodeManager containerID = none ∧
      serve n env (.killContainer (some containerID)) = (⟨400, .error⟩, none)) ∨
    ∃ c, getContainer env.nodeManager containerID = some c ∧
      serve n env (.killContainer (some containerID)) =
        (if (killContainer n env containerID).1 = true then ⟨200, .killInfo [parseContainerInfo n c]⟩
          else ⟨400, .error⟩, (killContainer n env containerID).2) := by
  cases hget : getContainer env.nodeManager containerID with
  | none => exact .inl ⟨rfl, by simp only [serve, hget]⟩
  | some c =>
    refine .inr ⟨c, rfl, ?_⟩
    rcases hkill : killContainer n env containerID with ⟨ok, signal⟩
    cases ok <;> simp [serve, hget, hkill]

/-- A request signals exactly the process group it kills. -/
theorem serve_signal_iff {request : Request} {p : ℤ} :
    (serve n env request).2 = some p ↔ Kills n env request (-p) := by
  constructor
  · intro h
    match request with
    | .health | .information | .killContainerByResource | .other => cases h
    | .listContainers =>
      cases hlist : listContainers env.nodeManager <;> simp [serve, hlist] at h
    | .getContainer containerID =>
      cases hget : getContainer env.nodeManager containerID <;> simp [serve, hget] at h
    | .killContainer none => cases h
    | .killContainer (some containerID) =>
      rcases @serve_killContainer n env containerID with ⟨-, hserve⟩ | ⟨c, hget, hserve⟩
      · rw [hserve] at h
        cases h
      · rw [hserve] at h
        obtain ⟨hg, hgroup⟩ := killContainer_snd.mp h
        obtain ⟨items, hitems, hc⟩ := getContainer_isSome.mp (Option.isSome_of_eq_some hget)
        exact ⟨⟨containerID, items, rfl, hitems, hc, (getProcessGroupID_eq hg).mp hgroup⟩, hg⟩
  · rintro ⟨⟨containerID, items, rfl, hitems, hc, hpids⟩, hg⟩
    have hget := getContainer_isSome.mpr ⟨items, hitems, hc⟩
    rcases @serve_killContainer n env containerID with ⟨hnone, -⟩ | ⟨c, -, hserve⟩
    · rw [hnone] at hget
      cases hget
    · rw [hserve]
      exact killContainer_snd.mpr ⟨hg, (getProcessGroupID_eq hg).mpr hpids⟩

end YarnCopilot.Agent
