import YarnCopilot.Agent.Cgroup
import YarnCopilot.Common.Run

/-!
# The NodeManager of the agent's node

Reference: `pkg/copilot-agent/nm/nm.go`, `pkg/copilot-agent/nm/types.go` and
`pkg/copilot-agent/nm/nm_pod_discover.go`.

The agent asks the NodeManager for its containers over HTTP. It finds the NodeManager by the pods of
the kubelet, which it polls: `syncNMEndpoint` moves the client when the endpoint changes, and
remembers an empty endpoint while there is no pod. `atEndpoint_run` says where the client is after
any number of polls.
-/

namespace YarnCopilot.Agent

/-! ## Containers -/

/-- The fields of `YarnContainer` that the agent reads. -/
structure YarnContainer where
  id : String
  state : String
  totalMemoryNeededMB : ℤ
  totalVCoresNeeded : ℤ
deriving DecidableEq, Repr

/-- `FinalContainerStates`. -/
def finalContainerStates : List String :=
  ["KILLING", "DONE", "LOCALIZATION_FAILED", "CONTAINER_RESOURCES_CLEANINGUP",
    "CONTAINER_CLEANEDUP_AFTER_KILL", "EXITED_WITH_FAILURE", "EXITED_WITH_SUCCESS"]

/-- `IsFinalState`. -/
def YarnContainer.isFinalState (c : YarnContainer) : Bool :=
  finalContainerStates.any fun state => c.state == state

/-- A reply of the NodeManager: its status, and the containers read from it. -/
structure ContainersReply where
  status : ℕ
  items : List YarnContainer
deriving DecidableEq, Repr

/-- `ListContainers` on the outcome of its request, which may be an error. -/
def listContainers : Option ContainersReply → Option (List YarnContainer)
  | none => none
  | some resp => if 199 < resp.status ∧ resp.status < 300 then some resp.items else none

/-- `GetContainer`: the first container with the id. -/
def getContainer (reply : Option ContainersReply) (containerID : String) : Option YarnContainer :=
  (listContainers reply).bind fun items => items.find? fun c => c.id == containerID

/-! ## The endpoint -/

/-- The fields of a pod of the kubelet that the agent reads. -/
structure KubeletPod where
  labels : String → Option String
  hostNetwork : Bool
  podIP : String

/-- The pod is the NodeManager's. A missing label reads as an empty one. -/
def KubeletPod.isNodeManager (pod : KubeletPod) : Bool :=
  (pod.labels "app.kubernetes.io/component").getD "" == "node-manager"

/-- The endpoint of the NodeManager in its pod. -/
def KubeletPod.endpoint (pod : KubeletPod) : String :=
  if pod.hostNetwork then "localhost:8042" else pod.podIP ++ ":8042"

/-- `GetNMPodEndpoint` on the pods of the kubelet, if it answers: an endpoint and whether there is
one. -/
def getNMPodEndpoint (pods : Option (List KubeletPod)) : Option (String × Bool) :=
  pods.map fun pods =>
    match pods.find? KubeletPod.isNodeManager with
    | some pod => (pod.endpoint, true)
    | none => ("", false)

/-- The client of `NodeMangerOperator` and the endpoint it remembers. -/
structure NmClient where
  nmEndpoint : String
  baseURL : String
deriving DecidableEq, Repr

variable (n : NodeMangerOperator)

/-- The client of `NewNodeMangerOperator`. -/
def newNmClient (endpoint : String) : NmClient := ⟨endpoint, n.setBaseURL ("http://" ++ endpoint)⟩

/-- `syncNMEndpoint`. -/
def syncNMEndpoint (c : NmClient) (pods : Option (List KubeletPod)) : NmClient :=
  match getNMPodEndpoint pods with
  | none => c
  | some (endpoint, exist) =>
    if c.nmEndpoint = endpoint then c
    else
      { nmEndpoint := endpoint
        baseURL := if exist then n.setBaseURL ("http://" ++ endpoint) else c.baseURL }

/-- The endpoint that a poll finds. -/
def foundEndpoint (pods : Option (List KubeletPod)) : Option String :=
  (pods.bind fun pods => pods.find? KubeletPod.isNodeManager).map KubeletPod.endpoint

/-- The endpoint that the last of the polls to find one found, or else the given one. -/
def lastEndpoint (polls : List (Option (List KubeletPod))) (endpoint : String) : String :=
  (polls.filterMap foundEndpoint).getLast?.getD endpoint

variable {n}

theorem endpoint_ne_empty (pod : KubeletPod) : pod.endpoint ≠ "" := by
  unfold KubeletPod.endpoint
  split
  · decide
  · intro h
    have := congrArg String.length h
    simp at this

/-- A poll: the client is asked for, if anything, what the pods say. -/
theorem syncNMEndpoint_cases (c : NmClient) (pods : Option (List KubeletPod)) :
    (foundEndpoint pods = none ∧ (syncNMEndpoint n c pods = c ∨
      syncNMEndpoint n c pods = { c with nmEndpoint := "" })) ∨
    ∃ e, foundEndpoint pods = some e ∧ e ≠ "" ∧ syncNMEndpoint n c pods =
      if c.nmEndpoint = e then c else ⟨e, n.setBaseURL ("http://" ++ e)⟩ := by
  cases pods with
  | none => exact .inl ⟨rfl, .inl rfl⟩
  | some pods =>
    cases hfind : pods.find? KubeletPod.isNodeManager with
    | none =>
      refine .inl ⟨by simp [foundEndpoint, hfind], ?_⟩
      by_cases heq : c.nmEndpoint = ""
      · exact .inl (by simp [syncNMEndpoint, getNMPodEndpoint, hfind, heq])
      · exact .inr (by simp [syncNMEndpoint, getNMPodEndpoint, hfind, heq])
    | some pod =>
      refine .inr ⟨pod.endpoint, by simp [foundEndpoint, hfind], endpoint_ne_empty pod, ?_⟩
      simp [syncNMEndpoint, getNMPodEndpoint, hfind]

variable (n) in
/-- What the polls keep: the client is at the last endpoint found, which is the remembered one
unless that is empty. -/
structure AtEndpoint (c : NmClient) (endpoint : String) : Prop where
  baseURL : c.baseURL = n.setBaseURL ("http://" ++ endpoint)
  nmEndpoint : c.nmEndpoint = endpoint ∨ c.nmEndpoint = ""

theorem AtEndpoint.poll {c : NmClient} {endpoint : String} (h : AtEndpoint n c endpoint)
    (pods : Option (List KubeletPod)) :
    AtEndpoint n (syncNMEndpoint n c pods) ((foundEndpoint pods).getD endpoint) := by
  rcases @syncNMEndpoint_cases n c pods with ⟨hnone, hsync | hsync⟩ | ⟨e, hfound, hne, hsync⟩
  · rw [hnone, hsync]
    exact h
  · rw [hnone, hsync]
    exact ⟨h.baseURL, .inr rfl⟩
  · rw [hfound, hsync, Option.getD_some]
    split
    · -- the remembered endpoint is not empty here, so the client is at it
      rename_i heq
      obtain rfl : endpoint = e := by
        rcases h.nmEndpoint with hsame | hempty
        · rw [← hsame, heq]
        · exact absurd (heq.symm.trans hempty) hne
      exact h
    · exact ⟨rfl, .inl rfl⟩

/-- After any polls the client is at the endpoint that was found last. -/
theorem atEndpoint_run {endpoint : String} (polls : List (Option (List KubeletPod))) {c : NmClient}
    (h : AtEndpoint n c endpoint) :
    AtEndpoint n (run (syncNMEndpoint n) c polls) (lastEndpoint polls endpoint) := by
  induction polls generalizing c endpoint with
  | nil => exact h
  | cons pods polls ih =>
    have hlast : lastEndpoint (pods :: polls) endpoint =
        lastEndpoint polls ((foundEndpoint pods).getD endpoint) := by
      unfold lastEndpoint
      cases hfound : foundEndpoint pods with
      | none => simp [hfound]
      | some e =>
        rw [List.filterMap_cons_some hfound, List.getLast?_cons]
        rfl
    rw [run_cons, hlast]
    exact ih (h.poll pods)

end YarnCopilot.Agent
