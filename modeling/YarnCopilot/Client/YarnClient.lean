import YarnCopilot.Common.Run
import YarnCopilot.Config.YarnConfiguration

/-!
# The HA client

Reference: `pkg/yarn/client/client.go`, and the `Dial` functions of `pkg/yarn/apis/service`.

`Initialize` loads the configuration, decides whether HA is on, and sets the addresses of the active
resource manager; it may fail after any of these, and what it has set by then stays. A call that
needs an address initializes again when HA is on and the admin address is missing, and the `Dial`
functions fall back to the plain address of the configuration on a missing one.

The invariant is `Consistent`: the two addresses are missing together, or were set together by the
last `Initialize`.
-/

namespace YarnCopilot.Client

open Config

/-! ## The client -/

/-- `HAServiceStateProto`. -/
inductive HAServiceStateProto
  | INITIALIZING
  | ACTIVE
  | STANDBY
  | unrecognized (n : ℤ)
deriving DecidableEq, Repr

/-- What one run of `Initialize` meets: the configuration files, and for each position of the RM
list the answer of that RM to `GetServiceStatus`: an error, or a response whose state may be
unset. -/
structure InitEnv where
  files : String → ConfFile
  answer : ℕ → Option (Option HAServiceStateProto)

/-- The fields of `yarnClient`. -/
structure YarnClient where
  clusterID : String
  conf : Option Configuration := none
  haEnabled : Bool := false
  activeRMAdminAddress : Option String := none
  activeRMAddress : Option String := none

/-- `NewYarnClient`. -/
def newYarnClient (clusterID : String) : YarnClient := { clusterID }

/-- The loop of `GetActiveRMID`: the first RM that answers `ACTIVE`; one that does not answer is
skipped. -/
def findActive (answer : ℕ → Option (Option HAServiceStateProto)) : ℕ → List String → Option String
  | _, [] => none
  | i, rmID :: rmIDs =>
    if answer i = some (some .ACTIVE) then some rmID else findActive answer (i + 1) rmIDs

/-- `GetActiveRMID`. -/
def getActiveRMID (conf : Configuration) (env : InitEnv) : Option String :=
  findActive env.answer 0 conf.getRMs

/-- `Initialize`, and whether it succeeded. -/
def YarnClient.initializeClient (env : InitEnv) (c : YarnClient) : YarnClient × Bool :=
  match newYarnConfiguration env.files c.clusterID with
  | none => (c, false)
  | some conf =>
    let c := { c with conf := some conf }
    match conf.getRMEnabledHA with
    | none => (c, false)
    | some ha =>
      let c := { c with haEnabled := ha }
      if ha = false then
        ({ c with
            activeRMAdminAddress := some conf.getRMAdminAddress
            activeRMAddress := some conf.getRMAddress }, true)
      else
        match getActiveRMID conf env with
        | none => (c, false)
        | some rmID =>
          ({ c with
              activeRMAdminAddress := some (conf.getRMAdminAddressByID rmID)
              activeRMAddress := some (conf.getRMAddressByID rmID) }, true)

/-- `Close`. -/
def YarnClient.close (c : YarnClient) : YarnClient :=
  { c with activeRMAdminAddress := none, activeRMAddress := none }

/-- What became of a request: it was sent to an address, it failed before that, or the client
dereferenced its missing configuration. -/
inductive Sent
  | to (address : String)
  | failed
  | panicked
deriving DecidableEq, Repr

/-- `Dial...Service` and the request: the address the caller passes, else the plain one of the
configuration. `ready` is false when the client id or the user information cannot be made. -/
def dial (ready : Bool) (conf : Option Configuration) (plain : Configuration → String)
    (address : Option String) : Sent :=
  if ready = false then .failed
  else match address with
    | some address => .to address
    | none =>
      match conf with
      | some conf => .to (plain conf)
      | none => .panicked

/-- `UpdateNodeResource` and `GetClusterNodes`: initialize when HA is on and the admin address is
missing, then send to the address of the service. -/
def YarnClient.request (env : InitEnv) (ready : Bool) (plain : Configuration → String)
    (address : YarnClient → Option String) (c : YarnClient) : YarnClient × Sent :=
  if c.activeRMAdminAddress = none ∧ c.haEnabled = true then
    match c.initializeClient env with
    | (c, false) => (c, .failed)
    | (c, true) => (c, dial ready c.conf plain (address c))
  else (c, dial ready c.conf plain (address c))

/-- `UpdateNodeResource`. -/
def YarnClient.updateNodeResource (env : InitEnv) (ready : Bool) (c : YarnClient) :
    YarnClient × Sent :=
  c.request env ready Configuration.getRMAdminAddress YarnClient.activeRMAdminAddress

/-- `GetClusterNodes`. Its guard looks at the admin address too. -/
def YarnClient.getClusterNodes (env : InitEnv) (ready : Bool) (c : YarnClient) :
    YarnClient × Sent :=
  c.request env ready Configuration.getRMAddress YarnClient.activeRMAddress

/-- `Reinitialize`. -/
def YarnClient.reinitializeClient (env : InitEnv) (c : YarnClient) : YarnClient × Bool :=
  c.close.initializeClient env

/-! ## Runs -/

/-- A call on a client, with what it meets. -/
inductive Call
  | updateNodeResource (env : InitEnv) (ready : Bool)
  | getClusterNodes (env : InitEnv) (ready : Bool)
  | reinitializeClient (env : InitEnv)
  | close

/-- The client after a call. -/
def Call.next (c : YarnClient) : Call → YarnClient
  | .updateNodeResource env ready => (c.updateNodeResource env ready).1
  | .getClusterNodes env ready => (c.getClusterNodes env ready).1
  | .reinitializeClient env => (c.reinitializeClient env).1
  | .close => c.close

/-- What a call sent. -/
def Call.sent (c : YarnClient) : Call → Option Sent
  | .updateNodeResource env ready => some (c.updateNodeResource env ready).2
  | .getClusterNodes env ready => some (c.getClusterNodes env ready).2
  | .reinitializeClient _ => none
  | .close => none

/-- The `Initialize` that a call runs, and whether it succeeds. -/
def Call.init (c : YarnClient) : Call → Option (InitEnv × Bool)
  | .updateNodeResource env _ | .getClusterNodes env _ =>
    if c.activeRMAdminAddress = none ∧ c.haEnabled = true then
      some (env, (c.initializeClient env).2)
    else none
  | .reinitializeClient env => some (env, (c.reinitializeClient env).2)
  | .close => none

/-- A client with the last `Initialize` that ran on it. -/
structure Life where
  client : YarnClient
  lastInit : InitEnv × Bool

/-- One call in the life of a client. -/
def Life.step (s : Life) (call : Call) : Life :=
  ⟨call.next s.client, (call.init s.client).getD s.lastInit⟩

/-- A client from the factory, whose first `Initialize` ran in `env`. -/
def Life.fromFactory (clusterID : String) (env : InitEnv) : Life :=
  ⟨((newYarnClient clusterID).initializeClient env).1,
    (env, ((newYarnClient clusterID).initializeClient env).2)⟩

/-! ## The invariant -/

/-- `rmID` is the first RM in order that answers `ACTIVE`. -/
def IsFirstActive (conf : Configuration) (env : InitEnv) (rmID : String) : Prop :=
  ∃ before after, conf.getRMs = before ++ rmID :: after ∧
    env.answer before.length = some (some .ACTIVE) ∧
    ∀ i < before.length, env.answer i ≠ some (some .ACTIVE)

/-- The addresses that `Initialize` takes from `conf` in `env`: the plain ones without HA, those of
the first active RM with HA. -/
def AddressesFrom (conf : Configuration) (env : InitEnv) (admin rm : String) : Prop :=
  (conf.getRMEnabledHA = some false ∧ admin = conf.getRMAdminAddress ∧ rm = conf.getRMAddress) ∨
  (conf.getRMEnabledHA = some true ∧ ∃ rmID, IsFirstActive conf env rmID ∧
    admin = conf.getRMAdminAddressByID rmID ∧ rm = conf.getRMAddressByID rmID)

/-- Both addresses are missing, or the last `Initialize` succeeded and set both from the
configuration the client holds. -/
def Consistent (s : Life) : Prop :=
  (s.client.activeRMAdminAddress = none ∧ s.client.activeRMAddress = none) ∨
  ∃ conf admin rm, s.client.conf = some conf ∧
    s.client.activeRMAdminAddress = some admin ∧ s.client.activeRMAddress = some rm ∧
    s.lastInit.2 = true ∧ newYarnConfiguration s.lastInit.1.files s.client.clusterID = some conf ∧
    conf.getRMEnabledHA = some s.client.haEnabled ∧ AddressesFrom conf s.lastInit.1 admin rm

/-- Searching from position `i` finds the first active RM. -/
theorem findActive_eq_some {answer : ℕ → Option (Option HAServiceStateProto)} :
    ∀ {i : ℕ} {rmIDs : List String} {rmID : String}, findActive answer i rmIDs = some rmID →
      ∃ before after, rmIDs = before ++ rmID :: after ∧
        answer (i + before.length) = some (some .ACTIVE) ∧
        ∀ j < before.length, answer (i + j) ≠ some (some .ACTIVE)
  | _, [], _, h => by simp [findActive] at h
  | i, id :: ids, rmID, h => by
    rw [findActive] at h
    split_ifs at h with hactive
    · obtain rfl : id = rmID := by simpa using h
      exact ⟨[], ids, rfl, by simpa using hactive, by simp⟩
    · obtain ⟨before, after, rfl, hfound, hskipped⟩ := findActive_eq_some h
      refine ⟨id :: before, after, rfl, ?_, fun j hj => ?_⟩
      · rw [List.length_cons, ← hfound]
        congr 1
        omega
      · cases j with
        | zero => simpa using hactive
        | succ j =>
          have := hskipped j (by simpa using hj)
          rwa [show i + 1 + j = i + (j + 1) by omega] at this

theorem getActiveRMID_isFirstActive {conf : Configuration} {env : InitEnv} {rmID : String}
    (h : getActiveRMID conf env = some rmID) : IsFirstActive conf env rmID := by
  obtain ⟨before, after, hsplit, hfound, hskipped⟩ := findActive_eq_some h
  exact ⟨before, after, hsplit, by simpa using hfound, by simpa using hskipped⟩

/-- Specification of `Initialize` on a client without addresses: it fails and leaves them missing,
or succeeds and sets both from the configuration it loaded. -/
theorem initializeClient_cases (env : InitEnv) {c : YarnClient}
    (hadmin : c.activeRMAdminAddress = none) (hrm : c.activeRMAddress = none) :
    ((c.initializeClient env).2 = false ∧ (c.initializeClient env).1.activeRMAdminAddress = none ∧
      (c.initializeClient env).1.activeRMAddress = none) ∨
    ((c.initializeClient env).2 = true ∧ Consistent ⟨(c.initializeClient env).1, (env, true)⟩ ∧
      (c.initializeClient env).1.activeRMAdminAddress ≠ none) := by
  rw [YarnClient.initializeClient]
  cases hload : newYarnConfiguration env.files c.clusterID with
  | none => exact .inl ⟨rfl, hadmin, hrm⟩
  | some conf =>
    cases hha : conf.getRMEnabledHA with
    | none => exact .inl ⟨by simp [hha], by simp [hha, hadmin], by simp [hha, hrm]⟩
    | some ha =>
      cases ha with
      | false =>
        right
        simp only [hha, if_true]
        refine ⟨trivial, .inr ⟨conf, _, _, rfl, rfl, rfl, rfl, hload, hha, .inl ⟨hha, rfl, rfl⟩⟩, ?_⟩
        simp
      | true =>
        cases hactive : getActiveRMID conf env with
        | none => exact .inl ⟨by simp [hha, hactive], by simp [hha, hactive, hadmin],
            by simp [hha, hactive, hrm]⟩
        | some rmID =>
          right
          simp only [hha, hactive, Bool.true_eq_false, if_false]
          refine ⟨trivial, .inr ⟨conf, _, _, rfl, rfl, rfl, rfl, hload, hha,
            .inr ⟨hha, rmID, getActiveRMID_isFirstActive hactive, rfl, rfl⟩⟩, ?_⟩
          simp

/-- A missing admin address means that both are missing. -/
theorem Consistent.rm_none {s : Life} (h : Consistent s)
    (hadmin : s.client.activeRMAdminAddress = none) : s.client.activeRMAddress = none := by
  rcases h with ⟨_, hrm⟩ | ⟨_, _, _, _, hset, _⟩
  · exact hrm
  · rw [hadmin] at hset
    cases hset

/-- Without HA, or with the admin address set, both addresses are as they were; otherwise the call
initializes first. Either way the addresses stay consistent, and if HA was on the request goes to
the address the client then holds, or nowhere. -/
theorem request_spec {s : Life} (h : Consistent s) (env : InitEnv) (ready : Bool)
    (plain : Configuration → String) (address : YarnClient → Option String)
    (haddress : ∀ l, Consistent l → l.client.activeRMAdminAddress ≠ none → address l.client ≠ none) :
    Consistent ⟨(s.client.request env ready plain address).1,
      (if s.client.activeRMAdminAddress = none ∧ s.client.haEnabled = true then
        some (env, (s.client.initializeClient env).2) else none).getD s.lastInit⟩ ∧
    (s.client.haEnabled = true → (s.client.request env ready plain address).2 = .failed ∨
      ∃ a, (s.client.request env ready plain address).2 = .to a ∧
        address (s.client.request env ready plain address).1 = some a) := by
  have hdial : ∀ c : YarnClient, address c ≠ none → dial ready c.conf plain (address c) = .failed ∨
      ∃ a, dial ready c.conf plain (address c) = .to a ∧ address c = some a := by
    intro c hset
    obtain ⟨a, ha⟩ := Option.ne_none_iff_exists'.mp hset
    cases ready with
    | false => exact .inl rfl
    | true => exact .inr ⟨a, by simp [dial, ha], ha⟩
  rw [YarnClient.request]
  by_cases hlazy : s.client.activeRMAdminAddress = none ∧ s.client.haEnabled = true
  · simp only [if_pos hlazy, Option.getD_some]
    rcases initializeClient_cases env hlazy.1 (h.rm_none hlazy.1) with
      ⟨hfail, hadmin, hrm⟩ | ⟨hok, hcons, hadmin⟩
    · have hres : s.client.initializeClient env = ((s.client.initializeClient env).1, false) := by
        rw [← hfail]
      rw [hres]
      exact ⟨.inl ⟨hadmin, hrm⟩, fun _ => .inl rfl⟩
    · have hres : s.client.initializeClient env = ((s.client.initializeClient env).1, true) := by
        rw [← hok]
      rw [hres]
      exact ⟨hcons, fun _ => hdial _ (haddress _ hcons hadmin)⟩
  · simp only [if_neg hlazy, Option.getD_none]
    refine ⟨h, fun hha => hdial _ (haddress s h fun hnone => hlazy ⟨hnone, hha⟩)⟩

/-- The addresses a client sends to are set when the admin address is. -/
theorem Consistent.rm_ne_none {s : Life} (h : Consistent s)
    (hadmin : s.client.activeRMAdminAddress ≠ none) : s.client.activeRMAddress ≠ none := by
  rcases h with ⟨hnone, _⟩ | ⟨_, _, rm, _, _, hrm, _⟩
  · exact absurd hnone hadmin
  · rw [hrm]
    simp

/-- Every call keeps the addresses consistent. -/
theorem consistent_step (s : Life) (call : Call) (h : Consistent s) : Consistent (s.step call) := by
  cases call with
  | updateNodeResource env ready =>
    exact (request_spec h env ready _ _ fun _ _ hadmin => hadmin).1
  | getClusterNodes env ready =>
    exact (request_spec h env ready _ _ fun _ hcons hadmin => hcons.rm_ne_none hadmin).1
  | close => exact .inl ⟨rfl, rfl⟩
  | reinitializeClient env =>
    rcases initializeClient_cases env
      (show s.client.close.activeRMAdminAddress = none from rfl) rfl with
      ⟨_, hadmin, hrm⟩ | ⟨hok, hcons, _⟩
    · exact .inl ⟨hadmin, hrm⟩
    · rw [← hok] at hcons
      exact hcons

/-- A client from the factory starts consistent, and stays so whatever is called on it. -/
theorem consistent_run (clusterID : String) (env : InitEnv) (calls : List Call) :
    Consistent (run Life.step (Life.fromFactory clusterID env) calls) := by
  refine run_invariant consistent_step calls ?_
  rcases initializeClient_cases env
    (show (newYarnClient clusterID).activeRMAdminAddress = none from rfl) rfl with
    ⟨_, hadmin, hrm⟩ | ⟨hok, hcons, _⟩
  · exact .inl ⟨hadmin, hrm⟩
  · rw [← hok] at hcons
    exact hcons

/-- A request fails before it is sent, or goes to the address the client then holds. -/
def SendsToActive (c : YarnClient) (call : Call) : Prop :=
  match call with
  | .updateNodeResource env ready => (c.updateNodeResource env ready).2 = .failed ∨
      ∃ a, (c.updateNodeResource env ready).2 = .to a ∧
        (c.updateNodeResource env ready).1.activeRMAdminAddress = some a
  | .getClusterNodes env ready => (c.getClusterNodes env ready).2 = .failed ∨
      ∃ a, (c.getClusterNodes env ready).2 = .to a ∧
        (c.getClusterNodes env ready).1.activeRMAddress = some a
  | .reinitializeClient _ => True
  | .close => True

/-- **The HA client.** After any sequence of calls on a client from the factory, whatever the
configuration files and the RMs answer: the two addresses are missing together, or the last
`Initialize` set them from the configuration the client holds, under HA to those of the first RM
that answered `ACTIVE`; and while HA is on, the next request goes to those addresses or is not
sent. -/
theorem haClient_invariant (clusterID : String) (env : InitEnv) (calls : List Call) (call : Call) :
    Consistent (run Life.step (Life.fromFactory clusterID env) calls) ∧
      ((run Life.step (Life.fromFactory clusterID env) calls).client.haEnabled = true →
        SendsToActive (run Life.step (Life.fromFactory clusterID env) calls).client call) := by
  have h := consistent_run clusterID env calls
  refine ⟨h, fun hha => ?_⟩
  cases call with
  | updateNodeResource env ready =>
    exact (request_spec h env ready _ _ fun _ _ hadmin => hadmin).2 hha
  | getClusterNodes env ready =>
    exact (request_spec h env ready _ _ fun _ hcons hadmin => hcons.rm_ne_none hadmin).2 hha
  | reinitializeClient env => trivial
  | close => trivial

/-- Files that switch HA on with two RMs. -/
def haFiles : String → ConfFile
  | "yarn-site.xml" => .parsed [("yarn.resourcemanager.ha.enabled", "true"),
      ("yarn.resourcemanager.ha.rm-ids", "rm1,rm2"),
      ("yarn.resourcemanager.admin.address.rm2", "host2:8033"),
      ("yarn.resourcemanager.address.rm2", "host2:8032")]
  | _ => .missing

/-- The first RM does not answer, the second is active. -/
def failoverEnv : InitEnv := ⟨haFiles, fun i => if i = 0 then none else some (some .ACTIVE)⟩

/-- After a failover a closed client sends its next update to the second RM. -/
theorem haClient_invariant_failover :
    (run Life.step (Life.fromFactory "" failoverEnv) [.close]).client.haEnabled = true ∧
      SendsToActive (run Life.step (Life.fromFactory "" failoverEnv) [.close]).client
        (.updateNodeResource failoverEnv true) ∧
      ((run Life.step (Life.fromFactory "" failoverEnv) [.close]).client.updateNodeResource
        failoverEnv true).2 = .to "host2:8033" := by
  have hha : (run Life.step (Life.fromFactory "" failoverEnv) [.close]).client.haEnabled = true := by
    decide +kernel
  refine ⟨hha, (haClient_invariant "" failoverEnv [.close]
    (.updateNodeResource failoverEnv true)).2 hha, ?_⟩
  decide +kernel

end YarnCopilot.Client
