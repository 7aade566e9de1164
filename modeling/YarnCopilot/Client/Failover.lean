import YarnCopilot.Client.YarnClient

/-!
# Requests across a failover

Reference: `pkg/yarn/client/client.go`, `pkg/yarn/client/factory.go`, and the two callers of a
client: `syncYARNNodeAllocatedResource` of `pkg/yarn/cache/nodes_syncer.go` and
`updateYARNNodeResource` of `pkg/controller/noderesource/resource_sync_controller.go`.

Both callers answer a request that fails with a `Reinitialize`. An `Initialize` that succeeds leaves
nothing of what the client held before, so a client is `Settled` from then on: it holds the
addresses that a new client would get.
-/

namespace YarnCopilot.Client

open Config

/-! ## The factory -/

/-- `CreateYarnClientByClusterID`; with the empty id it is `CreateDefaultYarnClient`. -/
def createYarnClientByClusterID (env : InitEnv) (clusterID : String) : Option YarnClient :=
  match (newYarnClient clusterID).initializeClient env with
  | (c, true) => some c
  | (_, false) => none

/-- The client holds what the factory would give now. -/
def Settled (env : InitEnv) (c : YarnClient) : Prop :=
  createYarnClientByClusterID env c.clusterID = some c

/-- The ways of `Initialize`: it fails on every client of the cluster, or makes the same client of
each of them. -/
inductive InitWay (env : InitEnv) (clusterID : String) : Prop
  | failed (h : ∀ c : YarnClient, c.clusterID = clusterID → (c.initializeClient env).2 = false ∧
      (c.initializeClient env).1.clusterID = clusterID ∧
      (c.conf.isSome → (c.initializeClient env).1.conf.isSome))
  | settled (c' : YarnClient) (hid : c'.clusterID = clusterID) (hconf : c'.conf.isSome)
      (hadmin : c'.activeRMAdminAddress.isSome) (hrm : c'.activeRMAddress.isSome)
      (h : ∀ c : YarnClient, c.clusterID = clusterID → c.initializeClient env = (c', true))

theorem initWay (env : InitEnv) (clusterID : String) : InitWay env clusterID := by
  cases hload : newYarnConfiguration env.files clusterID with
  | none =>
    refine .failed fun c hid => ?_
    simp only [YarnClient.initializeClient, hid, hload]
    exact ⟨trivial, trivial, fun h => h⟩
  | some conf =>
    cases hha : conf.getRMEnabledHA with
    | none =>
      refine .failed fun c hid => ?_
      simp only [YarnClient.initializeClient, hid, hload, hha]
      exact ⟨trivial, trivial, fun _ => rfl⟩
    | some ha =>
      cases ha with
      | false =>
        refine .settled ⟨clusterID, some conf, false, some conf.getRMAdminAddress,
          some conf.getRMAddress⟩ rfl rfl rfl rfl fun c hid => ?_
        simp only [YarnClient.initializeClient, hid, hload, hha, if_true]
      | true =>
        cases hactive : getActiveRMID conf env with
        | none =>
          refine .failed fun c hid => ?_
          simp only [YarnClient.initializeClient, hid, hload, hha, hactive, Bool.true_eq_false,
            if_false]
          exact ⟨trivial, trivial, fun _ => rfl⟩
        | some rmID =>
          refine .settled ⟨clusterID, some conf, true, some (conf.getRMAdminAddressByID rmID),
            some (conf.getRMAddressByID rmID)⟩ rfl rfl rfl rfl fun c hid => ?_
          simp only [YarnClient.initializeClient, hid, hload, hha, hactive, Bool.true_eq_false,
            if_false]

section Initialize

variable {env : InitEnv} {c c' : YarnClient} {clusterID : String}

theorem createYarnClientByClusterID_eq_some_iff :
    createYarnClientByClusterID env clusterID = some c ↔
      (newYarnClient clusterID).initializeClient env = (c, true) := by
  rw [createYarnClientByClusterID]
  obtain ⟨c₀, ok⟩ := (newYarnClient clusterID).initializeClient env
  cases ok <;> simp

/-- What the factory gives is what `Initialize` makes of any client of the cluster. -/
theorem initializeClient_eq_iff (hid : c.clusterID = clusterID) :
    c.initializeClient env = (c', true) ↔ createYarnClientByClusterID env clusterID = some c' := by
  rw [createYarnClientByClusterID_eq_some_iff]
  cases initWay env clusterID with
  | failed hway =>
    -- neither of the two succeeds
    have hfails : ∀ d : YarnClient, d.clusterID = clusterID →
        d.initializeClient env ≠ (c', true) := by
      intro d hd heq
      have hfail := (hway d hd).1
      rw [heq] at hfail
      cases hfail
    exact iff_of_false (hfails c hid) (hfails (newYarnClient clusterID) rfl)
  | settled c'' _ _ _ _ hway => rw [hway c hid, hway (newYarnClient clusterID) rfl]

/-- A client from the factory has a configuration and both addresses. -/
theorem of_createYarnClientByClusterID (h : createYarnClientByClusterID env clusterID = some c) :
    c.clusterID = clusterID ∧ c.conf.isSome ∧ c.activeRMAdminAddress.isSome ∧
      c.activeRMAddress.isSome := by
  have hnew := createYarnClientByClusterID_eq_some_iff.mp h
  cases initWay env clusterID with
  | failed hway =>
    have hfail := (hway (newYarnClient clusterID) rfl).1
    rw [hnew] at hfail
    cases hfail
  | settled c'' hid hconf hadmin hrm hway =>
    obtain rfl : c'' = c := (Prod.mk.inj ((hway _ rfl).symm.trans hnew)).1
    exact ⟨hid, hconf, hadmin, hrm⟩

theorem settled_of_create (h : createYarnClientByClusterID env clusterID = some c) :
    Settled env c := by
  rw [Settled, (of_createYarnClientByClusterID h).1, h]

@[simp]
theorem clusterID_initializeClient (env : InitEnv) (c : YarnClient) :
    (c.initializeClient env).1.clusterID = c.clusterID := by
  cases initWay env c.clusterID with
  | failed hway => exact (hway c rfl).2.1
  | settled c' hid _ _ _ hway => rw [hway c rfl, hid]

/-- A client that has a configuration keeps one. -/
theorem isSome_conf_initializeClient (env : InitEnv) (h : c.conf.isSome) :
    (c.initializeClient env).1.conf.isSome := by
  cases initWay env c.clusterID with
  | failed hway => exact (hway c rfl).2.2 h
  | settled c' _ hconf _ _ hway =>
    rw [hway c rfl]
    exact hconf

end Initialize

/-! ## A request and its `Reinitialize` -/

/-- What a caller gets. -/
inductive Reply (α : Type)
  | answer (a : α)
  | failed
  | panic
deriving DecidableEq, Repr

/-- A service as one request meets it: what an `Initialize` on the way meets and what the
`Reinitialize` after a failure does, whether the connection can be made, the two addresses the
client has for it, and what it answers at an address, if it answers. -/
structure Service (α : Type) where
  init : InitEnv
  reinit : InitEnv
  ready : Bool
  plain : Configuration → String
  address : YarnClient → Option String
  answer : String → Option α

variable {α : Type}

/-- A request to a service. -/
def YarnClient.ask (service : Service α) (c : YarnClient) : YarnClient × Reply α :=
  match c.request service.init service.ready service.plain service.address with
  | (c, .to a) => (c, (service.answer a).elim .failed .answer)
  | (c, .failed) => (c, .failed)
  | (c, .panicked) => (c, .panic)

/-- The request of both callers: a failure is answered with `Reinitialize`, whose own failure only
changes the text of the error. -/
def YarnClient.askReinitializing (service : Service α) (c : YarnClient) : YarnClient × Reply α :=
  match c.ask service with
  | (c, .failed) => ((c.reinitializeClient service.reinit).1, .failed)
  | (c, .answer a) => (c, .answer a)
  | (c, .panic) => (c, .panic)

section Requests

variable {env : InitEnv} {service : Service α} {c : YarnClient}

theorem dial_ne_panicked {ready : Bool} {conf : Option Configuration}
    (plain : Configuration → String) (address : Option String) (hconf : conf.isSome) :
    dial ready conf plain address ≠ .panicked := by
  obtain ⟨conf, rfl⟩ := Option.isSome_iff_exists.mp hconf
  cases ready <;> cases address <;> simp [dial]

/-- A request keeps the cluster and a configuration, and with a configuration it does not panic. -/
theorem ask_keeps (service : Service α) (hconf : c.conf.isSome) :
    (c.ask service).1.clusterID = c.clusterID ∧ (c.ask service).1.conf.isSome ∧
      (c.ask service).2 ≠ .panic := by
  have hrequest : ∀ d sent, c.request service.init service.ready service.plain service.address =
      (d, sent) → d.clusterID = c.clusterID ∧ d.conf.isSome ∧ sent ≠ .panicked := by
    intro d sent h
    rw [YarnClient.request] at h
    split at h
    · have hid := clusterID_initializeClient service.init c
      have hconf' := isSome_conf_initializeClient service.init hconf
      rcases hinit : c.initializeClient service.init with ⟨d', ok⟩
      rw [hinit] at h hid hconf'
      cases ok with
      | false =>
        cases h
        exact ⟨hid, hconf', fun h => by cases h⟩
      | true =>
        cases h
        exact ⟨hid, hconf', dial_ne_panicked _ _ hconf'⟩
    · cases h
      exact ⟨rfl, hconf, dial_ne_panicked _ _ hconf⟩
  rw [YarnClient.ask]
  rcases hsent : c.request service.init service.ready service.plain service.address with ⟨d, sent⟩
  obtain ⟨hid, hconf', hpanic⟩ := hrequest d sent hsent
  rcases sent with a | _ | _
  · refine ⟨hid, hconf', ?_⟩
    cases hanswer : service.answer a <;> simp [hanswer]
  · exact ⟨hid, hconf', fun h => by cases h⟩
  · exact absurd rfl hpanic

/-- So does a request with its `Reinitialize`. -/
theorem askReinitializing_keeps (service : Service α) (hconf : c.conf.isSome) :
    (c.askReinitializing service).1.clusterID = c.clusterID ∧
      (c.askReinitializing service).1.conf.isSome ∧
      (c.askReinitializing service).2 ≠ .panic := by
  have hask := ask_keeps service hconf
  rw [YarnClient.askReinitializing]
  rcases hreply : c.ask service with ⟨d, reply⟩
  rw [hreply] at hask
  obtain ⟨hid, hconf', hpanic⟩ := hask
  cases reply with
  | answer a => exact ⟨hid, hconf', hpanic⟩
  | failed =>
    have hclose : d.close.conf.isSome := hconf'
    exact ⟨(clusterID_initializeClient service.reinit d.close).trans hid,
      isSome_conf_initializeClient service.reinit hclose, fun h => by cases h⟩
  | panic => exact absurd rfl hpanic

/-- A settled client asks the service at its address. -/
theorem ask_of_settled {a : String} (hsettled : Settled env c)
    (hready : service.ready = true)
    (haddress : service.address c = some a) :
    c.ask service = (c, (service.answer a).elim .failed .answer) := by
  have hadmin : c.activeRMAdminAddress ≠ none := by
    obtain ⟨_, _, hadmin, _⟩ := of_createYarnClientByClusterID hsettled
    exact Option.isSome_iff_ne_none.mp hadmin
  have hrequest :
      c.request service.init service.ready service.plain service.address = (c, .to a) := by
    simp [YarnClient.request, hadmin, dial, hready, haddress]
  rw [YarnClient.ask, hrequest]

/-- The service answers every client of the cluster that the factory gives in the environment. -/
def Service.Up (service : Service α) (env : InitEnv) (clusterID : String) : Prop :=
  service.ready = true ∧ ∀ c, createYarnClientByClusterID env clusterID = some c →
    ∃ a answer, service.address c = some a ∧ service.answer a = some answer

/-- A settled client of a service that is up gets its answer, and stays as it is. -/
theorem askReinitializing_of_settled (hsettled : Settled env c)
    (hup : service.Up env c.clusterID) :
    ∃ answer, c.askReinitializing service = (c, .answer answer) := by
  obtain ⟨a, answer, haddress, hanswer⟩ := hup.2 c hsettled
  refine ⟨answer, ?_⟩
  rw [YarnClient.askReinitializing, ask_of_settled hsettled hup.1 haddress, hanswer]
  rfl

/-- A request that fails settles its client if the factory would give one. -/
theorem settled_of_failed (hconf : c.conf.isSome)
    (hcreate : (createYarnClientByClusterID service.reinit c.clusterID).isSome)
    (hfail : (c.askReinitializing service).2 = .failed) :
    Settled service.reinit (c.askReinitializing service).1 := by
  obtain ⟨c', hc'⟩ := Option.isSome_iff_exists.mp hcreate
  have hid := (ask_keeps service hconf).1
  rw [YarnClient.askReinitializing] at hfail ⊢
  rcases hreply : c.ask service with ⟨d, reply⟩
  rw [hreply] at hid hfail
  cases reply with
  | answer a => cases hfail
  | panic => cases hfail
  | failed =>
    have hclose : d.close.clusterID = c.clusterID := hid
    have hreinit : d.reinitializeClient service.reinit = (c', true) :=
      (initializeClient_eq_iff hclose).mpr hc'
    dsimp only
    rw [hreinit]
    exact settled_of_create hc'

end Requests

end YarnCopilot.Client
