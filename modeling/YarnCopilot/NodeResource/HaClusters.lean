import YarnCopilot.NodeResource.HaOperator

/-!
# The clusters of the clients

Reference: `CreateAllYarnClients` of `pkg/yarn/client/factory.go`, `getYARNClient` of
`pkg/controller/noderesource/resource_sync_controller.go`.

The clients of the operator are made for the cluster ids of the configuration directory when it
starts, and for the cluster ids of pods later. `haStart_spec` says when the operator starts and what
with, and `haClusters` that at any later time every place of the operator has a client of the
cluster it stands for, through all failovers.
-/

namespace YarnCopilot.NodeResource

open Cache

/-! ## The start -/

section Start

variable {known : List (String × Client.InitEnv)} {env : Client.InitEnv}

/-- The factory gives a client of the cluster in the environment. -/
def Available (env : Client.InitEnv) (clusterID : String) : Prop :=
  (Client.createYarnClientByClusterID env clusterID).isSome

theorem isSome_create_iff {heap : Heap} {clusterID : String} :
    (heap.create env clusterID).1.isSome ↔ Available env clusterID := by
  rw [Available, Heap.create]
  cases Client.createYarnClientByClusterID env clusterID <;> rfl

/-- The loop over the ids asks for each of them. -/
theorem map_fst_createKnown (known : List (String × Client.InitEnv)) (heap : Heap) :
    (createKnown known heap).1.map Prod.fst = known.map Prod.fst := by
  induction known generalizing heap with
  | nil => rfl
  | cons c known ih => rw [createKnown, List.map_cons, List.map_cons, ih]

theorem isSome_snd_createKnown (known : List (String × Client.InitEnv)) (heap : Heap) :
    (∀ c ∈ (createKnown known heap).1, c.2.isSome) ↔ ∀ c ∈ known, Available c.2 c.1 := by
  induction known generalizing heap with
  | nil => simp [createKnown]
  | cons c known ih =>
    rw [createKnown, List.forall_mem_cons, List.forall_mem_cons, ih, isSome_create_iff]

theorem client_create_of_lt {heap : Heap} {p : ℕ} (hp : p < heap.next) (clusterID : String) :
    (heap.create env clusterID).2.client p = heap.client p := by
  rcases create_cases heap env clusterID with h | ⟨c, -, h⟩
  · rw [h]
  · rw [h]
    exact Function.update_of_ne (by omega) _ _

theorem client_create_self {heap : Heap} {p : ℕ} {clusterID : String}
    (h : (heap.create env clusterID).1 = some p) :
    Client.createYarnClientByClusterID env clusterID =
      some ((heap.create env clusterID).2.client p) := by
  rcases create_cases heap env clusterID with hcreate | ⟨c, hc, hcreate⟩
  · rw [hcreate] at h
    cases h
  · rw [hcreate] at h ⊢
    obtain rfl := Option.some.inj h
    rw [hc]
    simp only [Function.update_self]

/-- What the factory gave for an id is there under its pointer when the loop ends. -/
theorem client_createKnown (known : List (String × Client.InitEnv)) (heap : Heap) :
    (∀ p < heap.next, (createKnown known heap).2.client p = heap.client p) ∧
      ∀ id p, (id, some p) ∈ (createKnown known heap).1 →
        ∃ env, (id, env) ∈ known ∧ Client.createYarnClientByClusterID env id =
          some ((createKnown known heap).2.client p) := by
  induction known generalizing heap with
  | nil => exact ⟨fun p _ => rfl, fun id p hp => by cases hp⟩
  | cons c known ih =>
    obtain ⟨id₀, env⟩ := c
    obtain ⟨hkeep, hnew⟩ := ih (heap.create env id₀).2
    have hle := @next_le_create env heap id₀
    refine ⟨fun p hp => ?_, fun id p hp => ?_⟩
    · exact (hkeep p (by omega)).trans (client_create_of_lt hp id₀)
    · rcases List.mem_cons.mp hp with heq | hp
      · obtain ⟨rfl, hp⟩ := Prod.mk.inj heq
        obtain ⟨rfl, hnext⟩ := of_create_eq_some hp.symm
        refine ⟨env, List.mem_cons_self, ?_⟩
        rw [client_create_self hp.symm]
        exact congrArg some (hkeep _ (by omega)).symm
      · obtain ⟨env', hmem, hclient⟩ := hnew id p hp
        exact ⟨env', List.mem_cons_of_mem _ hmem, hclient⟩

/-- The body of the loop of `CreateAllYarnClients`. -/
def insertMade {C : Type} (clients : AList fun _ : String => C) (made : String × Option C) :
    Option (AList fun _ : String => C) :=
  made.2.map fun client => clients.insert made.1 client

/-- The loop succeeds exactly when every client does, and then has a place for every id. -/
theorem foldlM_insertMade {C : Type} (created : List (String × Option C))
    (start : AList fun _ : String => C) :
    ((created.foldlM insertMade start).isSome ↔ ∀ made ∈ created, made.2.isSome) ∧
      ∀ clients, created.foldlM insertMade start = some clients →
        ∀ key, key ∈ clients ↔ key ∈ created.map Prod.fst ∨ key ∈ start := by
  induction created generalizing start with
  | nil =>
    refine ⟨by simp, fun clients h key => ?_⟩
    obtain rfl := Option.some.inj h
    simp
  | cons made created ih =>
    rw [List.foldlM_cons]
    obtain ⟨id, client⟩ := made
    cases client with
    | none => simp [insertMade]
    | some client =>
      obtain ⟨hsome, hkeys⟩ := ih (start.insert id client)
      refine ⟨?_, fun clients h key => ?_⟩
      · rw [List.forall_mem_cons]
        exact hsome.trans (by simp)
      · rw [hkeys clients h key, AList.mem_insert, List.map_cons, List.mem_cons]
        tauto

/-- `CreateAllYarnClients`: its loop, and then the default client. -/
theorem createAllYarnClients_eq {C : Type} (created : List (String × Option C))
    (defaultClient : Option C) :
    createAllYarnClients created defaultClient =
      (created.foldlM insertMade ∅).bind fun clients =>
        defaultClient.map fun client => clients.insert defaultClusterID client := by
  cases defaultClient <;> rfl

theorem isSome_haStart_iff :
    (haStart known env).isSome ↔ (∀ c ∈ known, Available c.2 c.1) ∧ Available env "" := by
  rw [haStart, Option.isSome_map, createAllYarnClients_eq, ← isSome_snd_createKnown known .empty,
    ← (foldlM_insertMade (createKnown known .empty).1 ∅).1,
    ← @isSome_create_iff env (createKnown known .empty).2]
  cases (createKnown known Heap.empty).1.foldlM insertMade ∅ <;> simp

/-- The clients that the operator starts with. -/
theorem haStart_clients {s : HaState} (hs : haStart known env = some s) :
    ∃ clients, s.operator = add clients ∧
      (∀ key, key ∈ clients ↔ key ∈ known.map Prod.fst ∨ key = defaultClusterID) ∧
      ∀ key p, clients.lookup key = some p →
        ∃ env', (key = defaultClusterID ∧ env' = env ∨
            key ≠ defaultClusterID ∧ (key, env') ∈ known) ∧
          Client.createYarnClientByClusterID env' (configOf key) = some (s.heap.client p) := by
  obtain ⟨-, hkeys⟩ := foldlM_insertMade (createKnown known .empty).1 ∅
  obtain ⟨-, hclient⟩ := client_createKnown known .empty
  obtain ⟨clients, hclients, rfl⟩ := Option.map_eq_some_iff.mp hs
  rw [createAllYarnClients_eq] at hclients
  obtain ⟨made, hmade, hrest⟩ := Option.bind_eq_some_iff.mp hclients
  obtain ⟨p₀, hp₀, rfl⟩ := Option.map_eq_some_iff.mp hrest
  refine ⟨_, rfl, fun key => ?_, fun key p hp => ?_⟩
  · rw [AList.mem_insert, hkeys made hmade key, map_fst_createKnown]
    simp [or_comm]
  · by_cases hkey : key = defaultClusterID
    · subst hkey
      rw [AList.lookup_insert] at hp
      obtain rfl := Option.some.inj hp
      rw [configOf, if_pos rfl]
      exact ⟨env, .inl ⟨rfl, rfl⟩, client_create_self hp₀⟩
    · rw [AList.lookup_insert_ne hkey] at hp
      have hmem := mem_created_of_lookup hmade hp
      have hbound := ((createKnown_spec known .empty).2.1 key p hmem).2
      obtain ⟨env', henv', hmade'⟩ := hclient key p hmem
      refine ⟨env', .inr ⟨hkey, henv'⟩, ?_⟩
      rw [configOf, if_neg hkey, hmade', client_create_of_lt hbound]

/-- **The start.** The operator starts exactly when the factory gives a client of every cluster of
the configuration directory and of the default one. It then has a place for each of them, and in it
the client that was made for the cluster the place stands for; the default client takes the place of
a cluster that is called as its id. -/
theorem haStart_spec (known : List (String × Client.InitEnv)) (env : Client.InitEnv) :
    ((haStart known env).isSome ↔ (∀ c ∈ known, Available c.2 c.1) ∧ Available env "") ∧
      ∀ s, haStart known env = some s → ∃ clients, s.operator = add clients ∧
        (∀ key, key ∈ clients ↔ key ∈ known.map Prod.fst ∨ key = defaultClusterID) ∧
        ∀ key p, clients.lookup key = some p →
          ∃ env', (key = defaultClusterID ∧ env' = env ∨
              key ≠ defaultClusterID ∧ (key, env') ∈ known) ∧
            Client.createYarnClientByClusterID env' (configOf key) = some (s.heap.client p) :=
  ⟨isSome_haStart_iff, fun _ hs => haStart_clients hs⟩

end Start

/-! ## Runs -/

/-- The cluster of the client at a pointer. -/
def Heap.cluster (heap : Heap) (p : ℕ) : String := (heap.client p).clusterID

section Cluster

variable {env : String → Client.InitEnv} {heap heap' : Heap} {r : Reconciler ℕ} {yarnNode : YarnNode}

/-- The clients that were there keep their clusters. -/
def SameClusters (heap heap' : Heap) : Prop :=
  heap.next ≤ heap'.next ∧ ∀ p < heap.next, heap'.cluster p = heap.cluster p

theorem SameClusters.refl : SameClusters heap heap := ⟨le_rfl, fun _ _ => rfl⟩

theorem SameClusters.trans {heap'' : Heap} (h : SameClusters heap heap')
    (h' : SameClusters heap' heap'') : SameClusters heap heap'' :=
  ⟨h.1.trans h'.1, fun p hp => (h'.2 p (hp.trans_le h.1)).trans (h.2 p hp)⟩

/-- No request changes the cluster of its client. -/
theorem sameClusters_ask {α : Type} (service : String → Client.Service α) {p : ℕ}
    (hconf : heap.Configured) (hp : p < heap.next) : SameClusters heap (heap.ask service p) := by
  refine ⟨le_rfl, fun q _ => ?_⟩
  by_cases heq : q = p
  · subst heq
    rw [Heap.cluster, client_ask_self]
    exact (Client.askReinitializing_keeps _ (hconf q hp)).1
  · rw [Heap.cluster, client_ask_of_ne heq]
    rfl

theorem Heap.Moves.sameClusters {made : String → Client.InitEnv → Prop} {asked : Net → Prop}
    (h : heap.Moves made asked heap') (hconf : heap.Configured) : SameClusters heap heap' := by
  induction h with
  | refl => exact .refl
  | create _ _ ih =>
    refine ih.trans ⟨next_le_create, fun _ hp => ?_⟩
    exact congrArg _ (client_create_of_lt hp _)
  | clusterNodes h hp _ ih => exact ih.trans (sameClusters_ask _ (h.configured hconf) hp)
  | nodeResource h hp _ _ ih => exact ih.trans (sameClusters_ask _ (h.configured hconf) hp)

/-- A reconciler stays well built when the clients keep their clusters. -/
theorem WellBuilt.of_sameClusters (h : WellBuilt heap.cluster r) (hr : Owned r heap.next)
    (hsame : SameClusters heap heap') : WellBuilt heap'.cluster r where
  yarnClient p hp := (hsame.2 p (hr.yarnClient p hp)).trans (h.yarnClient p hp)
  yarnClients id p hp := (hsame.2 p (hr.yarnClients id p hp)).trans (h.yarnClients id p hp)
  hasDefault := h.hasDefault

/-- The factory makes the client that `getYARNClient` asks it for. -/
theorem madeAsAsked_getClient (heap : Heap) (env : String → Client.InitEnv) (r : Reconciler ℕ)
    (yarnNode : YarnNode) :
    MadeAsAsked (afterGetClient env r yarnNode heap).cluster
      (heap.create (env yarnNode.clusterID) yarnNode.clusterID).1
      (getClient env r yarnNode heap).2.2 := by
  intro p hp
  have hcluster : (heap.create (env yarnNode.clusterID) yarnNode.clusterID).2.cluster p =
      yarnNode.clusterID :=
    (Client.of_createYarnClientByClusterID (client_create_self hp)).1
  have hway := getYARNClient_way r
    (heap.create (env yarnNode.clusterID) yarnNode.clusterID).1 yarnNode
  rw [← getClient] at hway
  unfold afterGetClient
  generalize getClient env r yarnNode heap = got at hway ⊢
  obtain ⟨client, r', creates⟩ := got
  cases hway with
  | held _ _ => exact ⟨fun h => (by cases h), fun id h => (by cases h)⟩
  | known _ _ => exact ⟨fun h => (by cases h), fun id h => (by cases h)⟩
  | asked hid _ =>
    refine ⟨fun _ => hcluster.trans hid, fun id h => ?_⟩
    cases List.mem_singleton.mp h
  | refused _ _ hnone =>
    rw [hnone] at hp
    cases hp
  | added _ _ _ =>
    refine ⟨fun h => ?_, fun id h => ?_⟩
    · cases List.mem_singleton.mp h
    · cases List.mem_singleton.mp h
      exact hcluster

/-- What `getYARNClient` leaves is well built, and its client is of the cluster of the node. -/
theorem wellBuilt_getClient (h : WellBuilt heap.cluster r) (hconf : heap.Configured)
    (hr : Owned r heap.next) (env : String → Client.InitEnv) (yarnNode : YarnNode) :
    WellBuilt (afterGetClient env r yarnNode heap).cluster (getClient env r yarnNode heap).2.1 ∧
      ∀ p, (getClient env r yarnNode heap).1 = some p →
        (afterGetClient env r yarnNode heap).cluster p = configOf yarnNode.clusterID := by
  have hmoves : heap.Moves (fun _ _ => True) (fun _ => True) (afterGetClient env r yarnNode heap) :=
    moves_afterGetClient heap (fun _ => trivial) r yarnNode
  exact (h.of_sameClusters hr (hmoves.sameClusters hconf)).clientWay
    (getYARNClient_way r (heap.create (env yarnNode.clusterID) yarnNode.clusterID).1 yarnNode)
    (madeAsAsked_getClient heap env r yarnNode)

end Cluster

variable {lib : Library}

/-- The state is valid and its clients are of the clusters their places stand for. -/
def HaState.WellBuilt (s : HaState) : Prop :=
  s.Valid ∧
    ∀ op, s.operator.operator = some op → NodeResource.WellBuilt s.heap.cluster op.reconciler

/-- Every step keeps the clients where they belong. -/
theorem wellBuilt_haStep (s : HaState) (act : HaAct) (h : s.WellBuilt) :
    (haStep lib s act).WellBuilt := by
  have hsame := (moves_haStep h.1 lib act).sameClusters h.1.configured
  refine ⟨valid_haStep s act h.1, ?_⟩
  revert hsame
  unfold haStep
  cases hop : s.operator.operator with
  | none =>
    intro _ op' hop'
    rw [hop] at hop'
    cases hop'
  | some op =>
    have hr := h.1.owned op hop
    have hbuilt := h.2 op hop
    cases act with
    | pass nets order =>
      intro hsame op' hop'
      obtain ⟨syncer, -, rfl⟩ := Option.map_eq_some_iff.mp hop'
      exact hbuilt.of_sameClusters hr hsame
    | reconcile env net name node pods patchOk =>
      intro _ op' hop'
      dsimp only at hop' ⊢
      split at hop'
      · cases hop'
      · obtain rfl := Option.some.inj hop'
        dsimp only
        rw [Operator.reconcile, reconciler_reconcile, haAnswers]
        rcases hupdate : updateOf lib node pods with _ | ⟨yarnNode, vcores, memoryMB⟩
        · simp only [hupdate]
          exact hbuilt
        · simp only [hupdate]
          have hget : s.heap.Moves (fun _ _ => True) (fun _ => True)
              (afterGetClient env op.reconciler yarnNode s.heap) :=
            moves_afterGetClient s.heap (fun _ => trivial) op.reconciler yarnNode
          have hsend : (afterGetClient env op.reconciler yarnNode s.heap).Moves (fun _ _ => True)
              (fun _ => True) (sendUpdate env net op.reconciler yarnNode vcores memoryMB s.heap).2 :=
            moves_sendUpdate hr env trivial yarnNode vcores memoryMB
          exact (wellBuilt_getClient hbuilt h.1.configured hr env yarnNode).1.of_sameClusters
            (owned_getClient hr env yarnNode).2
            (hsend.sameClusters (hget.configured h.1.configured))

theorem wellBuilt_haStart {known : List (String × Client.InitEnv)} {env : Client.InitEnv}
    {s : HaState} (h : haStart known env = some s) : s.WellBuilt := by
  obtain ⟨clients, hadd, hkeys, hlookup⟩ := haStart_clients h
  refine ⟨(valid_haStart h).1, fun op hop => ?_⟩
  rw [hadd] at hop
  obtain rfl := Option.some.inj hop
  refine ⟨fun p hp => (by cases hp), fun key p hp => ?_, (hkeys _).mpr (.inr rfl)⟩
  obtain ⟨env', -, hmade⟩ := hlookup key p hp
  exact (Client.of_createYarnClientByClusterID hmade).1

/-- **Clusters.** At any time after the start, through any failovers and reinitializations, the
client in a place of the operator is of the cluster the place stands for; and the client that a
`Reconcile` gets for a node is of the cluster of the node, the default one for a pod without a
cluster. -/
theorem haClusters {known : List (String × Client.InitEnv)} {env : Client.InitEnv} {s : HaState}
    (hstart : haStart known env = some s) (acts : List HaAct) (op : Operator ℕ)
    (hop : (run (haStep lib) s acts).operator.operator = some op) :
    (∀ key p, op.reconciler.yarnClients.lookup key = some p →
      (run (haStep lib) s acts).heap.cluster p = configOf key) ∧
    ∀ env' yarnNode p, (getClient env' op.reconciler yarnNode (run (haStep lib) s acts).heap).1 =
        some p →
      (afterGetClient env' op.reconciler yarnNode (run (haStep lib) s acts).heap).cluster p =
        configOf yarnNode.clusterID := by
  have hrun : (run (haStep lib) s acts).WellBuilt :=
    run_invariant wellBuilt_haStep acts (wellBuilt_haStart hstart)
  have hbuilt := hrun.2 op hop
  exact ⟨hbuilt.yarnClients, fun env' yarnNode p hp =>
    (wellBuilt_getClient hbuilt hrun.1.configured (hrun.1.owned op hop) env' yarnNode).2 p hp⟩

/-- The client of a pod of the default cluster, after a failed pass, another one and an update. -/
theorem haClusters_failoverActs : ∃ s op, haStart [] Client.failoverEnv = some s ∧
    (run (haStep plainLib) s failoverActs).operator.operator = some op ∧
    ∀ p, op.reconciler.yarnClients.lookup defaultClusterID = some p →
      (run (haStep plainLib) s failoverActs).heap.cluster p = "" := by
  obtain ⟨s, hs⟩ := Option.isSome_iff_exists.mp haStart_failoverNet
  have hop : ((haStart [] Client.failoverEnv).map fun s =>
      (run (haStep plainLib) s failoverActs).operator.operator.isSome) = some true := by
    decide +kernel
  rw [hs] at hop
  obtain ⟨op, hop⟩ := Option.isSome_iff_exists.mp (Option.some.inj hop)
  refine ⟨s, op, hs, hop, fun p hp => ?_⟩
  exact (haClusters hs _ op hop).1 defaultClusterID p hp

end YarnCopilot.NodeResource
