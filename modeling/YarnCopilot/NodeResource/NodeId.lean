import YarnCopilot.NodeResource.Json
import YarnCopilot.NodeResource.Reconcile

/-!
# The node id of a NodeManager

The pod of a NodeManager carries its node id, `host:port`, as an annotation. `getYARNNode` splits
the text at the colons, reads the second token as an `int` and converts it to the `int32` of a port;
`Reconcile` then takes the port 0 for a node without a NodeManager. `NodeId` is the grammar on its
own, and `parsesExactly_iff` compares the two.
-/

namespace YarnCopilot.NodeResource

open Cache

/-- A node id: a host and a decimal integer around the only colon. -/
structure NodeId (s host : String) (port : ℤ) : Prop where
  colon : s.toList.count ':' = 1
  parts : ∃ text, s = host ++ ":" ++ text ∧ Decimal text.toList port

/-- A value of an `int32`. -/
def FitsInt32 (x : ℤ) : Prop := -2 ^ 31 ≤ x ∧ x < 2 ^ 31

/-- The node id of a pod. -/
def NodeIdOf (s : String) (nmPod : Pod) : Prop := nmPod.annotations yarnNodeIdAnnotation = some s

/-- The cluster of a pod. -/
def clusterOf (nmPod : Pod) : String :=
  (nmPod.annotations podYarnClusterIDAnnotationKey).getD defaultClusterID

/-- `Reconcile` treats the node as one without a NodeManager: it clears the allocation and does
nothing else. -/
def Clears {Client : Type} (lib : Library) (r : Reconciler Client) (cache : NodeCache)
    (answers : Answers Client) (node : Node) : Prop :=
  reconcileNode lib r cache answers node = updateYARNAllocatedResource lib r answers node 0 0

/-- The text `s` is read as a node id exactly when it is one with a port for an `int32`, and then as
what it says; a node is not cleared for its port unless that is 0. -/
structure ParsesExactly (s : String) : Prop where
  accepts : ∀ nmPod pods, NodeIdOf s nmPod →
    ((∃ yarnNode, getYARNNode (some (nmPod :: pods)) = .ok (some yarnNode)) ↔
      ∃ host port, NodeId s host port ∧ FitsInt32 port)
  reads : ∀ nmPod pods host port, NodeIdOf s nmPod → NodeId s host port → FitsInt32 port →
    getYARNNode (some (nmPod :: pods)) = .ok (some ⟨host, port, clusterOf nmPod⟩)
  rejects : ∀ nmPod pods, NodeIdOf s nmPod → (¬ ∃ host port, NodeId s host port ∧ FitsInt32 port) →
    getYARNNode (some (nmPod :: pods)) = .error ()
  clears : ∀ (Client : Type) lib (r : Reconciler Client) cache answers node nmPod pods host port,
    answers.pods = some (nmPod :: pods) → NodeIdOf s nmPod → NodeId s host port → host ≠ "" →
    Clears lib r cache answers node → port = 0

/-! ## The grammar -/

section NodeId

variable {s host host' : String} {port port' p : ℤ}

/-- The two tokens of a text with one colon. -/
theorem nodeId_iff :
    NodeId s host port ↔ ∃ text, splitOn ':' s = [host, text] ∧ Decimal text.toList port := by
  constructor
  · rintro ⟨hcolon, text, rfl, hport⟩
    refine ⟨text, splitOn_eq_pair_iff.mpr ?_, hport⟩
    simp only [String.toList_append, List.count_append] at hcolon
    have hone : (":" : String).toList.count ':' = 1 := by decide
    rw [← List.count_eq_zero, ← List.count_eq_zero]
    exact ⟨by simp, by omega, by omega⟩
  · rintro ⟨text, hsplit, hport⟩
    obtain ⟨hs, hhost, htext⟩ := splitOn_eq_pair_iff.mp hsplit
    refine ⟨?_, text, String.toList_inj.mp (by simpa using hs), hport⟩
    rw [hs, List.count_append, List.count_cons_self, List.count_eq_zero.mpr hhost,
      List.count_eq_zero.mpr htext]

/-- A text is the id of at most one node. -/
theorem NodeId.unique (h : NodeId s host port) (h' : NodeId s host' port') :
    host = host' ∧ port = port' := by
  obtain ⟨text, hsplit, hport⟩ := nodeId_iff.mp h
  obtain ⟨text', hsplit', hport'⟩ := nodeId_iff.mp h'
  rw [hsplit, List.cons.injEq, List.cons.injEq] at hsplit'
  obtain ⟨rfl, rfl, -⟩ := hsplit'
  exact ⟨rfl, hport.unique hport'⟩

/-- What the source reads: the ids whose port an `int` holds, truncated. -/
theorem parseNodeId_eq_some_iff :
    parseNodeId s = some (host, p) ↔
      ∃ port, NodeId s host port ∧ (-2 ^ 63 ≤ port ∧ port < 2 ^ 63) ∧ p = int32 port := by
  constructor
  · intro h
    unfold parseNodeId at h
    split at h
    · rename_i name text hsplit
      obtain ⟨port, hatoi, hpair⟩ := Option.map_eq_some_iff.mp h
      obtain ⟨rfl, rfl⟩ := Prod.mk.inj hpair
      obtain ⟨hport, hrange⟩ := atoi_eq_some_iff.mp hatoi
      exact ⟨port, nodeId_iff.mpr ⟨text, hsplit, hport⟩, hrange, rfl⟩
    · cases h
  · rintro ⟨port, hid, hrange, rfl⟩
    obtain ⟨text, hsplit, hport⟩ := nodeId_iff.mp hid
    simp only [parseNodeId, hsplit, atoi_eq_some_iff.mpr ⟨hport, hrange⟩, Option.map_some]

/-- The `int32` values are read as they are. -/
theorem parseNodeId_of_fitsInt32 (hid : NodeId s host port) (hfits : FitsInt32 port) :
    parseNodeId s = some (host, port) := by
  obtain ⟨hlo, hhi⟩ := hfits
  exact parseNodeId_eq_some_iff.mpr
    ⟨port, hid, ⟨by omega, by omega⟩, (int32_of_mem hlo hhi).symm⟩

end NodeId

/-! ## The source -/

variable {s : String} {nmPod : Pod} {pods : List Pod}

/-- What `getYARNNode` makes of the annotation. -/
theorem getYARNNode_cons (h : NodeIdOf s nmPod) :
    getYARNNode (some (nmPod :: pods)) =
      match parseNodeId s with
      | none => .error ()
      | some (name, port) => .ok (some ⟨name, port, clusterOf nmPod⟩) := by
  rw [NodeIdOf] at h
  simp only [getYARNNode, getYARNNodeManagerPod, List.head?_cons, yarnNodeOfPod, h,
    Option.bind_some, clusterOf]
  cases parseNodeId s with
  | none => rfl
  | some id => rfl

theorem getYARNNode_eq_ok_iff (h : NodeIdOf s nmPod) {yarnNode : YarnNode} :
    getYARNNode (some (nmPod :: pods)) = .ok (some yarnNode) ↔
      ∃ name port, parseNodeId s = some (name, port) ∧ ⟨name, port, clusterOf nmPod⟩ = yarnNode := by
  rw [getYARNNode_cons h]
  cases hid : parseNodeId s with
  | none => simp
  | some id => simp [Prod.ext_iff]

section Clears

variable {Client : Type} {lib : Library} {r : Reconciler Client} {cache : NodeCache}
  {answers : Answers Client} {node : Node} {yarnNode : YarnNode}

/-- An update that succeeds has told YARN something. -/
theorem updateNodeResource_of_ok {vcores memoryMB : ℤ}
    (h : (updateYARNNodeResource r answers yarnNode vcores memoryMB).1 = true) :
    ∃ client, .updateNodeResource client (updateRequest yarnNode vcores memoryMB) ∈
      (updateYARNNodeResource r answers yarnNode vcores memoryMB).2.2 := by
  obtain ⟨hclient, hok⟩ := updateYARNNodeResource_ok.mp h
  unfold updateYARNNodeResource
  split
  · rename_i hnone
    rw [hnone] at hclient
    cases hclient
  · rename_i client _ _ _
    exact ⟨client, by simp [hok]⟩

/-- A node with a NodeManager is never taken for one without: whenever the allocation is recorded,
YARN has been told a capacity before. -/
theorem reconcileYARNNode_ne_clear :
    reconcileYARNNode lib r cache answers node yarnNode ≠
      updateYARNAllocatedResource lib r answers node 0 0 := by
  intro heq
  have hcalls : (reconcileYARNNode lib r cache answers node yarnNode).calls =
      [.patchNode node.name (allocatedResourcePatch lib node 0 0)] := by
    rw [heq]
    rfl
  have hpatch : .patchNode node.name (allocatedResourcePatch lib node 0 0) ∈
      (reconcileYARNNode lib r cache answers node yarnNode).calls := by
    rw [hcalls]
    exact List.mem_singleton_self _
  rcases mem_reconcileYARNNode.mp hpatch with ⟨_, _, hupdate⟩ | ⟨⟨⟨batch, hbatch⟩, hrecords⟩, _⟩
  · exact updateYARNNodeResource_patch hupdate
  · obtain ⟨client, hupdate⟩ := updateNodeResource_of_ok (updateYARNNodeResource_ok.mpr hrecords)
    have hmem : .updateNodeResource client _ ∈
        (reconcileYARNNode lib r cache answers node yarnNode).calls :=
      mem_reconcileYARNNode.mpr (.inl ⟨batch, hbatch, hupdate⟩)
    rw [hcalls, List.mem_singleton] at hmem
    cases hmem

/-- A node whose id is read is cleared exactly for an empty host or the port 0. -/
theorem clears_iff_of_ok (h : getYARNNode answers.pods = .ok (some yarnNode)) :
    Clears lib r cache answers node ↔ yarnNode.name = "" ∨ yarnNode.port = 0 := by
  rw [Clears, reconcileNode, h]
  dsimp only
  split
  · rename_i hvalid
    exact iff_of_true rfl hvalid
  · rename_i hvalid
    exact iff_of_false reconcileYARNNode_ne_clear hvalid

/-- A node whose id is not read is left alone. -/
theorem not_clears_of_error (h : getYARNNode answers.pods = .error ()) :
    ¬ Clears lib r cache answers node := by
  intro hclears
  rw [Clears, reconcileNode, h] at hclears
  have hcalls := congrArg Trace.calls hclears
  cases hcalls

end Clears

/-! ## The comparison -/

section Comparison

variable (hfits : ∀ host port, NodeId s host port → -2 ^ 63 ≤ port → port < 2 ^ 63 → FitsInt32 port)
include hfits

/-- Where an `int` that is read fits, nothing is truncated. -/
theorem nodeId_of_parseNodeId {host : String} {p : ℤ} (h : parseNodeId s = some (host, p)) :
    NodeId s host p ∧ FitsInt32 p := by
  obtain ⟨port, hid, ⟨hlo, hhi⟩, rfl⟩ := parseNodeId_eq_some_iff.mp h
  obtain ⟨hlo', hhi'⟩ := hfits host port hid hlo hhi
  rw [int32_of_mem hlo' hhi']
  exact ⟨hid, hlo', hhi'⟩

theorem port_eq_zero_of_clears {Client : Type} {lib : Library} {r : Reconciler Client}
    {cache : NodeCache} {answers : Answers Client} {node : Node} {host : String} {port : ℤ}
    (hpods : answers.pods = some (nmPod :: pods)) (hpod : NodeIdOf s nmPod)
    (hid : NodeId s host port) (hhost : host ≠ "") (hclears : Clears lib r cache answers node) :
    port = 0 := by
  cases hp : parseNodeId s with
  | none =>
    have herror : getYARNNode answers.pods = .error () := by
      rw [hpods, getYARNNode_cons hpod, hp]
    exact absurd hclears (not_clears_of_error herror)
  | some id =>
    obtain ⟨rfl, rfl⟩ := hid.unique (nodeId_of_parseNodeId hfits hp).1
    have hok : getYARNNode answers.pods = .ok (some ⟨id.1, id.2, clusterOf nmPod⟩) := by
      rw [hpods, getYARNNode_cons hpod, hp]
    exact ((clears_iff_of_ok hok).mp hclears).resolve_left hhost

end Comparison

/-- Ids are read exactly unless the port is an integer that an `int` holds and an `int32` does
not. -/
theorem parsesExactly_iff (s : String) :
    ParsesExactly s ↔
      ∀ host port, NodeId s host port → -2 ^ 63 ≤ port → port < 2 ^ 63 → FitsInt32 port := by
  constructor
  · intro h host port hid hlo hhi
    -- a pod with this annotation is accepted, so some port fits, and there is only one
    have hpod : NodeIdOf s ⟨fun _ => some s⟩ := rfl
    have hread : parseNodeId s = some (host, int32 port) :=
      parseNodeId_eq_some_iff.mpr ⟨port, hid, ⟨hlo, hhi⟩, rfl⟩
    obtain ⟨host', port', hid', hfits⟩ := (h.accepts _ [] hpod).mp
      ⟨_, (getYARNNode_eq_ok_iff hpod).mpr ⟨host, int32 port, hread, rfl⟩⟩
    rw [(hid.unique hid').2]
    exact hfits
  · intro h
    refine ⟨fun nmPod pods hpod => ?_, fun nmPod pods host port hpod hid hfits => ?_,
      fun nmPod pods hpod hnone => ?_, ?_⟩
    · constructor
      · rintro ⟨yarnNode, hok⟩
        obtain ⟨name, port, hp, -⟩ := (getYARNNode_eq_ok_iff hpod).mp hok
        exact ⟨name, port, nodeId_of_parseNodeId h hp⟩
      · rintro ⟨host, port, hid, hfits⟩
        exact ⟨_, (getYARNNode_eq_ok_iff hpod).mpr
          ⟨host, port, parseNodeId_of_fitsInt32 hid hfits, rfl⟩⟩
    · exact (getYARNNode_eq_ok_iff hpod).mpr ⟨host, port, parseNodeId_of_fitsInt32 hid hfits, rfl⟩
    · rw [getYARNNode_cons hpod]
      cases hp : parseNodeId s with
      | none => rfl
      | some id => exact absurd ⟨id.1, id.2, nodeId_of_parseNodeId h hp⟩ hnone
    · intro Client lib r cache answers node nmPod pods host port hpods hpod hid hhost hclears
      exact port_eq_zero_of_clears h hpods hpod hid hhost hclears

/-- The pod of a NodeManager with the port 2³². -/
def wrappedPod : Pod :=
  ⟨Function.update (fun _ => none) yarnNodeIdAnnotation (some "worker-1:4294967296")⟩

theorem nodeId_wrappedPod : NodeId "worker-1:4294967296" "worker-1" 4294967296 :=
  nodeId_iff.mpr ⟨"4294967296", by decide +kernel, parseInt_eq_some_iff.mp (by decide +kernel)⟩

/-- The port 2³² is read as 0, and the node is cleared for it. -/
theorem wrapped_port_clears :
    getYARNNode (some [wrappedPod]) = .ok (some ⟨"worker-1", 0, defaultClusterID⟩) ∧
    Clears plainLib ⟨none, ∅⟩ (fun _ => none)
      ⟨.found ⟨"worker-1", fun _ => none, ∅⟩, some [wrappedPod], some 0, true, true⟩
      ⟨"worker-1", fun _ => none, ∅⟩ ∧
    ¬ ParsesExactly "worker-1:4294967296" := by
  have hok : getYARNNode (some [wrappedPod]) = .ok (some ⟨"worker-1", 0, defaultClusterID⟩) := by
    decide +kernel
  have hclears : Clears plainLib ⟨none, ∅⟩ (fun _ => none)
      ⟨.found ⟨"worker-1", fun _ => none, ∅⟩, some [wrappedPod], some 0, true, true⟩
      ⟨"worker-1", fun _ => none, ∅⟩ := (clears_iff_of_ok hok).mpr (.inr rfl)
  refine ⟨hok, hclears, fun h => ?_⟩
  have hport := h.clears ℕ _ _ _ _ _ wrappedPod [] _ _ rfl rfl nodeId_wrappedPod (by decide) hclears
  exact absurd hport (by decide)

end YarnCopilot.NodeResource
