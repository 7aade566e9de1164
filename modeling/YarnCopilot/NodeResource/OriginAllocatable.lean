import YarnCopilot.Common.Range
import YarnCopilot.NodeResource.Capacity

/-!
# The origin resources of a node

Reference: `pkg/controller/noderesource/yarn_resource.go`.

`SetOriginExtendedAllocatableRes` records the batch resources of a node in an annotation, which
`getNodeBatchResource` then reads in place of the status. The reader takes a list that is nil for an
annotation that is absent. The writer never has a nil list, but `encoding/json` leaves an empty one
out, so an empty list is read as no annotation.
-/

namespace YarnCopilot.NodeResource

/-! ## Recording the resources -/

/-- `json.Marshal` on `OriginAllocatable`: an empty list is left out, and one that is not is read
back. -/
structure OriginLibrary extends Library where
  marshalOriginAllocatable : OriginAllocatable → String
  unmarshal_nil : unmarshalOriginAllocatable (marshalOriginAllocatable ⟨none⟩) = some ⟨none⟩
  unmarshal_empty : unmarshalOriginAllocatable (marshalOriginAllocatable ⟨some ∅⟩) = some ⟨none⟩
  unmarshal_marshal : ∀ resources : ResourceList, resources ≠ ∅ →
    unmarshalOriginAllocatable (marshalOriginAllocatable ⟨some resources⟩) = some ⟨some resources⟩

section Set

variable (lib : OriginLibrary)

/-- The list `SetOriginExtendedAllocatableRes` starts from: an annotation that is absent or does not
parse counts as an empty one, and so does a nil list. -/
def oldResources (annotations : Annotations) : ResourceList :=
  match getOriginExtendedAllocatable lib.toLibrary annotations with
  | .ok (some old) => old.resources.getD ∅
  | _ => ∅

/-- `SetOriginExtendedAllocatableRes` on a map that is not nil. -/
def setOriginExtendedAllocatableRes (order : RangeOrder (Σ _ : String, Quantity))
    (annotations : Annotations) (extendedAllocatable : ResourceList) : Annotations :=
  let resources := insertAll (fun _ value => value)
    (order.visit (sortedEntries extendedAllocatable)) (oldResources lib annotations)
  Function.update annotations nodeOriginExtendedAllocatableAnnotationKey
    (some (lib.marshalOriginAllocatable ⟨some resources⟩))

end Set

/-! ## What is read back -/

section Read

variable {lib : OriginLibrary} {order : RangeOrder (Σ _ : String, Quantity)}
  {annotations : Annotations} {l : ResourceList}

theorem getOriginExtendedAllocatableRes_of_marshal {o read : OriginAllocatable}
    (hread : lib.unmarshalOriginAllocatable (lib.marshalOriginAllocatable o) = some read) :
    getOriginExtendedAllocatableRes lib.toLibrary
        (Function.update annotations nodeOriginExtendedAllocatableAnnotationKey
          (some (lib.marshalOriginAllocatable o))) = .ok read.resources := by
  simp only [getOriginExtendedAllocatableRes, getOriginExtendedAllocatable, Function.update_self,
    hread]
  rfl

/-- The list that is recorded is the old one, overridden by the new one. -/
theorem setOriginExtendedAllocatableRes_eq :
    setOriginExtendedAllocatableRes lib order annotations l =
      Function.update annotations nodeOriginExtendedAllocatableAnnotationKey
        (some (lib.marshalOriginAllocatable ⟨some (l ∪ oldResources lib annotations)⟩)) := by
  rw [setOriginExtendedAllocatableRes, insertAll_union (order.perm (sortedEntries l))]

/-- A list that is not empty is read in place of the status. -/
theorem getNodeBatchResource_of_set (h : l ∪ oldResources lib annotations ≠ ∅) {node : Node}
    (hnode : node.annotations = setOriginExtendedAllocatableRes lib order annotations l) :
    getNodeBatchResource lib.toLibrary node =
      .ok (batchResources (l ∪ oldResources lib annotations)) := by
  rw [getNodeBatchResource, hnode, setOriginExtendedAllocatableRes_eq,
    getOriginExtendedAllocatableRes_of_marshal (lib.unmarshal_marshal _ h)]

/-- An empty list is read as no annotation. -/
theorem getNodeBatchResource_of_set_empty (h : l ∪ oldResources lib annotations = ∅) {node : Node}
    (hnode : node.annotations = setOriginExtendedAllocatableRes lib order annotations l) :
    getNodeBatchResource lib.toLibrary node = .ok (batchResources node.allocatable) := by
  rw [getNodeBatchResource, hnode, setOriginExtendedAllocatableRes_eq, h,
    getOriginExtendedAllocatableRes_of_marshal lib.unmarshal_empty]

end Read

/-! ## The annotation and the status -/

/-- After `l` is recorded, the batch resources of the node are those of the old list overridden by
`l`, and no content of the status has a part in them. -/
structure OverridesStatus (lib : OriginLibrary) (order : RangeOrder (Σ _ : String, Quantity))
    (node : Node) (l : ResourceList) : Prop where
  union : getNodeBatchResource lib.toLibrary
    { node with annotations := setOriginExtendedAllocatableRes lib order node.annotations l } =
      .ok (batchResources (l ∪ oldResources lib node.annotations))
  status : ∀ allocatable₁ allocatable₂,
    getNodeBatchResource lib.toLibrary
      { node with
        annotations := setOriginExtendedAllocatableRes lib order node.annotations l
        allocatable := allocatable₁ } =
    getNodeBatchResource lib.toLibrary
      { node with
        annotations := setOriginExtendedAllocatableRes lib order node.annotations l
        allocatable := allocatable₂ }

/-- The annotation overrides the status exactly when the list it records is not empty. -/
theorem overridesStatus_iff (lib : OriginLibrary) (order : RangeOrder (Σ _ : String, Quantity))
    (node : Node) (l : ResourceList) :
    OverridesStatus lib order node l ↔ l ∪ oldResources lib node.annotations ≠ ∅ := by
  constructor
  · intro hover hempty
    have hstatus := hover.status ∅ (batchList (.new 1) 0)
    rw [getNodeBatchResource_of_set_empty hempty rfl,
      getNodeBatchResource_of_set_empty hempty rfl] at hstatus
    have hsame : batchResources ∅ = batchResources (batchList (.new 1) 0) := Except.ok.inj hstatus
    exact absurd hsame (by decide)
  · intro hne
    refine ⟨getNodeBatchResource_of_set hne rfl, fun allocatable₁ allocatable₂ => ?_⟩
    rw [getNodeBatchResource_of_set hne rfl, getNodeBatchResource_of_set hne rfl]

/-! ## A concrete JSON -/

/-- The concrete JSON, with the writer of the origin resources. -/
def plainOriginLib : OriginLibrary where
  toLibrary := plainLib
  marshalOriginAllocatable := fun o =>
    originFormat.toCodec.encode (sortedEntries (o.resources.getD ∅))
  unmarshal_nil := by
    have hempty : sortedEntries (∅ : ResourceList) = [] := rfl
    simp [plainLib, hempty]
  unmarshal_empty := by
    have hempty : sortedEntries (∅ : ResourceList) = [] := rfl
    simp [plainLib, hempty]
  unmarshal_marshal := by
    intro resources hne
    simp [plainLib, sortedEntries_eq_nil_iff, hne, toResourceList_sortedEntries]

/-- An empty list recorded on a node whose status has 1 core and 1 KiB. -/
theorem empty_origin_reads_status :
    getNodeBatchResource plainLib { statusNode (.new 1000) (.new 1024) with
      annotations := setOriginExtendedAllocatableRes plainOriginLib .listed (fun _ => none) ∅ } =
        .ok (.new 1000, .new 1024) ∧
      ¬ OverridesStatus plainOriginLib .listed (statusNode (.new 1000) (.new 1024)) ∅ := by
  have hempty : (∅ : ResourceList) ∪ oldResources plainOriginLib (fun _ => none) = ∅ := rfl
  have hread : getNodeBatchResource plainLib { statusNode (.new 1000) (.new 1024) with
      annotations := setOriginExtendedAllocatableRes plainOriginLib .listed (fun _ => none) ∅ } =
        .ok (.new 1000, .new 1024) := getNodeBatchResource_of_set_empty hempty rfl
  refine ⟨hread, fun hover => ?_⟩
  have hzero := hread.symm.trans hover.union
  exact absurd (Except.ok.inj hzero) (by decide)

end YarnCopilot.NodeResource
