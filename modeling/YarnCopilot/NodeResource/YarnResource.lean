import YarnCopilot.Common.Format
import YarnCopilot.Common.MergePatch
import YarnCopilot.Common.Quantity
import YarnCopilot.Common.Word

/-!
# Resources in the annotations of a node

Reference: `pkg/controller/noderesource/yarn_resource.go`.

Two annotations carry resource lists as JSON: the batch resources of the node before other
allocators take their share, and the list of what those allocators hold. The libraries are
parameters: a codec for the second annotation, of which the reconciler is a writer, a decoder for
the first, and `ScaledValue`.
-/

namespace YarnCopilot.NodeResource

/-! ## Names -/

/-- `extension.BatchCPU`. -/
def batchCPU : String := "kubernetes.io/batch-cpu"

/-- `extension.BatchMemory`. -/
def batchMemory : String := "kubernetes.io/batch-memory"

/-- `YARNAllocationName`. -/
def yarnAllocationName : String := "hadoop-yarn"

/-- `YARNResourcePriority`, which is `extension.PriorityBatch`. -/
def yarnResourcePriority : String := "koord-batch"

/-- `NodeOriginExtendedAllocatableAnnotationKey`. -/
def nodeOriginExtendedAllocatableAnnotationKey : String :=
  "node.koordinator.sh/originExtendedAllocatable"

/-- `NodeThirdPartyAllocationsAnnotationKey`. -/
def nodeThirdPartyAllocationsAnnotationKey : String := "node.koordinator.sh/thirdPartyAllocations"

/-! ## What the annotations hold -/

/-- A map of annotations. -/
abbrev Annotations := String → Option String

/-- `OriginAllocatable`; the list is absent when the field is. -/
structure OriginAllocatable where
  resources : Option ResourceList
deriving DecidableEq

/-- `ThirdPartyAllocation`. -/
structure ThirdPartyAllocation where
  name : String
  priority : String
  resources : ResourceList
deriving DecidableEq

/-- `ThirdPartyAllocations`. -/
structure ThirdPartyAllocations where
  allocations : List ThirdPartyAllocation
deriving DecidableEq

/-- The library functions the file calls: `encoding/json` on the annotations, and
`Quantity.ScaledValue`, which rounds up. Its result is an `int64`; what it is for a value that does
not fit, or for a negative one, depends on how the amount is kept and is left open. -/
structure Library where
  thirdPartyAllocations : TextCodec ThirdPartyAllocations
  unmarshalOriginAllocatable : String → Option OriginAllocatable
  scaledValue : Quantity → ℕ → ℤ
  scaledValue_mem : ∀ q scale, -2 ^ 63 ≤ scaledValue q scale ∧ scaledValue q scale < 2 ^ 63
  scaledValue_eq : ∀ q scale, 0 ≤ q → q.ceil scale < 2 ^ 63 → scaledValue q scale = q.ceil scale

variable (lib : Library)

/-- `GetOriginExtendedAllocatable`: nothing when the annotation is absent, an error when it does not
parse. -/
def getOriginExtendedAllocatable (annotations : Annotations) :
    Except Unit (Option OriginAllocatable) :=
  match annotations nodeOriginExtendedAllocatableAnnotationKey with
  | none => .ok none
  | some text =>
    match lib.unmarshalOriginAllocatable text with
    | none => .error ()
    | some originAllocatable => .ok (some originAllocatable)

/-- `GetOriginExtendedAllocatableRes`. -/
def getOriginExtendedAllocatableRes (annotations : Annotations) :
    Except Unit (Option ResourceList) :=
  (getOriginExtendedAllocatable lib annotations).map fun o => o.bind OriginAllocatable.resources

/-- `GetThirdPartyAllocations`. -/
def getThirdPartyAllocations (annotations : Annotations) :
    Except Unit (Option ThirdPartyAllocations) :=
  match annotations nodeThirdPartyAllocationsAnnotationKey with
  | none => .ok none
  | some text =>
    match lib.thirdPartyAllocations.decode text with
    | none => .error ()
    | some object => .ok (some object)

/-- `GetThirdPartyAllocatedResByPriority`: the sum over the entries of the priority. -/
def getThirdPartyAllocatedResByPriority (annotations : Annotations) (priority : String) :
    Except Unit (Option ResourceList) :=
  (getThirdPartyAllocations lib annotations).map fun object => object.map fun allocations =>
    (allocations.allocations.filter fun alloc => alloc.priority = priority).foldl
      (fun result alloc => result.add alloc.resources) ∅

/-- `GetYARNAllocatedResource`: the resources of the first entry named after YARN. -/
def getYARNAllocatedResource (annotations : Annotations) : Except Unit (Option ResourceList) :=
  (getThirdPartyAllocations lib annotations).map fun object => object.bind fun allocations =>
    (allocations.allocations.find? fun alloc => alloc.name = yarnAllocationName).map
      ThirdPartyAllocation.resources

/-! ## Recording an allocation -/

/-- The old list `SetThirdPartyAllocation` starts from: an annotation that is absent or does not
parse counts as an empty one. -/
def oldAllocations (annotations : Annotations) : List ThirdPartyAllocation :=
  match getThirdPartyAllocations lib annotations with
  | .ok (some old) => old.allocations
  | _ => []

/-- Create or update an allocation: the loop of `SetThirdPartyAllocation` replaces the first entry
of the name, and one that found none appends. -/
def createOrUpdate (newAlloc : ThirdPartyAllocation) :
    List ThirdPartyAllocation → List ThirdPartyAllocation
  | [] => [newAlloc]
  | alloc :: allocs =>
    if alloc.name = newAlloc.name then newAlloc :: allocs
    else alloc :: createOrUpdate newAlloc allocs

/-- `SetThirdPartyAllocation` on a map that is not nil. -/
def setThirdPartyAllocation (annotations : Annotations) (newAlloc : ThirdPartyAllocation) :
    Annotations :=
  Function.update annotations nodeThirdPartyAllocationsAnnotationKey
    (some (lib.thirdPartyAllocations.encode
      ⟨createOrUpdate newAlloc (oldAllocations lib annotations)⟩))

/-- The list with the two batch resources. -/
def batchList (cpu memory : Quantity) : ResourceList :=
  (Finmap.singleton batchMemory memory).insert batchCPU cpu

/-- The resources `SetYARNAllocatedResource` records. The product for the cpu is one of `int32`. -/
def yarnAllocatedResources (vcores memoryMB : ℤ) : ResourceList :=
  batchList (.new (int32 (vcores * 1000))) (.newBinarySI (int64 (int64 (memoryMB * 1024) * 1024)))

/-- The entry `SetYARNAllocatedResource` records. -/
def yarnAllocation (vcores memoryMB : ℤ) : ThirdPartyAllocation :=
  ⟨yarnAllocationName, yarnResourcePriority, yarnAllocatedResources vcores memoryMB⟩

/-- `SetYARNAllocatedResource`. -/
def setYARNAllocatedResource (annotations : Annotations) (vcores memoryMB : ℤ) : Annotations :=
  setThirdPartyAllocation lib annotations (yarnAllocation vcores memoryMB)

/-- The two-way merge patch for setting an allocation on a copy of the annotations. -/
def thirdPartyPatch (copy : Annotations) (newAlloc : ThirdPartyAllocation) :
    MergePatch String String :=
  .diff copy (setThirdPartyAllocation lib copy newAlloc)

/-- `calculate`: the cores and the memory in MB that YARN is told. -/
def calculate (batchCPU batchMemory : Quantity) : ℤ × ℤ :=
  (lib.scaledValue batchCPU Quantity.kilo, lib.scaledValue batchMemory Quantity.mega)

/-! ## Lemmas -/

variable {lib} {annotations : Annotations} {newAlloc alloc : ThirdPartyAllocation}

theorem mem_createOrUpdate_self (newAlloc : ThirdPartyAllocation)
    (allocs : List ThirdPartyAllocation) : newAlloc ∈ createOrUpdate newAlloc allocs := by
  induction allocs with
  | nil => simp [createOrUpdate]
  | cons a as ih =>
    rw [createOrUpdate]
    split
    · exact List.mem_cons_self
    · exact List.mem_cons_of_mem _ ih

/-- The new entry is the first one of its name. -/
theorem find?_createOrUpdate (newAlloc : ThirdPartyAllocation)
    (allocs : List ThirdPartyAllocation) :
    (createOrUpdate newAlloc allocs).find? (fun alloc => alloc.name = newAlloc.name) =
      some newAlloc := by
  induction allocs with
  | nil => simp [createOrUpdate]
  | cons a as ih =>
    rw [createOrUpdate]
    split
    · simp
    · rename_i hne
      rw [List.find?_cons_of_neg (by simpa using hne), ih]

/-- The entries of other names stay. -/
theorem mem_createOrUpdate_of_mem {allocs : List ThirdPartyAllocation} (h : alloc ∈ allocs)
    (hname : alloc.name ≠ newAlloc.name) : alloc ∈ createOrUpdate newAlloc allocs := by
  induction allocs with
  | nil => cases h
  | cons a as ih =>
    rw [createOrUpdate]
    rcases List.mem_cons.mp h with rfl | h
    · rw [if_neg hname]
      exact List.mem_cons_self
    · split
      · exact List.mem_cons_of_mem _ h
      · exact List.mem_cons_of_mem _ (ih h)

@[simp] theorem setThirdPartyAllocation_key :
    setThirdPartyAllocation lib annotations newAlloc nodeThirdPartyAllocationsAnnotationKey =
      some (lib.thirdPartyAllocations.encode
        ⟨createOrUpdate newAlloc (oldAllocations lib annotations)⟩) := by
  simp [setThirdPartyAllocation]

theorem setThirdPartyAllocation_of_ne {key : String}
    (h : key ≠ nodeThirdPartyAllocationsAnnotationKey) :
    setThirdPartyAllocation lib annotations newAlloc key = annotations key :=
  Function.update_of_ne h _ _

/-- Only the one annotation matters for the old list. -/
theorem oldAllocations_congr {other : Annotations}
    (h : annotations nodeThirdPartyAllocationsAnnotationKey =
      other nodeThirdPartyAllocationsAnnotationKey) :
    oldAllocations lib annotations = oldAllocations lib other := by
  simp only [oldAllocations, getThirdPartyAllocations, h]

/-- An annotation that was encoded is read back. -/
theorem getThirdPartyAllocations_of_encode {l : ThirdPartyAllocations}
    (h : annotations nodeThirdPartyAllocationsAnnotationKey =
      some (lib.thirdPartyAllocations.encode l)) :
    getThirdPartyAllocations lib annotations = .ok (some l) := by
  simp only [getThirdPartyAllocations, h, TextCodec.decode_encode]

@[simp] theorem getThirdPartyAllocations_set :
    getThirdPartyAllocations lib (setThirdPartyAllocation lib annotations newAlloc) =
      .ok (some ⟨createOrUpdate newAlloc (oldAllocations lib annotations)⟩) :=
  getThirdPartyAllocations_of_encode setThirdPartyAllocation_key

/-- YARN's allocation is read back as it was recorded, whatever the annotation held before. -/
theorem getYARNAllocatedResource_setYARNAllocatedResource (vcores memoryMB : ℤ) :
    getYARNAllocatedResource lib (setYARNAllocatedResource lib annotations vcores memoryMB) =
      .ok (some (yarnAllocatedResources vcores memoryMB)) := by
  rw [getYARNAllocatedResource, setYARNAllocatedResource, getThirdPartyAllocations_set]
  have hfind := find?_createOrUpdate (yarnAllocation vcores memoryMB)
    (oldAllocations lib annotations)
  exact congrArg (fun found => Except.ok (Option.map ThirdPartyAllocation.resources found)) hfind

@[simp] theorem lookup_batchList_cpu (cpu memory : Quantity) :
    (batchList cpu memory).lookup batchCPU = some cpu :=
  Finmap.lookup_insert _

@[simp] theorem lookup_batchList_memory (cpu memory : Quantity) :
    (batchList cpu memory).lookup batchMemory = some memory := by
  rw [batchList, Finmap.lookup_insert_of_ne _ (by decide), Finmap.lookup_singleton_eq]

end YarnCopilot.NodeResource
