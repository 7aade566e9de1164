import YarnCopilot.NodeResource.Json
import YarnCopilot.NodeResource.Reconcile

/-!
# The capacity YARN is told

The batch resources of a node are in milli-cores and bytes. `calculate` turns them into cores and
"MB" with `ScaledValue`, which rounds up and whose mega is 10⁶; on the way back a core is 1000
milli-cores and an MB 1024 · 1024 bytes. `reconcile_withinBatch_iff` says when what YARN is told,
and what is recorded once YARN uses all of it, stays within the node's batch resources.

Cores are an `int32` for YARN and are multiplied and narrowed as such. `exact_iff` says when the
numbers come through in both directions: the use of a node to its annotation, and what `calculate`
returns to the request.
-/

namespace YarnCopilot.NodeResource

open Cache

/-- The capacity of a request stays within the batch resources, and so does the allocation that is
recorded once all of it is used. -/
structure WithinBatch (cpu memory : Quantity) (request : UpdateNodeResourceRequest) : Prop where
  cpu_le : Quantity.new (1000 * request.virtualCores) ≤ cpu
  memory_le : Quantity.new (request.memory * 1024 * 1024) ≤ memory
  recorded_cpu_le : ∀ q ∈ (yarnAllocatedResources request.virtualCores request.memory).lookup
    batchCPU, q ≤ cpu
  recorded_memory_le : ∀ q ∈ (yarnAllocatedResources request.virtualCores request.memory).lookup
    batchMemory, q ≤ memory

/-- `ScaledValue` rounds the quantity up, as documented. -/
def Library.RoundsUp (lib : Library) (q : Quantity) (scale : ℕ) : Prop :=
  lib.scaledValue q scale = q.ceil scale

/-- A whole number of cores, or more cores than an `int32` holds. -/
def WholeCores (cpu : Quantity) : Prop :=
  (∃ cores, cpu.nano = (Quantity.new (1000 * cores)).nano) ∨ ¬ cpu ≤ .new (1000 * (2 ^ 31 - 1))

/-! ## The two conversions -/

variable {lib : Library} {cpu memory : Quantity}

/-- The memory that YARN is told is a multiple of 10⁶ bytes and counts as one of 2²⁰. -/
theorem memory_le_iff (hmemory : 0 ≤ memory) :
    Quantity.new (memory.ceil Quantity.mega * 1024 * 1024) ≤ memory ↔ memory = 0 := by
  have hup := memory.nano_le_ceil Quantity.mega
  rw [Quantity.le_def, Quantity.nano_zero] at hmemory
  rw [Quantity.eq_zero_iff]
  constructor
  · intro hle
    -- `m · 2²⁰` is at most the memory and `m · 10⁶` at least, so `m` is not positive
    simp only [Quantity.le_def, Quantity.new, Quantity.mega] at hle hup ⊢
    omega
  · intro hzero
    rw [Quantity.eq_zero_iff.mpr hzero]
    decide

/-- A multiple of 10¹² nano-units is a whole number of cores. -/
theorem dvd_nano_iff :
    10 ^ (Quantity.kilo + 9) ∣ cpu.nano ↔ ∃ cores, cpu.nano = (Quantity.new (1000 * cores)).nano := by
  constructor
  · rintro ⟨cores, hcores⟩
    refine ⟨cores, ?_⟩
    simp only [Quantity.kilo, Quantity.new] at hcores ⊢
    omega
  · rintro ⟨cores, hcores⟩
    refine ⟨cores, ?_⟩
    simp only [Quantity.kilo, Quantity.new] at hcores ⊢
    omega

/-- As many cores as an `int32` holds are told as they are. -/
theorem int32_ceil (hcpu : 0 ≤ cpu) (hsmall : cpu ≤ .new (1000 * (2 ^ 31 - 1))) :
    int32 (cpu.ceil Quantity.kilo) = cpu.ceil Quantity.kilo := by
  have hnonneg := cpu.ceil_nonneg Quantity.kilo hcpu
  have hlt := cpu.ceil_lt Quantity.kilo
  simp only [Quantity.le_def, Quantity.new, Quantity.kilo] at hsmall hlt
  refine int32_of_mem (by omega) ?_
  simp only [Quantity.kilo]
  omega

/-- The cores that YARN is told are rounded up, unless the conversion to `int32` wraps around. -/
theorem cpu_le_iff (hcpu : 0 ≤ cpu) :
    Quantity.new (1000 * int32 (cpu.ceil Quantity.kilo)) ≤ cpu ↔ WholeCores cpu := by
  by_cases hsmall : cpu ≤ .new (1000 * (2 ^ 31 - 1))
  · have hdvd := cpu.ceil_le_iff_dvd Quantity.kilo
    rw [dvd_nano_iff] at hdvd
    rw [int32_ceil hcpu hsmall, WholeCores, ← hdvd]
    simp only [hsmall, not_true_eq_false, or_false]
    simp only [Quantity.le_def, Quantity.new, Quantity.kilo]
    omega
  · -- whatever the truncation leaves, it is below the resources
    have hint := int32_lt (cpu.ceil Quantity.kilo)
    refine iff_of_true ?_ (.inr hsmall)
    simp only [Quantity.le_def, Quantity.new] at hsmall ⊢
    omega

/-- The record multiplies in `int32`. It never exceeds the capacity by that: a capacity that wrapped
around is below anything the batch resources can then be. -/
theorem recorded_cpu_le (hcpu : 0 ≤ cpu) (hwhole : WholeCores cpu) :
    Quantity.new (int32 (int32 (cpu.ceil Quantity.kilo) * 1000)) ≤ cpu := by
  have hle := (cpu_le_iff hcpu).mpr hwhole
  by_cases hsmall : cpu ≤ .new (1000 * (2 ^ 31 - 1))
  · rw [int32_ceil hcpu hsmall] at hle ⊢
    have hnonneg := cpu.ceil_nonneg Quantity.kilo hcpu
    have hself := int32_le_self (x := cpu.ceil Quantity.kilo * 1000) (by omega)
    simp only [Quantity.le_def, Quantity.new] at hle ⊢
    omega
  · have hint := int32_lt (int32 (cpu.ceil Quantity.kilo) * 1000)
    simp only [Quantity.le_def, Quantity.new] at hsmall ⊢
    omega

/-- The capacity `calculate` gives stays within the batch resources exactly when there is no memory
to give and the cores are whole. -/
theorem withinBatch_calculate_iff (hcores : lib.RoundsUp cpu Quantity.kilo)
    (hmega : lib.RoundsUp memory Quantity.mega) (hcpu : 0 ≤ cpu) (hmemory : 0 ≤ memory)
    (yarnNode : YarnNode) :
    WithinBatch cpu memory
        (updateRequest yarnNode (calculate lib cpu memory).1 (calculate lib cpu memory).2) ↔
      WholeCores cpu ∧ memory = 0 := by
  have hrequest : updateRequest yarnNode (calculate lib cpu memory).1 (calculate lib cpu memory).2 =
      ⟨yarnNode.name, yarnNode.port, memory.ceil Quantity.mega, int32 (cpu.ceil Quantity.kilo)⟩ := by
    rw [calculate, updateRequest, hcores, hmega]
  rw [hrequest]
  constructor
  · intro h
    exact ⟨(cpu_le_iff hcpu).mp h.cpu_le, (memory_le_iff hmemory).mp h.memory_le⟩
  · rintro ⟨hwhole, rfl⟩
    have hzero : (0 : Quantity).ceil Quantity.mega = 0 := rfl
    rw [hzero]
    refine ⟨(cpu_le_iff hcpu).mpr hwhole, Quantity.le_def.mpr le_rfl, ?_, ?_⟩
    · intro q hq
      rw [yarnAllocatedResources, lookup_batchList_cpu] at hq
      obtain rfl := Option.some.inj hq
      exact recorded_cpu_le hcpu hwhole
    · intro q hq
      rw [yarnAllocatedResources, lookup_batchList_memory] at hq
      obtain rfl := Option.some.inj hq
      exact Quantity.le_def.mpr le_rfl

/-! ## The request of a Reconcile -/

/-- Where `ScaledValue` rounds up as documented, the capacity a `Reconcile` sends to YARN stays
within the node's batch resources exactly when there is no batch memory and the batch cpu is a whole
number of cores, or more than an `int32` of them. -/
theorem reconcile_withinBatch_iff {Client : Type} (lib : Library) (r : Reconciler Client)
    (cache : NodeCache) (name : String) (answers : Answers Client) (node : Node)
    (cpu memory : Quantity) (client : Client) (request : UpdateNodeResourceRequest)
    (hnode : answers.node = .found node)
    (hbatch : getNodeBatchResource lib node = .ok (cpu, memory))
    (hcores : lib.RoundsUp cpu Quantity.kilo) (hmega : lib.RoundsUp memory Quantity.mega)
    (hcpu : 0 ≤ cpu) (hmemory : 0 ≤ memory)
    (hcall : .updateNodeResource client request ∈ (reconcile lib r cache name answers).calls) :
    WithinBatch cpu memory request ↔ WholeCores cpu ∧ memory = 0 := by
  obtain ⟨yarnNode, batch, hbatch', rfl⟩ := reconcile_request hnode hcall
  obtain rfl : (cpu, memory) = batch := by simpa [hbatch] using hbatch'
  exact withinBatch_calculate_iff hcores hmega hcpu hmemory yarnNode

/-! ## Exact numbers -/

/-- The annotations hold this use of a node, in milli-cores and bytes, under YARN's name. -/
def RecordsUse (lib : Library) (annotations : Annotations) (core mb : ℤ) : Prop :=
  getYARNAllocatedResource lib annotations =
    .ok (some (batchList (.new (1000 * core)) (.newBinarySI (mb * 1024 * 1024))))

/-- The milli-cores of the use fit an `int32`, and its bytes an `int64`. -/
def InRange (core mb : ℤ) : Prop :=
  -2147483 ≤ core ∧ core ≤ 2147483 ∧ -2 ^ 43 ≤ mb ∧ mb < 2 ^ 43

/-- The annotations hold this use of a node as far as it fits: a use in range to the unit, another
one up to multiples of 2³² milli-cores and 2⁶⁴ bytes. -/
def RecordsWrapped (lib : Library) (annotations : Annotations) (core mb : ℤ) : Prop :=
  ∃ milli bytes, getYARNAllocatedResource lib annotations =
      .ok (some (batchList (.new milli) (.newBinarySI bytes))) ∧
    2 ^ 32 ∣ milli - 1000 * core ∧ 2 ^ 64 ∣ bytes - mb * 1024 * 1024 ∧
    (InRange core mb → milli = 1000 * core ∧ bytes = mb * 1024 * 1024)

/-- The numbers come through: what YARN uses is read back from the annotation to the unit, and a
request carries what `calculate` returned. -/
structure Exact (lib : Library) (annotations : Annotations) (vcores memoryMB : ℤ)
    (cpu memory : Quantity) (request : UpdateNodeResourceRequest) : Prop where
  recorded : RecordsUse lib (setYARNAllocatedResource lib annotations vcores memoryMB) vcores memoryMB
  virtualCores : request.virtualCores = (calculate lib cpu memory).1
  memory : request.memory = (calculate lib cpu memory).2

theorem new_inj {x y : ℤ} : Quantity.new x = Quantity.new y ↔ x = y := by
  constructor
  · intro h
    have hnano := congrArg Quantity.nano h
    simp only [Quantity.new] at hnano
    omega
  · exact congrArg _

theorem newBinarySI_inj {x y : ℤ} : Quantity.newBinarySI x = Quantity.newBinarySI y ↔ x = y := by
  constructor
  · intro h
    have hnano := congrArg Quantity.nano h
    rw [Quantity.nano_newBinarySI, Quantity.nano_newBinarySI] at hnano
    omega
  · exact congrArg _

theorem batchList_inj {cpu cpu' memory memory' : Quantity} :
    batchList cpu memory = batchList cpu' memory' ↔ cpu = cpu' ∧ memory = memory' := by
  constructor
  · intro h
    have hcpu := congrArg (fun l : ResourceList => l.lookup batchCPU) h
    have hmemory := congrArg (fun l : ResourceList => l.lookup batchMemory) h
    simp only [lookup_batchList_cpu, lookup_batchList_memory, Option.some.injEq] at hcpu hmemory
    exact ⟨hcpu, hmemory⟩
  · rintro ⟨rfl, rfl⟩
    rfl

/-- A use that is set is read back as another exactly when that one is in range and the two differ
by a multiple of 2²⁹ cores and 2⁴⁴ MB, which is where the products wrap around. -/
theorem recordsUse_set_iff {annotations : Annotations} {vcores memoryMB core mb : ℤ} :
    RecordsUse lib (setYARNAllocatedResource lib annotations vcores memoryMB) core mb ↔
      InRange core mb ∧ 2 ^ 29 ∣ vcores - core ∧ 2 ^ 44 ∣ memoryMB - mb := by
  have hcpu : int32 (vcores * 1000) = 1000 * core ↔
      -2147483 ≤ core ∧ core ≤ 2147483 ∧ 2 ^ 29 ∣ vcores - core := by
    rw [int32_eq_iff]
    omega
  have hmemory : int64 (int64 (memoryMB * 1024) * 1024) = mb * 1024 * 1024 ↔
      -2 ^ 43 ≤ mb ∧ mb < 2 ^ 43 ∧ 2 ^ 44 ∣ memoryMB - mb := by
    rw [int64_int64_mul, int64_eq_iff]
    omega
  simp only [RecordsUse, getYARNAllocatedResource_setYARNAllocatedResource, Except.ok.injEq,
    Option.some.injEq, yarnAllocatedResources, batchList_inj, new_inj, newBinarySI_inj, hcpu,
    hmemory, InRange]
  tauto

/-- A use in range is read back as it was set. -/
theorem recordsUse_set {annotations : Annotations} {core mb : ℤ} (h : InRange core mb) :
    RecordsUse lib (setYARNAllocatedResource lib annotations core mb) core mb :=
  recordsUse_set_iff.mpr ⟨h, by simp, by simp⟩

/-- Any use is read back as it was set, up to the wrap-around. -/
theorem recordsWrapped_set (annotations : Annotations) (core mb : ℤ) :
    RecordsWrapped lib (setYARNAllocatedResource lib annotations core mb) core mb := by
  refine ⟨_, _, getYARNAllocatedResource_setYARNAllocatedResource core mb, ?_, ?_, fun h => ?_⟩
  · have hwrap := (@int32_eq_iff (core * 1000) _).mp rfl
    omega
  · have hwrap := (@int64_eq_iff (mb * 1024 * 1024) _).mp rfl
    rw [int64_int64_mul]
    omega
  · have hread : RecordsUse lib (setYARNAllocatedResource lib annotations core mb) core mb :=
      recordsUse_set h
    rw [RecordsUse, getYARNAllocatedResource_setYARNAllocatedResource] at hread
    simpa [yarnAllocatedResources, batchList_inj, new_inj, newBinarySI_inj] using hread

/-- The numbers come through in both directions exactly when the milli-cores that YARN uses and the
cores that `calculate` returned fit an `int32`. -/
theorem exact_iff {Client : Type} (lib : Library) (annotations : Annotations) (vcores memoryMB : ℤ)
    (cpu memory : Quantity) (r : Reconciler Client) (answers : Answers Client)
    (yarnNode : YarnNode) (client : Client) (request : UpdateNodeResourceRequest)
    (hvcores : 0 ≤ vcores) (hmemoryMB : 0 ≤ memoryMB)
    (hbytes : memoryMB * 1024 * 1024 < 2 ^ 63)
    (hcall : .updateNodeResource client request ∈
      (updateYARNNodeResource r answers yarnNode (calculate lib cpu memory).1
        (calculate lib cpu memory).2).2.2) :
    Exact lib annotations vcores memoryMB cpu memory request ↔
      vcores ≤ 2147483 ∧
        -2 ^ 31 ≤ (calculate lib cpu memory).1 ∧ (calculate lib cpu memory).1 ≤ 2 ^ 31 - 1 := by
  obtain rfl := updateYARNNodeResource_request hcall
  have hcores : (updateRequest yarnNode (calculate lib cpu memory).1
      (calculate lib cpu memory).2).virtualCores = (calculate lib cpu memory).1 ↔
        -2 ^ 31 ≤ (calculate lib cpu memory).1 ∧ (calculate lib cpu memory).1 < 2 ^ 31 :=
    int32_eq_self_iff
  have hrange : InRange vcores memoryMB ↔ vcores ≤ 2147483 := by
    rw [InRange]
    omega
  constructor
  · intro h
    have hfits := hcores.mp h.virtualCores
    exact ⟨hrange.mp (recordsUse_set_iff.mp h.recorded).1, hfits.1, by omega⟩
  · rintro ⟨hfits, hlo, hhi⟩
    exact ⟨recordsUse_set (hrange.mpr hfits), hcores.mpr ⟨hlo, by omega⟩, rfl⟩

/-! ## Nodes -/

/-- The pod of the NodeManager. -/
def nodeManagerPod : Pod :=
  ⟨Function.update (fun _ => none) yarnNodeIdAnnotation (some "worker-1:8041")⟩

/-- A node that reports batch resources in its status. -/
def statusNode (cpu memory : Quantity) : Node where
  name := "worker-1"
  annotations := fun _ => none
  allocatable := batchList cpu memory

/-- Every call succeeds; the client of the default cluster is `0`. -/
def calmAnswers (node : Node) : Answers ℕ :=
  ⟨.found node, some [nodeManagerPod], some 0, true, true⟩

/-- The reconciler of `Add`, with the client of the default cluster. -/
def addedReconciler : Reconciler ℕ := ⟨none, .singleton defaultClusterID 0⟩

theorem hasNodeManager_calmAnswers (node : Node) : HasNodeManager (calmAnswers node).pods
    ⟨"worker-1", 8041, defaultClusterID⟩ := by
  refine ⟨?_, by decide, by decide⟩
  change getYARNNode (some [nodeManagerPod]) = _
  decide +kernel

theorem getNodeBatchResource_statusNode (cpu memory : Quantity) :
    getNodeBatchResource plainLib (statusNode cpu memory) = .ok (cpu, memory) := by
  rw [getNodeBatchResource_of_absent rfl]
  simp [batchResources, statusNode]

/-- The request for the node `statusNode`. -/
theorem updateNodeResource_mem_calls (cpu memory : Quantity) :
    .updateNodeResource 0 (updateRequest ⟨"worker-1", 8041, defaultClusterID⟩
        (calculate plainLib cpu memory).1 (calculate plainLib cpu memory).2) ∈
      (reconcile plainLib addedReconciler (fun _ => none) "worker-1"
        (calmAnswers (statusNode cpu memory))).calls := by
  rw [reconcile_eq rfl (hasNodeManager_calmAnswers _) (getNodeBatchResource_statusNode cpu memory)
    (by decide) rfl rfl rfl]
  simp

/-- 1.5 cores and 1 GiB of batch resources: YARN is told 2 cores and 1074 MB. -/
theorem reconcile_overcommits :
    .updateNodeResource 0 ⟨"worker-1", 8041, 1074, 2⟩ ∈
      (reconcile plainLib addedReconciler (fun _ => none) "worker-1"
        (calmAnswers (statusNode (.new 1500) (.new (1024 * 1024 * 1024))))).calls ∧
      ¬ WithinBatch (.new 1500) (.new (1024 * 1024 * 1024)) ⟨"worker-1", 8041, 1074, 2⟩ := by
  refine ⟨updateNodeResource_mem_calls _ _, fun h => ?_⟩
  exact absurd h.cpu_le (by decide)

/-- 2 whole cores and no memory. -/
theorem reconcile_withinBatch_iff_two_cores :
    WithinBatch (.new 2000) 0 ⟨"worker-1", 8041, 0, 2⟩ := by
  have hcall := updateNodeResource_mem_calls (.new 2000) 0
  refine (reconcile_withinBatch_iff plainLib addedReconciler (fun _ => none) "worker-1"
    (calmAnswers (statusNode (.new 2000) 0)) (statusNode (.new 2000) 0) (.new 2000) 0 0 _ rfl
    (getNodeBatchResource_statusNode _ _) (plainLib.scaledValue_eq _ _ (by decide) (by decide))
    (plainLib.scaledValue_eq _ _ (by decide) (by decide)) (by decide) (by decide) hcall).mpr ?_
  exact ⟨.inl ⟨2, rfl⟩, rfl⟩

/-- The request of an update with the client of the default cluster. -/
theorem updateNodeResource_mem_update (vcores memoryMB : ℤ) (node : Node) :
    .updateNodeResource 0 (updateRequest ⟨"worker-1", 8041, defaultClusterID⟩ vcores memoryMB) ∈
      (updateYARNNodeResource addedReconciler (calmAnswers node)
        ⟨"worker-1", 8041, defaultClusterID⟩ vcores memoryMB).2.2 :=
  List.mem_singleton_self _

/-- YARN uses 2147484 cores: -2147483296 milli-cores are recorded. -/
theorem recorded_negative :
    getYARNAllocatedResource plainLib
        (setYARNAllocatedResource plainLib (fun _ => none) 2147484 1024) =
      .ok (some (batchList (.new (-2147483296)) (.newBinarySI (1024 * 1024 * 1024)))) ∧
    ∀ request, ¬ Exact plainLib (fun _ => none) 2147484 1024 (.new 2000) 0 request := by
  refine ⟨getYARNAllocatedResource_setYARNAllocatedResource 2147484 1024, fun request h => ?_⟩
  exact absurd (recordsUse_set_iff.mp h.recorded).1.2.1 (by decide)

/-- 2147483 cores used and 2147483647 told. -/
theorem exact_iff_largest :
    Exact plainLib (fun _ => none) 2147483 1024 (.new 2147483647000) 0
      ⟨"worker-1", 8041, 0, 2147483647⟩ :=
  (exact_iff plainLib (fun _ => none) 2147483 1024 (.new 2147483647000) 0 addedReconciler
    (calmAnswers (statusNode (.new 2147483647000) 0)) ⟨"worker-1", 8041, defaultClusterID⟩ 0 _
    (by decide) (by decide) (by decide)
    (updateNodeResource_mem_update _ _ _)).mpr ⟨by decide, by decide, by decide⟩

end YarnCopilot.NodeResource
