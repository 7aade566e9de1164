import YarnCopilot.Common.KeyedList
import YarnCopilot.Common.Run
import YarnCopilot.NodeResource.Json

/-!
# The recorded allocations as a map

What an allocator reads in the annotation is meant to be a map from the names of allocators to what
each of them set last. `SetThirdPartyAllocation` keeps it as a list inside a string; here a sequence
of calls is compared with the sequence of writes into the map.
-/

namespace YarnCopilot.NodeResource

open KeyedList

/-- What the allocator of the name set last. -/
def lastSet (sets : List ThirdPartyAllocation) (name : String) : Option ThirdPartyAllocation :=
  lastWrite ThirdPartyAllocation.name sets name

/-- What every allocator set last, in the order of their first calls. -/
def lastSets (sets : List ThirdPartyAllocation) : List ThirdPartyAllocation :=
  lastWrites ThirdPartyAllocation.name sets

/-- The quantities of a resource that the allocators of a priority set last. -/
def listed (sets : List ThirdPartyAllocation) (priority r : String) : List Quantity :=
  ((lastSets sets).filter fun alloc => alloc.priority = priority).filterMap fun alloc =>
    alloc.resources.lookup r

variable {lib : Library} {annotations : Annotations}

theorem createOrUpdate_eq_upsert (newAlloc : ThirdPartyAllocation) :
    ∀ allocs, createOrUpdate newAlloc allocs = upsert ThirdPartyAllocation.name newAlloc allocs
  | [] => rfl
  | alloc :: allocs => by
    rw [createOrUpdate, upsert, createOrUpdate_eq_upsert newAlloc allocs]

/-- One call is one write. -/
theorem oldAllocations_set (newAlloc : ThirdPartyAllocation) :
    oldAllocations lib (setThirdPartyAllocation lib annotations newAlloc) =
      upsert ThirdPartyAllocation.name newAlloc (oldAllocations lib annotations) := by
  rw [← createOrUpdate_eq_upsert]
  simp only [oldAllocations, getThirdPartyAllocations_set]

theorem oldAllocations_of_absent
    (h : annotations nodeThirdPartyAllocationsAnnotationKey = none) :
    oldAllocations lib annotations = [] := by
  simp only [oldAllocations, getThirdPartyAllocations, h]

/-- Any number of calls leave what the writes leave. -/
theorem oldAllocations_run (h : annotations nodeThirdPartyAllocationsAnnotationKey = none)
    (sets : List ThirdPartyAllocation) :
    oldAllocations lib (run (setThirdPartyAllocation lib) annotations sets) = lastSets sets := by
  rw [lastSets, ← foldl_upsert]
  induction sets using List.reverseRecOn with
  | nil => exact oldAllocations_of_absent h
  | append_singleton sets alloc ih =>
    rw [run_append, run_cons, run_nil, oldAllocations_set, ih, List.foldl_concat]

/-- The annotation after the calls; without a call there is none. -/
theorem getThirdPartyAllocations_run
    (h : annotations nodeThirdPartyAllocationsAnnotationKey = none)
    (sets : List ThirdPartyAllocation) :
    getThirdPartyAllocations lib (run (setThirdPartyAllocation lib) annotations sets) =
      .ok (if sets = [] then none else some ⟨lastSets sets⟩) := by
  rcases List.eq_nil_or_concat sets with rfl | ⟨sets, alloc, rfl⟩
  · simp only [getThirdPartyAllocations, run_nil, h, if_true]
  · rw [List.concat_eq_append]
    have hread : oldAllocations lib
        (run (setThirdPartyAllocation lib) annotations (sets ++ [alloc])) =
          lastSets (sets ++ [alloc]) := oldAllocations_run h _
    rw [run_append, run_cons, run_nil] at hread ⊢
    rw [oldAllocations_set, ← createOrUpdate_eq_upsert] at hread
    rw [getThirdPartyAllocations_set, hread, if_neg (by simp)]

/-- The other annotations are left alone. -/
theorem run_setThirdPartyAllocation_of_ne {key : String}
    (hkey : key ≠ nodeThirdPartyAllocationsAnnotationKey) (sets : List ThirdPartyAllocation) :
    run (setThirdPartyAllocation lib) annotations sets key = annotations key := by
  induction sets generalizing annotations with
  | nil => rfl
  | cons alloc sets ih => rw [run_cons, ih, setThirdPartyAllocation_of_ne hkey]

/-- The sum of what the allocators of a priority set last. -/
theorem getThirdPartyAllocatedResByPriority_run
    (h : annotations nodeThirdPartyAllocationsAnnotationKey = none)
    (sets : List ThirdPartyAllocation) (priority : String) :
    ∃ sum : ResourceList,
      getThirdPartyAllocatedResByPriority lib
        (run (setThirdPartyAllocation lib) annotations sets) priority =
          .ok (if sets = [] then none else some sum) ∧
      ∀ r, sum.lookup r = Quantity.total (listed sets priority r) := by
  refine ⟨((lastSets sets).filter fun alloc => alloc.priority = priority).foldl
    (fun sum alloc => sum.add alloc.resources) ∅, ?_, fun r => ?_⟩
  · rw [getThirdPartyAllocatedResByPriority, getThirdPartyAllocations_run h]
    split <;> rfl
  · rw [ResourceList.lookup_foldl_add, Finmap.lookup_empty]
    rfl

/-- The annotation refines the map: the names are listed once each in the order of their first
calls, under each of them stands what was set last, the sum for a priority is that of the names
whose last call had it, and nothing else in the annotations changes. -/
theorem setThirdPartyAllocation_refines_map
    (h : annotations nodeThirdPartyAllocationsAnnotationKey = none)
    (sets : List ThirdPartyAllocation) :
    getThirdPartyAllocations lib (run (setThirdPartyAllocation lib) annotations sets) =
      .ok (if sets = [] then none else some ⟨lastSets sets⟩) ∧
    (lastSets sets).map ThirdPartyAllocation.name =
      (sets.map ThirdPartyAllocation.name).eraseDups ∧
    ((lastSets sets).map ThirdPartyAllocation.name).Nodup ∧
    (∀ alloc, alloc ∈ lastSets sets ↔ lastSet sets alloc.name = some alloc) ∧
    (∀ priority, ∃ sum : ResourceList,
      getThirdPartyAllocatedResByPriority lib
        (run (setThirdPartyAllocation lib) annotations sets) priority =
          .ok (if sets = [] then none else some sum) ∧
      ∀ r, sum.lookup r = Quantity.total (listed sets priority r) ∧
        (sum.lookup r).map Quantity.nano = if listed sets priority r = [] then none
          else some ((listed sets priority r).map Quantity.nano).sum) ∧
    ∀ key, key ≠ nodeThirdPartyAllocationsAnnotationKey →
      run (setThirdPartyAllocation lib) annotations sets key = annotations key := by
  have hrep := represents_lastWrites ThirdPartyAllocation.name sets
  refine ⟨getThirdPartyAllocations_run h sets, hrep.keys, hrep.nodup, hrep.mem,
    fun priority => ?_, fun key hkey => run_setThirdPartyAllocation_of_ne hkey sets⟩
  obtain ⟨sum, hsum, hlookup⟩ := getThirdPartyAllocatedResByPriority_run h sets priority
  refine ⟨sum, hsum, fun r => ⟨hlookup r, ?_⟩⟩
  rw [hlookup, Quantity.nano_total]

/-- Two allocators, the second of them with a call between the two of the first. -/
def interleavedSets : List ThirdPartyAllocation :=
  [⟨"spark", "koord-batch", batchList (.new 1000) (.new 2048)⟩, yarnAllocation 2 4,
    ⟨"spark", "koord-mid", batchList (.new 500) (.new 1024)⟩]

theorem setThirdPartyAllocation_refines_map_interleaved :
    getThirdPartyAllocations plainLib
        (run (setThirdPartyAllocation plainLib) (fun _ => none) interleavedSets) =
      .ok (some ⟨[⟨"spark", "koord-mid", batchList (.new 500) (.new 1024)⟩,
        yarnAllocation 2 4]⟩) :=
  (setThirdPartyAllocation_refines_map rfl interleavedSets).1

end YarnCopilot.NodeResource
