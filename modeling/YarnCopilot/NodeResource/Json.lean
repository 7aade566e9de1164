import YarnCopilot.Common.QuantityText
import YarnCopilot.NodeResource.YarnResource

/-!
# The annotations as JSON text

A concrete JSON for the annotations, in the layout `encoding/json` prints: no blanks, empty lists
and maps left out, the keys of a map in order, quantities as their quoted canonical texts. It reads
back what it prints. Characters other than the quotation mark and the backslash are not escaped.
-/

namespace YarnCopilot.NodeResource

open Format

/-- A quantity, in quotation marks. -/
def quantityFormat : Format Quantity := quoted.imap Quantity.text Quantity.read Quantity.read_text

/-! ## Lists of resources -/

/-- One resource of a list. -/
def resourceFormat : Format (Σ _ : String, Quantity) :=
  (quoted.seq ((lit ":").seq quantityFormat)).imap (fun e => (e.1, (), e.2))
    (fun p => some ⟨p.1, p.2.2⟩) fun _ => rfl

/-- The resources of a list that is not empty, up to the closing brace. -/
def resourcesFormat : Format ((Σ _ : String, Quantity) × List (Σ _ : String, Quantity)) :=
  resourceFormat.seq (resourceFormat.tail '\x7d' (by decide))

/-- The list of resources read as a map, in which a later entry replaces an earlier one. -/
def toResourceList (l : List (Σ _ : String, Quantity)) : ResourceList := l.reverse.toFinmap

theorem toResourceList_sortedEntries (l : ResourceList) : toResourceList (sortedEntries l) = l := by
  apply Finmap.ext_lookup
  intro r
  have hnodup : (sortedEntries l).reverse.NodupKeys :=
    (List.perm_nodupKeys (List.reverse_perm _)).mpr (nodupKeys_sortedEntries l)
  rw [toResourceList, Finmap.dlookup_list_toFinmap,
    List.perm_dlookup r hnodup (List.reverse_perm _), dlookup_sortedEntries]

/-! ## The two annotations -/

/-- An allocation. -/
def allocationFormat : Format ThirdPartyAllocation :=
  let resources := optionalList (lit "\x7d") (between ",\"resources\":\x7b" "\x7d" resourcesFormat)
    fun _ _ => rfl
  ((between "\x7b\"name\":" ",\"priority\":" quoted).seq (quoted.seq resources)).imap
    (fun a => (a.name, a.priority, sortedEntries a.resources))
    (fun p => some ⟨p.1, p.2.1, toResourceList p.2.2⟩)
    fun a => by rw [toResourceList_sortedEntries]

/-- The list of allocations. -/
def allocationsFormat : Format ThirdPartyAllocations :=
  (optionalList (lit "\x7b\x7d")
    (between "\x7b\"allocations\":[" "\x7d"
      (allocationFormat.seq (allocationFormat.tail ']' (by decide)))) fun _ _ => rfl).imap
    ThirdPartyAllocations.allocations (fun l => some ⟨l⟩) fun _ => rfl

/-- The origin resources as a list. -/
def originFormat : Format (List (Σ _ : String, Quantity)) :=
  optionalList (lit "\x7b\x7d") (between "\x7b\"resources\":\x7b" "\x7d" resourcesFormat)
    fun _ _ => rfl

/-- The concrete JSON, and a `ScaledValue` that keeps the low 64 bits. -/
def plainLib : Library where
  thirdPartyAllocations := allocationsFormat.toCodec
  unmarshalOriginAllocatable := fun text =>
    (originFormat.toCodec.decode text).map fun l =>
      if l = [] then ⟨none⟩ else ⟨some (toResourceList l)⟩
  scaledValue := fun q scale => int64 (q.ceil scale)
  scaledValue_mem := fun _ _ => int64_mem _
  scaledValue_eq := by
    intro q scale hq hfits
    have hnonneg := q.ceil_nonneg scale hq
    exact int64_of_mem (by omega) hfits

example : plainLib.thirdPartyAllocations.encode ⟨[yarnAllocation 4 4096]⟩ =
    "\x7b\"allocations\":[\x7b\"name\":\"hadoop-yarn\",\"priority\":\"koord-batch\",\"resources\":" ++
      "\x7b\"kubernetes.io/batch-cpu\":\"4k\",\"kubernetes.io/batch-memory\":\"4Gi\"\x7d\x7d]\x7d" := by
  decide +kernel

end YarnCopilot.NodeResource
