import YarnCopilot.Common.FileTree
import YarnCopilot.Common.Replace
import YarnCopilot.Config.YarnConfiguration

/-!
# The clusters of the configuration directory

Reference: `getAllKnownClusterID` of `pkg/yarn/client/factory.go`.

A cluster is known by a file `<id>.yarn-site.xml`. The factory walks the whole tree below the
configuration directory and cuts the suffix off by replacing it; a client of the id later opens
`<id>.yarn-site.xml` in the configuration directory itself. `discovery_agrees_iff` says for which
trees the two are inverse to each other.
-/

namespace YarnCopilot.Client

open Config

/-- The suffix of the site file of a cluster. -/
def siteSuffix : String := ".yarn-site.xml"

/-- The function that `getAllKnownClusterID` walks the tree with. -/
def addKnownClusterID (v : Visit Unit) : StateM (List String) Unit :=
  match v.file with
  | none => pure ()
  | some _ =>
    if hasSuffix v.name siteSuffix then modify (· ++ [replaceAllText v.name siteSuffix ""])
    else pure ()

/-- `getAllKnownClusterID`. For a directory that does not exist the function is called with a nil
entry, and panics. -/
def getAllKnownClusterID (configDir : Option (Entries Unit)) : Option (List String) :=
  configDir.map fun t => ((Entries.walk addKnownClusterID t).run []).2

/-- The required file that a client of the cluster opens, by its name in the configuration
directory. -/
def siteFile (clusterID : String) : String := configPrefix clusterID ++ "yarn-site.xml"

/-- The id that is discovered at an entry. -/
def discoveredAt (v : Visit Unit) : Option String :=
  match v.file with
  | none => none
  | some _ => if hasSuffix v.name siteSuffix then some (replaceAllText v.name siteSuffix "") else none

/-- Discovery and lookup agree: every id is not empty and its site file is the file it was
discovered at, and every site file in the directory itself has its id returned. -/
structure DiscoveryAgrees (t : Entries Unit) (ids : List String) : Prop where
  opens : ∀ v ∈ t.visits, ∀ id, discoveredAt v = some id → id ≠ "" ∧ v.path = [siteFile id]
  finds : ∀ id, id ≠ "" → ⟨[id ++ siteSuffix], some ()⟩ ∈ t.visits → id ∈ ids

/-- The entry is a site file. -/
def IsSiteFile (v : Visit Unit) : Prop := v.file.isSome ∧ hasSuffix v.name siteSuffix

/-! ## What the walk returns -/

theorem run_addKnownClusterID (v : Visit Unit) (ids : List String) :
    ((addKnownClusterID v).run ids).2 = ids ++ (discoveredAt v).toList := by
  unfold addKnownClusterID discoveredAt
  cases v.file with
  | none => exact (List.append_nil ids).symm
  | some _ =>
    dsimp only
    split
    · rfl
    · exact (List.append_nil ids).symm

/-- The ids in the order of the walk. -/
theorem getAllKnownClusterID_eq (t : Entries Unit) :
    getAllKnownClusterID (some t) = some (t.visits.filterMap discoveredAt) := by
  have hloop : ∀ (vs : List (Visit Unit)) (ids : List String),
      vs.foldl (fun ids v => ((addKnownClusterID v).run ids).2) ids =
        ids ++ vs.filterMap discoveredAt := by
    intro vs
    induction vs with
    | nil => simp
    | cons v vs ih =>
      intro ids
      rw [List.foldl_cons, ih, run_addKnownClusterID, List.append_assoc]
      cases hv : discoveredAt v <;> simp [hv]
  rw [getAllKnownClusterID, Option.map_some, Entries.run_walk, hloop, List.nil_append]

/-! ## Names -/

theorem hasSuffix_iff {s ending : String} :
    hasSuffix s ending ↔ ∃ start, s = start ++ ending := by
  rw [hasSuffix, List.isSuffixOf_iff_suffix]
  constructor
  · rintro ⟨start, hs⟩
    exact ⟨.ofList start, String.toList_inj.mp (by simpa using hs.symm)⟩
  · rintro ⟨start, rfl⟩
    exact ⟨start.toList, by simp⟩

/-- The suffix does not overlap with itself. -/
theorem borderless_siteSuffix : Borderless siteSuffix.toList := by
  intro t u hsplit ht hu hstart
  -- an end of the suffix is one of its thirteen proper ones
  have hdrop : u = siteSuffix.toList.drop t.length := by
    rw [hsplit, List.drop_left]
  have hlen := congrArg List.length hsplit
  rw [List.length_append, show siteSuffix.toList.length = 14 by decide] at hlen
  have htlen := List.length_pos_of_ne_nil ht
  have hulen := List.length_pos_of_ne_nil hu
  have hends : ∀ i < 14, 0 < i → ¬ siteSuffix.toList.drop i <+: siteSuffix.toList := by decide
  exact hends t.length (by omega) htlen (hdrop ▸ hstart)

/-- Replacing the suffix gives the id back exactly when the id does not hold it. -/
theorem replaceAllText_siteSuffix_iff (id : String) :
    replaceAllText (id ++ siteSuffix) siteSuffix "" = id ↔
      ¬ siteSuffix.toList <:+: id.toList := by
  rw [← replaceAll_append_self_iff (by decide) borderless_siteSuffix, replaceAllText,
    ← String.toList_inj]
  simp

/-- The site file of a cluster with an id. -/
theorem siteFile_eq {id : String} (h : id ≠ "") : siteFile id = id ++ siteSuffix := by
  rw [siteFile, configPrefix, if_pos h, String.append_assoc]
  rfl

/-- Without its site file a cluster cannot be configured. -/
theorem newYarnConfiguration_of_missing {files : String → ConfFile} {id : String}
    (h : files (siteFile id) = .missing) : newYarnConfiguration files id = none :=
  loadResources_of_missing ⟨"yarn-site.xml", true⟩ (by simp) rfl h _

/-! ## The comparison -/

variable {t : Entries Unit} {v : Visit Unit}

theorem discoveredAt_eq_some_iff {id : String} :
    discoveredAt v = some id ↔ IsSiteFile v ∧ replaceAllText v.name siteSuffix "" = id := by
  unfold discoveredAt IsSiteFile
  cases v.file with
  | none => simp
  | some _ =>
    dsimp only
    split
    · rename_i hsuffix
      simp [hsuffix]
    · rename_i hsuffix
      simp [hsuffix]

theorem name_of_path {name : String} (h : v.path = [name]) : v.name = name := by
  rw [Visit.name, h]
  rfl

/-- The ids that are returned are those discovered at the files of the tree. They agree with the
lookup exactly when every site file of the tree lies in the configuration directory itself, and is
named after an id that is not empty and does not hold the suffix. -/
theorem discovery_agrees_iff (t : Entries Unit) :
    ∃ ids, getAllKnownClusterID (some t) = some ids ∧
      (∀ id, id ∈ ids ↔ ∃ v ∈ t.visits, discoveredAt v = some id) ∧
      (DiscoveryAgrees t ids ↔ ∀ v ∈ t.visits, IsSiteFile v →
        ∃ id, v.path = [id ++ siteSuffix] ∧ id ≠ "" ∧ ¬ siteSuffix.toList <:+: id.toList) := by
  refine ⟨_, getAllKnownClusterID_eq t, fun id => List.mem_filterMap, ?_⟩
  constructor
  · rintro ⟨hopens, -⟩ v hv hsite
    obtain ⟨hne, hpath⟩ := hopens v hv _ (discoveredAt_eq_some_iff.mpr ⟨hsite, rfl⟩)
    rw [siteFile_eq hne] at hpath
    refine ⟨_, hpath, hne, (replaceAllText_siteSuffix_iff _).mp ?_⟩
    rw [← name_of_path hpath]
  · intro h
    have hread : ∀ v ∈ t.visits, ∀ id, v.path = [id ++ siteSuffix] → IsSiteFile v →
        replaceAllText v.name siteSuffix "" = id ∧ id ≠ "" := by
      intro v hv id hpath hsite
      obtain ⟨id', hpath', hne, hinfix⟩ := h v hv hsite
      obtain rfl : id = id' := by simpa [hpath] using hpath'
      rw [name_of_path hpath]
      exact ⟨(replaceAllText_siteSuffix_iff id).mpr hinfix, hne⟩
    constructor
    · intro v hv id hid
      obtain ⟨hsite, rfl⟩ := discoveredAt_eq_some_iff.mp hid
      obtain ⟨id, hpath, -⟩ := h v hv hsite
      obtain ⟨heq, hne⟩ := hread v hv id hpath hsite
      rw [heq, siteFile_eq hne]
      exact ⟨hne, hpath⟩
    · intro id hne hv
      have hsite : IsSiteFile ⟨[id ++ siteSuffix], some ()⟩ := ⟨rfl, hasSuffix_iff.mpr ⟨id, rfl⟩⟩
      refine List.mem_filterMap.mpr ⟨_, hv, discoveredAt_eq_some_iff.mpr ⟨hsite, ?_⟩⟩
      exact (hread _ hv id rfl hsite).1

/-! ## Three trees -/

/-- A tree with one file in the configuration directory. -/
def oneFile (name : String) : Entries Unit := .file name () .nil

/-- The site file of a cluster in a directory of the configuration directory. -/
def nestedFile : Entries Unit := .dir "archive" (oneFile "batch.yarn-site.xml") .nil

/-- The files of the configuration directory itself, all of them empty. -/
def filesOf (t : Entries Unit) (name : String) : ConfFile :=
  if ⟨[name], some ()⟩ ∈ t.visits then .parsed [] else .missing

/-- A site file in a directory gives an id that has no configuration, a file that is just the suffix
the empty id, and one with the suffix in its id the id of another cluster. -/
theorem discovery_disagrees :
    (getAllKnownClusterID (some nestedFile) = some ["batch"] ∧
      newYarnConfiguration (filesOf nestedFile) "batch" = none ∧
      ¬ DiscoveryAgrees nestedFile ["batch"]) ∧
    (getAllKnownClusterID (some (oneFile ".yarn-site.xml")) = some [""] ∧
      ¬ DiscoveryAgrees (oneFile ".yarn-site.xml") [""]) ∧
    (getAllKnownClusterID (some (oneFile "a.yarn-site.xml.yarn-site.xml")) = some ["a"] ∧
      ¬ DiscoveryAgrees (oneFile "a.yarn-site.xml.yarn-site.xml") ["a"]) := by
  refine ⟨⟨by decide +kernel, newYarnConfiguration_of_missing (by decide +kernel), fun h => ?_⟩,
    ⟨by decide +kernel, fun h => ?_⟩, ⟨by decide +kernel, fun h => ?_⟩⟩
  · have hpath := (h.opens ⟨["archive", "batch.yarn-site.xml"], some ()⟩ (by decide) "batch"
      (by decide +kernel)).2
    exact absurd hpath (by decide)
  · exact (h.opens ⟨[".yarn-site.xml"], some ()⟩ (by decide) "" (by decide +kernel)).1 rfl
  · have hpath := (h.opens ⟨["a.yarn-site.xml.yarn-site.xml"], some ()⟩ (by decide) "a"
      (by decide +kernel)).2
    exact absurd hpath (by decide)

end YarnCopilot.Client
