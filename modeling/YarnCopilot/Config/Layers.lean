import YarnCopilot.Common.KeyedList
import YarnCopilot.Common.Run
import YarnCopilot.Config.YarnConfiguration

/-!
# Layers of a configuration

Reference: `pkg/yarn/config/configuration.go` and `pkg/yarn/config/yarn_configuration.go`.

A configuration is filled from four files and can be written afterwards. `configuration_layers` says
what it holds then: of every property the last write, in the order of the files, of the properties
in each file, and of the calls of `Set` and `SetInt`.
-/

namespace YarnCopilot.Config

/-! ## Writing -/

/-- A call that writes a property. -/
inductive Setting
  | set (key value : String)
  | setInt (key : String) (value : ℤ)
deriving DecidableEq, Repr

namespace Setting

def key : Setting → String
  | set key _ => key
  | setInt key _ => key

/-- The text that is stored: `SetInt` writes decimal digits. -/
def text : Setting → String
  | set _ value => value
  | setInt _ value => toString value

/-- `Set` and `SetInt`. -/
def apply (c : Configuration) (s : Setting) : Configuration := Function.update c s.key (some s.text)

/-- The property that is written. -/
def write (s : Setting) : String × String := (s.key, s.text)

end Setting

/-- `GetInt`; `none` is the error of `strconv.Atoi`. -/
def Configuration.getInt (c : Configuration) (key : String) (defaultValue : ℤ) : Option ℤ :=
  match c key with
  | none => some defaultValue
  | some value => atoi value

/-! ## Layers -/

/-- The file can be opened. -/
def ConfFile.Opens (file : ConfFile) : Prop := file ≠ .missing ∧ file ≠ .unopened

/-- The file is a configuration. -/
def ConfFile.Parses (file : ConfFile) : Prop := ∃ properties, file = .parsed properties

/-- What a file says: nothing unless it is a configuration. -/
def ConfFile.properties : ConfFile → List (String × String)
  | .parsed properties => properties
  | _ => []

/-- The last value of every property. -/
def lastValues (writes : List (String × String)) : Configuration := fun key =>
  (KeyedList.lastWrite Prod.fst writes key).map Prod.snd

variable {files : String → ConfFile} {namePrefix : String}

/-- The properties of one more file. -/
theorem foldl_update_lastValues (writes properties : List (String × String)) :
    properties.foldl (fun (c : Configuration) kv => Function.update c kv.1 (some kv.2))
        (lastValues writes) =
      lastValues (writes ++ properties) := by
  funext key
  rw [KeyedList.foldl_update, lastValues, lastValues, KeyedList.lastWrite_append, Option.map_or]

/-- The loop gets through the files if each is a configuration, or is not required and cannot be
opened, and adds what they say one after the other. -/
theorem loadResources_eq_some_iff (resources : List Resource) (writes : List (String × String))
    {c : Configuration} :
    loadResources files namePrefix resources (lastValues writes) = some c ↔
      (∀ r ∈ resources, (files (namePrefix ++ r.name)).Parses ∨
        r.required = false ∧ ¬ (files (namePrefix ++ r.name)).Opens) ∧
      lastValues (writes ++ resources.flatMap fun r => (files (namePrefix ++ r.name)).properties) =
        c := by
  induction resources generalizing writes with
  | nil => simp [loadResources]
  | cons r resources ih =>
    rw [loadResources, List.forall_mem_cons, List.flatMap_cons, ← List.append_assoc]
    cases hfile : files (namePrefix ++ r.name) with
    | missing | unopened =>
      cases r.required <;>
        simp [ih, ConfFile.Parses, ConfFile.Opens, ConfFile.properties]
    | unreadable | malformed => simp [ConfFile.Parses, ConfFile.Opens]
    | parsed properties =>
      simp [foldl_update_lastValues, ih, ConfFile.Parses, ConfFile.properties]

/-- A property that was written has its last value, another one is as before. -/
theorem run_apply (c : Configuration) (settings : List Setting) (key : String) :
    run Setting.apply c settings key =
      ((KeyedList.lastWrite Setting.key settings key).map Setting.text).or (c key) := by
  have hrun : run Setting.apply c settings =
      (settings.map Setting.write).foldl
        (fun (c : Configuration) w => Function.update c w.1 (some w.2)) c := by
    rw [List.foldl_map]
    rfl
  rw [hrun, KeyedList.foldl_update, KeyedList.lastWrite_map, Option.map_map]
  rfl

/-- Writes come behind the files. -/
theorem run_apply_lastValues (writes : List (String × String)) (settings : List Setting) :
    run Setting.apply (lastValues writes) settings =
      lastValues (writes ++ settings.map Setting.write) := by
  funext key
  rw [run_apply, lastValues, lastValues, KeyedList.lastWrite_append, Option.map_or,
    KeyedList.lastWrite_map, Option.map_map]
  rfl

/-- **Layers.** A YARN configuration loads exactly when `yarn-site.xml` is a configuration and each
of the other three files that can be opened is one. It then holds, after any writes, the last value
of every property: a write overrides the site file of YARN, this the defaults of YARN, these the
site file of the core, and this the defaults of the core. -/
theorem configuration_layers (files : String → ConfFile) (clusterID : String)
    (settings : List Setting) (c : Configuration) :
    (newYarnConfiguration files clusterID).map (fun c => run Setting.apply c settings) = some c ↔
      (files (configPrefix clusterID ++ "yarn-site.xml")).Parses ∧
      (∀ name ∈ ["core-default.xml", "core-site.xml", "yarn-default.xml"],
        (files (configPrefix clusterID ++ name)).Opens →
          (files (configPrefix clusterID ++ name)).Parses) ∧
      lastValues ((files (configPrefix clusterID ++ "core-default.xml")).properties ++
        (files (configPrefix clusterID ++ "core-site.xml")).properties ++
        (files (configPrefix clusterID ++ "yarn-default.xml")).properties ++
        (files (configPrefix clusterID ++ "yarn-site.xml")).properties ++
        settings.map Setting.write) = c := by
  have hempty : (fun _ => none : Configuration) = lastValues [] := rfl
  rw [newYarnConfiguration, hempty, Option.map_eq_some_iff]
  simp only [loadResources_eq_some_iff, List.forall_mem_cons, List.not_mem_nil, false_implies,
    implies_true, and_true, Bool.true_eq_false, false_and, or_false, true_and, List.flatMap_cons,
    List.flatMap_nil, List.nil_append, List.append_nil, ← List.append_assoc]
  constructor
  · rintro ⟨_, ⟨⟨hcore, hcoreSite, hyarn, hsite⟩, rfl⟩, rfl⟩
    refine ⟨hsite, ⟨?_, ?_, ?_⟩, (run_apply_lastValues _ _).symm⟩
    · exact fun h => hcore.resolve_right (not_not_intro h)
    · exact fun h => hcoreSite.resolve_right (not_not_intro h)
    · exact fun h => hyarn.resolve_right (not_not_intro h)
  · rintro ⟨hsite, ⟨hcore, hcoreSite, hyarn⟩, rfl⟩
    refine ⟨_, ⟨⟨?_, ?_, ?_, hsite⟩, rfl⟩, run_apply_lastValues _ _⟩
    · exact or_iff_not_imp_right.mpr fun h => hcore (not_not.mp h)
    · exact or_iff_not_imp_right.mpr fun h => hcoreSite (not_not.mp h)
    · exact or_iff_not_imp_right.mpr fun h => hyarn (not_not.mp h)

/-- A number that is the last to be written for its key reads back as it is, whatever the files
say. -/
theorem getInt_run_apply (c : Configuration) {settings : List Setting} {key : String} {value : ℤ}
    (hlo : -2 ^ 63 ≤ value) (hhi : value < 2 ^ 63)
    (hlast : KeyedList.lastWrite Setting.key settings key = some (.setInt key value))
    (defaultValue : ℤ) :
    (run Setting.apply c settings).getInt key defaultValue = some value := by
  have htext : run Setting.apply c settings key = some (toString value) := by
    rw [run_apply, hlast, Option.map_some, Option.some_or, Setting.text]
  rw [Configuration.getInt, htext]
  refine atoi_eq_some_iff.mpr ⟨parseInt_eq_some_iff.mp (parseInt_repr value), hlo, hhi⟩

/-- The last of three writes to a property. -/
theorem getInt_run_apply_port :
    (run Setting.apply (fun _ => some "text")
      [.setInt "port" 1, .set "port" "", .setInt "port" (-2), .setInt "other" 3]).getInt "port" 0 =
        some (-2) :=
  getInt_run_apply _ (by decide) (by decide) (by decide) 0

end YarnCopilot.Config
