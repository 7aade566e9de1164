import YarnCopilot.Common.Strings

/-!
# The YARN configuration

Reference: `pkg/yarn/config/configuration.go` and `pkg/yarn/config/yarn_configuration.go`.

A configuration is a map of properties, filled from the Hadoop XML files in order, so that a later
file overrides an earlier one. Reading a property never fails; reading a boolean one fails on text
that `strconv.ParseBool` does not know.
-/

namespace YarnCopilot.Config

/-- `strconv.ParseBool`. -/
def parseBool (s : String) : Option Bool :=
  if s ∈ ["1", "t", "T", "TRUE", "true", "True"] then some true
  else if s ∈ ["0", "f", "F", "FALSE", "false", "False"] then some false
  else none

/-! ## Loading -/

/-- What is found at the path of a configuration file: no file, one that cannot be opened, one that
can be opened and not be read, one that is not a configuration, or its properties. -/
inductive ConfFile
  | missing
  | unopened
  | unreadable
  | malformed
  | parsed (properties : List (String × String))
deriving DecidableEq, Repr

/-- `Resource`: a file name and whether it has to be possible to open the file. -/
structure Resource where
  name : String
  required : Bool
deriving DecidableEq, Repr

/-- The map of properties. -/
abbrev Configuration := String → Option String

/-- The loop of `NewConfigurationResources` over the resources. A file that is not required is
skipped if it cannot be opened, for whatever reason; any other failure fails the load. -/
def loadResources (files : String → ConfFile) (namePrefix : String) :
    List Resource → Configuration → Option Configuration
  | [], c => some c
  | resource :: resources, c =>
    match files (namePrefix ++ resource.name) with
    | .missing | .unopened =>
      if resource.required then none else loadResources files namePrefix resources c
    | .unreadable => none
    | .malformed => none
    | .parsed properties =>
      loadResources files namePrefix resources
        (properties.foldl (fun c kv => Function.update c kv.1 (some kv.2)) c)

/-- `configPrefix`: the files of a named cluster start with its id. -/
def configPrefix (clusterID : String) : String := if clusterID ≠ "" then clusterID ++ "." else ""

/-- `NewYarnConfiguration`: the core files, then the YARN files, of which only `yarn-site.xml` is
required. -/
def newYarnConfiguration (files : String → ConfFile) (clusterID : String) : Option Configuration :=
  loadResources files (configPrefix clusterID)
    [⟨"core-default.xml", false⟩, ⟨"core-site.xml", false⟩, ⟨"yarn-default.xml", false⟩,
      ⟨"yarn-site.xml", true⟩] (fun _ => none)

/-- A required file that is missing fails the load, whatever the other files are. -/
theorem loadResources_of_missing {files : String → ConfFile} {namePrefix : String}
    (resource : Resource) {resources : List Resource} (hmem : resource ∈ resources)
    (hrequired : resource.required = true)
    (hmissing : files (namePrefix ++ resource.name) = .missing) (c : Configuration) :
    loadResources files namePrefix resources c = none := by
  induction resources generalizing c with
  | nil => cases hmem
  | cons head resources ih =>
    rcases List.mem_cons.mp hmem with rfl | hmem
    · simp only [loadResources, hmissing, hrequired, if_true]
    · rw [loadResources]
      cases files (namePrefix ++ head.name) with
      | missing | unopened =>
        dsimp only
        split
        · rfl
        · exact ih hmem c
      | unreadable => rfl
      | malformed => rfl
      | parsed properties => exact ih hmem _

/-! ## Reading -/

/-- `Get`. -/
def Configuration.get (c : Configuration) (key defaultValue : String) : String :=
  (c key).getD defaultValue

/-- `GetBool`; `none` is the error of `strconv.ParseBool`. -/
def Configuration.getBool (c : Configuration) (key : String) (defaultValue : Bool) : Option Bool :=
  match c key with
  | none => some defaultValue
  | some value => parseBool value

/-- `RM_ADDRESS`. -/
def rmAddress : String := "yarn.resourcemanager.address"

/-- `RM_ADMIN_ADDRESS`. -/
def rmAdminAddress : String := "yarn.resourcemanager.admin.address"

/-- `DEFAULT_RM_ADDRESS`. -/
def defaultRMAddress : String := "0.0.0.0:8032"

/-- `DEFAULT_RM_ADMIN_ADDRESS`. -/
def defaultRMAdminAddress : String := "0.0.0.0:8033"

namespace Configuration

variable (c : Configuration)

/-- `GetRMAddress`. -/
def getRMAddress : String := c.get rmAddress defaultRMAddress

/-- `GetRMAdminAddress`. -/
def getRMAdminAddress : String := c.get rmAdminAddress defaultRMAdminAddress

/-- `GetRMEnabledHA`. -/
def getRMEnabledHA : Option Bool := c.getBool "yarn.resourcemanager.ha.enabled" false

/-- `GetRMs`: without the property there is one RM, with the empty id. -/
def getRMs : List String := splitOn ',' (c.get "yarn.resourcemanager.ha.rm-ids" "")

/-- `GetRMAdminAddressByID`. -/
def getRMAdminAddressByID (rmID : String) : String :=
  c.get (rmAdminAddress ++ "." ++ rmID) defaultRMAdminAddress

/-- `GetRMAddressByID`. -/
def getRMAddressByID (rmID : String) : String := c.get (rmAddress ++ "." ++ rmID) defaultRMAddress

end Configuration

end YarnCopilot.Config
