/-
Module: Papaia.Backup.RestoreScope
Purpose: What a restore point offers to restore, and what a selection of it needs, stops and may run
  as: the groups of a manifest, the selectors they allow, and the answer of the scoped restore.
Trusted boundary: Runtime (`str`, `repr`), `str.lower`, `str.capitalize`
Main exports: Artifact, readArtifacts, ScopeGroup, buildGroups, allowedSelectors,
  requiresFullRestore, selectedProfiles, selectedAddons, scopedRestore
-/
import Mathlib.Data.List.Dedup
import Papaia.Ingest.Minimise
import Papaia.Lib.Gather

namespace Papaia.Backup

open Text

structure ScopeRuntime extends Ingest.Runtime where
  /-- `str.lower`. -/
  lowerOf : String → String
  /-- `str.capitalize`. -/
  capitalise : String → String

/-! ### How modules and volumes are presented -/

structure Presentation where
  label : String
  summary : String
  advanced : Bool := false
  requiresConfig : Bool := false
  hazards : List String := []

def configSelector : String := "config"

def selfProfile : String := "manager"

def maxSelectors : Nat := 32

/-- `_MODULES`. -/
def modulePresentations : List (String × Presentation) :=
  [("keycloak",
      { label := "Keycloak"
        summary := "Logins, users and realm data"
        requiresConfig := true
        hazards :=
          ["The realm carries every service's client secret and is imported only on first " ++
              "start. Restoring the database on its own would leave those secrets out of step " ++
              "with the live configuration and no sign-in would work, this panel included, so " ++
              "the stack configuration is restored with it.",
            "Every active session ends. You will have to sign in again."] }),
    ("librechat",
      { label := "LibreChat"
        summary := "Conversations, uploads, search index and embeddings"
        hazards :=
          ["Conversations, the search index, the embeddings and the uploaded files " ++
              "reference each other by id. Restoring the whole module keeps them consistent; " ++
              "picking single volumes below can leave hits on deleted conversations, empty " ++
              "retrieval results, or file records with no file."] }),
    ("litellm",
      { label := "LiteLLM"
        summary := "Model routing, virtual keys and spend"
        hazards :=
          ["Every virtual key issued since the snapshot stops working. Their holders get " ++
              "401 until the keys are reissued."] }),
    ("localai",
      { label := "LocalAI"
        summary := "Local accounts and downloaded models"
        hazards :=
          ["Restoring the local account store can bring back accounts that were deleted " ++
              "since the snapshot."] }),
    ("searxng",
      { label := "SearXNG"
        summary := "Search settings and cache"
        advanced := true
        hazards :=
          ["The settings file itself is mounted over this volume from the configuration " ++
              "directory, so restoring it changes less than it looks like."] })]

/-- `_VOLUMES`: the label of a volume, and whether it is an advanced one. -/
def volumePresentations : List (String × String × Bool) :=
  [("keycloak-postgresql", "Users and realm", false),
    ("librechat-mongodb", "Conversations", false),
    ("librechat-meilisearch", "Search index", false),
    ("librechat-vectordb", "Embeddings", false),
    ("librechat-uploads", "Uploaded files", false),
    ("librechat-images", "Generated images", false),
    ("litellm-postgresql", "Keys, budgets and spend", false),
    ("localai-data", "Local accounts and generated data", false),
    ("localai-models", "Downloaded model weights", true),
    ("searxng_config", "Settings volume", true)]

/-- `_HIDDEN_VOLUMES`. -/
def hiddenVolumes : List String :=
  ["librechat-logs", "litellm-prometheus", "searxng_data"]

/-- `_CONFIG_PRESENTATION`. -/
def configPresentation : Presentation where
  label := "Stack configuration"
  summary :=
    "Environment files, rendered service configs, proxy database and certificates"
  requiresConfig := true
  hazards :=
    ["The configuration archive covers the whole bundle and cannot be unpacked in part, " ++
        "and every core service bind-mounts individual files out of it -- so all containers " ++
        "have to be removed and recreated for the restored files to be picked up.",
      "Because that includes this panel, the operation runs in its own container and this " ++
        "page is unreachable while it does."]

/-- `_volume_key`. -/
def volumeKey (target project : String) : String :=
  let start := project ++ "_"
  if project ≠ "" && startsWith target start then
    String.ofList (target.toList.drop start.length)
  else target

/-- `_title`. -/
def title (rt : ScopeRuntime) (name : String) : String :=
  let spaced := String.ofList (name.toList.map fun c => if c = '-' || c = '_' then ' ' else c)
  let titled := rt.capitalise (strip spaced)
  if titled = "" then name else titled

/-! ### The artifacts of a manifest -/

/-- One archive of a restore point, with the fields as the texts they are read as. -/
structure Artifact where
  kind : String
  module : String := ""
  owner : String := ""
  target : String := ""
  project : String := ""
  node : String := ""
  profiles : List String := []
deriving DecidableEq, Repr

/-- `owner.startswith("addon:")`. -/
def Artifact.isAddon (artifact : Artifact) : Bool :=
  startsWith artifact.owner "addon:"

/-- `_artifact_selector`; none where the source has an empty text. -/
def Artifact.selector (artifact : Artifact) : Option String :=
  if artifact.module = "" || artifact.kind = "configdir" then none
  else if artifact.isAddon then some ("addon:" ++ artifact.module)
  else some ("module:" ++ artifact.module)

/-- `str(raw.get(key, ""))`. -/
def textField (rt : Ingest.Runtime) (raw : Mapping) (key : String) : String :=
  match raw.get? key with
  | some value => rt.text value
  | none => ""

/-- The fields of an entry as `build_groups` reads them; none where the profiles of an artifact that is
grouped are nothing to iterate over. -/
def readArtifact (rt : Ingest.Runtime) (coreProject : String) (raw : Mapping) : Option Artifact :=
  let artifact : Artifact :=
    { kind := textField rt raw "kind"
      module := textField rt raw "module"
      owner := textField rt raw "owner"
      target := textField rt raw "target"
      project := rt.textOr coreProject (raw.getD "project")
      node := rt.textOr "" (raw.getD "node") }
  let profiles :=
    if (raw.getD "profiles").truthy then (raw.getD "profiles").iterate? else some []
  match profiles with
  | some items => some { artifact with profiles := (items.filter Val.truthy).map rt.text }
  | none => if artifact.selector = none then some artifact else none

/-- The entries of a manifest that are mappings; none where `build_groups` raises. -/
def readArtifacts (rt : Ingest.Runtime) (manifest : Mapping) : Option (List Artifact) :=
  let entries := manifest.getD "artifacts"
  let coreProject := rt.textOr "" (manifest.getD "core_project")
  if entries.truthy then
    entries.iterate?.bind fun items =>
      (items.filterMap Val.mapping?).mapM (readArtifact rt coreProject)
  else some []

/-- `sorted(set(texts))`. -/
def sortedSet (texts : List String) : List String :=
  texts.dedup.insertionSort (· ≤ ·)

@[simp] theorem mem_sortedSet {texts : List String} {text : String} :
    text ∈ sortedSet texts ↔ text ∈ texts := by
  simp [sortedSet]

/-! ### Groups -/

structure ScopeItem where
  selector : String
  label : String
  kind : String
  target : String
  advanced : Bool := false
deriving DecidableEq, Repr

structure ScopeGroup where
  selector : String
  kind : String
  name : String
  label : String
  summary : String
  profiles : List String := []
  hazards : List String := []
  advanced : Bool := false
  requiresConfig : Bool := false
  items : List ScopeItem := []
  archives : Nat := 0
deriving DecidableEq, Repr

def volumeSelector (target : String) : String :=
  "volume:" ++ target

/-- Whether an artifact is offered as a volume of its own. -/
def Artifact.isOffered (artifact : Artifact) : Bool :=
  artifact.selector.isSome && artifact.kind = "volume" &&
    volumeKey artifact.target artifact.project ∉ hiddenVolumes

/-- The key of the group an artifact counts for. -/
def groupKeyOf (artifact : Artifact) : Option String :=
  if artifact.kind = "configdir" then some configSelector else artifact.selector

/-- The presentation of a module; an add-on has none. -/
def presentationOf (artifact : Artifact) : Option Presentation :=
  if artifact.isAddon then none else modulePresentations.lookup artifact.module

/-- The group that is made for the first artifact of a key. -/
def freshGroup (rt : ScopeRuntime) (artifact : Artifact) : ScopeGroup :=
  match artifact.selector with
  | none =>
      { selector := configSelector
        kind := "config"
        name := configSelector
        label := configPresentation.label
        summary := configPresentation.summary
        hazards := configPresentation.hazards
        requiresConfig := true }
  | some selector =>
      let known := presentationOf artifact
      { selector := selector
        kind := if artifact.isAddon then "addon" else "module"
        name := artifact.module
        label := (known.map Presentation.label).getD (title rt artifact.module)
        summary := (known.map Presentation.summary).getD "Application data and documents"
        hazards := (known.map Presentation.hazards).getD []
        advanced := (known.map Presentation.advanced).getD false
        requiresConfig := (known.map Presentation.requiresConfig).getD false }

/-- The entry of a volume that is offered. -/
def volumeItem (rt : ScopeRuntime) (artifact : Artifact) : ScopeItem :=
  let key := volumeKey artifact.target artifact.project
  let known := volumePresentations.lookup key
  { selector := volumeSelector artifact.target
    label := (known.map Prod.fst).getD (title rt key)
    kind := artifact.kind
    target := artifact.target
    advanced := (known.map Prod.snd).getD false }

/-- A profile is listed once, in the order of its first appearance. -/
def addProfile (profiles : List String) (profile : String) : List String :=
  if profile ∈ profiles then profiles else profiles ++ [profile]

/-- What an artifact adds to its group. -/
def absorbArtifact (rt : ScopeRuntime) (group : ScopeGroup) (artifact : Artifact) : ScopeGroup :=
  { group with
    profiles :=
      if artifact.selector.isSome then artifact.profiles.foldl addProfile group.profiles
      else group.profiles
    archives := group.archives + 1
    items := if artifact.isOffered then group.items ++ [volumeItem rt artifact] else group.items }

/-- The groups of the configuration, the modules and the add-ons. -/
def artifactGroups (rt : ScopeRuntime) (artifacts : List Artifact) : List ScopeGroup :=
  Gather.gather groupKeyOf ScopeGroup.selector (freshGroup rt) (absorbArtifact rt) artifacts

/-- The node an artifact is found on, where it is not the manager's own. -/
def remoteNode (controller : String) (artifact : Artifact) : Option String :=
  if artifact.node = "" || artifact.node = controller then none else some artifact.node

/-- The names of the nodes, sorted. -/
def remoteNodes (controller : String) (artifacts : List Artifact) : List String :=
  sortedSet (artifacts.filterMap (remoteNode controller))

/-- The groups of the artifacts on one node. -/
def nodeMembers (controller : String) (artifacts : List Artifact) (groups : List ScopeGroup)
    (node : String) : List ScopeGroup :=
  ((artifacts.filter fun artifact => remoteNode controller artifact = some node).filterMap
    fun artifact => artifact.selector.bind fun selector =>
      groups.find? fun group => group.selector = selector).eraseDups

/-- `_node_groups`. -/
def nodeGroups (controller : String) (artifacts : List Artifact) (groups : List ScopeGroup) :
    List ScopeGroup :=
  (remoteNodes controller artifacts).map fun node =>
    let members := nodeMembers controller artifacts groups node
    { selector := "node:" ++ node
      kind := "node"
      name := node
      label := "Node " ++ node
      summary := "All data of this node. No other node is touched."
      profiles := sortedSet (members.flatMap ScopeGroup.profiles)
      hazards := (members.flatMap ScopeGroup.hazards).foldl addProfile []
      requiresConfig := members.any ScopeGroup.requiresConfig
      archives := (artifacts.filter fun artifact =>
        remoteNode controller artifact = some node).length }

def kindRank (kind : String) : Nat :=
  if kind = "config" then 0
  else if kind = "module" then 1
  else if kind = "addon" then 2
  else if kind = "node" then 3
  else 4

/-- The order the picker shows the groups in. -/
def ScopeGroup.before (rt : ScopeRuntime) (one two : ScopeGroup) : Prop :=
  kindRank one.kind < kindRank two.kind ∨
    (kindRank one.kind = kindRank two.kind ∧
      (one.advanced < two.advanced ∨
        (one.advanced = two.advanced ∧ rt.lowerOf one.label ≤ rt.lowerOf two.label)))

instance (rt : ScopeRuntime) : DecidableRel (ScopeGroup.before rt) :=
  fun _ _ => inferInstanceAs (Decidable (_ ∨ _))

/-- `build_groups`. -/
def buildGroups (rt : ScopeRuntime) (controller : String) (artifacts : List Artifact) :
    List ScopeGroup :=
  let groups := artifactGroups rt artifacts
  (groups ++ nodeGroups controller artifacts groups).insertionSort (ScopeGroup.before rt)

/-! ### What a selection means -/

/-- `has_selectable_groups`. -/
def hasSelectableGroups (groups : List ScopeGroup) : Bool :=
  groups.any fun group => group.kind = "module" || group.kind = "addon"

/-- `allowed_selectors`. -/
def allowedSelectors (groups : List ScopeGroup) : List String :=
  configSelector :: groups.flatMap fun group =>
    group.selector :: group.items.map ScopeItem.selector

/-- Whether a group or one of its items is chosen. -/
def ScopeGroup.isChosen (selected : List String) (group : ScopeGroup) : Bool :=
  group.selector ∈ selected || group.items.any fun item => item.selector ∈ selected

/-- `requires_full_restore`. -/
def requiresFullRestore (groups : List ScopeGroup) (selected : List String) : Bool :=
  configSelector ∈ selected ||
    groups.any fun group => group.requiresConfig && group.isChosen selected

/-- `selected_profiles`. -/
def selectedProfiles (groups : List ScopeGroup) (selected : List String) : List String :=
  let chosen := groups.filter fun group =>
    (group.kind = "module" || group.kind = "node") && group.isChosen selected
  sortedSet (chosen.flatMap ScopeGroup.profiles)

/-- `selected_addons`. -/
def selectedAddons (groups : List ScopeGroup) (selected : List String) : List String :=
  let chosen := groups.filter fun group => group.kind = "addon" && group.isChosen selected
  (chosen.map ScopeGroup.name).insertionSort (· ≤ ·)

/-! ### The scoped restore -/

/-- An answer other than the expected one. -/
structure HttpError where
  status : Nat
  detail : String
deriving DecidableEq, Repr

/-- A text a pattern with `$` matches may end with a line break. -/
def withoutLineBreak (text : String) : String :=
  if endsWith text "\n" then String.ofList text.toList.dropLast else text

/-- `_MODULE_SELECTOR_RE`. -/
def isModuleSelector (selector : String) : Bool :=
  let plain := fun c : Char => c.isLower || c.isDigit
  ["module:", "addon:", "node:"].any fun start =>
    startsWith selector start &&
      match (withoutLineBreak selector).toList.drop start.length with
      | [] => false
      | first :: rest => plain first && rest.length ≤ 31 && rest.all fun c => plain c || c == '-'

/-- `_VOLUME_SELECTOR_RE`. -/
def isVolumeSelector (selector : String) : Bool :=
  let plain := fun c : Char => c.isUpper || c.isLower || c.isDigit
  startsWith selector "volume:" &&
    match (withoutLineBreak selector).toList.drop "volume:".length with
    | [] => false
    | first :: rest =>
        plain first && rest.length ≤ 127 &&
          rest.all fun c => plain c || c == '_' || c == '.' || c == '-'

/-- What `selection_flag` says of one selector. -/
def selectorProblem (rt : ScopeRuntime) (allowed : List String) (selector : String) :
    Option String :=
  let named := "selector " ++ rt.repr (.str selector)
  if !(isModuleSelector selector || isVolumeSelector selector) then
    some (named ++ " is not module:NAME, addon:NAME or volume:NAME")
  else if selector = "module:" ++ selfProfile then
    some (named ++ " runs this panel and cannot be restored from it")
  else if selector ∉ allowed then some (named ++ " is not part of this restore point")
  else none

/-- `selection_flag`. -/
def selectionFlag (rt : ScopeRuntime) (selectors allowed : List String) : Except String String :=
  let ordered := sortedSet selectors
  if ordered = [] then .error "no selection given"
  else if maxSelectors < ordered.length then
    .error ("at most " ++ toString maxSelectors ++ " selectors, got " ++ toString ordered.length)
  else
    match ordered.findSome? (selectorProblem rt allowed) with
    | some problem => .error problem
    | none => .ok ("--only=" ++ joinWith "," ordered)

/-- What `start_scoped_restore` makes of the groups of a restore point and a selection: the flag of the
job, or a refusal. -/
def scopedRestore (rt : ScopeRuntime) (pointId : String) (groups : List ScopeGroup)
    (only : List String) : Except HttpError String :=
  if !hasSelectableGroups groups then
    .error
      { status := 409
        detail := "restore point " ++ pointId ++ " was written by an older core and carries no " ++
          "grouping, so it can only be restored as a whole" }
  else if requiresFullRestore groups only then
    .error
      { status := 409
        detail := "this selection needs the stack configuration and must run as a full restore; " ++
          "use POST /api/v1/maintenance/restore instead" }
  else
    match selectionFlag rt only (allowedSelectors groups) with
    | .error problem => .error { status := 400, detail := problem }
    | .ok flag => .ok flag

end Papaia.Backup
