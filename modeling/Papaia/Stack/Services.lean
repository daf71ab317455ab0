/-
Module: Papaia.Stack.Services
Purpose: The services page: what `docker ps` reports, what the deployment declares, and the snapshot
  that merges the two by Compose project.
Trusted boundary: the Compose files as the YAML library reads them, the entries of the manifest
Main exports: parseLine, parsePsOutput, ExpectedService, coreInventory, addonInventory, mergeExpected,
  addonProjects, buildSnapshot
-/
import Mathlib.Algebra.GroupWithZero.Nat
import Papaia.Config.Modules
import Papaia.Lib.Grouped

namespace Papaia.Stack.Services

open Text Addons Config.Modules

/-! ### Containers and modules -/

inductive Health where
  | missing
  | stopped
  | unhealthy
  | starting
  | unknown
  | completed
  | healthy
deriving DecidableEq, Repr

/-- `_SEVERITY`. -/
def Health.severity : Health → Nat
  | missing => 0
  | stopped => 1
  | unhealthy => 2
  | starting => 3
  | unknown => 4
  | completed => 5
  | healthy => 6

/-- The more severe of two. -/
def Health.worse (a b : Health) : Health :=
  if b.severity < a.severity then b else a

/-- `worst`. -/
def worst (values : List Health) : Health :=
  match values, values.filter (· ≠ .completed) with
  | [], _ => .unknown
  | _, [] => .completed
  | _, first :: rest => rest.foldl Health.worse first

structure Container where
  name : String
  service : String
  role : String
  state : String
  statusText : String
  ports : List String := []
  health : Health := .unknown
deriving DecidableEq, Repr

def Container.sortKey (container : Container) : String :=
  if container.name = "" then container.service else container.name

structure Module where
  name : String
  containers : List Container := []
  profiles : List String := []
  addon : String := ""
deriving DecidableEq, Repr

def Module.health (module : Module) : Health :=
  worst (module.containers.map Container.health)

/-- The order of `_worst_first`. -/
def comesFirst (a b : Module) : Prop :=
  a.health.severity < b.health.severity ∨ (a.health = b.health ∧ a.name ≤ b.name)

instance : DecidableRel comesFirst := fun a b =>
  inferInstanceAs (Decidable (a.health.severity < b.health.severity ∨ (a.health = b.health ∧ a.name ≤ b.name)))

/-- `_worst_first`. -/
def worstFirst (modules : List Module) : List Module :=
  modules.insertionSort comesFirst

/-! ### What Docker reports -/

/-- `_EXIT_CODE_RE`, the group. -/
def exitCode (statusText : String) : Option String :=
  let start := "Exited (".toList
  if start.isPrefixOf statusText.toList then
    let rest := statusText.toList.drop start.length
    let digits := rest.takeWhile fun c => (decimalOf c).isSome
    if digits ≠ [] ∧ (rest.drop digits.length).head? = some ')' then some (String.ofList digits)
    else none
  else none

/-- `derive_health`. -/
def deriveHealth (state statusText : String) : Health :=
  if state = "running" then
    if contains statusText "(unhealthy)" then .unhealthy
    else if contains statusText "(health: starting)" then .starting
    else .healthy
  else if state = "created" then .starting
  else if state = "restarting" then .unhealthy
  else if state = "exited" then
    if exitCode statusText = some "0" then .completed else .stopped
  else if state = "paused" ∨ state = "dead" ∨ state = "removing" then .stopped
  else .unknown

/-- What `_HOST_PORT_RE` finds. -/
def hostPorts : List Char → List String
  | [] => []
  | c :: rest =>
      let digits := rest.takeWhile fun c => (decimalOf c).isSome
      if c = ':' ∧ digits ≠ [] ∧ "->".toList.isPrefixOf (rest.drop digits.length) then
        String.ofList digits :: hostPorts rest
      else hostPorts rest

/-- `_parse_ports`. -/
def parsePorts (raw : String) : List String :=
  (hostPorts raw.toList).eraseDups

/-- `module_display_name`. -/
def moduleDisplayName (label : String) : String :=
  if label = "" then "other"
  else if startsWith label "papaia-" then String.ofList (label.toList.drop 7)
  else label

/-- A container with its project and its module. -/
structure Entry where
  project : String
  module : String
  container : Container
deriving DecidableEq, Repr

/-- `parse_ps_line`. -/
def parsePsLine (line : String) : Option Entry :=
  match (line.toList.splitOn '\t').map fun part => strip (String.ofList part) with
  | [name, state, statusText, project, service, module, role, ports] =>
      if name = "" then none
      else
        some
          { project
            module := moduleDisplayName module
            container :=
              { name
                service := if service = "" then name else service
                role
                state
                statusText
                ports := parsePorts ports
                health := deriveHealth state statusText } }
  | _ => none

/-- The containers of the output, line by line. -/
def entriesOf (output : String) : List Entry :=
  ((splitLines output).filter fun line => strip line ≠ "").filterMap parsePsLine

/-- A container is put into the module of a name, which is new where there is none. -/
def intoModule (name : String) (container : Container) : List Module → List Module
  | [] => [{ name, containers := [container] }]
  | module :: rest =>
      if module.name = name then
        { module with containers := module.containers ++ [container] } :: rest
      else module :: intoModule name container rest

/-- `parse_ps_output`. -/
def parsePsOutput (output : String) : List (String × List Module) :=
  ((entriesOf output).foldl (fun grouped entry =>
    Grouped.change entry.project [] (intoModule entry.module entry.container) grouped) []).map
      fun (project, modules) => (project, worstFirst modules)

/-! ### What the deployment declares -/

/-- A service of a Compose file: its two labels, empty where they are not there, and its profiles. -/
structure ComposeService where
  service : String
  moduleLabel : String
  roleLabel : String
  profiles : List String
deriving DecidableEq, Repr

structure ExpectedService where
  service : String
  module : String
  role : String
  profiles : List String
deriving DecidableEq, Repr

/-- `_expected`. -/
def expectedOf (fallbackModule : String) (body : ComposeService) : ExpectedService where
  service := body.service
  module := if body.moduleLabel = "" then fallbackModule else moduleDisplayName body.moduleLabel
  role := body.roleLabel
  profiles := body.profiles

/-- `core_inventory`, over the fragments that the core's Compose file includes. -/
def coreInventory (fragments : List (List ComposeService)) (profiles : List String) :
    List ExpectedService :=
  (fragments.flatMap fun services => services.filter fun body =>
    body.profiles = [] ∨ ∃ profile ∈ body.profiles, profile ∈ profiles).map (expectedOf "other")

/-- `addon_inventory`. -/
def addonInventory (services : List ComposeService) (fallbackModule : String) :
    List ExpectedService :=
  services.map (expectedOf fallbackModule)

/-- A path as `pathlib` takes it apart. -/
structure FsPath where
  absolute : Bool
  parts : List String
deriving DecidableEq, Repr

def FsPath.of (raw : String) : FsPath where
  absolute := startsWith raw "/"
  parts := ((raw.toList.splitOn '/').map String.ofList).filter fun part => part ≠ "" ∧ part ≠ "."

/-- `path.name`. -/
def FsPath.name (path : FsPath) : String :=
  path.parts.getLast?.getD ""

/-- `base / path`. -/
def FsPath.join (base path : FsPath) : FsPath :=
  if path.absolute then path else { base with parts := base.parts ++ path.parts }

/-- An entry of the manifest's `addons`. -/
structure AddonEntry where
  name : String
  active : Bool
  path : String
deriving DecidableEq, Repr

/-- The declared state: the core's `.env` and fragments, the manifest, and the services of the Compose
file in a directory. -/
structure Deployment where
  env : Env
  fragments : List (List ComposeService)
  addons : List AddonEntry
  workspace : String
  compose : FsPath → List ComposeService

/-- `compose_project`. -/
def composeProject (env : Env) : String :=
  match env.get? "COMPOSE_PROJECT_NAME" with
  | none | some "" => "papaia"
  | some project => project

/-- `deployment_addons_by_name`: the last entry of each name, in the order the names are met. -/
def addonsByName (addons : List AddonEntry) : List (String × AddonEntry) :=
  ((addons.filter (·.name ≠ "")).map fun entry => (entry.name, entry)).foldl
    (fun byName item => Grouped.change item.1 item.2 (fun _ => item.2) byName) []

/-- The active add-ons, each with its Compose project and its declared services. -/
def activeAddons (deployment : Deployment) : List (String × List ExpectedService) :=
  ((addonsByName deployment.addons).filter fun (_, entry) => entry.active && entry.path ≠ "").map
    fun (name, entry) =>
      let path := (FsPath.of deployment.workspace).join (.of entry.path)
      (path.name, addonInventory (deployment.compose path) name)

/-- `addon_projects`: of two add-ons with one project, the later one. -/
def addonProjects (deployment : Deployment) : List (String × List ExpectedService) :=
  (activeAddons deployment).foldl
    (fun projects item => Grouped.change item.1 [] (fun _ => item.2) projects) []

/-! ### The merge -/

/-- What stands for a declared service that has no container. -/
def placeholder (item : ExpectedService) : Container where
  name := ""
  service := item.service
  role := item.role
  state := "missing"
  statusText := "not deployed"
  health := .missing

/-- The services that have a container. -/
def seenServices (modules : List Module) : List String :=
  modules.flatMap fun module => module.containers.map Container.service

/-- The profiles that the services of a module declare, sorted. -/
def profilesOf (expected : List ExpectedService) (name : String) : List String :=
  (((expected.filter (·.module = name)).flatMap ExpectedService.profiles).dedup).insertionSort (· ≤ ·)

/-- One declared service is looked at. -/
def declare (seen : List String) (modules : List Module) (item : ExpectedService) : List Module :=
  if item.service ∈ seen then modules else intoModule item.module (placeholder item) modules

/-- A module as the page shows it. -/
def finish (expected : List ExpectedService) (addon : String) (module : Module) : Module :=
  { module with
    containers := module.containers.insertionSort fun a b => a.sortKey ≤ b.sortKey
    profiles := profilesOf expected module.name
    addon }

/-- The modules of `by_name` as `merge_expected` leaves them: the ones it was given, then new ones. -/
def merged (modules : List Module) (expected : List ExpectedService) (addon : String) : List Module :=
  (expected.foldl (declare (seenServices modules)) modules).map (finish expected addon)

/-- `merge_expected`. -/
def mergeExpected (modules : List Module) (expected : List ExpectedService) (addon : String) :
    List Module :=
  worstFirst (merged modules expected addon)

/-! ### The snapshot -/

structure Group where
  name : String
  modules : List String
  containers : Nat
  health : Health
  selectable : Bool
deriving DecidableEq, Repr

/-- The modules of each profile. -/
def membersOf (modules : List Module) : List (String × List Module) :=
  (modules.flatMap fun module => module.profiles.map fun profile => (profile, module)).foldl
    (fun members item => Grouped.change item.1 [] (· ++ [item.2]) members) []

/-- `build_groups`. -/
def buildGroups (modules : List Module) : List Group :=
  ((membersOf modules).map fun (profile, found) =>
    { name := profile
      modules := (found.map Module.name).insertionSort (· ≤ ·)
      containers := (found.map fun module => module.containers.length).sum
      health := worst (found.map Module.health)
      selectable := profile ≠ "manager" ∧ profile ≠ "link-gateway" }).insertionSort
        fun a b => a.health.severity < b.health.severity ∨ (a.health = b.health ∧ a.name ≤ b.name)

structure Snapshot where
  core : List Module
  addons : List Module
  runningProjects : List String
  groups : List Group
deriving DecidableEq, Repr

/-- `by_project.get(project, [])`. -/
def found (byProject : List (String × List Module)) (project : String) : List Module :=
  (byProject.lookup project).getD []

/-- The projects that have a running container. -/
def runningProjects (byProject : List (String × List Module)) : List String :=
  (byProject.filter fun (project, modules) => project ≠ "" ∧
    ∃ module ∈ modules, ∃ container ∈ module.containers, container.state = "running").map Prod.fst

/-- What the declared state says of the core. -/
def expectedCore (deployment : Deployment) : List ExpectedService :=
  coreInventory deployment.fragments (profilesIn deployment.env)

/-- `sorted(addon_projects(..).items())`. -/
def addonSections (deployment : Deployment) : List (String × List ExpectedService) :=
  (addonProjects deployment).insertionSort fun a b => a.1 ≤ b.1

/-- The modules that Docker reported for the core, as its merge leaves these objects. -/
def sharedModules (modules : List Module) (expected : List ExpectedService) : List Module :=
  (merged modules expected "").take modules.length

/-- A module that a later merge has changed as well. -/
def renewed (changed : List Module) (module : Module) : Module :=
  (changed.find? (·.name = module.name)).getD module

/-- `build_snapshot`.  An add-on of the core's own project merges into the very modules that the core
already shows. -/
def buildSnapshot (deployment : Deployment) (output : String) : Snapshot :=
  let byProject := parsePsOutput output
  let coreProject := composeProject deployment.env
  let reported := found byProject coreProject
  let shared := sharedModules reported (expectedCore deployment)
  let core := mergeExpected reported (expectedCore deployment) ""
  let addons := (addonSections deployment).flatMap fun (project, expected) =>
    mergeExpected (if project = coreProject then shared else found byProject project) expected project
  let core := match (addonSections deployment).lookup coreProject with
    | none => core
    | some expected => core.map (renewed ((merged shared expected coreProject).take shared.length))
  { core, addons, runningProjects := runningProjects byProject, groups := buildGroups core }

end Papaia.Stack.Services
