/-
Module: Papaia.Notifications.Findings
Purpose: What the detectors find: modules of the stack that are down, certificates that expire, and
  newer versions of the core and of the add-ons.
Trusted boundary: what Docker, `doctor`, `git` and the catalogs on disk answer is data; `pyStr` is
  Python's `str` of a YAML value; the texts of a summary are the English ones
Main exports: ServiceModule, StackSnapshot, serviceFindings, HostHealth, certificates,
  resolveCatalogAddons, outdatedAddons, addonUpdates, coreUpdate
-/
import Papaia.Notifications.Detect
import Papaia.Data.Semver

namespace Papaia.Notifications

open Text

/-- An entry of a condition's details. -/
def detail (name : String) (value : Val) : Scalar × Val :=
  (.str name, value)

/-- `value or None`. -/
def textOrNull (text : String) : Val :=
  if text = "" then .null else .str text

/-! ### Backups -/

/-- `_span`: how long, at the precision a person reads. -/
def span (delta : Int) : String :=
  let seconds := max (delta / Backup.second) 0
  let count := fun (unit : String) (size : Int) =>
    renderInt (seconds / size) ++ " " ++ unit ++ if seconds / size = 1 then "" else "s"
  if 86400 ≤ seconds then count "day" 86400
  else if 3600 ≤ seconds then count "hour" 3600
  else if 60 ≤ seconds then count "minute" 60
  else "less than a minute"

/-- What `schedule.evaluate` says about the backups; `details` is what the notification carries. -/
structure BackupStatus where
  overdue : Bool
  age : Option Int
  latestResult : String
  details : Mapping := []

/-- What the backup detector reads. -/
inductive BackupReading where
  | brokenSchedule
  | noSchedule
  | unreachable
  | judged (status : BackupStatus)

def overdueCondition (status : BackupStatus) : Condition where
  event := .backupOverdue
  key := "backup"
  marker := ""
  subject := "backup"
  message :=
    match status.age with
    | some age => "The last good backup is " ++ span age ++ " old."
    | none => "No backup has succeeded yet; the latest one ended " ++ status.latestResult ++ "."
  details := status.details

/-- `backup_overdue`. -/
def backupOverdue : BackupReading → List Finding
  | .brokenSchedule => []
  | .noSchedule => [{ event := .backupOverdue, conditions := [] }]
  | .unreachable => []
  | .judged status =>
      if status.overdue then
        [{ event := .backupOverdue
           conditions := [overdueCondition status]
           ofEvent := by simp [overdueCondition] }]
      else [{ event := .backupOverdue, conditions := [] }]

theorem event_of_mem_backupOverdue {reading : BackupReading} {f : Finding}
    (h : f ∈ backupOverdue reading) : f.event = .backupOverdue := by
  cases reading with
  | brokenSchedule => cases h
  | unreachable => cases h
  | noSchedule => rw [List.mem_singleton.1 h]
  | judged status =>
      simp only [backupOverdue] at h
      split at h
      · rw [List.mem_singleton.1 h]
      · rw [List.mem_singleton.1 h]

/-! ### Services -/

inductive ServiceHealth where
  | missing
  | stopped
  | unhealthy
  | starting
  | unknown
  | completed
  | healthy
deriving DecidableEq, Repr

namespace ServiceHealth

def value : ServiceHealth → String
  | missing => "missing"
  | stopped => "stopped"
  | unhealthy => "unhealthy"
  | starting => "starting"
  | unknown => "unknown"
  | completed => "completed"
  | healthy => "healthy"

/-- `_SEVERITY`; lower is worse. -/
def severity : ServiceHealth → Nat
  | missing => 0
  | stopped => 1
  | unhealthy => 2
  | starting => 3
  | unknown => 4
  | completed => 5
  | healthy => 6

/-- `_DEPLOYED`. -/
def deployed : ServiceHealth → Bool
  | healthy | starting | unhealthy | stopped => true
  | _ => false

/-- `down` in `service_findings`. -/
def down : ServiceHealth → Bool
  | unhealthy | stopped => true
  | _ => false

/-- `worst`: the most severe value, where a completed one-shot counts only among its like. -/
def worst (items : List ServiceHealth) : ServiceHealth :=
  match items with
  | [] => unknown
  | _ =>
      match items.filter (· ≠ completed) with
      | [] => completed
      | first :: rest =>
          rest.foldl (fun least other => if other.severity < least.severity then other else least)
            first

end ServiceHealth

/-- A module of the stack: the health of each of its containers. -/
structure ServiceModule where
  name : String
  containers : List ServiceHealth := []
  addon : String := ""
  node : String := ""
deriving DecidableEq, Repr

namespace ServiceModule

def health (m : ServiceModule) : ServiceHealth :=
  .worst m.containers

def summary (m : ServiceModule) : String :=
  let total := m.containers.length
  let missing := m.containers.count .missing
  let stopped := m.containers.count .stopped
  let part := fun (count : Nat) (what : String) =>
    s!"{count} of {total} containers " ++ what
  if missing = total ∧ total ≠ 0 then "not deployed"
  else if missing ≠ 0 ∧ stopped ≠ 0 then part (missing + stopped) "missing or stopped"
  else if missing ≠ 0 then part missing "not deployed"
  else if stopped ≠ 0 then part stopped "stopped"
  else if m.health = .unhealthy then "healthcheck failing"
  else if m.health = .starting then "starting"
  else if m.health = .completed then "completed"
  else if total = 1 then "1 container"
  else s!"{total} containers"

/-- `_label`: unique per module, the node first. -/
def label (m : ServiceModule) : String :=
  let label := if m.addon = "" then m.name else m.addon ++ "/" ++ m.name
  if m.node = "" then label else m.node ++ "/" ++ label

end ServiceModule

/-- Whether a node answered. -/
structure NodeHealth where
  name : String
  reachable : Bool
  reason : String := ""
deriving DecidableEq, Repr

/-- One reading of the whole stack. -/
structure StackSnapshot where
  core : List ServiceModule := []
  addons : List ServiceModule := []
  nodes : List NodeHealth := []
deriving DecidableEq, Repr

namespace StackSnapshot

def unreachableNodes (snapshot : StackSnapshot) : List NodeHealth :=
  snapshot.nodes.filter fun node => !node.reachable

/-- `labels`: of two modules with one label the last one stands. -/
def labels (snapshot : StackSnapshot) : List ServiceModule :=
  Keyed.lastOfEach ServiceModule.label (snapshot.core ++ snapshot.addons)

end StackSnapshot

/-- `read_services`: no reading when nothing answered. -/
def readServices (snapshot : StackSnapshot) : Option StackSnapshot :=
  if snapshot.core.isEmpty && snapshot.addons.isEmpty && snapshot.unreachableNodes.isEmpty then none
  else some snapshot

/-- What is said about a module that is down. -/
def moduleCondition (m : ServiceModule) (message : String) : Condition where
  event := .serviceUnhealthy
  key := m.label
  marker := ""
  subject := m.label
  message := message
  details :=
    [detail "service" (.str m.name), detail "add_on" (textOrNull m.addon),
      detail "state" (.str m.health.value), detail "summary" (.str m.summary)] ++
      if m.node = "" then [] else [detail "node" (.str m.node)]

/-- A module is down when it is stopped or unhealthy, or missing after it was seen deployed. -/
def moduleDown? (wasUp : List String) (m : ServiceModule) : Option Condition :=
  let label := m.label
  if m.health.down then
    some (moduleCondition m (label ++ " is " ++ m.health.value ++ ": " ++ m.summary ++ "."))
  else if m.health = .missing ∧ label ∈ wasUp then
    if m.containers.all (· = .missing) then
      some (moduleCondition m (label ++ " is not running: its containers are gone."))
    else
      some (moduleCondition m (label ++ " is not running (" ++ m.summary ++ ")."))
  else none

def nodeCondition (node : NodeHealth) : Condition where
  event := .serviceUnhealthy
  key := "node:" ++ node.name
  marker := ""
  subject := node.name
  message := "Node " ++ node.name ++ " does not answer: " ++ node.reason ++ "."
  details := [detail "node" (.str node.name), detail "state" (.str "unreachable"),
    detail "summary" (.str node.reason)]

theorem event_of_moduleDown? {wasUp : List String} {m : ServiceModule} {c : Condition}
    (h : moduleDown? wasUp m = some c) : c.event = .serviceUnhealthy := by
  simp only [moduleDown?] at h
  split at h
  · obtain rfl := Option.some.inj h
    rfl
  · split at h
    · split at h
      · obtain rfl := Option.some.inj h
        rfl
      · obtain rfl := Option.some.inj h
        rfl
    · cases h

/-- The finding of `service_findings`. -/
def serviceFinding (snapshot : StackSnapshot) (wasUp : List String) : Finding where
  event := .serviceUnhealthy
  conditions :=
    snapshot.labels.filterMap (moduleDown? wasUp) ++ snapshot.unreachableNodes.map nodeCondition
  ofEvent := by
    intro c hc
    rcases List.mem_append.1 hc with hc | hc
    · obtain ⟨m, -, hm⟩ := List.mem_filterMap.1 hc
      exact event_of_moduleDown? hm
    · obtain ⟨node, -, rfl⟩ := List.mem_map.1 hc
      rfl

/-- `silent`: whether a label belongs to a node that did not answer. -/
def StackSnapshot.silences (snapshot : StackSnapshot) (label : String) : Bool :=
  snapshot.unreachableNodes.any fun node => startsWith label (node.name ++ "/")

/-- The modules the next pass is told were up. -/
def upNow (snapshot : StackSnapshot) (wasUp : List String) : List String :=
  let labels := snapshot.labels.map ServiceModule.label
  let deployed := (snapshot.labels.filter fun m => m.health.deployed).map ServiceModule.label
  let kept := wasUp.filter fun label => labels.contains label || snapshot.silences label
  (deployed ++ kept).eraseDups

/-- `service_findings`. -/
def serviceFindings (snapshot : StackSnapshot) (wasUp : List String) : List Finding × List String :=
  ([serviceFinding snapshot wasUp], upNow snapshot wasUp)

/-! ### Certificates -/

/-- A certificate as `doctor` reports it; one that cannot be read has no days left and no expiry. -/
structure HostCheck where
  key : String
  label : String
  daysLeft : Option Int := none
  notAfter : String := ""
deriving DecidableEq, Repr

structure HostHealth where
  available : Bool
  certs : List HostCheck := []
deriving DecidableEq, Repr

/-- `scope` and `where` of `certificates`. -/
def certScope (node : String) : String :=
  if node = "" then "" else node ++ ":"

def certWhere (node : String) : String :=
  if node = "" then "" else node ++ ": "

/-- The marker of a certificate: its expiry. -/
def HostCheck.marker (cert : HostCheck) : String :=
  if cert.notAfter = "" then "expiry unknown" else cert.notAfter

/-- A certificate that expires within the lead time, or already has. -/
def certCondition? (leadDays : Int) (node : String) (cert : HostCheck) : Option Condition :=
  match cert.daysLeft with
  | none => none
  | some days =>
      if leadDays < days then none
      else
        let label := certWhere node ++ cert.label
        let message :=
          if days < 0 then label ++ " expired " ++ renderInt (-days) ++ " days ago."
          else if days = 0 then label ++ " expires today."
          else label ++ " expires in " ++ renderInt days ++ " day" ++
            (if days = 1 then "" else "s") ++ "."
        some {
          event := .certExpiring
          key := certScope node ++ cert.key
          marker := cert.marker
          subject := label
          message := message
          details :=
            [detail "certificate" (.str cert.label), detail "days_left" (.int days),
              detail "expires" (textOrNull cert.notAfter)] ++
              if node = "" then [] else [detail "node" (.str node)] }

/-- A certificate is reported when its days left are known and no more than the lead time. -/
def HostCheck.expires (leadDays : Int) (cert : HostCheck) : Bool :=
  match cert.daysLeft with
  | none => false
  | some days => days ≤ leadDays

theorem certCondition?_eq_some {leadDays : Int} {node : String} {cert : HostCheck} {c : Condition}
    (h : certCondition? leadDays node cert = some c) :
    c.event = .certExpiring ∧ c.key = certScope node ++ cert.key ∧ c.marker = cert.marker ∧
      cert.expires leadDays = true := by
  cases hdays : cert.daysLeft with
  | none => simp [certCondition?, hdays] at h
  | some days =>
      simp only [certCondition?, hdays] at h
      split at h
      next => cases h
      next hlead =>
        obtain rfl := Option.some.inj h
        exact ⟨rfl, rfl, rfl, by simpa [HostCheck.expires, hdays] using hlead⟩

/-- `certificates`. -/
def certificates (health : HostHealth) (leadDays : Int) (node : String) : List Finding :=
  if health.available then
    [{ event := .certExpiring
       conditions := health.certs.filterMap (certCondition? leadDays node)
       scope := certScope node
       ofEvent := by
        intro c hc
        obtain ⟨cert, -, hcert⟩ := List.mem_filterMap.1 hc
        exact (certCondition?_eq_some hcert).1 }]
  else []

/-! ### Versions -/

/-- An entry of the installed add-ons. -/
structure InstalledAddon where
  catalog : String
  manifestVersion : String
  managed : Bool := true
deriving DecidableEq, Repr

/-- A catalog and the scan of its directory, which there is none of when the directory is not
there: the add-ons with their manifests. -/
structure Catalog where
  name : String
  enabled : Bool := true
  scan : Option (List (String × Mapping)) := none

/-- `scan_catalog_addons`: a directory that is not there has no add-ons. -/
def Catalog.addons (catalog : Catalog) : List (String × Mapping) :=
  catalog.scan.getD []

/-- A hit of the scan. -/
structure Hit where
  catalog : String
  manifest : Mapping

/-- `ResolvedAddon`. -/
structure ResolvedAddon where
  name : String
  catalog : String
  manifest : Mapping
  isVariant : Bool

/-- `AddonUpdate`. -/
structure AddonUpdate where
  name : String
  installed : String
  available : String
  catalog : String
deriving DecidableEq, Repr

section Versions

variable (pyStr : Val → String)

/-- `entries.setdefault(key, default)`, changed in place. -/
def changeEntry {α : Type} (key : String) (default : α) (change : α → α) :
    List (String × α) → List (String × α)
  | [] => [(key, change default)]
  | (k, entry) :: rest =>
      if k = key then (k, change entry) :: rest
      else (k, entry) :: changeEntry key default change rest

/-- `hits`: the add-ons of the enabled catalogs by name and version, in the order of the scan. -/
def catalogHits (registry : List Catalog) : List (String × List (String × List Hit)) :=
  let found := (registry.filter Catalog.enabled).flatMap fun catalog =>
    catalog.addons.map fun addon => (addon.1, Hit.mk catalog.name addon.2)
  found.foldl
    (fun hits hit =>
      let value := hit.2.manifest.getD "version"
      let version := if value.truthy then pyStr value else "unknown"
      changeEntry hit.1 [] (changeEntry version [] (· ++ [hit.2])) hits)
    []

/-- The groups of one name: the one of the installed catalog first, or else the first of the
scan. -/
def orderGroups (installed : Option InstalledAddon) (groups : List (String × List Hit)) :
    List (String × List Hit) :=
  let primary :=
    match installed with
    | none => none
    | some installed => groups.findIdx? fun group : String × List Hit =>
        group.2.any (·.catalog = installed.catalog)
  match groups[primary.getD 0]? with
  | none => groups
  | some first => first :: groups.eraseIdx (primary.getD 0)

/-- `resolve_catalog_addons`. -/
def resolveCatalogAddons (registry : List Catalog) (installedMap : String → Option InstalledAddon) :
    List ResolvedAddon :=
  (catalogHits pyStr registry).flatMap fun (name, groups) =>
    (orderGroups (installedMap name) groups).zipIdx.filterMap fun (group, index) =>
      group.2.head?.map fun first =>
        { name, catalog := first.catalog, manifest := first.manifest, isVariant := index ≠ 0 }

/-- `update_available`; a version that is not SemVer is other than the installed one. -/
def updateAvailable (installed : InstalledAddon) (version : Val) : Bool :=
  match version with
  | .null => false
  | version =>
      if installed.managed then
        match Semver.isNewer (pyStr version) installed.manifestVersion with
        | some newer => newer
        | none => version.str? ≠ some installed.manifestVersion
      else false

/-- `outdated_addons`. -/
def outdatedAddons (registry : List Catalog) (installedMap : String → Option InstalledAddon) :
    List AddonUpdate :=
  (resolveCatalogAddons pyStr registry installedMap).filterMap fun resolved =>
    match installedMap resolved.name with
    | none => none
    | some installed =>
        let version := resolved.manifest.getD "version"
        if resolved.isVariant && installed.catalog != resolved.catalog then none
        else if updateAvailable pyStr installed version then
          some {
            name := resolved.name
            installed := installed.manifestVersion
            available := pyStr version
            catalog := resolved.catalog }
        else none

def addonCondition (update : AddonUpdate) : Condition where
  event := .updateAvailable
  key := "addon:" ++ update.name
  marker := update.available
  subject := update.name
  message := update.name ++ " " ++ update.available ++ " is available (installed: " ++
    update.installed ++ ")."
  details := [detail "add_on" (.str update.name), detail "installed" (.str update.installed),
    detail "available" (.str update.available), detail "catalog" (.str update.catalog)]

/-- `addon_updates`; `installed` is the whole map of the installed add-ons. -/
def addonUpdates (registry : List Catalog) (installed : List (String × InstalledAddon)) :
    List Finding :=
  if installed.isEmpty then
    [{ event := .updateAvailable, conditions := [], scope := "addon:" }]
  else
    [{ event := .updateAvailable
       conditions := (outdatedAddons pyStr registry fun name => installed.lookup name).map
        addonCondition
       scope := "addon:"
       ofEvent := by
        intro c hc
        obtain ⟨update, -, rfl⟩ := List.mem_map.1 hc
        rfl }]

end Versions

/-- `core_update`; the newer releases come newest first, and are none when nobody could tell. -/
def coreUpdate (current : String) : Option (List String) → List Finding
  | none => []
  | some [] => [{ event := .updateAvailable, conditions := [], scope := "core" }]
  | some (latest :: older) =>
      [{ event := .updateAvailable
         conditions := [{
          event := .updateAvailable
          key := "core"
          marker := latest
          subject := "papAIa"
          message := "papAIa " ++ latest ++ " is available (deployed: " ++ current ++ ")."
          details := [detail "deployed" (.str current), detail "available" (.str latest),
            detail "releases_ahead" (.int (older.length + 1))] }]
         scope := "core" }]

/-! ### What one pass reads -/

/-- What the update detector reads. -/
structure UpdateReading where
  current : String
  newer : Option (List String)
  registry : List Catalog
  installed : List (String × InstalledAddon)

/-- What one pass has of the dated events; a detector that does not run or fails has nothing. -/
structure DatedReading where
  now : Int
  readings : List (String × HostHealth)
  leadDays : Int
  updates : Option UpdateReading
  others : List Finding
  edges : ∀ f ∈ others, f.event.isEdge = true := by simp

/-- `updates` in `build_detectors`. -/
def UpdateReading.findings (pyStr : Val → String) (u : UpdateReading) : List Finding :=
  coreUpdate u.current u.newer ++ addonUpdates pyStr u.registry u.installed

/-- `certs_expiring` in `build_detectors`. -/
def DatedReading.certFindings (r : DatedReading) : List Finding :=
  r.readings.flatMap fun (node, health) => certificates health r.leadDays node

/-- The findings of a pass, detector by detector. -/
def DatedReading.pass (pyStr : Val → String) (r : DatedReading) : Pass where
  now := r.now
  findings := r.others ++ r.certFindings ++ (r.updates.map (·.findings pyStr)).getD []

/-- What one pass has of every event; `services` is none while the stack is worked on or Docker
does not answer, and `wasUp` is what the last pass left of it. -/
structure PassReading where
  now : Int
  backup : BackupReading
  services : Option StackSnapshot
  wasUp : List String
  readings : List (String × HostHealth)
  leadDays : Int
  updates : Option UpdateReading

/-- The findings of the edge events. -/
def PassReading.edgeFindings (r : PassReading) : List Finding :=
  backupOverdue r.backup ++
    (r.services.map fun snapshot => (serviceFindings snapshot r.wasUp).1).getD []

theorem isEdge_of_mem_edgeFindings {r : PassReading} {f : Finding} (h : f ∈ r.edgeFindings) :
    f.event.isEdge = true := by
  rcases List.mem_append.1 h with h | h
  · rw [event_of_mem_backupOverdue h]
    rfl
  · cases hservices : r.services with
    | none => simp [hservices] at h
    | some snapshot =>
        rw [hservices] at h
        rw [List.mem_singleton.1 h]
        rfl

def PassReading.dated (r : PassReading) : DatedReading where
  now := r.now
  readings := r.readings
  leadDays := r.leadDays
  updates := r.updates
  others := r.edgeFindings
  edges := fun _ hf => isEdge_of_mem_edgeFindings hf

/-- The findings of a whole pass. -/
def PassReading.pass (pyStr : Val → String) (r : PassReading) : Pass :=
  r.dated.pass pyStr

end Papaia.Notifications
