/-
Module: Papaia.Addons.Resolve
Purpose: The scan of the catalogs on disk, and the entries the add-ons page has for what they ship.
Trusted boundary: what is read from a manifest file is data; `pyStr` is Python's `str` of a YAML value,
  which raises for a number with too many digits
Main exports: CatalogEntry, Disk, scanCatalogAddons, CatalogHit, ResolvedEntry, resolveCatalogAddons
-/
import Papaia.Lib.Grouped
import Papaia.Notifications.Findings
import Mathlib.Data.List.Sort
import Mathlib.Data.String.Basic

namespace Papaia.Addons.Catalogs

open Text Notifications

/-! ### The scan -/

/-- What is read from `papaia-app.yaml` in a directory. -/
inductive ManifestFile where
  | absent
  /-- Reading or parsing it raises. -/
  | unreadable
  | document (value : Val)

/-- An entry of a catalog's directory. -/
structure CatalogEntry where
  name : String
  isDir : Bool
  manifest : ManifestFile

/-- The directories on disk; there is no listing of what is missing or is no directory. -/
structure Disk where
  listing : String → Option (List CatalogEntry)
  distinct : ∀ path entries, listing path = some entries → (entries.map CatalogEntry.name).Nodup

inductive CatalogType where
  | git
  | local
deriving DecidableEq, Repr

/-- A catalog of the registry, as far as the resolution reads it. -/
structure RegisteredCatalog where
  name : String
  type : CatalogType
  enabled : Bool := true
  path : Option String := none
deriving DecidableEq, Repr

/-- `catalog_clone_path`. -/
def catalogClonePath (workspace name : String) : String :=
  workspace ++ "/addons/_catalogs/" ++ name

/-- `catalog_scan_path`. -/
def catalogScanPath (workspace : String) (catalog : RegisteredCatalog) : String :=
  match catalog.type, catalog.path with
  | .local, some path => if path = "" then catalogClonePath workspace catalog.name else path
  | _, _ => catalogClonePath workspace catalog.name

/-- `scan_catalog_addons`: a manifest that cannot be read is skipped, an empty one is no version. -/
def scanCatalogAddons (disk : Disk) (clone : String) : List (String × Val) :=
  match disk.listing clone with
  | none => []
  | some entries =>
      (entries.insertionSort fun one other => one.name ≤ other.name).filterMap fun entry =>
        if !entry.isDir || startsWith entry.name "." then none
        else
          match entry.manifest with
          | .absent => none
          | .unreadable => none
          | .document value => some (entry.name, if value.truthy then value else .map [])

/-! ### The resolution -/

/-- An add-on of a catalog. -/
structure CatalogHit where
  name : String
  catalog : String
  manifest : Mapping
  clone : String

/-- `ResolvedAddon`. -/
structure ResolvedEntry where
  key : String
  name : String
  catalog : String
  manifest : Mapping
  clone : String
  shadowedBy : List String
  isVariant : Bool

section Resolve

variable (pyStr : Val → Option String) (disk : Disk) (workspace : String)

/-- What the scan of the enabled catalogs yields: the catalog, its directory, the add-on and what its
manifest holds. -/
def scanned (registry : List RegisteredCatalog) : List (RegisteredCatalog × String × String × Val) :=
  (registry.filter RegisteredCatalog.enabled).flatMap fun catalog =>
    let clone := catalogScanPath workspace catalog
    (scanCatalogAddons disk clone).map fun addon => (catalog, clone, addon)

/-- The version of a manifest; none where `str` raises. -/
def versionText (manifest : Mapping) : Option String :=
  let value := manifest.getD "version"
  if value.truthy then pyStr value else some "unknown"

/-- One add-on of the scan with its version; none where what its manifest holds has no `get`. -/
def readHit (found : RegisteredCatalog × String × String × Val) : Option (CatalogHit × String) := do
  let manifest ← found.2.2.2.mapping?
  let version ← versionText pyStr manifest
  return (⟨found.2.2.1, found.1.name, manifest, found.2.1⟩, version)

/-- `hits.setdefault(name, …).setdefault(version, []).append(hit)`. -/
def addHit (hits : List (String × List (String × List CatalogHit))) (found : CatalogHit × String) :
    List (String × List (String × List CatalogHit)) :=
  Grouped.change found.1.name [] (Grouped.change found.2 [] (· ++ [found.1])) hits

/-- `hits`: by name and version, in the order of the scan. -/
def catalogHits (registry : List RegisteredCatalog) :
    Option (List (String × List (String × List CatalogHit))) :=
  (scanned disk workspace registry).foldlM (fun hits found => (readHit pyStr found).map (addHit hits)) []

/-- The group that comes first: the one of the installed catalog, or else the first of the scan. -/
def primaryIndex (installed : Option InstalledAddon) (groups : List (String × List CatalogHit)) : Nat :=
  match installed with
  | none => 0
  | some installed =>
      (groups.findIdx? fun group => group.2.any (·.catalog = installed.catalog)).getD 0

/-- The groups of a name, the primary one first. -/
def ordered (installed : Option InstalledAddon) (groups : List (String × List CatalogHit)) :
    List (String × List CatalogHit) :=
  let primary := primaryIndex installed groups
  groups[primary]?.toList ++ groups.take primary ++ groups.drop (primary + 1)

/-- The entry of one group. -/
def entryOf (name : String) (index : Nat) (group : List CatalogHit) : Option ResolvedEntry :=
  match group with
  | [] => none
  | first :: rest =>
      let isVariant := index ≠ 0
      some {
        key := if isVariant then name ++ "@" ++ first.catalog else name
        name := name
        catalog := first.catalog
        manifest := first.manifest
        clone := first.clone
        shadowedBy := rest.map CatalogHit.catalog
        isVariant := isVariant }

/-- `resolve_catalog_addons`; none where it raises. -/
def resolveCatalogAddons (registry : List RegisteredCatalog)
    (installedMap : String → Option InstalledAddon) : Option (List ResolvedEntry) := do
  let hits ← catalogHits pyStr disk workspace registry
  return hits.flatMap fun (name, groups) =>
    (ordered (installedMap name) groups).zipIdx.filterMap fun (group, index) =>
      entryOf name index group.2

end Resolve

end Papaia.Addons.Catalogs
