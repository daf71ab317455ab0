/-
Module: Papaia.Proofs.Resolve
Purpose: The entries of the add-ons page against what the enabled catalogs ship: when there are any,
  how they part the hits, and when their keys differ.
Trusted boundary: what is read from a manifest file is data; `pyStr` is Python's `str` of a YAML value
Main exports: hitsIn, catalogHits_eq, entries_eq, Resolution, KeysApart, resolution_parts_hits_iff
-/
import Papaia.Addons.Resolve
import Papaia.Lib.Paired
import Mathlib.Data.List.Perm.Basic

namespace Papaia.Addons.Catalogs

open Text Notifications Grouped Paired

/-! ### What the catalogs ship -/

section Hits

variable (pyStr : Val → Option String)

/-- The add-ons of the enabled catalogs whose manifest is a mapping. -/
def hitsIn (disk : Disk) (workspace : String) (registry : List RegisteredCatalog) : List CatalogHit :=
  (scanned disk workspace registry).filterMap fun found =>
    found.2.2.2.mapping?.map fun manifest => ⟨found.2.2.1, found.1.name, manifest, found.2.1⟩

/-- Every manifest is a mapping, with a version that can be written. -/
def Readable (disk : Disk) (workspace : String) (registry : List RegisteredCatalog) : Prop :=
  ∀ found ∈ scanned disk workspace registry, ∃ manifest, found.2.2.2 = .map manifest ∧
    (versionText pyStr manifest).isSome = true

/-- The version of an add-on. -/
def versionOf (hit : CatalogHit) : String :=
  (versionText pyStr hit.manifest).getD ""

/-- The names of the add-ons, in the order of the scan. -/
def namesOf (hits : List CatalogHit) : List String :=
  (hits.map CatalogHit.name).eraseDups

def hitsOf (hits : List CatalogHit) (name : String) : List CatalogHit :=
  hits.filter fun hit => hit.name = name

/-- The versions of an add-on, in the order of the scan. -/
def versionsOf (hits : List CatalogHit) (name : String) : List String :=
  ((hitsOf hits name).map (versionOf pyStr)).eraseDups

def groupOf (hits : List CatalogHit) (name version : String) : List CatalogHit :=
  (hitsOf hits name).filter fun hit => versionOf pyStr hit = version

variable {pyStr} {disk : Disk} {workspace : String} {registry : List RegisteredCatalog}

theorem foldl_concat {α : Type} (start items : List α) :
    items.foldl (fun value item => value ++ [item]) start = start ++ items := by
  induction items generalizing start with
  | nil => simp
  | cons item rest ih => simp [ih]

/-- The nested dictionaries hold the hits of each name and version. -/
theorem foldl_hits (hits : List CatalogHit) :
    hits.foldl (fun entries hit =>
        change hit.name [] (change (versionOf pyStr hit) [] (· ++ [hit])) entries) [] =
      table (namesOf hits) fun name => table (versionsOf pyStr hits name) (groupOf pyStr hits name) := by
  rw [foldl_change CatalogHit.name [] (fun hit => change (versionOf pyStr hit) [] (· ++ [hit])) hits]
  apply List.map_congr_left
  intro name _
  dsimp only
  rw [foldl_change (versionOf pyStr) [] (fun hit value => value ++ [hit])]
  simp only [foldl_concat, List.nil_append]
  rfl

theorem readHit_of_readable {found : RegisteredCatalog × String × String × Val} {manifest : Mapping}
    (hmap : found.2.2.2 = .map manifest) (hversion : (versionText pyStr manifest).isSome = true) :
    readHit pyStr found = some (⟨found.2.2.1, found.1.name, manifest, found.2.1⟩,
      versionOf pyStr ⟨found.2.2.1, found.1.name, manifest, found.2.1⟩) := by
  obtain ⟨version, hsome⟩ := Option.isSome_iff_exists.1 hversion
  simp [readHit, hmap, hsome, versionOf]

/-- A fold over what is read of each item, which is none where one cannot be read. -/
theorem foldlM_map {α β γ : Type} (read : α → Option β) (add : γ → β → γ) (items : List α) (start : γ) :
    items.foldlM (fun value item => (read item).map (add value)) start =
      (items.mapM read).map fun found => found.foldl add start := by
  induction items generalizing start with
  | nil => rfl
  | cons item rest ih =>
      rw [List.foldlM_cons, List.mapM_cons]
      cases read item with
      | none => rfl
      | some one =>
          simp only [Option.map_some, Option.bind_eq_bind, Option.bind_some, ih]
          cases rest.mapM read <;> rfl

/-- Where every manifest can be read, each hit is read with its version. -/
theorem mapM_readHit (found : List (RegisteredCatalog × String × String × Val))
    (h : ∀ one ∈ found, ∃ manifest, one.2.2.2 = .map manifest ∧
      (versionText pyStr manifest).isSome = true) :
    found.mapM (readHit pyStr) = some ((found.filterMap fun found =>
      found.2.2.2.mapping?.map fun manifest =>
        (⟨found.2.2.1, found.1.name, manifest, found.2.1⟩ : CatalogHit)).map
          fun hit => (hit, versionOf pyStr hit)) := by
  induction found with
  | nil => rfl
  | cons one rest ih =>
      rw [List.forall_mem_cons] at h
      obtain ⟨⟨manifest, hmap, hversion⟩, hrest⟩ := h
      rw [List.mapM_cons, readHit_of_readable hmap hversion, ih hrest, List.filterMap_cons, hmap]
      rfl

/-- Where every manifest can be read the whole scan is grouped. -/
theorem catalogHits_eq (h : Readable pyStr disk workspace registry) :
    catalogHits pyStr disk workspace registry =
      some (table (namesOf (hitsIn disk workspace registry)) fun name =>
        table (versionsOf pyStr (hitsIn disk workspace registry) name)
          (groupOf pyStr (hitsIn disk workspace registry) name)) := by
  rw [catalogHits, foldlM_map, mapM_readHit _ h, Option.map_some, List.foldl_map, ← foldl_hits]
  rfl

/-- Otherwise the resolution raises. -/
theorem readable_of_catalogHits {hits : List (String × List (String × List CatalogHit))}
    (h : catalogHits pyStr disk workspace registry = some hits) :
    Readable pyStr disk workspace registry := by
  rw [catalogHits, foldlM_map, Option.map_eq_some_iff] at h
  obtain ⟨read, hread, -⟩ := h
  intro found hmem
  obtain ⟨one, -, hone⟩ := Paired.exists_of_mapM hread hmem
  unfold readHit at hone
  simp only [Option.bind_eq_bind, Option.bind_eq_some_iff] at hone
  obtain ⟨manifest, hmap, version, hversion, -⟩ := hone
  exact ⟨manifest, Val.mapping?_eq_some.1 hmap, by rw [hversion]; rfl⟩

end Hits

/-! ### The order of the versions -/

/-- One element comes first, the others keep their order. -/
def promoted {α : Type} (index : Nat) (items : List α) : List α :=
  items[index]?.toList ++ items.take index ++ items.drop (index + 1)

theorem promoted_map {α β : Type} (f : α → β) (index : Nat) (items : List α) :
    promoted index (items.map f) = (promoted index items).map f := by
  unfold promoted
  rw [List.getElem?_map, List.map_append, List.map_append, List.map_take, List.map_drop]
  cases items[index]? <;> rfl

theorem promoted_perm {α : Type} {index : Nat} {items : List α} (h : index < items.length) :
    (promoted index items).Perm items := by
  have hsplit : items.take index ++ items[index] :: items.drop (index + 1) = items := by
    rw [List.getElem_cons_drop, List.take_append_drop]
  unfold promoted
  rw [List.getElem?_eq_getElem h, Option.toList_some]
  conv_rhs => rw [← hsplit]
  exact List.perm_middle.symm

theorem mem_of_mem_promoted {α : Type} {index : Nat} {items : List α} {item : α}
    (h : item ∈ promoted index items) : item ∈ items := by
  unfold promoted at h
  rcases List.mem_append.1 h with h | h
  · rcases List.mem_append.1 h with h | h
    · exact List.mem_of_getElem? (Option.mem_toList.1 h)
    · exact List.mem_of_mem_take h
  · exact List.mem_of_mem_drop h

section Versions

variable {pyStr : Val → Option String} {hits : List CatalogHit} {installed : Option InstalledAddon}
  {name version : String}

theorem mem_namesOf : name ∈ namesOf hits ↔ ∃ hit ∈ hits, hit.name = name := by
  rw [namesOf, List.mem_eraseDups, List.mem_map]

theorem mem_versionsOf :
    version ∈ versionsOf pyStr hits name ↔ ∃ hit ∈ hits, hit.name = name ∧ versionOf pyStr hit = version := by
  simp [versionsOf, hitsOf, and_assoc]

theorem mem_groupOf {hit : CatalogHit} :
    hit ∈ groupOf pyStr hits name version ↔
      hit ∈ hits ∧ hit.name = name ∧ versionOf pyStr hit = version := by
  simp [groupOf, hitsOf, and_comm]

/-- The version of an add-on whose entry comes first: the first one with a hit of the catalog the
add-on was installed from, or else the first one of the scan. -/
def mainVersion (pyStr : Val → Option String) (hits : List CatalogHit)
    (installed : Option InstalledAddon) (name : String) : Option String :=
  (installed.bind fun installed => (versionsOf pyStr hits name).find? fun version =>
    (groupOf pyStr hits name version).any (·.catalog = installed.catalog)).or
      (versionsOf pyStr hits name).head?

theorem findIdx?_eq {α : Type} (p : α → Bool) (items : List α) :
    items.find? p = (items.findIdx? p).bind fun index => items[index]? := by
  induction items with
  | nil => rfl
  | cons item rest ih =>
      rw [List.find?_cons, List.findIdx?_cons]
      cases hp : p item with
      | true => rfl
      | false =>
          rw [ih]
          cases rest.findIdx? p <;> rfl

/-- The entry that comes first is the one of the main version. -/
theorem getElem?_primaryIndex :
    (versionsOf pyStr hits name)[primaryIndex installed
        (table (versionsOf pyStr hits name) (groupOf pyStr hits name))]? =
      mainVersion pyStr hits installed name := by
  cases installed with
  | none => simp [primaryIndex, mainVersion, List.head?_eq_getElem?]
  | some installed =>
      simp only [primaryIndex, mainVersion, Option.bind_some, findIdx?_eq, table, List.findIdx?_map,
        Function.comp_def]
      cases hfind : (versionsOf pyStr hits name).findIdx? fun version =>
          (groupOf pyStr hits name version).any (·.catalog = installed.catalog) with
      | none => simp [List.head?_eq_getElem?]
      | some index =>
          obtain ⟨hlt, -⟩ := List.findIdx?_eq_some_iff_getElem.1 hfind
          simp [List.getElem?_eq_getElem hlt]

theorem nodup_versionsOf : (versionsOf pyStr hits name).Nodup :=
  nodup_eraseDups _

theorem mainVersion_mem (h : mainVersion pyStr hits installed name = some version) :
    version ∈ versionsOf pyStr hits name := by
  rw [← @getElem?_primaryIndex pyStr hits installed name] at h
  exact List.mem_of_getElem? h

theorem exists_mainVersion (h : name ∈ namesOf hits) :
    ∃ version, mainVersion pyStr hits installed name = some version := by
  obtain ⟨hit, hmem, hname⟩ := mem_namesOf.1 h
  have hversion : versionOf pyStr hit ∈ versionsOf pyStr hits name :=
    mem_versionsOf.2 ⟨hit, hmem, hname, rfl⟩
  obtain ⟨first, rest, hlist⟩ := List.exists_cons_of_ne_nil (List.ne_nil_of_mem hversion)
  unfold mainVersion
  rw [hlist]
  cases installed.bind fun installed => (first :: rest).find? fun version =>
    (groupOf pyStr hits name version).any (·.catalog = installed.catalog) with
  | none => exact ⟨first, rfl⟩
  | some version => exact ⟨version, rfl⟩

/-- The main version is the one of the installed catalog where that catalog ships the add-on. -/
theorem installed_mem_group {installed : InstalledAddon} {hit : CatalogHit}
    (h : mainVersion pyStr hits (some installed) name = some version) (hmem : hit ∈ hits)
    (hname : hit.name = name) (hcatalog : hit.catalog = installed.catalog) :
    ∃ other ∈ groupOf pyStr hits name version, other.catalog = installed.catalog := by
  have hany : (groupOf pyStr hits name (versionOf pyStr hit)).any (·.catalog = installed.catalog) =
      true := by
    rw [List.any_eq_true]
    exact ⟨hit, mem_groupOf.2 ⟨hmem, hname, rfl⟩, by simpa using hcatalog⟩
  have hversion : versionOf pyStr hit ∈ versionsOf pyStr hits name :=
    mem_versionsOf.2 ⟨hit, hmem, hname, rfl⟩
  unfold mainVersion at h
  rw [Option.bind_some] at h
  cases hfind : (versionsOf pyStr hits name).find? fun version =>
      (groupOf pyStr hits name version).any (·.catalog = installed.catalog) with
  | none => exact absurd hany (List.find?_eq_none.1 hfind _ hversion)
  | some found =>
      rw [hfind, Option.some_or] at h
      obtain rfl := Option.some.inj h
      have hany := (List.find?_eq_some_iff_append.1 hfind).1
      obtain ⟨other, hother, hsame⟩ := List.any_eq_true.1 hany
      exact ⟨other, hother, by simpa using hsame⟩

end Versions

/-! ### The entries -/

/-- Where a group stands among the entries. -/
structure Place where
  name : String
  version : String
  isVariant : Bool
deriving DecidableEq

section Places

variable (pyStr : Val → Option String) (hits : List CatalogHit)

/-- The places of one name: the main version, and the others as variants. -/
def placesOf (installed : Option InstalledAddon) (name : String) : List Place :=
  match promoted (primaryIndex installed
      (table (versionsOf pyStr hits name) (groupOf pyStr hits name))) (versionsOf pyStr hits name) with
  | [] => []
  | main :: others => ⟨name, main, false⟩ :: others.map fun version => ⟨name, version, true⟩

/-- The places of all names. -/
def places (installedMap : String → Option InstalledAddon) : List Place :=
  (namesOf hits).flatMap fun name => placesOf pyStr hits (installedMap name) name

/-- An entry is the one of a place. -/
def Answers (place : Place) (entry : ResolvedEntry) : Prop :=
  entryOf place.name (if place.isVariant then 1 else 0)
    (groupOf pyStr hits place.name place.version) = some entry

variable {pyStr hits} {installed : Option InstalledAddon} {name : String}

theorem entryOf_succ (index : Nat) (group : List CatalogHit) :
    entryOf name (index + 1) group = entryOf name 1 group := by
  cases group <;> simp [entryOf]

theorem exists_entryOf {version : String} (index : Nat) (h : version ∈ versionsOf pyStr hits name) :
    ∃ entry, entryOf name index (groupOf pyStr hits name version) = some entry := by
  obtain ⟨hit, hmem, hname, hversion⟩ := mem_versionsOf.1 h
  have hgroup : hit ∈ groupOf pyStr hits name version := mem_groupOf.2 ⟨hmem, hname, hversion⟩
  obtain ⟨first, rest, hlist⟩ := List.exists_cons_of_ne_nil (List.ne_nil_of_mem hgroup)
  rw [hlist]
  exact ⟨_, rfl⟩

theorem forall₂_variants {others : List String} (index : Nat)
    (h : ∀ version ∈ others, version ∈ versionsOf pyStr hits name) :
    List.Forall₂ (Answers pyStr hits) (others.map fun version => ⟨name, version, true⟩)
      (((table others (groupOf pyStr hits name)).zipIdx (index + 1)).filterMap fun group =>
        entryOf name group.2 group.1.2) := by
  induction others generalizing index with
  | nil => exact .nil
  | cons version rest ih =>
      rw [List.forall_mem_cons] at h
      obtain ⟨entry, hentry⟩ := exists_entryOf 1 h.1
      have hfirst : entryOf name (index + 1) (groupOf pyStr hits name version) = some entry := by
        rw [entryOf_succ, hentry]
      rw [table, List.map_cons, List.map_cons, List.zipIdx_cons, List.filterMap_cons, hfirst]
      exact .cons hentry (ih (index + 1) h.2)

/-- The entries of one name are those of its places. -/
theorem forall₂_placesOf :
    List.Forall₂ (Answers pyStr hits) (placesOf pyStr hits installed name)
      ((ordered installed (table (versionsOf pyStr hits name) (groupOf pyStr hits name))).zipIdx.filterMap
        fun group => entryOf name group.2 group.1.2) := by
  have hordered : ordered installed (table (versionsOf pyStr hits name) (groupOf pyStr hits name)) =
      table (promoted (primaryIndex installed
        (table (versionsOf pyStr hits name) (groupOf pyStr hits name))) (versionsOf pyStr hits name))
          (groupOf pyStr hits name) := promoted_map _ _ _
  rw [hordered, placesOf]
  cases hpromoted : promoted (primaryIndex installed
      (table (versionsOf pyStr hits name) (groupOf pyStr hits name))) (versionsOf pyStr hits name) with
  | nil => exact .nil
  | cons main others =>
      have hmem : ∀ version ∈ main :: others, version ∈ versionsOf pyStr hits name := by
        rw [← hpromoted]
        exact fun version => mem_of_mem_promoted
      rw [List.forall_mem_cons] at hmem
      obtain ⟨entry, hentry⟩ := exists_entryOf 0 hmem.1
      rw [table, List.map_cons, List.zipIdx_cons, List.filterMap_cons, hentry]
      exact .cons hentry (forall₂_variants 0 hmem.2)

/-- The places of a name are those of its versions, the main one first. -/
theorem placesOf_eq (h : name ∈ namesOf hits) :
    ∃ main others, mainVersion pyStr hits installed name = some main ∧
      (main :: others).Perm (versionsOf pyStr hits name) ∧
      placesOf pyStr hits installed name =
        ⟨name, main, false⟩ :: others.map fun version => ⟨name, version, true⟩ := by
  obtain ⟨main, hmain⟩ := @exists_mainVersion pyStr hits installed name h
  have hindex := hmain
  rw [← getElem?_primaryIndex] at hindex
  obtain ⟨hlt, hget⟩ := List.getElem?_eq_some_iff.1 hindex
  have hperm := promoted_perm hlt
  unfold placesOf
  cases hpromoted : promoted (primaryIndex installed
      (table (versionsOf pyStr hits name) (groupOf pyStr hits name))) (versionsOf pyStr hits name) with
  | nil =>
      have hempty := hpromoted ▸ hperm
      rw [List.nil_perm.1 hempty] at hlt
      exact absurd hlt (Nat.not_lt_zero _)
  | cons first others =>
      have hfirst : first = main := by
        unfold promoted at hpromoted
        rw [hindex] at hpromoted
        exact (List.cons.inj hpromoted).1.symm
      subst hfirst
      rw [hpromoted] at hperm
      exact ⟨first, others, hmain, hperm, rfl⟩

end Places

/-! ### What the resolution is for -/

/-- An entry shows a group: its first hit, and the catalogs of the others. -/
def Shows (entry : ResolvedEntry) (group : List CatalogHit) : Prop :=
  ∃ first rest, group = first :: rest ∧ entry.name = first.name ∧ entry.catalog = first.catalog ∧
    entry.manifest = first.manifest ∧ entry.clone = first.clone ∧
    entry.shadowedBy = rest.map CatalogHit.catalog

/-- The entries part the hits. -/
structure Resolution (pyStr : Val → Option String) (hits : List CatalogHit)
    (installedMap : String → Option InstalledAddon) (entries : List ResolvedEntry) : Prop where
  groups : ∃ groups, List.Forall₂ Shows entries groups ∧ groups.flatten.Perm hits ∧
    ∀ group ∈ groups, ∀ one ∈ group, ∀ other ∈ group, one.name = other.name ∧
      versionText pyStr one.manifest = versionText pyStr other.manifest
  main : ∀ hit ∈ hits, ∃ entry ∈ entries, entry.name = hit.name ∧ entry.isVariant = false
  once : entries.Pairwise fun one other =>
    one.isVariant = false → other.isVariant = false → one.name ≠ other.name
  installed : ∀ entry ∈ entries, entry.isVariant = false → ∀ installed,
    installedMap entry.name = some installed →
    (∃ hit ∈ hits, hit.name = entry.name ∧ hit.catalog = installed.catalog) →
    installed.catalog ∈ entry.catalog :: entry.shadowedBy
  keys : (entries.map ResolvedEntry.key).Nodup

section Apart

variable (pyStr : Val → Option String) (hits : List CatalogHit)

/-- The catalog of the first hit with a version. -/
def firstCatalog (name version : String) : String :=
  ((groupOf pyStr hits name version).head?.map CatalogHit.catalog).getD ""

/-- A version of an add-on that is not its main one. -/
def IsVariant (installedMap : String → Option InstalledAddon) (name version : String) : Prop :=
  (∃ hit ∈ hits, hit.name = name ∧ versionOf pyStr hit = version) ∧
    mainVersion pyStr hits (installedMap name) name ≠ some version

/-- What a variant is addressed by is neither the name of an add-on nor of another variant. -/
structure KeysApart (installedMap : String → Option InstalledAddon) : Prop where
  names : ∀ name version, IsVariant pyStr hits installedMap name version → ∀ hit ∈ hits,
    hit.name ≠ name ++ "@" ++ firstCatalog pyStr hits name version
  variants : ∀ name version other otherVersion, IsVariant pyStr hits installedMap name version →
    IsVariant pyStr hits installedMap other otherVersion →
    name ++ "@" ++ firstCatalog pyStr hits name version =
      other ++ "@" ++ firstCatalog pyStr hits other otherVersion →
    name = other ∧ version = otherVersion

end Apart

section Entries

variable {pyStr : Val → Option String} {hits : List CatalogHit}
  {installedMap : String → Option InstalledAddon} {place : Place}

theorem name_mem_of_version {name version : String} (h : version ∈ versionsOf pyStr hits name) :
    name ∈ namesOf hits := by
  obtain ⟨hit, hmem, hname, -⟩ := mem_versionsOf.1 h
  exact mem_namesOf.2 ⟨hit, hmem, hname⟩

theorem mem_placesOf {installed : Option InstalledAddon} {name : String} (h : name ∈ namesOf hits) :
    place ∈ placesOf pyStr hits installed name ↔ place.name = name ∧
      place.version ∈ versionsOf pyStr hits name ∧
      (place.isVariant = false ↔ mainVersion pyStr hits installed name = some place.version) := by
  obtain ⟨main, others, hmain, hperm, hplaces⟩ := @placesOf_eq pyStr hits installed name h
  have hnodup : (main :: others).Nodup := hperm.nodup_iff.2 nodup_versionsOf
  obtain ⟨own, version, isVariant⟩ := place
  rw [hplaces, hmain, ← hperm.mem_iff, List.mem_cons, List.mem_map, List.mem_cons]
  constructor
  · rintro (hsame | ⟨other, hother, hsame⟩)
    · cases hsame
      exact ⟨rfl, .inl rfl, by simp⟩
    · cases hsame
      refine ⟨rfl, .inr hother, iff_of_false (by simp) ?_⟩
      intro hmain
      obtain rfl := Option.some.inj hmain
      exact (List.nodup_cons.1 hnodup).1 hother
  · rintro ⟨rfl, hversion, hiff⟩
    dsimp only at hversion hiff
    rcases hversion with rfl | hother
    · rw [hiff.2 rfl]
      exact .inl rfl
    · refine .inr ⟨version, hother, ?_⟩
      cases isVariant with
      | true => rfl
      | false =>
          obtain rfl := Option.some.inj (hiff.1 rfl)
          exact absurd hother (List.nodup_cons.1 hnodup).1

theorem mem_places :
    place ∈ places pyStr hits installedMap ↔ place.version ∈ versionsOf pyStr hits place.name ∧
      (place.isVariant = false ↔
        mainVersion pyStr hits (installedMap place.name) place.name = some place.version) := by
  rw [places, List.mem_flatMap]
  constructor
  · rintro ⟨name, hname, hplace⟩
    obtain ⟨rfl, hrest⟩ := (mem_placesOf hname).1 hplace
    exact hrest
  · intro h
    have hname := name_mem_of_version h.1
    exact ⟨place.name, hname, (mem_placesOf hname).2 ⟨rfl, h⟩⟩

theorem nodup_places : (places pyStr hits installedMap).Nodup := by
  rw [places, List.nodup_flatMap]
  constructor
  · intro name hname
    obtain ⟨main, others, -, hperm, hplaces⟩ := @placesOf_eq pyStr hits (installedMap name) name hname
    have hnodup := List.nodup_cons.1 (hperm.nodup_iff.2 nodup_versionsOf)
    rw [hplaces, List.nodup_cons]
    constructor
    · intro hmem
      obtain ⟨version, -, hsame⟩ := List.mem_map.1 hmem
      cases hsame
    · apply List.Nodup.map _ hnodup.2
      intro one other hsame
      cases hsame
      rfl
  · refine (nodup_eraseDups _).imp_of_mem ?_
    intro one other hone hother hne place hplace hplace'
    apply hne
    rw [← ((mem_placesOf hone).1 hplace).1, ← ((mem_placesOf hother).1 hplace').1]

theorem shows_of_answers {entry : ResolvedEntry} (h : Answers pyStr hits place entry) :
    Shows entry (groupOf pyStr hits place.name place.version) ∧ entry.name = place.name ∧
      entry.isVariant = place.isVariant ∧
      entry.key = (if place.isVariant then
        place.name ++ "@" ++ firstCatalog pyStr hits place.name place.version else place.name) := by
  unfold Answers at h
  unfold firstCatalog
  cases hgroup : groupOf pyStr hits place.name place.version with
  | nil => rw [hgroup] at h; cases h
  | cons first rest =>
      have hname : first.name = place.name := by
        have hmem : first ∈ groupOf pyStr hits place.name place.version := by
          rw [hgroup]
          exact List.mem_cons_self
        exact (mem_groupOf.1 hmem).2.1
      rw [hgroup] at h
      obtain rfl := Option.some.inj h
      cases hvariant : place.isVariant with
      | true => exact ⟨⟨first, rest, rfl, hname.symm, rfl, rfl, rfl, rfl⟩, rfl, rfl, rfl⟩
      | false => exact ⟨⟨first, rest, rfl, hname.symm, rfl, rfl, rfl, rfl⟩, rfl, rfl, rfl⟩

/-- The groups of all places part the hits. -/
theorem perm_groups (hits : List CatalogHit) :
    (((places pyStr hits installedMap).map fun place =>
      groupOf pyStr hits place.name place.version).flatten).Perm hits := by
  have hname : ∀ name ∈ namesOf hits,
      ((placesOf pyStr hits (installedMap name) name).flatMap fun place =>
        groupOf pyStr hits place.name place.version).Perm (hits.filter fun hit => hit.name = name) := by
    intro name hname
    obtain ⟨main, others, -, hperm, hplaces⟩ := @placesOf_eq pyStr hits (installedMap name) name hname
    have hversions : ((main :: others).flatMap fun version => groupOf pyStr hits name version).Perm
        ((versionsOf pyStr hits name).flatMap fun version => groupOf pyStr hits name version) :=
      hperm.flatMap_right _
    have hgroups : ((versionsOf pyStr hits name).flatMap fun version =>
        groupOf pyStr hits name version).Perm (hitsOf hits name) := by
      apply perm_flatMap_groups (versionOf pyStr) (hitsOf hits name) nodup_versionsOf
      intro hit hhit
      obtain ⟨hmem, hsame⟩ := List.mem_filter.1 hhit
      exact mem_versionsOf.2 ⟨hit, hmem, by simpa using hsame, rfl⟩
    have hflat : ((placesOf pyStr hits (installedMap name) name).flatMap fun place =>
        groupOf pyStr hits place.name place.version) =
          (main :: others).flatMap fun version => groupOf pyStr hits name version := by
      rw [hplaces, List.flatMap_cons, List.flatMap_map, List.flatMap_cons]
    rw [hflat]
    exact hversions.trans hgroups
  have hall : ((places pyStr hits installedMap).map fun place =>
      groupOf pyStr hits place.name place.version).flatten =
        (namesOf hits).flatMap fun name => (placesOf pyStr hits (installedMap name) name).flatMap
          fun place => groupOf pyStr hits place.name place.version := by
    rw [← List.flatMap_def, places, List.flatMap_assoc]
  rw [hall]
  have hfilters : ((namesOf hits).flatMap fun name =>
      (placesOf pyStr hits (installedMap name) name).flatMap fun place =>
        groupOf pyStr hits place.name place.version).Perm
          ((namesOf hits).flatMap fun name => hits.filter fun hit => hit.name = name) :=
    List.Perm.flatMap_left _ hname
  refine hfilters.trans (perm_flatMap_groups CatalogHit.name hits (nodup_eraseDups _) ?_)
  intro hit hmem
  exact mem_namesOf.2 ⟨hit, hmem, rfl⟩

/-- What a place is addressed by. -/
def placeKey (pyStr : Val → Option String) (hits : List CatalogHit) (place : Place) : String :=
  if place.isVariant then place.name ++ "@" ++ firstCatalog pyStr hits place.name place.version
  else place.name

theorem isVariant_iff {name version : String} :
    IsVariant pyStr hits installedMap name version ↔
      (⟨name, version, true⟩ : Place) ∈ places pyStr hits installedMap := by
  rw [mem_places, IsVariant, ← mem_versionsOf]
  simp

/-- The keys of the places differ exactly where those of the variants stay apart. -/
theorem keysApart_iff :
    ((places pyStr hits installedMap).map (placeKey pyStr hits)).Nodup ↔
      KeysApart pyStr hits installedMap := by
  rw [List.nodup_map_iff_inj_on nodup_places]
  constructor
  · intro h
    constructor
    case names =>
      intro name version hvariant hit hmem hsame
      have hname : hit.name ∈ namesOf hits := mem_namesOf.2 ⟨hit, hmem, rfl⟩
      obtain ⟨main, others, hmain, hperm, -⟩ :=
        @placesOf_eq pyStr hits (installedMap hit.name) hit.name hname
      have hplace : (⟨hit.name, main, false⟩ : Place) ∈ places pyStr hits installedMap :=
        mem_places.2 ⟨hperm.mem_iff.1 List.mem_cons_self, iff_of_true rfl hmain⟩
      have heq := h _ hplace _ (isVariant_iff.1 hvariant) (by simpa [placeKey] using hsame)
      cases heq
    case variants =>
      intro name version other otherVersion hone hother hsame
      have heq := h _ (isVariant_iff.1 hone) _ (isVariant_iff.1 hother) (by simpa [placeKey] using hsame)
      cases heq
      exact ⟨rfl, rfl⟩
  · rintro h ⟨name, version, isVariant⟩ hone ⟨other, otherVersion, isVariant'⟩ hother hsame
    have hreal : ∀ {name version : String} {isVariant : Bool},
        (⟨name, version, isVariant⟩ : Place) ∈ places pyStr hits installedMap →
        ∃ hit ∈ hits, hit.name = name := by
      intro name version isVariant hplace
      obtain ⟨hit, hmem, hname, -⟩ := mem_versionsOf.1 (mem_places.1 hplace).1
      exact ⟨hit, hmem, hname⟩
    cases isVariant with
    | true =>
        cases isVariant' with
        | true =>
            obtain ⟨rfl, rfl⟩ := h.variants _ _ _ _ (isVariant_iff.2 hone) (isVariant_iff.2 hother)
              (by simpa [placeKey] using hsame)
            rfl
        | false =>
            obtain ⟨hit, hmem, rfl⟩ := hreal hother
            exact absurd hsame.symm (by simpa [placeKey] using h.names _ _ (isVariant_iff.2 hone) hit hmem)
    | false =>
        cases isVariant' with
        | true =>
            obtain ⟨hit, hmem, rfl⟩ := hreal hone
            exact absurd hsame (by simpa [placeKey] using h.names _ _ (isVariant_iff.2 hother) hit hmem)
        | false =>
            obtain rfl : name = other := by simpa [placeKey] using hsame
            have hmain := (mem_places.1 hone).2.1 rfl
            have hmain' := (mem_places.1 hother).2.1 rfl
            obtain rfl : version = otherVersion := Option.some.inj (hmain.symm.trans hmain')
            rfl

/-- The entries of the places part the hits; their keys differ where the variants stay apart. -/
theorem resolution_iff {entries : List ResolvedEntry}
    (h : List.Forall₂ (Answers pyStr hits) (places pyStr hits installedMap) entries)
    (hversions : ∀ hit ∈ hits, (versionText pyStr hit.manifest).isSome = true) :
    Resolution pyStr hits installedMap entries ↔ KeysApart pyStr hits installedMap := by
  have hkeys : entries.map ResolvedEntry.key = (places pyStr hits installedMap).map (placeKey pyStr hits) := by
    rw [← List.forall₂_eq_eq_eq, List.forall₂_map_left_iff, List.forall₂_map_right_iff]
    exact h.flip.imp fun entry place hanswer => (shows_of_answers hanswer).2.2.2
  constructor
  · intro hresolution
    rw [← keysApart_iff, ← hkeys]
    exact hresolution.keys
  · intro hapart
    constructor
    case groups =>
      refine ⟨(places pyStr hits installedMap).map fun place =>
        groupOf pyStr hits place.name place.version, ?_, perm_groups hits, ?_⟩
      · rw [List.forall₂_map_right_iff]
        exact h.flip.imp fun entry place hanswer => (shows_of_answers hanswer).1
      · intro group hgroup one hone other hother
        obtain ⟨place, -, rfl⟩ := List.mem_map.1 hgroup
        obtain ⟨hmem, hname, hversion⟩ := mem_groupOf.1 hone
        obtain ⟨hmem', hname', hversion'⟩ := mem_groupOf.1 hother
        refine ⟨hname.trans hname'.symm, ?_⟩
        obtain ⟨text, htext⟩ := Option.isSome_iff_exists.1 (hversions one hmem)
        obtain ⟨text', htext'⟩ := Option.isSome_iff_exists.1 (hversions other hmem')
        have hsame := hversion.trans hversion'.symm
        rw [versionOf, versionOf, htext, htext'] at hsame
        rw [htext, htext']
        exact congrArg some hsame
    case main =>
      intro hit hmem
      have hname : hit.name ∈ namesOf hits := mem_namesOf.2 ⟨hit, hmem, rfl⟩
      obtain ⟨main, hmain⟩ := @exists_mainVersion pyStr hits (installedMap hit.name) hit.name hname
      have hplace : (⟨hit.name, main, false⟩ : Place) ∈ places pyStr hits installedMap :=
        mem_places.2 ⟨mainVersion_mem hmain, iff_of_true rfl hmain⟩
      obtain ⟨entry, hentry, hanswer⟩ := exists_left h _ hplace
      obtain ⟨-, hown, hvariant, -⟩ := shows_of_answers hanswer
      exact ⟨entry, hentry, hown, hvariant⟩
    case once =>
      have honce : (places pyStr hits installedMap).Pairwise fun one other =>
          one.isVariant = false → other.isVariant = false → one.name ≠ other.name := by
        refine nodup_places.imp_of_mem ?_
        rintro ⟨name, version, isVariant⟩ ⟨other, otherVersion, isVariant'⟩ hone hother hne
        rintro rfl rfl rfl
        have hmain := (mem_places.1 hone).2.1 rfl
        have hmain' := (mem_places.1 hother).2.1 rfl
        apply hne
        obtain rfl : version = otherVersion := Option.some.inj (hmain.symm.trans hmain')
        rfl
      refine pairwise_right h honce ?_
      intro one other entry entry' hanswer hanswer' hp hvariant hvariant' hsame
      obtain ⟨-, hname, hown, -⟩ := shows_of_answers hanswer
      obtain ⟨-, hname', hown', -⟩ := shows_of_answers hanswer'
      rw [hown] at hvariant
      rw [hown'] at hvariant'
      exact hp hvariant hvariant' (by rw [← hname, ← hname', hsame])
    case installed =>
      intro entry hentry hvariant installed hinstalled hship
      obtain ⟨place, hplace, hanswer⟩ := exists_right h entry hentry
      obtain ⟨⟨first, rest, hgroup, -, hcatalog, -, -, hshadowed⟩, hname, hown, -⟩ :=
        shows_of_answers hanswer
      obtain ⟨hit, hmem, hsame, hcat⟩ := hship
      have hmain := (mem_places.1 hplace).2.1 (hown.symm.trans hvariant)
      rw [hname] at hinstalled hsame
      rw [hinstalled] at hmain
      obtain ⟨other, hother, hotherCat⟩ := installed_mem_group hmain hmem hsame hcat
      rw [hgroup] at hother
      rw [hcatalog, hshadowed, ← hotherCat, ← List.map_cons]
      exact List.mem_map_of_mem hother
    case keys =>
      rw [hkeys, keysApart_iff]
      exact hapart

/-- Where everything can be read, the resolution has the entries of the places. -/
theorem resolve_of_readable {disk : Disk} {workspace : String} {registry : List RegisteredCatalog}
    (h : Readable pyStr disk workspace registry) :
    ∃ entries, resolveCatalogAddons pyStr disk workspace registry installedMap = some entries ∧
      List.Forall₂ (Answers pyStr (hitsIn disk workspace registry))
        (places pyStr (hitsIn disk workspace registry) installedMap) entries := by
  refine ⟨_, by rw [resolveCatalogAddons, catalogHits_eq h]; rfl, ?_⟩
  rw [places, table, List.flatMap_map]
  refine List.rel_flatMap (List.forall₂_same.2 fun _ _ => rfl) ?_
  rintro name _ rfl
  exact forall₂_placesOf

/-- A variant is addressed by the catalog of one of its hits. -/
theorem exists_firstCatalog {name version : String} (h : version ∈ versionsOf pyStr hits name) :
    ∃ hit ∈ hits, hit.name = name ∧ versionOf pyStr hit = version ∧
      hit.catalog = firstCatalog pyStr hits name version := by
  obtain ⟨hit, hmem, hname, hversion⟩ := mem_versionsOf.1 h
  have hgroup : hit ∈ groupOf pyStr hits name version := mem_groupOf.2 ⟨hmem, hname, hversion⟩
  obtain ⟨first, rest, hlist⟩ := List.exists_cons_of_ne_nil (List.ne_nil_of_mem hgroup)
  have hfirst : first ∈ groupOf pyStr hits name version := by
    rw [hlist]
    exact List.mem_cons_self
  obtain ⟨hmem, hname, hversion⟩ := mem_groupOf.1 hfirst
  exact ⟨first, hmem, hname, hversion, by rw [firstCatalog, hlist]; rfl⟩

/-- Names without an at sign keep the variants apart, as long as no two catalogs of one name ship
different versions of an add-on. -/
theorem keysApart_of_plain (hplain : ∀ hit ∈ hits, '@' ∉ hit.name.toList)
    (hcatalogs : ∀ one ∈ hits, ∀ other ∈ hits, one.name = other.name → one.catalog = other.catalog →
      versionOf pyStr one = versionOf pyStr other) : KeysApart pyStr hits installedMap := by
  constructor
  case names =>
    intro name version _ hit hmem hsame
    apply hplain hit hmem
    rw [hsame, String.toList_append, String.toList_append]
    simp
  case variants =>
    intro name version other otherVersion hone hother hsame
    obtain ⟨hit, hmem, rfl, rfl, hcatalog⟩ := exists_firstCatalog (mem_versionsOf.2 hone.1)
    obtain ⟨hit', hmem', rfl, rfl, hcatalog'⟩ := exists_firstCatalog (mem_versionsOf.2 hother.1)
    have hparts := congrArg (fun text : String => text.toList.splitOn '@') hsame
    simp only [String.toList_append, List.append_assoc] at hparts
    have hat : "@".toList = ['@'] := by decide
    rw [hat, List.singleton_append, List.singleton_append,
      List.splitOn_append_cons_self_of_not_mem (hplain hit hmem),
      List.splitOn_append_cons_self_of_not_mem (hplain hit' hmem')] at hparts
    have hname : hit.name = hit'.name := String.toList_inj.1 (List.cons.inj hparts).1
    rw [← hname, String.append_right_inj, ← hcatalog] at hsame
    have hcat : hit.catalog = hit'.catalog := by rw [hcatalog', ← hname]; exact hsame
    exact ⟨hname, hcatalogs hit hmem hit' hmem' hname hcat⟩

end Entries

/-- The catalogs are resolved, and the entries part what they ship, exactly where each manifest of an
enabled catalog is a mapping with a version that can be written and the variants stay apart. -/
theorem resolution_parts_hits_iff {pyStr : Val → Option String} {disk : Disk} {workspace : String}
    {registry : List RegisteredCatalog} {installedMap : String → Option InstalledAddon} :
    (∃ entries, resolveCatalogAddons pyStr disk workspace registry installedMap = some entries ∧
      Resolution pyStr (hitsIn disk workspace registry) installedMap entries) ↔
    Readable pyStr disk workspace registry ∧
      KeysApart pyStr (hitsIn disk workspace registry) installedMap := by
  have hversions : Readable pyStr disk workspace registry →
      ∀ hit ∈ hitsIn disk workspace registry, (versionText pyStr hit.manifest).isSome = true := by
    intro hreadable hit hmem
    obtain ⟨found, hfound, hhit⟩ := List.mem_filterMap.1 hmem
    obtain ⟨manifest, hmap, hversion⟩ := hreadable found hfound
    rw [hmap] at hhit
    obtain rfl := Option.some.inj hhit
    exact hversion
  constructor
  · rintro ⟨entries, hentries, hresolution⟩
    have hreadable : Readable pyStr disk workspace registry := by
      cases hhits : catalogHits pyStr disk workspace registry with
      | none => rw [resolveCatalogAddons, hhits] at hentries; cases hentries
      | some hits => exact readable_of_catalogHits hhits
    obtain ⟨entries', hentries', hall⟩ := @resolve_of_readable pyStr installedMap _ _ _ hreadable
    obtain rfl := Option.some.inj (hentries.symm.trans hentries')
    exact ⟨hreadable, (resolution_iff hall (hversions hreadable)).1 hresolution⟩
  · rintro ⟨hreadable, hapart⟩
    obtain ⟨entries, hentries, hall⟩ := @resolve_of_readable pyStr installedMap _ _ _ hreadable
    exact ⟨entries, hentries, (resolution_iff hall (hversions hreadable)).2 hapart⟩

/-- A disk with one catalog, whose only add-on has a list for a manifest. -/
def listDisk : Disk where
  listing path :=
    if path = "/workspace/addons" then
      some [⟨"wiki", true, .document (.list [.str "version"])⟩]
    else none
  distinct := by
    intro path entries h
    split at h
    next =>
      obtain rfl := Option.some.inj h
      exact List.nodup_singleton _
    next => cases h

/-- A manifest that is a list hides every add-on: the resolution raises. -/
theorem list_manifest_hides_the_rest : ¬∃ entries,
    resolveCatalogAddons (fun _ => some "1") listDisk "/workspace"
      [⟨"core", .local, true, some "/workspace/addons"⟩] (fun _ => none) = some entries ∧
    Resolution (fun _ => some "1")
      (hitsIn listDisk "/workspace" [⟨"core", .local, true, some "/workspace/addons"⟩]) (fun _ => none)
      entries := by
  rintro ⟨entries, hentries, -⟩
  have hscan : scanned listDisk "/workspace" [⟨"core", .local, true, some "/workspace/addons"⟩] =
      [(⟨"core", .local, true, some "/workspace/addons"⟩, "/workspace/addons", "wiki",
        .list [.str "version"])] := by rfl
  rw [resolveCatalogAddons, catalogHits, hscan] at hentries
  cases hentries

end Papaia.Addons.Catalogs
