/-
Module: Papaia.Proofs.Services
Purpose: When the services page shows every container and every declared service exactly once.
Trusted boundary: none
Main exports: ServicesLaw, Apart, services_law_iff
-/
import Mathlib.Data.List.Perm.Basic
import Papaia.Stack.Services

namespace Papaia.Stack.Services

open Addons Config.Modules

/-! ### Modules as containers with the names of their modules -/

/-- The containers of some modules, each with the name of its module. -/
def pairsOf (modules : List Module) : List (String × Container) :=
  modules.flatMap fun module => module.containers.map fun container => (module.name, container)

theorem pairsOf_cons (module : Module) (rest : List Module) :
    pairsOf (module :: rest) =
      (module.containers.map fun container => (module.name, container)) ++ pairsOf rest :=
  List.flatMap_cons

theorem pairsOf_append (one other : List Module) : pairsOf (one ++ other) = pairsOf one ++ pairsOf other :=
  List.flatMap_append

theorem mem_pairsOf {modules : List Module} {pair : String × Container} :
    pair ∈ pairsOf modules ↔ ∃ module ∈ modules, module.name = pair.1 ∧ pair.2 ∈ module.containers := by
  unfold pairsOf
  rw [List.mem_flatMap]
  refine exists_congr fun module => and_congr_right fun _ => ?_
  rw [List.mem_map]
  constructor
  · rintro ⟨container, hcontainer, rfl⟩
    exact ⟨rfl, hcontainer⟩
  · rintro ⟨hname, hcontainer⟩
    exact ⟨pair.2, hcontainer, Prod.ext hname rfl⟩

theorem perm_pairsOf {one other : List Module} (h : one.Perm other) :
    (pairsOf one).Perm (pairsOf other) :=
  h.flatMap_right _

theorem pairsOf_intoModule (name : String) (container : Container) (modules : List Module) :
    (pairsOf (intoModule name container modules)).Perm ((name, container) :: pairsOf modules) := by
  induction modules with
  | nil => exact List.Perm.refl _
  | cons module rest ih =>
      rw [intoModule]
      split
      · next hname =>
          rw [pairsOf_cons, pairsOf_cons, List.map_append, List.append_assoc, hname]
          exact List.perm_middle
      · rw [pairsOf_cons, pairsOf_cons]
        exact (ih.append_left _).trans List.perm_middle

theorem names_intoModule (name : String) (container : Container) (modules : List Module) :
    (intoModule name container modules).map Module.name =
      if name ∈ modules.map Module.name then modules.map Module.name
      else modules.map Module.name ++ [name] := by
  induction modules with
  | nil => rfl
  | cons module rest ih =>
      rw [intoModule]
      split
      · next hname =>
          rw [if_pos]
          · rfl
          · rw [List.map_cons, hname]
            exact List.mem_cons_self
      · next hname =>
          rw [List.map_cons, ih, List.map_cons]
          by_cases hmem : name ∈ rest.map Module.name
          · rw [if_pos hmem, if_pos (List.mem_cons_of_mem _ hmem)]
          · have hnone : name ∉ module.name :: rest.map Module.name := by
              rw [List.mem_cons, not_or]
              exact ⟨Ne.symm hname, hmem⟩
            rw [if_neg hmem, if_neg hnone, List.cons_append]

theorem mem_names_intoModule {name other : String} {container : Container} {modules : List Module} :
    other ∈ (intoModule name container modules).map Module.name ↔
      other = name ∨ other ∈ modules.map Module.name := by
  rw [names_intoModule]
  split
  · next hmem =>
      constructor
      · exact .inr
      · rintro (rfl | hother)
        · exact hmem
        · exact hother
  · rw [List.mem_append, List.mem_singleton, or_comm]

theorem nodup_intoModule {name : String} {container : Container} {modules : List Module}
    (h : (modules.map Module.name).Nodup) :
    ((intoModule name container modules).map Module.name).Nodup := by
  rw [names_intoModule]
  split
  · exact h
  · next hmem =>
      rw [← List.concat_eq_append]
      exact h.concat hmem

/-- Containers are put into modules one after the other. -/
def intoAll (pairs : List (String × Container)) (modules : List Module) : List Module :=
  pairs.foldl (fun modules pair => intoModule pair.1 pair.2 modules) modules

theorem pairsOf_intoAll (pairs : List (String × Container)) (modules : List Module) :
    (pairsOf (intoAll pairs modules)).Perm (pairs ++ pairsOf modules) := by
  induction pairs generalizing modules with
  | nil => exact List.Perm.refl _
  | cons pair rest ih =>
      have hstep := (pairsOf_intoModule pair.1 pair.2 modules).append_left rest
      exact (ih _).trans (hstep.trans List.perm_middle)

theorem mem_names_intoAll {pairs : List (String × Container)} {modules : List Module} {name : String} :
    name ∈ (intoAll pairs modules).map Module.name ↔
      name ∈ modules.map Module.name ∨ ∃ pair ∈ pairs, pair.1 = name := by
  induction pairs generalizing modules with
  | nil => simp [intoAll]
  | cons pair rest ih =>
      have hstep : name ∈ (intoAll rest (intoModule pair.1 pair.2 modules)).map Module.name ↔ _ := ih
      rw [mem_names_intoModule] at hstep
      refine hstep.trans ?_
      rw [List.exists_mem_cons_iff]
      constructor
      · rintro ((rfl | hmem) | hrest)
        · exact .inr (.inl rfl)
        · exact .inl hmem
        · exact .inr (.inr hrest)
      · rintro (hmem | rfl | hrest)
        · exact .inl (.inr hmem)
        · exact .inl (.inl rfl)
        · exact .inr hrest

theorem nodup_intoAll {pairs : List (String × Container)} {modules : List Module}
    (h : (modules.map Module.name).Nodup) : ((intoAll pairs modules).map Module.name).Nodup := by
  induction pairs generalizing modules with
  | nil => exact h
  | cons pair rest ih => exact ih (nodup_intoModule h)

theorem perm_worstFirst (modules : List Module) : (worstFirst modules).Perm modules :=
  List.perm_insertionSort comesFirst modules

/-! ### What Docker reported for a project -/

/-- The containers of a project in the output. -/
def entriesIn (output project : String) : List Entry :=
  (entriesOf output).filter fun entry => entry.project = project

/-- The same, each with the name of its module. -/
def pairsIn (output project : String) : List (String × Container) :=
  (entriesIn output project).map fun entry => (entry.module, entry.container)

theorem lookup_table {κ β : Type} [DecidableEq κ] (keys : List κ) (value : κ → β) (k : κ) :
    (Grouped.table keys value).lookup k = if k ∈ keys then some (value k) else none := by
  induction keys with
  | nil => rfl
  | cons other rest ih =>
      unfold Grouped.table at ih ⊢
      by_cases hk : k = other
      · subst hk
        rw [List.map_cons, List.lookup_cons_self, if_pos List.mem_cons_self]
      · have hne : (k == other) = false := by simpa using hk
        rw [List.map_cons, List.lookup_cons, hne]
        simp only [ih, List.mem_cons, hk, false_or]

/-- The modules of a project hold its containers, line by line. -/
theorem found_parsePsOutput (output project : String) :
    found (parsePsOutput output) project = worstFirst (intoAll (pairsIn output project) []) := by
  have htable : parsePsOutput output =
      Grouped.table ((entriesOf output).map Entry.project).eraseDups fun project =>
        worstFirst (intoAll (pairsIn output project) []) := by
    rw [parsePsOutput, Grouped.foldl_change]
    unfold Grouped.table
    rw [List.map_map]
    refine List.map_congr_left fun key _ => ?_
    simp only [Function.comp_apply, intoAll, pairsIn, entriesIn, List.foldl_map]
  unfold found
  rw [htable, lookup_table]
  split
  · rfl
  · next hnone =>
      have hempty : pairsIn output project = [] := by
        unfold pairsIn entriesIn
        rw [List.map_eq_nil_iff, List.filter_eq_nil_iff]
        intro entry hentry hproject
        apply hnone
        rw [List.mem_eraseDups]
        exact List.mem_map.2 ⟨entry, hentry, by simpa using hproject⟩
      rw [hempty]
      rfl

/-- What was found for a project, as `build_snapshot` has it. -/
abbrev reported (output project : String) : List Module :=
  found (parsePsOutput output) project

theorem pairsOf_reported (output project : String) :
    (pairsOf (reported output project)).Perm (pairsIn output project) := by
  have hall := pairsOf_intoAll (pairsIn output project) []
  have hnone : pairsOf [] = [] := rfl
  rw [hnone, List.append_nil] at hall
  rw [reported, found_parsePsOutput]
  exact (perm_pairsOf (perm_worstFirst _)).trans hall

theorem nodup_reported (output project : String) :
    ((reported output project).map Module.name).Nodup := by
  rw [reported, found_parsePsOutput, ((perm_worstFirst _).map Module.name).nodup_iff]
  exact nodup_intoAll List.nodup_nil

theorem mem_names_reported {output project name : String} :
    name ∈ (reported output project).map Module.name ↔
      ∃ entry ∈ entriesIn output project, entry.module = name := by
  rw [reported, found_parsePsOutput, ((perm_worstFirst _).map Module.name).mem_iff, mem_names_intoAll]
  simp [pairsIn]

theorem seenServices_eq (modules : List Module) :
    seenServices modules = (pairsOf modules).map fun pair => pair.2.service := by
  unfold seenServices pairsOf
  rw [List.map_flatMap]
  simp [Function.comp_def]

theorem mem_seenServices_reported {output project service : String} :
    service ∈ seenServices (reported output project) ↔
      ∃ entry ∈ entriesIn output project, entry.container.service = service := by
  rw [seenServices_eq, ((pairsOf_reported output project).map _).mem_iff]
  simp [pairsIn]

/-! ### What a merge makes -/

/-- The declared services that have no container. -/
def unseen (seen : List String) (expected : List ExpectedService) : List ExpectedService :=
  expected.filter fun item => item.service ∉ seen

/-- Their placeholders, each with the name of its module. -/
def placeholders (seen : List String) (expected : List ExpectedService) : List (String × Container) :=
  (unseen seen expected).map fun item => (item.module, placeholder item)

theorem unseen_cons_of_mem {seen : List String} {item : ExpectedService} {rest : List ExpectedService}
    (h : item.service ∈ seen) : unseen seen (item :: rest) = unseen seen rest :=
  List.filter_cons_of_neg (by simpa using h)

theorem unseen_cons_of_not_mem {seen : List String} {item : ExpectedService}
    {rest : List ExpectedService} (h : item.service ∉ seen) :
    unseen seen (item :: rest) = item :: unseen seen rest :=
  List.filter_cons_of_pos (by simpa using h)

theorem foldl_declare (seen : List String) (expected : List ExpectedService) (modules : List Module) :
    expected.foldl (declare seen) modules = intoAll (placeholders seen expected) modules := by
  induction expected generalizing modules with
  | nil => rfl
  | cons item rest ih =>
      rw [List.foldl_cons, ih, declare, placeholders, placeholders]
      split
      · next hseen => rw [unseen_cons_of_mem hseen]
      · next hnew =>
          rw [unseen_cons_of_not_mem hnew]
          rfl

theorem pairsOf_finish (expected : List ExpectedService) (addon : String) (modules : List Module) :
    (pairsOf (modules.map (finish expected addon))).Perm (pairsOf modules) := by
  induction modules with
  | nil => exact List.Perm.refl _
  | cons module rest ih =>
      rw [List.map_cons, pairsOf_cons, pairsOf_cons]
      apply List.Perm.append _ ih
      exact (List.perm_insertionSort _ module.containers).map _

theorem names_finish (expected : List ExpectedService) (addon : String) (modules : List Module) :
    (modules.map (finish expected addon)).map Module.name = modules.map Module.name := by
  rw [List.map_map]
  rfl

variable {modules : List Module} {expected : List ExpectedService} {addon : String}

theorem pairsOf_merged :
    (pairsOf (merged modules expected addon)).Perm
      (placeholders (seenServices modules) expected ++ pairsOf modules) := by
  unfold merged
  rw [foldl_declare]
  exact (pairsOf_finish _ _ _).trans (pairsOf_intoAll _ _)

theorem nodup_merged (h : (modules.map Module.name).Nodup) :
    ((merged modules expected addon).map Module.name).Nodup := by
  unfold merged
  rw [names_finish, foldl_declare]
  exact nodup_intoAll h

theorem pairsOf_mergeExpected :
    (pairsOf (mergeExpected modules expected addon)).Perm
      (placeholders (seenServices modules) expected ++ pairsOf modules) :=
  (perm_pairsOf (perm_worstFirst _)).trans pairsOf_merged

theorem nodup_mergeExpected (h : (modules.map Module.name).Nodup) :
    ((mergeExpected modules expected addon).map Module.name).Nodup :=
  ((perm_worstFirst _).map Module.name).nodup_iff.2 (nodup_merged h)

theorem mem_names_mergeExpected {name : String} :
    name ∈ (mergeExpected modules expected addon).map Module.name ↔
      name ∈ modules.map Module.name ∨
        ∃ item ∈ unseen (seenServices modules) expected, item.module = name := by
  unfold mergeExpected merged
  rw [((perm_worstFirst _).map Module.name).mem_iff, names_finish, foldl_declare, mem_names_intoAll]
  simp [placeholders]

theorem of_mem_mergeExpected {module : Module} (h : module ∈ mergeExpected modules expected addon) :
    module.addon = addon ∧ module.profiles = profilesOf expected module.name := by
  have hmem := (perm_worstFirst _).mem_iff.1 h
  obtain ⟨before, -, rfl⟩ := List.mem_map.1 hmem
  exact ⟨rfl, rfl⟩

theorem mem_profilesOf {name profile : String} :
    profile ∈ profilesOf expected name ↔
      ∃ item ∈ expected, item.module = name ∧ profile ∈ item.profiles := by
  unfold profilesOf
  rw [List.mem_insertionSort, List.mem_dedup, List.mem_flatMap]
  simp [and_assoc]

/-! ### The lines of the output -/

theorem deriveHealth_ne_missing (state statusText : String) : deriveHealth state statusText ≠ .missing := by
  unfold deriveHealth
  repeat' split
  all_goals exact fun h => by cases h

/-- A container that was read has a name, and is there. -/
theorem of_mem_entriesOf {output : String} {entry : Entry} (h : entry ∈ entriesOf output) :
    entry.container.name ≠ "" ∧ entry.container.health ≠ .missing := by
  obtain ⟨line, -, hline⟩ := List.mem_filterMap.1 h
  unfold parsePsLine at hline
  split at hline
  · split at hline
    · cases hline
    · next hname =>
        obtain rfl := Option.some.inj hline
        exact ⟨hname, deriveHealth_ne_missing _ _⟩
  · cases hline

theorem mem_entriesIn {output project : String} {entry : Entry} :
    entry ∈ entriesIn output project ↔ entry ∈ entriesOf output ∧ entry.project = project := by
  simp [entriesIn]

/-! ### The sections of the page -/

variable {deployment : Deployment} {output : String}

/-- Every declared list with its project: the core's, and that of each active add-on. -/
def declaredLists (deployment : Deployment) : List (String × List ExpectedService) :=
  (composeProject deployment.env, expectedCore deployment) :: activeAddons deployment

/-- The lists that are merged for a project, each with the add-on that its modules are shown for. -/
def sectionsOf (deployment : Deployment) (project : String) : List (String × List ExpectedService) :=
  (if project = composeProject deployment.env then [("", expectedCore deployment)] else []) ++
    (addonSections deployment).filter (·.1 = project)

/-- The same lists alone. -/
def keptLists (deployment : Deployment) (project : String) : List (List ExpectedService) :=
  (sectionsOf deployment project).map Prod.snd

theorem addonProjects_eq (deployment : Deployment) :
    addonProjects deployment =
      Grouped.table ((activeAddons deployment).map Prod.fst).eraseDups fun project =>
        ((activeAddons deployment).filter (·.1 = project)).foldl (fun _ item => item.2) [] :=
  Grouped.foldl_change Prod.fst [] (fun item _ => item.2) (activeAddons deployment)

theorem keys_addonProjects (deployment : Deployment) :
    (addonProjects deployment).map Prod.fst = ((activeAddons deployment).map Prod.fst).eraseDups := by
  rw [addonProjects_eq, Grouped.table, List.map_map]
  exact List.map_id _

theorem perm_addonSections (deployment : Deployment) :
    (addonSections deployment).Perm (addonProjects deployment) :=
  List.perm_insertionSort _ _

theorem mem_keys_addonSections {project : String} :
    project ∈ (addonSections deployment).map Prod.fst ↔
      project ∈ (activeAddons deployment).map Prod.fst := by
  rw [((perm_addonSections deployment).map Prod.fst).mem_iff, keys_addonProjects, List.mem_eraseDups]

theorem nodup_keys_addonSections : ((addonSections deployment).map Prod.fst).Nodup := by
  rw [((perm_addonSections deployment).map Prod.fst).nodup_iff, keys_addonProjects]
  exact Grouped.nodup_eraseDups _

/-- What overwrites to the end is one of the things that overwrite. -/
theorem foldl_last {α β : Type} (value : α → β) (default : β) {items : List α} (h : items ≠ []) :
    ∃ item ∈ items, items.foldl (fun _ item => value item) default = value item := by
  induction items using List.reverseRecOn with
  | nil => exact absurd rfl h
  | append_singleton items item ih =>
      refine ⟨item, List.mem_append_right _ List.mem_cons_self, ?_⟩
      rw [List.foldl_append]
      rfl

theorem mem_activeAddons_of_section {item : String × List ExpectedService}
    (h : item ∈ addonSections deployment) : item ∈ activeAddons deployment := by
  rw [(perm_addonSections deployment).mem_iff, addonProjects_eq] at h
  obtain ⟨project, hproject, rfl⟩ := List.mem_map.1 h
  rw [List.mem_eraseDups] at hproject
  obtain ⟨active, hactive, rfl⟩ := List.mem_map.1 hproject
  have hsome : ((activeAddons deployment).filter (·.1 = active.1)) ≠ [] := by
    apply List.ne_nil_of_mem
    exact List.mem_filter.2 ⟨hactive, by simp⟩
  obtain ⟨last, hlast, heq⟩ := foldl_last Prod.snd [] hsome
  obtain ⟨hmem, hkey⟩ := List.mem_filter.1 hlast
  have hsame : last = (active.1, last.2) := Prod.ext (by simpa using hkey) rfl
  dsimp only
  rw [heq, ← hsame]
  exact hmem

theorem mem_declaredLists_of_section {project : String} {item : String × List ExpectedService}
    (h : item ∈ sectionsOf deployment project) : (project, item.2) ∈ declaredLists deployment := by
  rcases List.mem_append.1 h with hcore | haddon
  · split at hcore
    · next hproject =>
        obtain rfl := List.mem_singleton.1 hcore
        rw [hproject]
        exact List.mem_cons_self
    · cases hcore
  · obtain ⟨hmem, hkey⟩ := List.mem_filter.1 haddon
    have hproject : item.1 = project := by simpa using hkey
    have hsame : (project, item.2) = item := Prod.ext hproject.symm rfl
    rw [hsame]
    exact List.mem_cons_of_mem _ (mem_activeAddons_of_section hmem)

/-- A project that is declared has a list that is merged. -/
theorem sectionsOf_ne_nil {project : String} {items : List ExpectedService}
    (h : (project, items) ∈ declaredLists deployment) : sectionsOf deployment project ≠ [] := by
  rcases List.mem_cons.1 h with heq | haddon
  · obtain ⟨rfl, -⟩ := Prod.mk.inj heq
    unfold sectionsOf
    rw [if_pos rfl]
    exact List.cons_ne_nil _ _
  · have hkey : project ∈ (addonSections deployment).map Prod.fst :=
      mem_keys_addonSections.2 (List.mem_map.2 ⟨_, haddon, rfl⟩)
    obtain ⟨kept, hkept, rfl⟩ := List.mem_map.1 hkey
    apply List.ne_nil_of_mem
    apply List.mem_append_right
    exact List.mem_filter.2 ⟨hkept, by simp⟩

/-- The core's project has no container, where it is an active add-on's as well. -/
def SingleSections (deployment : Deployment) (output : String) : Prop :=
  composeProject deployment.env ∈ (activeAddons deployment).map Prod.fst →
    entriesIn output (composeProject deployment.env) = []

theorem reported_of_none {project : String} (h : entriesIn output project = []) :
    reported output project = [] := by
  rw [reported, found_parsePsOutput, pairsIn, h]
  rfl

theorem sharedModules_nil (expected : List ExpectedService) : sharedModules [] expected = [] := rfl

theorem core_of_single (h : SingleSections deployment output) :
    (buildSnapshot deployment output).core =
      mergeExpected (reported output (composeProject deployment.env)) (expectedCore deployment) "" := by
  unfold buildSnapshot
  dsimp only
  split
  · rfl
  · next expected hlookup =>
      have hkey : composeProject deployment.env ∈ (addonSections deployment).map Prod.fst := by
        obtain ⟨l₁, l₂, hsplit, -⟩ := List.lookup_eq_some_iff.1 hlookup
        rw [hsplit]
        simp
      have hnone : found (parsePsOutput output) (composeProject deployment.env) = [] :=
        reported_of_none (h (mem_keys_addonSections.1 hkey))
      rw [reported, hnone, sharedModules_nil]
      exact List.map_id _

theorem addons_of_single (h : SingleSections deployment output) :
    (buildSnapshot deployment output).addons =
      (addonSections deployment).flatMap fun item =>
        mergeExpected (reported output item.1) item.2 item.1 := by
  unfold buildSnapshot
  dsimp only
  apply List.flatMap_congr
  intro item hitem
  split
  · next hcore =>
      have hkey : composeProject deployment.env ∈ (addonSections deployment).map Prod.fst :=
        List.mem_map.2 ⟨item, hitem, hcore⟩
      have hnone : found (parsePsOutput output) (composeProject deployment.env) = [] :=
        reported_of_none (h (mem_keys_addonSections.1 hkey))
      rw [hcore, reported, hnone, sharedModules_nil]
  · rfl

/-! ### The law -/

/-- The modules that the page shows for a project. -/
def shownOf (deployment : Deployment) (snapshot : Snapshot) (project : String) : List Module :=
  (if project = composeProject deployment.env then snapshot.core else []) ++
    snapshot.addons.filter (·.addon = project)

/-- The names of all containers on the page, once for each place they are at. -/
def shownNames (snapshot : Snapshot) : List String :=
  (pairsOf (snapshot.core ++ snapshot.addons)).map fun pair => pair.2.name

def isMissing (service : String) (container : Container) : Bool :=
  container.service = service ∧ container.health = .missing

def isLive (service : String) (container : Container) : Bool :=
  container.service = service ∧ container.health ≠ .missing

/-- A service stands among the containers as its own ones, or as one placeholder. -/
def Represented (containers : List Container) (service : String) : Prop :=
  (0 < containers.countP (isLive service) ∧ containers.countP (isMissing service) = 0) ∨
    (containers.countP (isLive service) = 0 ∧ containers.countP (isMissing service) = 1)

/-- What is asked of the page. -/
structure ServicesLaw (deployment : Deployment) (output : String) (snapshot : Snapshot) : Prop where
  /-- A container of a project of the page is in its module, and at one place. -/
  containers : ∀ entry ∈ entriesOf output, entry.project ∈ (declaredLists deployment).map Prod.fst →
    (∃ module ∈ snapshot.core ++ snapshot.addons,
      module.name = entry.module ∧ entry.container ∈ module.containers) ∧
      (shownNames snapshot).count entry.container.name = 1
  strangers : ∀ entry ∈ entriesOf output, entry.project ∉ (declaredLists deployment).map Prod.fst →
    (shownNames snapshot).count entry.container.name = 0
  declared : ∀ project items, (project, items) ∈ declaredLists deployment → ∀ item ∈ items,
    Represented ((pairsOf (shownOf deployment snapshot project)).map Prod.snd) item.service
  names : ∀ project, ((shownOf deployment snapshot project).map Module.name).Nodup
  profiles : ∀ project, ∀ module ∈ shownOf deployment snapshot project, ∀ profile,
    profile ∈ module.profiles ↔ ∃ items, (project, items) ∈ declaredLists deployment ∧
      ∃ item ∈ items, item.module = module.name ∧ profile ∈ item.profiles

/-- A declared service has no container. -/
def Absent (output project service : String) : Prop :=
  ∀ entry ∈ entriesIn output project, entry.container.service ≠ service

/-- A module is shown for a list of a project: it has a container, or a service without one. -/
def Shown (output project : String) (items : List ExpectedService) (name : String) : Prop :=
  (∃ entry ∈ entriesIn output project, entry.module = name) ∨
    ∃ item ∈ items, Absent output project item.service ∧ item.module = name

/-- Declared lists that do not get into each other's way. -/
structure Apart (deployment : Deployment) (output : String) : Prop where
  single : SingleSections deployment output
  /-- A service without a container is declared once in the lists that are merged. -/
  once : ∀ project items, (project, items) ∈ declaredLists deployment → ∀ item ∈ items,
    Absent output project item.service →
      (keptLists deployment project).flatten.countP (·.service = item.service) = 1
  /-- An add-on of the core's project has no module of the core. -/
  modules : ∀ items, (composeProject deployment.env, items) ∈ addonSections deployment →
    ∀ one ∈ expectedCore deployment, ∀ other ∈ items, one.module ≠ other.module
  /-- The profiles of a module that is shown for a list are declared in that list. -/
  profiles : ∀ project items, (project, items) ∈ declaredLists deployment →
    ∀ kept ∈ keptLists deployment project, ∀ item ∈ items, Shown output project kept item.module →
      ∀ profile ∈ item.profiles, ∃ own ∈ kept, own.module = item.module ∧ profile ∈ own.profiles

/-! ### The page where the core's project is its own -/

theorem filter_flatMap_key {α β : Type} {f : α → List β} (key : α → String) (tag : β → String)
    (project : String) {items : List α} (h : ∀ item ∈ items, ∀ b ∈ f item, tag b = key item) :
    (items.flatMap f).filter (fun b => tag b = project) =
      (items.filter fun item => key item = project).flatMap f := by
  induction items with
  | nil => rfl
  | cons item rest ih =>
      rw [List.forall_mem_cons] at h
      rw [List.flatMap_cons, List.filter_append, ih h.2]
      by_cases hkey : key item = project
      · have hall : (f item).filter (fun b => tag b = project) = f item := by
          rw [List.filter_eq_self]
          exact fun b hb => by simpa using (h.1 b hb).trans hkey
        rw [hall, List.filter_cons_of_pos (by simpa using hkey), List.flatMap_cons]
      · have hnone : (f item).filter (fun b => tag b = project) = [] := by
          rw [List.filter_eq_nil_iff]
          intro b hb htag
          have hproject : tag b = project := by simpa using htag
          exact hkey ((h.1 b hb).symm.trans hproject)
        rw [hnone, List.filter_cons_of_neg (by simpa using hkey), List.nil_append]

/-- The page shows for a project what each of its lists is merged to. -/
theorem shownOf_of_single (h : SingleSections deployment output) (project : String) :
    shownOf deployment (buildSnapshot deployment output) project =
      (sectionsOf deployment project).flatMap fun item =>
        mergeExpected (reported output project) item.2 item.1 := by
  have haddons : (buildSnapshot deployment output).addons.filter (·.addon = project) =
      ((addonSections deployment).filter (·.1 = project)).flatMap fun item =>
        mergeExpected (reported output project) item.2 item.1 := by
    rw [addons_of_single h, filter_flatMap_key Prod.fst Module.addon project
      fun item _ module hmodule => (of_mem_mergeExpected hmodule).1]
    apply List.flatMap_congr
    intro item hitem
    have hproject : item.1 = project := by simpa using (List.mem_filter.1 hitem).2
    rw [hproject]
  unfold shownOf sectionsOf
  rw [haddons, List.flatMap_append]
  by_cases hcore : project = composeProject deployment.env
  · rw [if_pos hcore, if_pos hcore, core_of_single h, List.flatMap_singleton, hcore]
  · rw [if_neg hcore, if_neg hcore, List.flatMap_nil]

/-- What a list is merged to, as containers. -/
def sectionPairs (output project : String) (items : List ExpectedService) :
    List (String × Container) :=
  placeholders (seenServices (reported output project)) items ++ pairsIn output project

theorem perm_sectionPairs (output project : String) (item : String × List ExpectedService) :
    (pairsOf (mergeExpected (reported output project) item.2 item.1)).Perm
      (sectionPairs output project item.2) :=
  pairsOf_mergeExpected.trans ((pairsOf_reported output project).append_left _)

theorem perm_pairsOf_shownOf (h : SingleSections deployment output) (project : String) :
    (pairsOf (shownOf deployment (buildSnapshot deployment output) project)).Perm
      ((keptLists deployment project).flatMap (sectionPairs output project)) := by
  unfold pairsOf keptLists
  rw [shownOf_of_single h, List.flatMap_assoc, List.flatMap_map]
  exact List.Perm.flatMap_left _ fun item _ => perm_sectionPairs output project item

/-! ### Declared services -/

theorem countP_missing_section (output project service : String) (items : List ExpectedService) :
    ((sectionPairs output project items).map Prod.snd).countP (isMissing service) =
      if service ∈ seenServices (reported output project) then 0
      else items.countP (·.service = service) := by
  have hlive : ((pairsIn output project).map Prod.snd).countP (isMissing service) = 0 := by
    rw [List.countP_eq_zero]
    intro container hcontainer hmissing
    simp only [pairsIn, List.map_map, List.mem_map, Function.comp_apply] at hcontainer
    obtain ⟨entry, hentry, rfl⟩ := hcontainer
    simp only [isMissing, decide_eq_true_eq] at hmissing
    exact (of_mem_entriesOf (mem_entriesIn.1 hentry).1).2 hmissing.2
  unfold sectionPairs placeholders unseen
  rw [List.map_append, List.countP_append, hlive, Nat.add_zero, List.map_map, List.countP_map,
    List.countP_filter]
  split
  · next hseen =>
      rw [List.countP_eq_zero]
      intro item _ hboth
      simp only [Function.comp_apply, isMissing, placeholder, Bool.and_eq_true,
        decide_eq_true_eq] at hboth
      exact hboth.2 (hboth.1.1 ▸ hseen)
  · next hnew =>
      apply List.countP_congr
      intro item _
      simp only [Function.comp_apply, isMissing, placeholder, Bool.and_eq_true, decide_eq_true_eq,
        and_true]
      constructor
      · exact And.left
      · exact fun heq => ⟨heq, heq ▸ hnew⟩

theorem countP_live_section (output project service : String) (items : List ExpectedService) :
    ((sectionPairs output project items).map Prod.snd).countP (isLive service) =
      (entriesIn output project).countP fun entry => entry.container.service = service := by
  have hnone : ((placeholders (seenServices (reported output project)) items).map Prod.snd).countP
      (isLive service) = 0 := by
    rw [List.countP_eq_zero]
    intro container hcontainer hlive
    simp only [placeholders, List.map_map, List.mem_map, Function.comp_apply] at hcontainer
    obtain ⟨item, -, rfl⟩ := hcontainer
    simp [isLive, placeholder] at hlive
  unfold sectionPairs pairsIn
  rw [List.map_append, List.countP_append, hnone, Nat.zero_add, List.map_map, List.countP_map]
  apply List.countP_congr
  intro entry hentry
  have hthere := (of_mem_entriesOf (mem_entriesIn.1 hentry).1).2
  simp [isLive, hthere]

theorem countP_missing_sections (output project service : String)
    (lists : List (List ExpectedService)) :
    ((lists.flatMap (sectionPairs output project)).map Prod.snd).countP (isMissing service) =
      if service ∈ seenServices (reported output project) then 0
      else lists.flatten.countP (·.service = service) := by
  induction lists with
  | nil =>
      split
      · rfl
      · rfl
  | cons items rest ih =>
      rw [List.flatMap_cons, List.map_append, List.countP_append, countP_missing_section, ih,
        List.flatten_cons, List.countP_append]
      split
      · rfl
      · rfl

theorem countP_live_sections (output project service : String)
    (lists : List (List ExpectedService)) :
    ((lists.flatMap (sectionPairs output project)).map Prod.snd).countP (isLive service) =
      lists.length * (entriesIn output project).countP fun entry => entry.container.service = service := by
  induction lists with
  | nil => exact (Nat.zero_mul _).symm
  | cons items rest ih =>
      rw [List.flatMap_cons, List.map_append, List.countP_append, countP_live_section, ih,
        List.length_cons, Nat.add_mul, Nat.one_mul, Nat.add_comm]

/-- A service is represented where it has a container, or is declared once. -/
theorem represented_iff (h : SingleSections deployment output) {project : String}
    {items : List ExpectedService} (hlist : (project, items) ∈ declaredLists deployment)
    (service : String) :
    Represented ((pairsOf (shownOf deployment (buildSnapshot deployment output) project)).map Prod.snd)
        service ↔
      (Absent output project service →
        (keptLists deployment project).flatten.countP (·.service = service) = 1) := by
  have hperm := (perm_pairsOf_shownOf h project).map Prod.snd
  have hsome : 0 < (keptLists deployment project).length := by
    unfold keptLists
    rw [List.length_map]
    exact List.length_pos_iff.2 (sectionsOf_ne_nil hlist)
  unfold Represented
  rw [hperm.countP_eq, hperm.countP_eq, countP_missing_sections, countP_live_sections]
  by_cases habsent : Absent output project service
  · have hunseen : service ∉ seenServices (reported output project) := by
      rw [mem_seenServices_reported]
      rintro ⟨entry, hentry, hservice⟩
      exact habsent entry hentry hservice
    have hnone : ((entriesIn output project).countP fun entry => entry.container.service = service) = 0 := by
      rw [List.countP_eq_zero]
      exact fun entry hentry => by simpa using habsent entry hentry
    rw [hnone, if_neg hunseen, Nat.mul_zero]
    simp [habsent]
  · refine iff_of_true (.inl ?_) fun hnone => absurd hnone habsent
    obtain ⟨entry, hentry, hservice⟩ : ∃ entry ∈ entriesIn output project,
        entry.container.service = service := by
      unfold Absent at habsent
      push Not at habsent
      exact habsent
    rw [if_pos (mem_seenServices_reported.2 ⟨entry, hentry, hservice⟩)]
    have hfound : 0 < (entriesIn output project).countP fun entry => entry.container.service = service :=
      List.countP_pos_iff.2 ⟨entry, hentry, by simpa using hservice⟩
    exact ⟨Nat.mul_pos hsome hfound, rfl⟩

/-! ### Containers -/

theorem count_section {entry : Entry} (hunique : ((entriesOf output).map (·.container.name)).Nodup)
    (hentry : entry ∈ entriesOf output) (item : String × List ExpectedService) (project : String) :
    ((pairsOf (mergeExpected (reported output project) item.2 item.1)).map
        (·.2.name)).count entry.container.name = if entry.project = project then 1 else 0 := by
  have hname := (of_mem_entriesOf hentry).1
  have hplaceholders : ((placeholders (seenServices (reported output project)) item.2).map
      (·.2.name)).count entry.container.name = 0 := by
    rw [List.count_eq_zero]
    intro hmem
    simp only [placeholders, List.map_map, List.mem_map, Function.comp_apply] at hmem
    obtain ⟨missing, -, hmissing⟩ := hmem
    exact hname hmissing.symm
  have hpairs : (pairsIn output project).map (·.2.name) =
      (entriesIn output project).map (·.container.name) := by
    unfold pairsIn
    rw [List.map_map]
    rfl
  rw [((perm_sectionPairs output project item).map _).count_eq, sectionPairs, List.map_append,
    List.count_append, hplaceholders, Nat.zero_add, hpairs]
  split
  · next hproject =>
      apply List.count_eq_one_of_mem
      · exact hunique.sublist (List.filter_sublist.map _)
      · exact List.mem_map.2 ⟨entry, mem_entriesIn.2 ⟨hentry, hproject⟩, rfl⟩
  · next hother =>
      rw [List.count_eq_zero]
      intro hmem
      obtain ⟨found, hfound, hsame⟩ := List.mem_map.1 hmem
      obtain ⟨hfoundIn, hproject⟩ := mem_entriesIn.1 hfound
      obtain rfl := List.inj_on_of_nodup_map hunique hfoundIn hentry hsame
      exact hother hproject

theorem count_sections {entry : Entry} (hunique : ((entriesOf output).map (·.container.name)).Nodup)
    (hentry : entry ∈ entriesOf output) (sections : List (String × List ExpectedService)) :
    ((pairsOf (sections.flatMap fun item => mergeExpected (reported output item.1) item.2 item.1)).map
        (·.2.name)).count entry.container.name = (sections.map Prod.fst).count entry.project := by
  induction sections with
  | nil => rfl
  | cons item rest ih =>
      rw [List.flatMap_cons, pairsOf_append, List.map_append, List.count_append, ih,
        count_section hunique hentry, List.map_cons, List.count_cons, Nat.add_comm]
      congr 1
      by_cases hproject : entry.project = item.1
      · simp [hproject]
      · simp [hproject, Ne.symm hproject]

/-- At how many places of the page a container is. -/
theorem count_shownNames (h : SingleSections deployment output) {entry : Entry}
    (hunique : ((entriesOf output).map (·.container.name)).Nodup) (hentry : entry ∈ entriesOf output) :
    (shownNames (buildSnapshot deployment output)).count entry.container.name =
      if entry.project ∈ (declaredLists deployment).map Prod.fst then 1 else 0 := by
  have hcore := count_section hunique hentry ("", expectedCore deployment)
    (composeProject deployment.env)
  have haddons := count_sections hunique hentry (addonSections deployment)
  have hkeys : entry.project ∈ (addonSections deployment).map Prod.fst ↔
      entry.project ∈ (activeAddons deployment).map Prod.fst := mem_keys_addonSections
  unfold shownNames declaredLists
  rw [pairsOf_append, List.map_append, List.count_append, core_of_single h, addons_of_single h, haddons,
    hcore, List.map_cons]
  by_cases hproject : entry.project = composeProject deployment.env
  · have hnone : entry.project ∉ (addonSections deployment).map Prod.fst := by
      intro hmem
      rw [hkeys, hproject] at hmem
      have hin := mem_entriesIn.2 ⟨hentry, hproject⟩
      rw [h hmem] at hin
      exact List.not_mem_nil hin
    rw [if_pos hproject, List.count_eq_zero_of_not_mem hnone, if_pos]
    rw [hproject]
    exact List.mem_cons_self
  · rw [if_neg hproject, Nat.zero_add]
    by_cases hmem : entry.project ∈ (addonSections deployment).map Prod.fst
    · rw [List.count_eq_one_of_mem nodup_keys_addonSections hmem, if_pos]
      exact List.mem_cons_of_mem _ (hkeys.1 hmem)
    · rw [List.count_eq_zero_of_not_mem hmem, if_neg]
      rw [List.mem_cons, not_or]
      exact ⟨hproject, fun hactive => hmem (hkeys.2 hactive)⟩

/-- A container of a project of the page is in a module of its own name. -/
theorem module_of_entry (h : SingleSections deployment output) {entry : Entry}
    (hentry : entry ∈ entriesOf output)
    (hproject : entry.project ∈ (declaredLists deployment).map Prod.fst) :
    ∃ module ∈ (buildSnapshot deployment output).core ++ (buildSnapshot deployment output).addons,
      module.name = entry.module ∧ entry.container ∈ module.containers := by
  have hpair : ∀ item : String × List ExpectedService, (entry.module, entry.container) ∈
      pairsOf (mergeExpected (reported output entry.project) item.2 item.1) := by
    intro item
    rw [(perm_sectionPairs output entry.project item).mem_iff]
    apply List.mem_append_right
    exact List.mem_map.2 ⟨entry, mem_entriesIn.2 ⟨hentry, rfl⟩, rfl⟩
  obtain ⟨⟨project, items⟩, hlist, heq⟩ := List.mem_map.1 hproject
  obtain rfl : project = entry.project := heq
  obtain ⟨item, rest, hsections⟩ := List.exists_cons_of_ne_nil (sectionsOf_ne_nil hlist)
  obtain ⟨module, hmodule, hin⟩ := mem_pairsOf.1 (hpair item)
  have hshown : module ∈ shownOf deployment (buildSnapshot deployment output) entry.project := by
    rw [shownOf_of_single h, hsections, List.flatMap_cons]
    exact List.mem_append_left _ hmodule
  refine ⟨module, ?_, hin⟩
  rcases List.mem_append.1 hshown with hcore | haddon
  · split at hcore
    · exact List.mem_append_left _ hcore
    · cases hcore
  · exact List.mem_append_right _ (List.mem_of_mem_filter haddon)

/-! ### Names and profiles of modules -/

theorem mem_unseen_reported {project : String} {items : List ExpectedService}
    {item : ExpectedService} :
    item ∈ unseen (seenServices (reported output project)) items ↔
      item ∈ items ∧ Absent output project item.service := by
  unfold unseen Absent
  rw [List.mem_filter, decide_eq_true_eq, mem_seenServices_reported]
  push Not
  rfl

/-- Which modules a list is merged to. -/
theorem mem_names_section {project name : String} {item : String × List ExpectedService} :
    name ∈ (mergeExpected (reported output project) item.2 item.1).map Module.name ↔
      Shown output project item.2 name := by
  rw [mem_names_mergeExpected, mem_names_reported]
  unfold Shown
  refine or_congr Iff.rfl (exists_congr fun found => ?_)
  rw [mem_unseen_reported, and_assoc]

/-- One key stands at one place. -/
theorem filter_key {β : Type} {items : List (String × β)} (h : (items.map Prod.fst).Nodup)
    (key : String) :
    items.filter (·.1 = key) = [] ∨ ∃ item ∈ items, item.1 = key ∧ items.filter (·.1 = key) = [item] := by
  induction items with
  | nil => exact .inl rfl
  | cons item rest ih =>
      rw [List.map_cons, List.nodup_cons] at h
      by_cases hkey : item.1 = key
      · have hnone : rest.filter (·.1 = key) = [] := by
          rw [List.filter_eq_nil_iff]
          intro other hother hsame
          have hsameKey : other.1 = key := by simpa using hsame
          exact h.1 (List.mem_map.2 ⟨other, hother, hsameKey.trans hkey.symm⟩)
        refine .inr ⟨item, List.mem_cons_self, hkey, ?_⟩
        rw [List.filter_cons_of_pos (by simpa using hkey), hnone]
      · rw [List.filter_cons_of_neg (by simpa using hkey)]
        rcases ih h.2 with hnone | ⟨found, hfound, hsame, hfilter⟩
        · exact .inl hnone
        · exact .inr ⟨found, List.mem_cons_of_mem _ hfound, hsame, hfilter⟩

theorem names_iff (h : SingleSections deployment output) :
    (∀ project, ((shownOf deployment (buildSnapshot deployment output) project).map Module.name).Nodup) ↔
      ∀ items, (composeProject deployment.env, items) ∈ addonSections deployment →
        ∀ one ∈ expectedCore deployment, ∀ other ∈ items, one.module ≠ other.module := by
  have hsection : ∀ project (item : String × List ExpectedService),
      ((mergeExpected (reported output project) item.2 item.1).map Module.name).Nodup :=
    fun project item => nodup_mergeExpected (nodup_reported output project)
  have habsent : ∀ items, (composeProject deployment.env, items) ∈ addonSections deployment →
      ∀ (list : String × List ExpectedService) name,
        name ∈ (mergeExpected (reported output (composeProject deployment.env)) list.2 list.1).map
          Module.name ↔ ∃ item ∈ list.2, item.module = name := by
    intro items hitems list name
    have hnone := h (mem_keys_addonSections.1 (List.mem_map.2 ⟨_, hitems, rfl⟩))
    rw [mem_names_section]
    unfold Shown Absent
    rw [hnone]
    simp
  constructor
  · intro hnames items hitems one hone other hother hsame
    have hcore := hnames (composeProject deployment.env)
    rw [shownOf_of_single h, sectionsOf, if_pos rfl, List.flatMap_append, List.map_append,
      List.nodup_append] at hcore
    apply hcore.2.2 one.module _ other.module _ hsame
    · rw [List.flatMap_singleton, habsent items hitems ("", expectedCore deployment)]
      exact ⟨one, hone, rfl⟩
    · obtain ⟨module, hmodule, hname⟩ := List.mem_map.1
        ((habsent items hitems (composeProject deployment.env, items) other.module).2 ⟨other, hother, rfl⟩)
      apply List.mem_map.2
      refine ⟨module, List.mem_flatMap.2 ⟨_, List.mem_filter.2 ⟨hitems, by simp⟩, hmodule⟩, hname⟩
  · intro hmodules project
    rw [shownOf_of_single h, sectionsOf]
    rcases filter_key (@nodup_keys_addonSections deployment) project with
      hnone | ⟨item, hitem, hkey, hfilter⟩
    · rw [hnone, List.append_nil]
      split
      · rw [List.flatMap_singleton]
        exact hsection _ _
      · exact List.nodup_nil
    · rw [hfilter]
      split
      · next hcore =>
          have hitems : (composeProject deployment.env, item.2) ∈ addonSections deployment := by
            rw [← hcore, ← hkey]
            exact hitem
          rw [List.flatMap_append, List.flatMap_singleton, List.flatMap_singleton, List.map_append,
            List.nodup_append]
          refine ⟨hsection _ _, hsection _ _, ?_⟩
          intro name hname other hother hsame
          rw [hcore, habsent item.2 hitems] at hname hother
          obtain ⟨one, hone, rfl⟩ := hname
          obtain ⟨two, htwo, rfl⟩ := hother
          exact hmodules item.2 hitems one hone two htwo hsame
      · rw [List.nil_append, List.flatMap_singleton]
        exact hsection _ _

theorem profiles_iff (h : SingleSections deployment output) :
    (∀ project, ∀ module ∈ shownOf deployment (buildSnapshot deployment output) project, ∀ profile,
      profile ∈ module.profiles ↔ ∃ items, (project, items) ∈ declaredLists deployment ∧
        ∃ item ∈ items, item.module = module.name ∧ profile ∈ item.profiles) ↔
    ∀ project items, (project, items) ∈ declaredLists deployment →
      ∀ kept ∈ keptLists deployment project, ∀ item ∈ items, Shown output project kept item.module →
        ∀ profile ∈ item.profiles, ∃ own ∈ kept, own.module = item.module ∧ profile ∈ own.profiles := by
  constructor
  · intro hprofiles project items hitems kept hkept item hitem hshown profile hprofile
    obtain ⟨list, hlist, rfl⟩ := List.mem_map.1 hkept
    obtain ⟨module, hmodule, hname⟩ := List.mem_map.1 (mem_names_section.2 hshown)
    have hon : module ∈ shownOf deployment (buildSnapshot deployment output) project := by
      rw [shownOf_of_single h]
      exact List.mem_flatMap.2 ⟨list, hlist, hmodule⟩
    have hown := (hprofiles project module hon profile).2
      ⟨items, hitems, item, hitem, hname.symm, hprofile⟩
    rw [(of_mem_mergeExpected hmodule).2, hname] at hown
    exact mem_profilesOf.1 hown
  · intro hkept project module hmodule profile
    rw [shownOf_of_single h] at hmodule
    obtain ⟨list, hlist, hin⟩ := List.mem_flatMap.1 hmodule
    rw [(of_mem_mergeExpected hin).2, mem_profilesOf]
    constructor
    · rintro ⟨item, hitem, hname, hprofile⟩
      exact ⟨list.2, mem_declaredLists_of_section hlist, item, hitem, hname, hprofile⟩
    · rintro ⟨items, hitems, item, hitem, hname, hprofile⟩
      have hshown : Shown output project list.2 module.name :=
        mem_names_section.1 (List.mem_map.2 ⟨module, hin, rfl⟩)
      rw [← hname] at hshown ⊢
      exact hkept project items hitems list.2 (List.mem_map.2 ⟨list, hlist, rfl⟩) item hitem hshown
        profile hprofile

/-! ### The page where an add-on shares the core's project -/

/-- The modules that were given stay at the front, with their containers. -/
theorem intoModule_front (name : String) (container : Container) (front news : List Module) :
    ∃ front' news', intoModule name container (front ++ news) = front' ++ news' ∧
      front'.length = front.length ∧ pairsOf front ⊆ pairsOf front' := by
  induction front with
  | nil => exact ⟨[], intoModule name container news, rfl, rfl, List.Subset.refl _⟩
  | cons module rest ih =>
      rw [List.cons_append, intoModule]
      split
      · refine ⟨_ :: rest, news, rfl, rfl, ?_⟩
        rw [pairsOf_cons, pairsOf_cons, List.map_append, List.append_assoc]
        intro pair hpair
        rcases List.mem_append.1 hpair with hown | hother
        · exact List.mem_append_left _ hown
        · exact List.mem_append_right _ (List.mem_append_right _ hother)
      · obtain ⟨front', news', hsplit, hlength, hpairs⟩ := ih
        refine ⟨module :: front', news', ?_, congrArg (· + 1) hlength, ?_⟩
        · rw [hsplit, List.cons_append]
        · rw [pairsOf_cons, pairsOf_cons]
          intro pair hpair
          rcases List.mem_append.1 hpair with hown | hother
          · exact List.mem_append_left _ hown
          · exact List.mem_append_right _ (hpairs hother)

theorem intoAll_front (pairs : List (String × Container)) (front news : List Module) :
    ∃ front' news', intoAll pairs (front ++ news) = front' ++ news' ∧
      front'.length = front.length ∧ pairsOf front ⊆ pairsOf front' := by
  induction pairs generalizing front news with
  | nil => exact ⟨front, news, rfl, rfl, List.Subset.refl _⟩
  | cons pair rest ih =>
      obtain ⟨front₁, news₁, hstep, hlength₁, hpairs₁⟩ := intoModule_front pair.1 pair.2 front news
      obtain ⟨front₂, news₂, hrest, hlength₂, hpairs₂⟩ := ih front₁ news₁
      refine ⟨front₂, news₂, ?_, hlength₂.trans hlength₁, List.Subset.trans hpairs₁ hpairs₂⟩
      rw [← hrest, ← hstep]
      rfl

/-- A merge leaves the containers of the modules it was given in these modules. -/
theorem pairsOf_take_merged (modules : List Module) (expected : List ExpectedService) (addon : String) :
    pairsOf modules ⊆ pairsOf ((merged modules expected addon).take modules.length) := by
  obtain ⟨front, news, hsplit, hlength, hpairs⟩ :=
    intoAll_front (placeholders (seenServices modules) expected) modules []
  rw [List.append_nil] at hsplit
  have htake : (merged modules expected addon).take modules.length =
      front.map (finish expected addon) := by
    unfold merged
    rw [foldl_declare, hsplit, List.map_append, List.take_left' (by rw [List.length_map, hlength])]
  rw [htake]
  exact fun pair hpair => (pairsOf_finish expected addon front).mem_iff.2 (hpairs hpair)

/-- What a module is changed to still has what the modules it was changed with have. -/
theorem mem_renewed {changed : List Module} (hnodup : (changed.map Module.name).Nodup)
    {module : Module} {container : Container} (hchanged : (module.name, container) ∈ pairsOf changed) :
    container ∈ (renewed changed module).containers := by
  obtain ⟨other, hother, hname, hin⟩ := mem_pairsOf.1 hchanged
  unfold renewed
  cases hfind : changed.find? (·.name = module.name) with
  | none =>
      have hnone := List.find?_eq_none.1 hfind other hother
      simp [hname] at hnone
  | some found =>
      have hfound : found.name = module.name := by simpa using List.find?_some hfind
      have hsame := List.inj_on_of_nodup_map hnodup (List.mem_of_find?_eq_some hfind) hother
        (hfound.trans hname.symm)
      rw [Option.getD_some, hsame]
      exact hin

/-- A container of the core's project is at two places, where an add-on has the same project. -/
theorem two_places {entry : Entry}
    (haddon : composeProject deployment.env ∈ (activeAddons deployment).map Prod.fst)
    (hentry : entry ∈ entriesIn output (composeProject deployment.env)) :
    2 ≤ (shownNames (buildSnapshot deployment output)).count entry.container.name := by
  obtain ⟨item, hitem, hkey⟩ := List.mem_map.1 (mem_keys_addonSections.2 haddon)
  have hpair : (entry.module, entry.container) ∈
      pairsOf (reported output (composeProject deployment.env)) := by
    rw [(pairsOf_reported _ _).mem_iff]
    exact List.mem_map.2 ⟨entry, hentry, rfl⟩
  have hnodup := nodup_reported output (composeProject deployment.env)
  have hshared := pairsOf_take_merged (reported output (composeProject deployment.env))
    (expectedCore deployment) "" hpair
  have hsharedNodup : ((sharedModules (reported output (composeProject deployment.env))
      (expectedCore deployment)).map Module.name).Nodup :=
    (nodup_merged hnodup).sublist ((List.take_sublist _ _).map _)
  have hcore : ∃ module ∈ (buildSnapshot deployment output).core, entry.container ∈ module.containers := by
    have hmerged : (entry.module, entry.container) ∈
        pairsOf (mergeExpected (reported output (composeProject deployment.env))
          (expectedCore deployment) "") := by
      rw [pairsOf_mergeExpected.mem_iff]
      exact List.mem_append_right _ hpair
    obtain ⟨module, hmodule, hname, hin⟩ := mem_pairsOf.1 hmerged
    unfold buildSnapshot
    dsimp only
    split
    · exact ⟨module, hmodule, hin⟩
    · next expected hlookup =>
        refine ⟨_, List.mem_map_of_mem hmodule, ?_⟩
        apply mem_renewed ((nodup_merged hsharedNodup).sublist ((List.take_sublist _ _).map _))
        rw [hname]
        exact pairsOf_take_merged _ _ _ hshared
  have haddons : ∃ module ∈ (buildSnapshot deployment output).addons, entry.container ∈ module.containers := by
    have hmerged : (entry.module, entry.container) ∈
        pairsOf (mergeExpected (sharedModules (reported output (composeProject deployment.env))
          (expectedCore deployment)) item.2 item.1) := by
      rw [pairsOf_mergeExpected.mem_iff]
      exact List.mem_append_right _ hshared
    obtain ⟨module, hmodule, -, hin⟩ := mem_pairsOf.1 hmerged
    refine ⟨module, List.mem_flatMap.2 ⟨item, hitem, ?_⟩, hin⟩
    dsimp only
    rw [if_pos hkey]
    exact hmodule
  have hplace : ∀ modules : List Module, (∃ module ∈ modules, entry.container ∈ module.containers) →
      0 < ((pairsOf modules).map (·.2.name)).count entry.container.name := by
    rintro modules ⟨module, hmodule, hin⟩
    rw [List.count_pos_iff]
    exact List.mem_map.2 ⟨(module.name, entry.container), mem_pairsOf.2 ⟨module, hmodule, rfl, hin⟩, rfl⟩
  have hfirst := hplace _ hcore
  have hsecond := hplace _ haddons
  unfold shownNames
  rw [pairsOf_append, List.map_append, List.count_append]
  omega

theorem single_of_law (law : ServicesLaw deployment output (buildSnapshot deployment output)) :
    SingleSections deployment output := by
  intro haddon
  rw [List.eq_nil_iff_forall_not_mem]
  intro entry hentry
  obtain ⟨hin, hproject⟩ := mem_entriesIn.1 hentry
  have hknown : entry.project ∈ (declaredLists deployment).map Prod.fst := by
    rw [hproject]
    exact List.mem_cons_self
  have hone := (law.containers entry hin hknown).2
  have htwo := two_places haddon hentry
  omega

/-- The page is as it is asked to be exactly where the declared lists are apart. -/
theorem services_law_iff (deployment : Deployment) (output : String)
    (hunique : ((entriesOf output).map (·.container.name)).Nodup) :
    ServicesLaw deployment output (buildSnapshot deployment output) ↔ Apart deployment output := by
  constructor
  · intro law
    have hsingle := single_of_law law
    exact
      { single := hsingle
        once := fun project items hlist item hitem =>
          (represented_iff hsingle hlist item.service).1 (law.declared project items hlist item hitem)
        modules := (names_iff hsingle).1 law.names
        profiles := (profiles_iff hsingle).1 law.profiles }
  · intro apart
    refine
      { containers := ?_
        strangers := ?_
        declared := fun project items hlist item hitem =>
          (represented_iff apart.single hlist item.service).2 (apart.once project items hlist item hitem)
        names := (names_iff apart.single).2 apart.modules
        profiles := (profiles_iff apart.single).2 apart.profiles }
    · intro entry hentry hknown
      refine ⟨module_of_entry apart.single hentry hknown, ?_⟩
      rw [count_shownNames apart.single hunique hentry, if_pos hknown]
    · intro entry hentry hunknown
      rw [count_shownNames apart.single hunique hentry, if_neg hunknown]

/-! ### One add-on, and names that collide -/

/-- A core with one service, and these add-ons, whose directories hold one service each. -/
def exampleDeployment (addons : List AddonEntry) (services : FsPath → String) : Deployment where
  env := Env.single "COMPOSE_PROFILES" "chat"
  fragments := [[.mk "librechat" "papaia-librechat" "app" ["chat"]]]
  addons := addons
  workspace := "/srv"
  compose := fun path => [.mk (services path) "" "" []]

def wikiDeployment : Deployment :=
  exampleDeployment [{ name := "wiki", active := true, path := "addons/wiki" }] fun _ => "wiki-app"

/-- One line of `docker ps`. -/
def psLine (project service module : String) : String :=
  "c1\trunning\tUp 2 hours\t" ++ project ++ "\t" ++ service ++ "\t" ++ module ++ "\tapp\t\n"

theorem services_law_of_wiki :
    ServicesLaw wikiDeployment (psLine "papaia" "librechat" "papaia-librechat")
      (buildSnapshot wikiDeployment (psLine "papaia" "librechat" "papaia-librechat")) := by
  apply (services_law_iff _ _ (by decide +kernel)).2
  have honce : ∀ pair ∈ declaredLists wikiDeployment, ∀ item ∈ pair.2,
      (∀ entry ∈ entriesIn (psLine "papaia" "librechat" "papaia-librechat") pair.1,
        entry.container.service ≠ item.service) →
      (keptLists wikiDeployment pair.1).flatten.countP (·.service = item.service) = 1 := by decide +kernel
  have hapart : composeProject wikiDeployment.env ∉ (activeAddons wikiDeployment).map Prod.fst := by
    decide +kernel
  have hprofiles : ∀ pair ∈ declaredLists wikiDeployment, ∀ kept ∈ keptLists wikiDeployment pair.1,
      ∀ item ∈ pair.2, ∀ profile ∈ item.profiles, ∃ own ∈ kept,
        own.module = item.module ∧ profile ∈ own.profiles := by decide +kernel
  exact
    { single := fun haddon => absurd haddon hapart
      once := fun project items hlist => honce (project, items) hlist
      modules := fun items hitems =>
        absurd (mem_keys_addonSections.1 (List.mem_map.2 ⟨_, hitems, rfl⟩)) hapart
      profiles := fun project items hlist kept hkept item hitem _ =>
        hprofiles (project, items) hlist kept hkept item hitem }

/-- Two add-ons in directories of one name, and one in a directory named like the core's project. -/
def namesakes : Deployment :=
  exampleDeployment [{ name := "wiki", active := true, path := "addons/wiki" },
      { name := "other-wiki", active := true, path := "/opt/wiki" }]
    fun path => if path.absolute ∧ path.parts = ["opt", "wiki"] then "other-app" else "wiki-app"

def coreNamesake : Deployment :=
  exampleDeployment [{ name := "papaia", active := true, path := "addons/papaia" }] fun _ => "extra"

/-- The services of the first of two namesakes are lost, a container of the core is shown again for an
add-on of its name, and a service that two fragments declare is missing twice. -/
theorem namesakes_lost_and_repeated :
    ¬ServicesLaw namesakes "" (buildSnapshot namesakes "") ∧
    ¬ServicesLaw coreNamesake (psLine "papaia" "librechat" "papaia-librechat")
      (buildSnapshot coreNamesake (psLine "papaia" "librechat" "papaia-librechat")) ∧
    ¬ServicesLaw { wikiDeployment with fragments := wikiDeployment.fragments ++ wikiDeployment.fragments } ""
      (buildSnapshot
        { wikiDeployment with fragments := wikiDeployment.fragments ++ wikiDeployment.fragments } "") := by
  refine ⟨?_, ?_, ?_⟩
  · intro law
    have hlost := law.declared "wiki" [expectedOf "wiki" (ComposeService.mk "wiki-app" "" "" [])]
      (by decide +kernel) _ List.mem_cons_self
    unfold Represented at hlost
    revert hlost
    decide +kernel
  · intro law
    have hsingle := single_of_law law
    revert hsingle
    unfold SingleSections
    decide +kernel
  · intro law
    have htwice := law.declared "papaia" (expectedCore _) List.mem_cons_self
      (expectedOf "other" (ComposeService.mk "librechat" "papaia-librechat" "app" ["chat"]))
      (by decide +kernel)
    unfold Represented at htwice
    revert htwice
    decide +kernel

end Papaia.Stack.Services
