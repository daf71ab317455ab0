/-
Module: Papaia.Proofs.RestoreScope
Purpose: When the guards of a scoped restore agree with what its selection covers.
Trusted boundary: none
Main exports: covers, requiring, Guarded, Named, OnNode, Agrees, requiresFullRestore_iff,
  mem_selectedProfiles, mem_selectedAddons, guarded_iff
-/
import Papaia.Backup.RestoreScope

namespace Papaia.Backup

open Text

/-! ### What a selection covers -/

/-- Whether a selector of the selection reaches an artifact: its module or add-on, the configuration, its
volume or its node. -/
def covers (controller : String) (selected : List String) (artifact : Artifact) : Bool :=
  artifact.selector.any (· ∈ selected) ||
    (artifact.kind = "configdir" && configSelector ∈ selected) ||
    (artifact.kind = "volume" && volumeSelector artifact.target ∈ selected) ||
    (remoteNode controller artifact).any fun node => "node:" ++ node ∈ selected

/-- Whether an artifact is of a module that is only restored together with its configuration. -/
def requiring (artifact : Artifact) : Bool :=
  artifact.selector.isSome && (presentationOf artifact).any Presentation.requiresConfig

/-- The guards agree with the selection: one that reaches such a module is refused, and of any other one
the profiles and the add-ons of everything it covers are known. -/
structure Guarded (rt : ScopeRuntime) (pointId controller : String) (artifacts : List Artifact)
    (selected : List String) : Prop where
  refused : (∃ artifact ∈ artifacts, covers controller selected artifact ∧ requiring artifact) →
    requiresFullRestore (buildGroups rt controller artifacts) selected = true ∧
      ∃ detail, scopedRestore rt pointId (buildGroups rt controller artifacts) selected =
        .error { status := 409, detail := detail }
  known : (¬∃ artifact ∈ artifacts, covers controller selected artifact ∧ requiring artifact) →
    ∀ artifact ∈ artifacts, covers controller selected artifact →
      (artifact.isAddon = false → ∀ profile ∈ artifact.profiles,
        profile ∈ selectedProfiles (buildGroups rt controller artifacts) selected) ∧
      (artifact.isAddon = true →
        artifact.module ∈ selectedAddons (buildGroups rt controller artifacts) selected)

/-- The selection names the module or the add-on of an artifact, or a volume that is offered of it. -/
def Named (artifacts : List Artifact) (selected : List String) (artifact : Artifact) : Prop :=
  ∃ selector, artifact.selector = some selector ∧
    (selector ∈ selected ∨ ∃ other ∈ artifacts, other.selector = some selector ∧
      other.isOffered = true ∧ volumeSelector other.target ∈ selected)

/-- The selection names a node that has something of the module or the add-on of an artifact. -/
def OnNode (controller : String) (artifacts : List Artifact) (selected : List String)
    (artifact : Artifact) : Prop :=
  ∃ selector, artifact.selector = some selector ∧ ∃ other ∈ artifacts,
    other.selector = some selector ∧
      ∃ node, remoteNode controller other = some node ∧ "node:" ++ node ∈ selected

/-- What is covered is covered by a selector the guards know of. -/
structure Agrees (controller : String) (artifacts : List Artifact) (selected : List String) :
    Prop where
  guard : ∀ artifact ∈ artifacts, covers controller selected artifact → requiring artifact →
    configSelector ∈ selected ∨ Named artifacts selected artifact ∨
      OnNode controller artifacts selected artifact
  profiles : (¬∃ artifact ∈ artifacts, covers controller selected artifact ∧ requiring artifact) →
    ∀ artifact ∈ artifacts, covers controller selected artifact → artifact.isAddon = false →
      ∀ profile ∈ artifact.profiles, ∃ other ∈ artifacts, profile ∈ other.profiles ∧
        ((Named artifacts selected other ∧ other.isAddon = false) ∨
          OnNode controller artifacts selected other)
  addons : (¬∃ artifact ∈ artifacts, covers controller selected artifact ∧ requiring artifact) →
    ∀ artifact ∈ artifacts, covers controller selected artifact → artifact.isAddon = true →
      ∃ other ∈ artifacts, other.isAddon = true ∧ other.module = artifact.module ∧
        Named artifacts selected other

/-! ### Selectors of artifacts -/

theorem selector_eq_some {artifact : Artifact} {selector : String} :
    artifact.selector = some selector ↔ artifact.module ≠ "" ∧ artifact.kind ≠ "configdir" ∧
      selector = (if artifact.isAddon then "addon:" else "module:") ++ artifact.module := by
  unfold Artifact.selector
  by_cases hmodule : artifact.module = ""
  · simp [hmodule]
  · by_cases hkind : artifact.kind = "configdir"
    · simp [hkind]
    · cases haddon : artifact.isAddon <;> simp [hmodule, hkind, eq_comm]

theorem append_left_cancel {start one two : String} (h : start ++ one = start ++ two) : one = two := by
  have hchars := congrArg String.toList h
  rw [String.toList_append, String.toList_append] at hchars
  exact String.toList_injective (List.append_cancel_left hchars)

theorem addonSelector_ne {one two : String} : "addon:" ++ one ≠ "module:" ++ two := by
  intro h
  have hchars := congrArg (fun text : String => text.toList.head?) h
  simp at hchars

/-- The selector of an artifact tells its module, and whether it is an add-on's. -/
theorem selector_inj {one two : Artifact} {selector : String} (hone : one.selector = some selector)
    (htwo : two.selector = some selector) : one.isAddon = two.isAddon ∧ one.module = two.module := by
  obtain ⟨-, -, hone⟩ := selector_eq_some.mp hone
  obtain ⟨-, -, htwo⟩ := selector_eq_some.mp htwo
  rw [hone] at htwo
  cases haddon : one.isAddon <;> cases haddon' : two.isAddon <;>
    simp only [haddon, haddon', if_true, Bool.false_eq_true, if_false] at htwo
  · exact ⟨rfl, append_left_cancel htwo⟩
  · exact absurd htwo.symm addonSelector_ne
  · exact absurd htwo addonSelector_ne
  · exact ⟨rfl, append_left_cancel htwo⟩

theorem selector_ne_config {artifact : Artifact} {selector : String}
    (h : artifact.selector = some selector) : selector ≠ configSelector := by
  obtain ⟨-, -, rfl⟩ := selector_eq_some.mp h
  intro heq
  have hchars := congrArg (fun text : String => text.toList.head?) heq
  cases haddon : artifact.isAddon <;> simp [haddon, configSelector] at hchars

theorem presentation_eq {one two : Artifact} {selector : String}
    (hone : one.selector = some selector) (htwo : two.selector = some selector) :
    presentationOf one = presentationOf two := by
  obtain ⟨haddon, hmodule⟩ := selector_inj hone htwo
  rw [presentationOf, presentationOf, haddon, hmodule]

/-- Only one module is of that kind. -/
theorem requiring_selector {artifact : Artifact} (h : requiring artifact = true) :
    artifact.selector = some "module:keycloak" := by
  have honly : ∀ entry ∈ modulePresentations, entry.2.requiresConfig = true →
      entry.1 = "keycloak" := by
    have hnames : (modulePresentations.filter fun entry => entry.2.requiresConfig).map Prod.fst =
        ["keycloak"] := rfl
    intro entry hentry hconfig
    have hmem : entry.1 ∈ (modulePresentations.filter fun entry => entry.2.requiresConfig).map
        Prod.fst := List.mem_map_of_mem (List.mem_filter.2 ⟨hentry, hconfig⟩)
    rw [hnames] at hmem
    exact List.mem_singleton.1 hmem
  unfold requiring presentationOf at h
  rw [Bool.and_eq_true] at h
  obtain ⟨hsome, hneeds⟩ := h
  obtain ⟨selector, hselector⟩ := Option.isSome_iff_exists.mp hsome
  cases haddon : artifact.isAddon with
  | true => simp [haddon] at hneeds
  | false =>
      simp only [haddon, Bool.false_eq_true, if_false, Option.any_eq_true] at hneeds
      obtain ⟨known, hlookup, hconfig⟩ := hneeds
      obtain ⟨before, after, hsplit, -⟩ := List.lookup_eq_some_iff.mp hlookup
      have hmodule : artifact.module = "keycloak" :=
        honly (artifact.module, known) (by rw [hsplit]; simp) hconfig
      obtain ⟨-, -, hselector'⟩ := selector_eq_some.mp hselector
      rw [hselector, hselector', haddon, hmodule]
      rfl

/-! ### The groups of modules and add-ons -/

section Groups

variable {rt : ScopeRuntime} {controller : String} {artifacts : List Artifact}
  {selected : List String} {group : ScopeGroup} {artifact : Artifact}

theorem freshGroup_selector (artifact : Artifact) (key : String)
    (h : groupKeyOf artifact = some key) : (freshGroup rt artifact).selector = key := by
  unfold groupKeyOf at h
  split at h
  next hkind =>
      obtain rfl := Option.some.inj h
      have hnone : artifact.selector = none := by simp [Artifact.selector, hkind]
      simp [freshGroup, hnone]
  next => simp [freshGroup, h]

theorem absorb_selector (group : ScopeGroup) (artifact : Artifact) :
    (absorbArtifact rt group artifact).selector = group.selector := rfl

theorem mem_artifactGroups : group ∈ artifactGroups rt artifacts ↔
    Gather.IsGroup groupKeyOf ScopeGroup.selector (freshGroup rt) (absorbArtifact rt) artifacts
      group :=
  Gather.mem_gather freshGroup_selector absorb_selector

theorem exists_group (rt : ScopeRuntime) {selector : String} (hmem : artifact ∈ artifacts)
    (hselector : artifact.selector = some selector) :
    ∃ group ∈ artifactGroups rt artifacts, group.selector = selector := by
  refine Gather.exists_gathered freshGroup_selector absorb_selector hmem ?_
  have hkind := (selector_eq_some.mp hselector).2.1
  rw [groupKeyOf, if_neg hkind, hselector]

theorem foldl_absorb (rt : ScopeRuntime) (xs : List Artifact) (group : ScopeGroup) :
    (xs.foldl (absorbArtifact rt) group).kind = group.kind ∧
      (xs.foldl (absorbArtifact rt) group).name = group.name ∧
      (xs.foldl (absorbArtifact rt) group).requiresConfig = group.requiresConfig := by
  induction xs generalizing group with
  | nil => exact ⟨rfl, rfl, rfl⟩
  | cons x xs ih => exact ih _

theorem mem_addProfile {profiles : List String} {one other : String} :
    other ∈ addProfile profiles one ↔ other ∈ profiles ∨ other = one := by
  unfold addProfile
  split
  next hmem =>
      refine ⟨Or.inl, ?_⟩
      rintro (h | rfl)
      · exact h
      · exact hmem
  next => simp

theorem mem_foldl_addProfile {xs profiles : List String} {profile : String} :
    profile ∈ xs.foldl addProfile profiles ↔ profile ∈ profiles ∨ profile ∈ xs := by
  induction xs generalizing profiles with
  | nil => simp
  | cons x xs ih => rw [List.foldl_cons, ih, mem_addProfile, List.mem_cons, or_assoc]

theorem mem_foldl_profiles {xs : List Artifact} {profile : String} :
    profile ∈ (xs.foldl (absorbArtifact rt) group).profiles ↔ profile ∈ group.profiles ∨
      ∃ x ∈ xs, x.selector.isSome = true ∧ profile ∈ x.profiles := by
  induction xs generalizing group with
  | nil => simp
  | cons x xs ih =>
      rw [List.foldl_cons, ih]
      cases hsome : x.selector.isSome <;>
        simp [absorbArtifact, hsome, mem_foldl_addProfile, or_assoc]

theorem mem_foldl_items {xs : List Artifact} {item : ScopeItem} :
    item ∈ (xs.foldl (absorbArtifact rt) group).items ↔ item ∈ group.items ∨
      ∃ x ∈ xs, x.isOffered = true ∧ item = volumeItem rt x := by
  induction xs generalizing group with
  | nil => simp
  | cons x xs ih =>
      rw [List.foldl_cons, ih]
      cases hoffered : x.isOffered <;> simp [absorbArtifact, hoffered, or_assoc]

/-- What the group of a module or an add-on has. -/
structure Describes (rt : ScopeRuntime) (artifacts : List Artifact) (artifact : Artifact)
    (group : ScopeGroup) : Prop where
  kind : group.kind = if artifact.isAddon then "addon" else "module"
  name : group.name = artifact.module
  config : group.requiresConfig = requiring artifact
  profiles : ∀ profile, profile ∈ group.profiles ↔
    ∃ other ∈ artifacts, other.selector = some group.selector ∧ profile ∈ other.profiles
  items : ∀ item, item ∈ group.items ↔ ∃ other ∈ artifacts,
    other.selector = some group.selector ∧ other.isOffered = true ∧ item = volumeItem rt other

theorem describes (hgroup : group ∈ artifactGroups rt artifacts)
    (hselector : artifact.selector = some group.selector) :
    Describes rt artifacts artifact group := by
  obtain ⟨first, rest, hfilter, hfold⟩ := mem_artifactGroups.mp hgroup
  have hkeys : ∀ other, other ∈ first :: rest ↔
      other ∈ artifacts ∧ other.selector = some group.selector := by
    intro other
    rw [← hfilter, List.mem_filter, decide_eq_true_eq, groupKeyOf]
    refine and_congr_right fun _ => ?_
    split
    next hkind =>
        have hnone : other.selector = none := by simp [Artifact.selector, hkind]
        rw [hnone]
        constructor
        · intro h
          exact absurd (Option.some.inj h).symm (selector_ne_config hselector)
        · intro h
          cases h
    next => rfl
  have hfirst : first.selector = some group.selector := ((hkeys first).mp List.mem_cons_self).2
  obtain ⟨haddon, hmodule⟩ := selector_inj hfirst hselector
  obtain ⟨hkind, hname, hconfig⟩ := foldl_absorb rt (first :: rest) (freshGroup rt first)
  rw [← hfold] at hkind hname hconfig
  refine ⟨?_, ?_, ?_, ?_, ?_⟩
  · rw [hkind, ← haddon]
    simp [freshGroup, hfirst]
  · rw [hname, ← hmodule]
    simp [freshGroup, hfirst]
  · rw [hconfig, requiring, ← presentation_eq hfirst hselector, hselector]
    cases hknown : presentationOf first <;> simp [freshGroup, hfirst, hknown]
  · intro profile
    have hfresh : (freshGroup rt first).profiles = [] := by simp [freshGroup, hfirst]
    rw [hfold, mem_foldl_profiles, hfresh, ← hfold]
    constructor
    · rintro (h | ⟨other, hother, -, hprofile⟩)
      · cases h
      · exact ⟨other, ((hkeys other).mp hother).1, ((hkeys other).mp hother).2, hprofile⟩
    · rintro ⟨other, hother, hselector', hprofile⟩
      exact .inr ⟨other, (hkeys other).mpr ⟨hother, hselector'⟩, by rw [hselector']; rfl, hprofile⟩
  · intro item
    have hfresh : (freshGroup rt first).items = [] := by simp [freshGroup, hfirst]
    rw [hfold, mem_foldl_items, hfresh, ← hfold]
    constructor
    · rintro (h | ⟨other, hother, hoffered, hitem⟩)
      · cases h
      · exact ⟨other, ((hkeys other).mp hother).1, ((hkeys other).mp hother).2, hoffered, hitem⟩
    · rintro ⟨other, hother, hselector', hoffered, hitem⟩
      exact .inr ⟨other, (hkeys other).mpr ⟨hother, hselector'⟩, hoffered, hitem⟩

/-- A group that is no module's and no add-on's is the configuration's. -/
theorem group_cases (hgroup : group ∈ artifactGroups rt artifacts) :
    (∃ artifact ∈ artifacts, artifact.selector = some group.selector) ∨
      (group.selector = configSelector ∧ group.kind = "config" ∧ group.items = []) := by
  obtain ⟨first, rest, hfilter, hfold⟩ := mem_artifactGroups.mp hgroup
  have hmem : first ∈ artifacts ∧ groupKeyOf first = some group.selector := by
    have h : first ∈ artifacts.filter fun item => groupKeyOf item = some group.selector := by
      simp [hfilter]
    simpa using List.mem_filter.mp h
  by_cases hkind : first.kind = "configdir"
  · have hnone : first.selector = none := by simp [Artifact.selector, hkind]
    have hsame : group.selector = configSelector := by
      have hkey := hmem.2
      rw [groupKeyOf, if_pos hkind] at hkey
      exact (Option.some.inj hkey).symm
    refine .inr ⟨hsame, ?_, ?_⟩
    · rw [hfold, (foldl_absorb rt _ _).1]
      simp [freshGroup, hnone]
    · refine List.eq_nil_iff_forall_not_mem.mpr fun item hitem => ?_
      rw [hfold, mem_foldl_items] at hitem
      rcases hitem with h | ⟨other, hother, hoffered, -⟩
      · simp [freshGroup, hnone] at h
      · have hother' : other ∈ artifacts.filter fun item =>
            groupKeyOf item = some group.selector := by rw [hfilter]; exact hother
        have hkey : groupKeyOf other = some configSelector := by
          rw [← hsame]
          simpa using (List.mem_filter.mp hother').2
        have hsome : other.selector.isSome = true := by
          unfold Artifact.isOffered at hoffered
          simp only [Bool.and_eq_true] at hoffered
          exact hoffered.1.1
        obtain ⟨selector, hselector⟩ := Option.isSome_iff_exists.mp hsome
        rw [groupKeyOf, if_neg (selector_eq_some.mp hselector).2.1, hselector] at hkey
        exact selector_ne_config hselector (Option.some.inj hkey)
  · have hkey := hmem.2
    rw [groupKeyOf, if_neg hkind] at hkey
    exact .inl ⟨first, hmem.1, hkey⟩

theorem isChosen_iff (hgroup : group ∈ artifactGroups rt artifacts)
    (hselector : artifact.selector = some group.selector) :
    group.isChosen selected = true ↔ Named artifacts selected artifact := by
  have hdescribes := describes hgroup hselector
  simp only [ScopeGroup.isChosen, Bool.or_eq_true, decide_eq_true_eq, List.any_eq_true, Named,
    hselector, Option.some.injEq, exists_eq_left']
  refine or_congr Iff.rfl ?_
  constructor
  · rintro ⟨item, hitem, hchosen⟩
    obtain ⟨other, hother, hsame, hoffered, rfl⟩ := (hdescribes.items item).mp hitem
    exact ⟨other, hother, hsame, hoffered, hchosen⟩
  · rintro ⟨other, hother, hsame, hoffered, hchosen⟩
    exact ⟨_, (hdescribes.items _).mpr ⟨other, hother, hsame, hoffered, rfl⟩, hchosen⟩

/-! ### The groups of nodes -/

theorem mem_remoteNodes {node : String} : node ∈ remoteNodes controller artifacts ↔
    ∃ artifact ∈ artifacts, remoteNode controller artifact = some node := by
  simp [remoteNodes]

/-- The members of a node are the groups of what is on it. -/
theorem mem_nodeMembers {node : String} :
    group ∈ nodeMembers controller artifacts (artifactGroups rt artifacts) node →
      group ∈ artifactGroups rt artifacts ∧ ∃ artifact ∈ artifacts,
        remoteNode controller artifact = some node ∧ artifact.selector = some group.selector := by
  simp only [nodeMembers, List.mem_eraseDups, List.mem_filterMap, List.mem_filter,
    decide_eq_true_eq, Option.bind_eq_some_iff]
  rintro ⟨artifact, ⟨hmem, hnode⟩, selector, hselector, hfind⟩
  have hsame : group.selector = selector := by simpa using List.find?_some hfind
  exact ⟨List.mem_of_find?_eq_some hfind, artifact, hmem, hnode, by rw [hselector, hsame]⟩

theorem exists_member (rt : ScopeRuntime) {node selector : String} (hmem : artifact ∈ artifacts)
    (hnode : remoteNode controller artifact = some node)
    (hselector : artifact.selector = some selector) :
    ∃ group ∈ nodeMembers controller artifacts (artifactGroups rt artifacts) node,
      group.selector = selector := by
  obtain ⟨group, hgroup, hsame⟩ := exists_group rt hmem hselector
  cases hfind : (artifactGroups rt artifacts).find? fun group => group.selector = selector with
  | none =>
      have := List.find?_eq_none.mp hfind group hgroup
      simp [hsame] at this
  | some found =>
      refine ⟨found, ?_, by simpa using List.find?_some hfind⟩
      simp only [nodeMembers, List.mem_eraseDups, List.mem_filterMap, List.mem_filter,
        decide_eq_true_eq, Option.bind_eq_some_iff]
      exact ⟨artifact, ⟨hmem, hnode⟩, selector, hselector, hfind⟩

theorem mem_buildGroups : group ∈ buildGroups rt controller artifacts ↔
    group ∈ artifactGroups rt artifacts ∨
      group ∈ nodeGroups controller artifacts (artifactGroups rt artifacts) := by
  simp [buildGroups]

/-! ### What the guards say -/

/-- Some group of a chosen node has a module of an artifact. -/
theorem onNode_of_member {node : String} (hchosen : "node:" ++ node ∈ selected)
    (hgroup : group ∈ nodeMembers controller artifacts (artifactGroups rt artifacts) node)
    (hselector : artifact.selector = some group.selector) :
    OnNode controller artifacts selected artifact := by
  obtain ⟨-, other, hother, hnode, hsame⟩ := mem_nodeMembers hgroup
  exact ⟨group.selector, hselector, other, hother, hsame, node, hnode, hchosen⟩

theorem nodeGroup_chosen {group : ScopeGroup}
    (hgroup : group ∈ nodeGroups controller artifacts (artifactGroups rt artifacts))
    (hchosen : group.isChosen selected = true) :
    ∃ node, "node:" ++ node ∈ selected ∧ group.kind = "node" ∧
      (group.requiresConfig = true ↔
        ∃ member ∈ nodeMembers controller artifacts (artifactGroups rt artifacts) node,
          member.requiresConfig = true) ∧
      ∀ profile, profile ∈ group.profiles ↔
        ∃ member ∈ nodeMembers controller artifacts (artifactGroups rt artifacts) node,
          profile ∈ member.profiles := by
  obtain ⟨node, -, rfl⟩ := List.mem_map.mp hgroup
  refine ⟨node, ?_, rfl, by simp [List.any_eq_true], fun profile => by simp⟩
  simpa [ScopeGroup.isChosen] using hchosen

/-- The group of a chosen node that is there is chosen. -/
theorem exists_nodeGroup (rt : ScopeRuntime) {node : String} (hnode : node ∈ remoteNodes controller artifacts)
    (hchosen : "node:" ++ node ∈ selected) :
    ∃ group ∈ nodeGroups controller artifacts (artifactGroups rt artifacts),
      group.isChosen selected = true ∧ group.kind = "node" ∧
      (∀ member ∈ nodeMembers controller artifacts (artifactGroups rt artifacts) node,
        member.requiresConfig = true → group.requiresConfig = true) ∧
      ∀ member ∈ nodeMembers controller artifacts (artifactGroups rt artifacts) node,
        ∀ profile ∈ member.profiles, profile ∈ group.profiles := by
  refine ⟨_, List.mem_map.mpr ⟨node, hnode, rfl⟩, ?_, rfl, ?_, ?_⟩
  · simp [ScopeGroup.isChosen, hchosen]
  · intro member hmember hconfig
    exact List.any_eq_true.mpr ⟨member, hmember, hconfig⟩
  · intro member hmember profile hprofile
    exact mem_sortedSet.mpr (List.mem_flatMap.mpr ⟨member, hmember, hprofile⟩)

theorem requiresFullRestore_iff (rt : ScopeRuntime) :
    requiresFullRestore (buildGroups rt controller artifacts) selected = true ↔
      configSelector ∈ selected ∨ ∃ artifact ∈ artifacts, requiring artifact = true ∧
        (Named artifacts selected artifact ∨ OnNode controller artifacts selected artifact) := by
  simp only [requiresFullRestore, Bool.or_eq_true, decide_eq_true_eq, List.any_eq_true,
    Bool.and_eq_true, mem_buildGroups]
  constructor
  · rintro (hconfig | ⟨group, hgroup | hgroup, hneeds, hchosen⟩)
    · exact .inl hconfig
    · rcases group_cases hgroup with ⟨artifact, hmem, hselector⟩ | ⟨hsame, -, hitems⟩
      · refine .inr ⟨artifact, hmem, ?_, .inl ((isChosen_iff hgroup hselector).mp hchosen)⟩
        rw [← (describes hgroup hselector).config, hneeds]
      · simp only [ScopeGroup.isChosen, hsame, hitems, List.any_nil, Bool.or_false,
          decide_eq_true_eq] at hchosen
        exact .inl hchosen
    · obtain ⟨node, hnode, -, hconfig, -⟩ := nodeGroup_chosen hgroup hchosen
      obtain ⟨member, hmember, hneeds'⟩ := hconfig.mp hneeds
      obtain ⟨hgroup', artifact, hmem, -, hselector⟩ := mem_nodeMembers hmember
      refine .inr ⟨artifact, hmem, ?_, .inr (onNode_of_member hnode hmember hselector)⟩
      rw [← (describes hgroup' hselector).config, hneeds']
  · rintro (hconfig | ⟨artifact, hmem, hneeds, hnamed | hnode⟩)
    · exact .inl hconfig
    · obtain ⟨selector, hselector, -⟩ := id hnamed
      obtain ⟨group, hgroup, rfl⟩ := exists_group rt hmem hselector
      refine .inr ⟨group, .inl hgroup, ?_, (isChosen_iff hgroup hselector).mpr hnamed⟩
      rw [(describes hgroup hselector).config, hneeds]
    · obtain ⟨selector, hselector, other, hother, hsame, node, hremote, hchosen⟩ := hnode
      obtain ⟨group, hgroup, hpicked, -, hconfig, -⟩ := exists_nodeGroup rt
        (mem_remoteNodes.mpr ⟨other, hother, hremote⟩) hchosen
      obtain ⟨member, hmember, rfl⟩ := exists_member rt hother hremote hsame
      refine .inr ⟨group, .inr hgroup, hconfig member hmember ?_, hpicked⟩
      rw [(describes (mem_nodeMembers hmember).1 hselector).config, hneeds]

theorem mem_selectedProfiles {profile : String} :
    profile ∈ selectedProfiles (buildGroups rt controller artifacts) selected ↔
      ∃ artifact ∈ artifacts, profile ∈ artifact.profiles ∧
        ((Named artifacts selected artifact ∧ artifact.isAddon = false) ∨
          OnNode controller artifacts selected artifact) := by
  simp only [selectedProfiles, mem_sortedSet, List.mem_flatMap, List.mem_filter, mem_buildGroups,
    Bool.and_eq_true, Bool.or_eq_true, decide_eq_true_eq]
  constructor
  · rintro ⟨group, ⟨hgroup | hgroup, hkind, hchosen⟩, hprofile⟩
    · rcases group_cases hgroup with ⟨artifact, -, hselector⟩ | ⟨-, hconfig, -⟩
      · have hdescribes := describes hgroup hselector
        obtain ⟨other, hother, hsame, hmem⟩ := (hdescribes.profiles profile).mp hprofile
        have hmodule : other.isAddon = false := by
          rw [(selector_inj hsame hselector).1]
          cases haddon : artifact.isAddon with
          | false => rfl
          | true => simp [hdescribes.kind, haddon] at hkind
        exact ⟨other, hother, hmem, .inl ⟨(isChosen_iff hgroup hsame).mp hchosen, hmodule⟩⟩
      · simp [hconfig] at hkind
    · obtain ⟨node, hnode, -, -, hprofiles⟩ := nodeGroup_chosen hgroup hchosen
      obtain ⟨member, hmember, hprofile'⟩ := (hprofiles profile).mp hprofile
      obtain ⟨hgroup', artifact, -, -, hselector⟩ := mem_nodeMembers hmember
      obtain ⟨other, hother, hsame, hmem⟩ :=
        ((describes hgroup' hselector).profiles profile).mp hprofile'
      exact ⟨other, hother, hmem, .inr (onNode_of_member hnode hmember hsame)⟩
  · rintro ⟨artifact, hmem, hprofile, ⟨hnamed, hmodule⟩ | hnode⟩
    · obtain ⟨selector, hselector, -⟩ := id hnamed
      obtain ⟨group, hgroup, rfl⟩ := exists_group rt hmem hselector
      have hdescribes := describes hgroup hselector
      refine ⟨group, ⟨.inl hgroup, .inl ?_, (isChosen_iff hgroup hselector).mpr hnamed⟩, ?_⟩
      · simp [hdescribes.kind, hmodule]
      · exact (hdescribes.profiles profile).mpr ⟨artifact, hmem, hselector, hprofile⟩
    · obtain ⟨selector, hselector, other, hother, hsame, node, hremote, hchosen⟩ := hnode
      obtain ⟨group, hgroup, hpicked, hkind, -, hprofiles⟩ := exists_nodeGroup rt
        (mem_remoteNodes.mpr ⟨other, hother, hremote⟩) hchosen
      obtain ⟨member, hmember, rfl⟩ := exists_member rt hother hremote hsame
      refine ⟨group, ⟨.inr hgroup, .inr hkind, hpicked⟩, hprofiles member hmember profile ?_⟩
      exact ((describes (mem_nodeMembers hmember).1 hselector).profiles profile).mpr
        ⟨artifact, hmem, hselector, hprofile⟩

theorem mem_selectedAddons {name : String} :
    name ∈ selectedAddons (buildGroups rt controller artifacts) selected ↔
      ∃ artifact ∈ artifacts, artifact.isAddon = true ∧ artifact.module = name ∧
        Named artifacts selected artifact := by
  simp only [selectedAddons, List.mem_insertionSort, List.mem_map, List.mem_filter,
    mem_buildGroups, Bool.and_eq_true, decide_eq_true_eq]
  constructor
  · rintro ⟨group, ⟨hgroup | hgroup, hkind, hchosen⟩, rfl⟩
    · rcases group_cases hgroup with ⟨artifact, hmem, hselector⟩ | ⟨-, hconfig, -⟩
      · have hdescribes := describes hgroup hselector
        refine ⟨artifact, hmem, ?_, hdescribes.name.symm, (isChosen_iff hgroup hselector).mp hchosen⟩
        cases haddon : artifact.isAddon with
        | true => rfl
        | false => simp [hdescribes.kind, haddon] at hkind
      · simp [hconfig] at hkind
    · obtain ⟨node, -, hnode, -⟩ := nodeGroup_chosen hgroup hchosen
      simp [hnode] at hkind
  · rintro ⟨artifact, hmem, haddon, rfl, hnamed⟩
    obtain ⟨selector, hselector, -⟩ := id hnamed
    obtain ⟨group, hgroup, rfl⟩ := exists_group rt hmem hselector
    have hdescribes := describes hgroup hselector
    refine ⟨group, ⟨.inl hgroup, ?_, (isChosen_iff hgroup hselector).mpr hnamed⟩, hdescribes.name⟩
    simp [hdescribes.kind, haddon]

/-! ### Where the guards agree -/

/-- Named or not is a matter of the selector. -/
theorem Named.of_selector {other : Artifact} (h : Named artifacts selected artifact)
    (hsame : artifact.selector = other.selector) : Named artifacts selected other := by
  obtain ⟨selector, hselector, hchosen⟩ := h
  exact ⟨selector, hsame ▸ hselector, hchosen⟩

theorem OnNode.of_selector {other : Artifact} (h : OnNode controller artifacts selected artifact)
    (hsame : artifact.selector = other.selector) :
    OnNode controller artifacts selected other := by
  obtain ⟨selector, hselector, hchosen⟩ := h
  exact ⟨selector, hsame ▸ hselector, hchosen⟩

/-- The answer to a selection that needs a full restore is a refusal. -/
theorem scopedRestore_refused {pointId : String} {groups : List ScopeGroup}
    (h : requiresFullRestore groups selected = true) :
    ∃ detail, scopedRestore rt pointId groups selected =
      .error { status := 409, detail := detail } := by
  unfold scopedRestore
  split
  next => exact ⟨_, rfl⟩
  next => exact ⟨_, rfl⟩

/-- The guards agree with what the selection covers exactly where all of it is covered by a selector they
know of. -/
theorem guarded_iff (rt : ScopeRuntime) (pointId controller : String) (artifacts : List Artifact)
    (selected : List String) :
    Guarded rt pointId controller artifacts selected ↔ Agrees controller artifacts selected := by
  constructor
  · intro h
    refine ⟨?_, ?_, ?_⟩
    · intro artifact hmem hcovers hneeds
      rcases (requiresFullRestore_iff rt).mp (h.refused ⟨artifact, hmem, hcovers, hneeds⟩).1 with
        hconfig | ⟨other, -, hneeds', hpicked⟩
      · exact .inl hconfig
      · have hsame : other.selector = artifact.selector := by
          rw [requiring_selector hneeds, requiring_selector hneeds']
        exact .inr (hpicked.imp (·.of_selector hsame) (·.of_selector hsame))
    · intro hnone artifact hmem hcovers hmodule profile hprofile
      exact mem_selectedProfiles.mp ((h.known hnone artifact hmem hcovers).1 hmodule profile hprofile)
    · intro hnone artifact hmem hcovers haddon
      exact mem_selectedAddons.mp ((h.known hnone artifact hmem hcovers).2 haddon)
  · intro h
    refine ⟨?_, ?_⟩
    · rintro ⟨artifact, hmem, hcovers, hneeds⟩
      have hfull := (requiresFullRestore_iff rt).mpr
        ((h.guard artifact hmem hcovers hneeds).imp_right fun hpicked =>
          ⟨artifact, hmem, hneeds, hpicked⟩)
      exact ⟨hfull, scopedRestore_refused hfull⟩
    · intro hnone artifact hmem hcovers
      refine ⟨?_, ?_⟩
      · intro hmodule profile hprofile
        exact mem_selectedProfiles.mpr
          (h.profiles hnone artifact hmem hcovers hmodule profile hprofile)
      · intro haddon
        exact mem_selectedAddons.mpr (h.addons hnone artifact hmem hcovers haddon)

/-- What has a module and is covered otherwise than by a volume that is not offered is known. -/
theorem picked_of_covers (hmem : artifact ∈ artifacts)
    (hcovers : covers controller selected artifact = true) (hmodule : artifact.selector.isSome)
    (hoffered : artifact.kind = "volume" → volumeSelector artifact.target ∈ selected →
      artifact.isOffered = true) :
    Named artifacts selected artifact ∨ OnNode controller artifacts selected artifact := by
  obtain ⟨selector, hselector⟩ := Option.isSome_iff_exists.mp hmodule
  simp only [covers, Bool.or_eq_true, Bool.and_eq_true, decide_eq_true_eq, Option.any_eq_true,
    hselector, Option.some.injEq, exists_eq_left'] at hcovers
  rcases hcovers with ((hnamed | ⟨hkind, -⟩) | ⟨hkind, hvolume⟩) | ⟨node, hnode, hchosen⟩
  · exact .inl ⟨selector, hselector, .inl hnamed⟩
  · exact absurd hkind (selector_eq_some.mp hselector).2.1
  · exact .inl ⟨selector, hselector,
      .inr ⟨artifact, hmem, hselector, hoffered hkind hvolume, hvolume⟩⟩
  · exact .inr ⟨selector, hselector, artifact, hmem, hselector, node, hnode, hchosen⟩

/-- Where all that is covered has a module, and its add-ons are named, the guards agree. -/
theorem agrees_of_named
    (h : ∀ artifact ∈ artifacts, covers controller selected artifact = true →
      artifact.selector.isSome ∧
        (artifact.kind = "volume" → volumeSelector artifact.target ∈ selected →
          artifact.isOffered = true) ∧
        (artifact.isAddon = true → Named artifacts selected artifact)) :
    Agrees controller artifacts selected := by
  refine ⟨?_, ?_, ?_⟩
  · intro artifact hmem hcovers _
    obtain ⟨hmodule, hoffered, -⟩ := h artifact hmem hcovers
    exact .inr (picked_of_covers hmem hcovers hmodule hoffered)
  · intro _ artifact hmem hcovers haddon profile hprofile
    obtain ⟨hmodule, hoffered, -⟩ := h artifact hmem hcovers
    refine ⟨artifact, hmem, hprofile, ?_⟩
    exact (picked_of_covers hmem hcovers hmodule hoffered).imp_left fun hnamed => ⟨hnamed, haddon⟩
  · intro _ artifact hmem hcovers haddon
    exact ⟨artifact, hmem, haddon, rfl, (h artifact hmem hcovers).2.2 haddon⟩

end Groups

/-! ### An add-on on a node -/

def exampleScopeRuntime : ScopeRuntime where
  str := fun _ => ""
  repr := fun _ => ""
  intOfText := fun _ => none
  floatOfText := fun _ => none
  crontabError := fun _ => none
  knowsZone := fun _ => true
  lowerOf := lower
  capitalise := fun text => text

/-- A distributed restore point: an add-on on the node `edge`, and Keycloak on the manager's own. -/
def exampleManifest : Mapping :=
  [(.str "core_project", .str "papaia"),
    (.str "artifacts", .list
      [.map [(.str "kind", .str "volume"), (.str "target", .str "papaia_kc"),
          (.str "module", .str "keycloak"), (.str "owner", .str "core"),
          (.str "node", .str "internal"), (.str "profiles", .list [.str "keycloak"])],
        .map [(.str "kind", .str "volume"), (.str "target", .str "paperless-dir_paperless-data"),
          (.str "module", .str "paperless"), (.str "owner", .str "addon:paperless"),
          (.str "project", .str "paperless-dir"), (.str "node", .str "edge")]])]

def exampleArtifacts : List Artifact :=
  [{ kind := "volume"
     target := "papaia_kc"
     module := "keycloak"
     owner := "core"
     project := "papaia"
     node := "internal"
     profiles := ["keycloak"] },
    { kind := "volume"
      target := "paperless-dir_paperless-data"
      module := "paperless"
      owner := "addon:paperless"
      project := "paperless-dir"
      node := "edge" }]

/-- Choosing a node covers the add-on on it, and the add-on is not among the ones that are told. -/
theorem node_hides_its_addon :
    readArtifacts exampleScopeRuntime.toRuntime exampleManifest = some exampleArtifacts ∧
      "node:edge" ∈ allowedSelectors (buildGroups exampleScopeRuntime "internal" exampleArtifacts) ∧
      scopedRestore exampleScopeRuntime "2026-07-30_10-19-38"
          (buildGroups exampleScopeRuntime "internal" exampleArtifacts) ["node:edge"] =
        .ok "--only=node:edge" ∧
      ¬Guarded exampleScopeRuntime "2026-07-30_10-19-38" "internal" exampleArtifacts
        ["node:edge"] := by
  refine ⟨by decide, by decide, by decide, ?_⟩
  intro h
  have hnone : ¬∃ artifact ∈ exampleArtifacts,
      covers "internal" ["node:edge"] artifact ∧ requiring artifact := by
    decide
  have htold : selectedAddons (buildGroups exampleScopeRuntime "internal" exampleArtifacts)
      ["node:edge"] = [] := by
    decide
  have hknown := (h.known hnone
    { kind := "volume"
      target := "paperless-dir_paperless-data"
      module := "paperless"
      owner := "addon:paperless"
      project := "paperless-dir"
      node := "edge" } (by simp [exampleArtifacts]) (by decide)).2 (by decide)
  rw [htold] at hknown
  cases hknown

end Papaia.Backup
