/-
Module: Papaia.Proofs.Publish
Purpose: What a copied tree holds, and which trees stand at the destination while one is put in the
  place of another.
Trusted boundary: none
Main exports: copied, Mirrors, mirrors_copied_iff, foldlM_copySteps, PublishesWhole,
  publishes_whole_iff
-/
import Papaia.Addons.Publish

namespace Papaia.Addons

open FileTree Runs

/-! ### What the copy holds -/

/-- A directory holds what a source tree does: its directories, its files with the same bytes and its
links with the same targets, and nothing else. -/
def Mirrors (content : Content) (source : SourceTree) : Prop :=
  ∀ path kind, (path, kind) ∈ content ↔ ∃ node, Leads source path node ∧ kindOf node = kind

/-- The entries a copy makes. -/
def copied (source : SourceTree) : Content :=
  (walk source).flatMap fun visit =>
    (visit.1, .dir) ::
      (visit.2.filter fun entry => !entry.2.isFolder).map fun entry =>
        (visit.1 ++ [entry.1], kindOf entry.2)

theorem isFolder_of_isDir {node : SourceTree} (h : node.isDir = true) : node.isFolder = true := by
  obtain ⟨info, entries, rfl⟩ := Node.isDir_iff.1 h
  rfl

/-- A copy has the directories, and of the rest what is no folder. -/
theorem mem_copied_iff {source : SourceTree} (hdir : source.isDir = true) {path : Path} {kind : Kind} :
    (path, kind) ∈ copied source ↔
      ∃ node, Leads source path node ∧ (node.isDir = true ∨ node.isFolder = false) ∧
        kindOf node = kind := by
  have hmem : (path, kind) ∈ copied source ↔
      ∃ above here, (above, here) ∈ walk source ∧
        ((path, kind) = (above, .dir) ∨
          ∃ name node, (name, node) ∈ here ∧ node.isFolder = false ∧
            (above ++ [name], kindOf node) = (path, kind)) := by
    simp [copied, and_assoc]
  rw [hmem]
  constructor
  · rintro ⟨above, here, hwalk, hhere | ⟨name, node, hentry, hfolder, hsame⟩⟩
    · obtain ⟨info, hleads⟩ := mem_walk_iff.1 hwalk
      obtain ⟨rfl, rfl⟩ := Prod.mk.inj hhere
      exact ⟨_, hleads, .inl rfl, rfl⟩
    · obtain ⟨info, hleads⟩ := mem_walk_iff.1 hwalk
      obtain ⟨rfl, rfl⟩ := Prod.mk.inj hsame
      exact ⟨node, leads_append.2 ⟨_, hleads, .step hentry (.here node)⟩, .inr hfolder, rfl⟩
  · rintro ⟨node, hleads, hnode | hfolder, rfl⟩
    · obtain ⟨info, here, rfl⟩ := Node.isDir_iff.1 hnode
      exact ⟨path, here, mem_walk_iff.2 ⟨info, hleads⟩, .inl rfl⟩
    · rcases List.eq_nil_or_concat' path with rfl | ⟨above, name, rfl⟩
      · obtain rfl := leads_nil.1 hleads
        rw [isFolder_of_isDir hdir] at hfolder
        cases hfolder
      · obtain ⟨middle, habove, hbelow⟩ := leads_append.1 hleads
        obtain ⟨info, here, child, rfl, hentry, hchild⟩ := leads_cons.1 hbelow
        obtain rfl := leads_nil.1 hchild
        exact ⟨above, here, mem_walk_iff.2 ⟨info, habove⟩, .inr ⟨name, child, hentry, hfolder, rfl⟩⟩

/-- What the copy leaves out is the links to directories. -/
theorem mirrors_copied_iff {source : SourceTree} (hplain : source.Plain)
    (hdir : source.isDir = true) :
    Mirrors (copied source) source ↔ ∀ path target, ¬Leads source path (.link target true) := by
  constructor
  · intro h path target hleads
    obtain ⟨node, hnode, hkept, -⟩ := (mem_copied_iff hdir).1 ((h path _).2 ⟨_, hleads, rfl⟩)
    obtain rfl := hleads.unique hplain hnode
    rcases hkept with hkept | hkept <;> cases hkept
  · intro h path kind
    rw [mem_copied_iff hdir]
    constructor
    · rintro ⟨node, hleads, -, hkind⟩
      exact ⟨node, hleads, hkind⟩
    · rintro ⟨node, hleads, hkind⟩
      refine ⟨node, hleads, ?_, hkind⟩
      cases node with
      | file content => exact .inr rfl
      | link target toFolder =>
          cases toFolder with
          | true => exact absurd hleads (h path target)
          | false => exact .inr rfl
      | special kind => exact kind.elim
      | dir info entries => exact .inl rfl

/-! ### The copy runs through -/

/-- The calls that make an entry. -/
def stepsFor : Path × Kind → List CopyStep
  | (path, .dir) => [.makeDir path]
  | (path, .file content) => [.openFile path, .writeFile path content]
  | (path, .link target) => [.makeLink path target]

theorem fileSteps_eq {node : SourceTree} (h : node.isFolder = false) (path : Path) :
    fileSteps path node = stepsFor (path, kindOf node) := by
  cases node with
  | file content => rfl
  | link target toFolder => rfl
  | special kind => exact kind.elim
  | dir info entries => cases h

theorem copySteps_eq (source : SourceTree) : copySteps source = (copied source).flatMap stepsFor := by
  rw [copySteps, copied, List.flatMap_assoc]
  apply List.flatMap_congr
  intro visit hvisit
  rw [List.flatMap_cons, List.flatMap_map]
  apply congrArg (CopyStep.makeDir visit.1 :: ·)
  apply List.flatMap_congr
  intro entry hentry
  have hfolder : entry.2.isFolder = false := by simpa using (List.mem_filter.1 hentry).2
  exact fileSteps_eq hfolder _

theorem lookup_eq_none {content : Content} {path : Path} (h : path ∉ content.map Prod.fst) :
    content.lookup path = none := by
  rw [List.lookup_eq_none_iff]
  intro entry hentry
  have hne : path ≠ entry.1 := by
    rintro rfl
    exact h (List.mem_map_of_mem hentry)
  simpa using hne

/-- An entry under a new path is made by its calls. -/
theorem foldlM_stepsFor {content : Content} {entry : Path × Kind}
    (h : entry.1 ∉ content.map Prod.fst) :
    (stepsFor entry).foldlM perform content = some (content ++ [entry]) := by
  obtain ⟨path, kind⟩ := entry
  have hlookup := lookup_eq_none h
  cases kind with
  | dir => simp [stepsFor, perform, hlookup]
  | link target => simp [stepsFor, perform, hlookup]
  | file written =>
      have hkept : content.map (fun entry => if entry.1 = path then (path, Kind.file written) else entry) =
          content := by
        apply (List.map_congr_left _).trans (List.map_id content)
        intro other hother
        apply if_neg
        intro hsame
        exact h (List.mem_map.2 ⟨other, hother, hsame⟩)
      simp [stepsFor, perform, hlookup, hkept]

theorem foldlM_flatMap_stepsFor {entries content : Content}
    (h : ((content ++ entries).map Prod.fst).Nodup) :
    (entries.flatMap stepsFor).foldlM perform content = some (content ++ entries) := by
  induction entries generalizing content with
  | nil => simp
  | cons entry rest ih =>
      have hnew : entry.1 ∉ content.map Prod.fst := by
        intro hmem
        rw [List.map_append, List.nodup_append] at h
        exact h.2.2 _ hmem _ (List.mem_map_of_mem List.mem_cons_self) rfl
      have hrest : ((content ++ [entry] ++ rest).map Prod.fst).Nodup := by
        rwa [List.append_assoc]
      rw [List.flatMap_cons, List.foldlM_append, foldlM_stepsFor hnew]
      simpa using ih hrest

/-- A visit of the walk makes its directory and things in it that are none. -/
theorem of_mem_visit {source : SourceTree} {visit : Path × List (String × SourceTree)}
    (hvisit : visit ∈ walk source) {path : Path}
    (hpath : path ∈ visit.1 ::
      (visit.2.filter fun entry => !entry.2.isFolder).map fun entry => visit.1 ++ [entry.1]) :
    path = visit.1 ∨ ∃ name node, path = visit.1 ++ [name] ∧ Leads source path node ∧
      node.isDir = false := by
  rcases List.mem_cons.1 hpath with hsame | hbelow
  · exact .inl hsame
  · right
    obtain ⟨⟨name, node⟩, hentry, rfl⟩ := List.mem_map.1 hbelow
    obtain ⟨hmem, hfolder⟩ := List.mem_filter.1 hentry
    obtain ⟨info, hleads⟩ := mem_walk_iff.1 hvisit
    refine ⟨name, node, rfl, leads_append.2 ⟨_, hleads, .step hmem (.here node)⟩, ?_⟩
    cases node <;> simp_all [Node.isDir, Node.isFolder]

/-- No path is made twice. -/
theorem nodup_copied {source : SourceTree} (hplain : source.Plain) :
    ((copied source).map Prod.fst).Nodup := by
  have hkeys : (copied source).map Prod.fst = (walk source).flatMap fun visit => visit.1 ::
      (visit.2.filter fun entry => !entry.2.isFolder).map fun entry => visit.1 ++ [entry.1] := by
    simp [copied, List.map_flatMap, Function.comp_def]
  rw [hkeys, List.nodup_flatMap]
  constructor
  · rintro ⟨path, here⟩ hvisit
    obtain ⟨info, hleads⟩ := mem_walk_iff.1 hvisit
    have hnames : ((here.filter fun entry => !entry.2.isFolder).map Prod.fst).Nodup :=
      (Node.plain_dir.1 (hleads.plain hplain)).1.sublist (List.filter_sublist.map _)
    have hbelow := hnames.map (f := fun name => path ++ [name]) fun one other heq => by simpa using heq
    rw [List.map_map] at hbelow
    exact List.nodup_cons.2 ⟨by simp, hbelow⟩
  · have hwalk : (walk source).Pairwise fun one other => one.1 ≠ other.1 :=
      List.pairwise_map.1 (nodup_walk hplain)
    apply hwalk.imp_of_mem
    intro one other hone hother hne path hleft hright
    -- a directory is at neither place what stands in another directory and is none
    obtain ⟨hereOne, hleadsOne⟩ := mem_walk_iff.1 hone
    obtain ⟨hereOther, hleadsOther⟩ := mem_walk_iff.1 hother
    rcases of_mem_visit hone hleft with rfl | ⟨name, node, rfl, hnode, hdir⟩
    · rcases of_mem_visit hother hright with hsame | ⟨name, node, hpath, hnode, hdir⟩
      · exact hne hsame
      · rw [← hleadsOne.unique hplain hnode] at hdir
        cases hdir
    · rcases of_mem_visit hother hright with hsame | ⟨name', node', hpath, -, -⟩
      · rw [hsame] at hnode
        rw [← hleadsOther.unique hplain hnode] at hdir
        cases hdir
      · exact hne (List.append_inj' hpath rfl).1

/-- The calls of the copy make its entries and do not raise. -/
theorem foldlM_copySteps {source : SourceTree} (hplain : source.Plain) (hdir : source.isDir = true) :
    (copySteps source).foldlM perform emptyDir = some (copied source) := by
  obtain ⟨info, entries, rfl⟩ := Node.isDir_iff.1 hdir
  obtain ⟨rest, hrest⟩ : ∃ rest, copied (.dir info entries) = ([], .dir) :: rest := ⟨_, rfl⟩
  have hnodup := nodup_copied hplain
  rw [copySteps_eq, hrest] at *
  -- the first call finds the directory that `mkdir` made
  have hfirst : perform emptyDir (.makeDir []) = some emptyDir := rfl
  have hfold : (rest.flatMap stepsFor).foldlM perform emptyDir = some (([], .dir) :: rest) :=
    @foldlM_flatMap_stepsFor rest emptyDir hnodup
  rw [List.flatMap_cons, List.foldlM_append]
  simpa [stepsFor, hfirst] using hfold

/-! ### The swap -/

/-- From the removal of `prev` on: what the destination holds, with what it held before and what was
staged. -/
def Swapping (old new : Option Content) (s : Publishing) : Prop :=
  match s.phase with
  | .clearPrev | .moveDest => s.dest = old ∧ s.staging = new
  | .moveStaging => s.dest = none ∧ s.staging = new ∧ (old.isSome → s.prev = old)
  | .raised => s.dest = old ∨ s.dest = none
  | .returned => s.dest = new
  | _ => False

theorem swapping_step {routine : Routine} {old new : Option Content} {s s' : Publishing} {e : Event}
    (h : Swapping old new s) (taken : step routine s e = some s') : Swapping old new s' := by
  obtain ⟨phase, dest, staging, prev⟩ := s
  cases phase with
  | makeParent | clearStaging | makeStaging | copying _ | extracting => exact h.elim
  | returned | raised => cases e <;> cases taken
  | clearPrev =>
      cases e with
      | extracts content => cases taken
      | goesOn | removes left =>
          cases taken
          exact h
      | fails =>
          cases taken
          exact .inl h.1
  | moveDest =>
      obtain ⟨rfl, rfl⟩ : dest = old ∧ staging = new := h
      cases e with
      | removes left | extracts content => cases taken
      | fails =>
          cases taken
          exact .inl rfl
      | goesOn =>
          cases dest with
          | none =>
              cases taken
              exact ⟨rfl, rfl, by simp⟩
          | some content =>
              simp only [step, advance] at taken
              split at taken
              · cases taken
                exact ⟨rfl, rfl, fun _ => rfl⟩
              · cases taken
                exact .inl rfl
  | moveStaging =>
      obtain ⟨rfl, rfl, hprev⟩ : dest = none ∧ staging = new ∧ (old.isSome → prev = old) := h
      cases e with
      | removes left | extracts content => cases taken
      | fails =>
          cases taken
          exact .inr rfl
      | goesOn =>
          simp only [step, advance] at taken
          split at taken
          · cases taken
            rfl
          · cases taken
            exact .inr rfl

/-- In the swap the destination holds what it held, or nothing, or what was staged. -/
theorem dest_of_swapping {old new : Option Content} {s : Publishing} (h : Swapping old new s) :
    s.dest = old ∨ s.dest = none ∨ s.dest = new := by
  obtain ⟨phase, dest, staging, prev⟩ := s
  cases phase with
  | makeParent | clearStaging | makeStaging | copying _ | extracting => exact h.elim
  | clearPrev | moveDest => exact .inl h.1
  | moveStaging => exact .inr (.inl h.1)
  | returned => exact .inr (.inr h)
  | raised => exact h.imp_right .inl

/-! ### Publishing -/

/-- What a run of `_publish_to_workspace` keeps. -/
def Published (source : SourceTree) (old : Option Content) (s : Publishing) : Prop :=
  match s.phase with
  | .makeParent | .clearStaging | .makeStaging => s.dest = old
  | .copying todo => s.dest = old ∧
      ∃ content, s.staging = some content ∧ todo.foldlM perform content = some (copied source)
  | _ => Swapping old (some (copied source)) s

theorem published_of_swapping {source : SourceTree} {old : Option Content} {s : Publishing}
    (h : Swapping old (some (copied source)) s) : Published source old s := by
  obtain ⟨phase, dest, staging, prev⟩ := s
  cases phase with
  | makeParent | clearStaging | makeStaging | copying _ => exact h.elim
  | extracting | clearPrev | moveDest | moveStaging | returned | raised => exact h

theorem published_step {source : SourceTree} (hplain : source.Plain) (hdir : source.isDir = true)
    {old : Option Content} {s s' : Publishing} {e : Event} (h : Published source old s)
    (taken : step (.publish source) s e = some s') : Published source old s' := by
  obtain ⟨phase, dest, staging, prev⟩ := s
  cases phase with
  | makeParent | clearStaging =>
      cases e with
      | extracts content => cases taken
      | fails =>
          cases taken
          exact .inl h
      | goesOn =>
          cases taken
          exact h
      | removes left =>
          cases taken <;> exact h
  | makeStaging =>
      obtain rfl : dest = old := h
      cases e with
      | removes left | extracts content => cases taken
      | fails =>
          cases taken
          exact .inl rfl
      | goesOn =>
          cases staging with
          | none =>
              cases taken
              exact ⟨rfl, emptyDir, rfl, foldlM_copySteps hplain hdir⟩
          | some left =>
              cases taken
              exact .inl rfl
  | copying todo =>
      obtain ⟨rfl, content, rfl, hfold⟩ : dest = old ∧ ∃ content, staging = some content ∧
        todo.foldlM perform content = some (copied source) := h
      cases e with
      | removes left | extracts content => cases taken
      | fails =>
          cases taken
          exact .inl rfl
      | goesOn =>
          cases todo with
          | nil =>
              cases taken
              exact ⟨rfl, hfold⟩
          | cons call rest =>
              rw [List.foldlM_cons] at hfold
              obtain ⟨next, hperform, hrest⟩ := Option.bind_eq_some_iff.1 hfold
              simp only [step, advance, Option.bind_some, hperform, Option.some.injEq] at taken
              subst taken
              exact ⟨rfl, next, rfl, hrest⟩
  | extracting => exact h.elim
  | clearPrev | moveDest | moveStaging | returned | raised =>
      apply published_of_swapping
      apply swapping_step _ taken
      exact h

section Runs

variable {source : SourceTree} {dest staging prev : Option Content}

/-- Publishing keeps its invariant in every run. -/
theorem published_of_reaches (hplain : source.Plain) (hdir : source.isDir = true) {s : Publishing}
    (h : Reaches (step (.publish source)) Allowed (.start (.publish source) dest staging prev) s) :
    Published source dest s := by
  apply h.invariant
  · rfl
  · intro s e s' hs _ taken
    exact published_step hplain hdir hs taken

/-- The destination holds what it held, or nothing, or the copy. -/
theorem dest_of_published {s : Publishing} (h : Published source dest s) :
    s.dest = dest ∨ s.dest = none ∨ s.dest = some (copied source) := by
  obtain ⟨phase, there, staged, moved⟩ := s
  cases phase with
  | makeParent | clearStaging | makeStaging => exact .inl h
  | copying todo => exact .inl h.1
  | extracting => exact h.elim
  | clearPrev | moveDest | moveStaging | returned | raised =>
      apply dest_of_swapping
      exact h

theorem goes_on {routine : Routine} {start s s' : Publishing}
    (h : Reaches (step routine) Allowed start s) (taken : advance routine s = some s') :
    Reaches (step routine) Allowed start s' :=
  @Reaches.next _ _ _ _ _ s s' .goesOn h trivial taken

theorem clears_staging {routine : Routine} {start : Publishing}
    (h : Reaches (step routine) Allowed start ⟨.clearStaging, dest, staging, prev⟩) :
    Reaches (step routine) Allowed start ⟨.makeStaging, dest, none, prev⟩ := by
  have hgone : Reaches (step routine) Allowed start ⟨.clearStaging, dest, none, prev⟩ := by
    apply @Reaches.next _ _ _ _ _ _ _ (.removes none) h _ rfl
    exact ⟨fun _ => .inl rfl, fun _ => .inl rfl⟩
  exact goes_on hgone rfl

theorem clears_prev {routine : Routine} {start : Publishing}
    (h : Reaches (step routine) Allowed start ⟨.clearPrev, dest, staging, prev⟩) :
    Reaches (step routine) Allowed start ⟨.moveDest, dest, staging, none⟩ := by
  have hgone : Reaches (step routine) Allowed start ⟨.clearPrev, dest, staging, none⟩ := by
    apply @Reaches.next _ _ _ _ _ _ _ (.removes none) h _ rfl
    exact ⟨fun _ => .inl rfl, fun _ => .inl rfl⟩
  exact goes_on hgone rfl

/-- The calls of a copy can be made one after the other. -/
theorem reaches_copying {start : Publishing} {todo : List CopyStep} {before after : Content}
    (h : Reaches (step (.publish source)) Allowed start ⟨.copying todo, dest, some before, prev⟩)
    (hfold : todo.foldlM perform before = some after) :
    Reaches (step (.publish source)) Allowed start ⟨.copying [], dest, some after, prev⟩ := by
  induction todo generalizing before with
  | nil =>
      obtain rfl := Option.some.inj hfold
      exact h
  | cons call rest ih =>
      rw [List.foldlM_cons] at hfold
      obtain ⟨next, hperform, hrest⟩ := Option.bind_eq_some_iff.1 hfold
      apply ih _ hrest
      apply goes_on h
      simp [advance, hperform]

/-- A run comes between the two renames, where nothing stands at the destination. -/
theorem reaches_moveStaging (hplain : source.Plain) (hdir : source.isDir = true) :
    Reaches (step (.publish source)) Allowed (.start (.publish source) dest staging prev)
      ⟨.moveStaging, none, some (copied source), dest⟩ := by
  have hcleared : Reaches (step (.publish source)) Allowed
      (.start (.publish source) dest staging prev) ⟨.makeStaging, dest, none, prev⟩ :=
    clears_staging (goes_on .refl rfl)
  have hcopied : Reaches (step (.publish source)) Allowed
      (.start (.publish source) dest staging prev) ⟨.clearPrev, dest, some (copied source), prev⟩ :=
    goes_on (reaches_copying (goes_on hcleared rfl) (foldlM_copySteps hplain hdir)) rfl
  cases dest <;> exact goes_on (clears_prev hcopied) rfl

/-- A run returns, with the copy at the destination. -/
theorem reaches_returned (hplain : source.Plain) (hdir : source.isDir = true) :
    Reaches (step (.publish source)) Allowed (.start (.publish source) dest staging prev)
      ⟨.returned, some (copied source), none, dest⟩ :=
  goes_on (reaches_moveStaging hplain hdir) rfl

/-! ### Snapshots -/

/-- Until the swap a snapshot leaves the destination alone. -/
def Extracting (old : Option Content) (s : Publishing) : Prop :=
  match s.phase with
  | .makeParent | .copying _ => False
  | .clearStaging | .makeStaging | .extracting | .clearPrev => s.dest = old
  | _ => True

theorem extracting_step {old : Option Content} {s s' : Publishing} {e : Event}
    (h : Extracting old s) (taken : step .snapshot s e = some s') : Extracting old s' := by
  obtain ⟨phase, dest, staging, prev⟩ := s
  cases phase with
  | makeParent | copying todo => exact h.elim
  | clearStaging | makeStaging | extracting | clearPrev =>
      cases e <;> cases taken <;> first | exact h | trivial
  | returned | raised => cases e <;> cases taken
  | moveDest =>
      cases e with
      | removes left | extracts content => cases taken
      | fails =>
          cases taken
          trivial
      | goesOn =>
          cases dest with
          | none =>
              cases taken
              trivial
          | some content =>
              simp only [step, advance] at taken
              split at taken <;> cases taken <;> trivial
  | moveStaging =>
      cases e with
      | removes left | extracts content => cases taken
      | fails =>
          cases taken
          trivial
      | goesOn =>
          simp only [step, advance] at taken
          split at taken <;> cases taken <;> trivial

/-- The swap of a snapshot starts with what the destination held. -/
theorem swapping_of_reaches {middle s : Publishing}
    (hbefore : Reaches (step .snapshot) Allowed (.start .snapshot dest staging prev) middle)
    (hphase : middle.phase = .clearPrev)
    (h : Reaches (step .snapshot) Allowed middle s) : Swapping dest middle.staging s := by
  have hdest : Extracting dest middle := by
    apply hbefore.invariant
    · rfl
    · intro s e s' hs _ taken
      exact extracting_step hs taken
  obtain ⟨phase, there, staged, moved⟩ := middle
  cases hphase
  apply h.invariant
  · exact ⟨hdest, rfl⟩
  · intro s e s' hs _ taken
    exact swapping_step hs taken

/-! ### All or nothing -/

/-- Publishing loses nothing and is all or nothing, and so is the swap of a snapshot. -/
structure PublishesWhole (source : SourceTree) (dest staging prev : Option Content) : Prop where
  /-- When it returns the destination holds the source. -/
  returned : ∀ s, Reaches (step (.publish source)) Allowed
    (.start (.publish source) dest staging prev) s → s.phase = .returned →
      ∃ content, s.dest = some content ∧ Mirrors content source
  /-- After any steps the destination holds what it held or the source. -/
  always : ∀ s, Reaches (step (.publish source)) Allowed
    (.start (.publish source) dest staging prev) s →
      s.dest = dest ∨ ∃ content, s.dest = some content ∧ Mirrors content source
  /-- After any steps of the swap the destination holds what it held or what was extracted. -/
  swapped : ∀ middle s, Reaches (step .snapshot) Allowed (.start .snapshot dest staging prev) middle →
    middle.phase = .clearPrev → Reaches (step .snapshot) Allowed middle s →
      s.dest = dest ∨ s.dest = middle.staging

end Runs

end Papaia.Addons
