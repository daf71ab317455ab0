/-
Module: Papaia.Proofs.Prune
Purpose: What pruning takes from the disk, and when that is nothing anybody needs.
Trusted boundary: none
Main exports: Takes, PruneCall, PruneCall.Gone, PruneCall.entries_result, PrunesUnneeded,
  prunes_unneeded_iff, legacy_spared, revision_spared
-/
import Papaia.Addons.Prune

namespace Papaia.Addons

open FileTree Disk

section Snapshots

variable {isRevision : String → Bool}

/-! ### Removing one snapshot -/

/-- What lies in a snapshot or in the leftovers beside it. -/
def Cleared (held : Set (Path × Item Rat)) (parent : Path) (name : String) (path : Path) : Prop :=
  ∃ top ∈ (parent ++ [name]) :: leftovers parent name, Below held top path

/-- What goes with a snapshot: the directory of the revision too when nothing else is in it. -/
def Takes (isRevision : String → Bool) (held : Set (Path × Item Rat)) (parent : Path) (name : String)
    (path : Path) : Prop :=
  Cleared held parent name path ∨
    path = parent ∧ parent.getLast?.any isRevision = true ∧
      Vacant (without held (Cleared held parent name)) parent

theorem entries_removeSnapshot (disk : Managed) (parent : Path) (name : String) :
    entries (removeSnapshot isRevision disk parent name) =
      without (entries disk) (Takes isRevision (entries disk) parent name) := by
  have hcleared : entries ((leftovers parent name).foldl rmtree (rmtree disk (parent ++ [name]))) =
      without (entries disk) (Cleared (entries disk) parent name) :=
    entries_foldl_rmtree disk ((parent ++ [name]) :: leftovers parent name)
  rw [removeSnapshot]
  cases hlast : parent.getLast? with
  | none =>
      dsimp only
      rw [hcleared]
      apply without_congr
      intro entry _
      simp [Takes, hlast]
  | some parentName =>
      dsimp only
      by_cases hrevision : isRevision parentName = true
      · rw [if_pos hrevision, entries_rmdir, hcleared, without_without]
        apply without_congr
        intro entry _
        simp [Takes, hlast, hrevision]
      · rw [if_neg hrevision, hcleared]
        apply without_congr
        intro entry _
        simp [Takes, hlast, hrevision]

theorem Cleared.below {held : Set (Path × Item Rat)} {parent path : Path} {name : String}
    (h : Cleared held parent name path) : ∃ below, below ≠ [] ∧ path = parent ++ below := by
  obtain ⟨top, htop, -, rest, rfl⟩ := h
  obtain ⟨last, rfl⟩ : ∃ last, top = parent ++ [last] := by
    simp only [leftovers, List.mem_cons, List.not_mem_nil, or_false] at htop
    rcases htop with rfl | rfl | rfl <;> exact ⟨_, rfl⟩
  exact ⟨last :: rest, by simp, by simp⟩

/-- Removing a snapshot takes nothing from outside its parent. -/
theorem Takes.inside {held : Set (Path × Item Rat)} {parent path : Path} {name : String}
    (h : Takes isRevision held parent name path) : parent <+: path := by
  rcases h with h | ⟨rfl, -⟩
  · obtain ⟨below, -, rfl⟩ := h.below
    exact List.prefix_append _ _
  · exact List.prefix_rfl

/-- What a removal takes depends on what is in the parent alone. -/
theorem takes_congr {held other : Set (Path × Item Rat)} {parent : Path}
    (h : ∀ entry, parent <+: entry.1 → (entry ∈ held ↔ entry ∈ other)) (name : String) (path : Path) :
    Takes isRevision held parent name path ↔ Takes isRevision other parent name path := by
  have hdir : ∀ here, parent <+: here → (HasDir held here ↔ HasDir other here) :=
    fun here hhere => exists_congr fun info => h _ hhere
  have hcleared : ∀ path, Cleared held parent name path ↔ Cleared other parent name path := by
    intro path
    apply exists_congr
    intro top
    apply and_congr_right
    intro htop
    apply and_congr_left
    intro _
    apply hdir
    simp only [leftovers, List.mem_cons, List.not_mem_nil, or_false] at htop
    rcases htop with rfl | rfl | rfl <;> exact List.prefix_append _ _
  have hempty : Vacant (without held (Cleared held parent name)) parent ↔
      Vacant (without other (Cleared other parent name)) parent := by
    rw [Vacant, Vacant, hasDir_without, hasDir_without, hdir _ List.prefix_rfl, hcleared]
    apply and_congr_right
    intro _
    apply forall_congr'
    intro entry
    simp only [mem_without, hcleared]
    constructor
    · rintro hall ⟨hmem, hgone⟩ hinside
      exact hall ⟨(h entry hinside).2 hmem, hgone⟩ hinside
    · rintro hall ⟨hmem, hgone⟩ hinside
      exact hall ⟨(h entry hinside).1 hmem, hgone⟩ hinside
  rw [Takes, Takes, hcleared, hempty]

/-! ### Removing the revisions -/

theorem eq_of_inside {base path : Path} {one other : String} (hone : base ++ [one] <+: path)
    (hother : base ++ [other] <+: path) : one = other := by
  have hle : base ++ [one] <+: base ++ [other] :=
    List.prefix_of_prefix_length_le hone hother (by simp)
  simpa using hle.eq_of_length (by simp)

/-- The removals of different revisions do not touch each other. -/
theorem entries_foldl_removeSnapshot (base : Path) (addonName : String) (items : List Candidate)
    (disk : Managed) (hnodup : (items.map Prod.snd).Nodup) :
    entries (items.foldl
      (fun disk item => removeSnapshot isRevision disk (base ++ [item.2]) addonName) disk) =
      without (entries disk) fun path =>
        ∃ item ∈ items, Takes isRevision (entries disk) (base ++ [item.2]) addonName path := by
  induction items generalizing disk with
  | nil =>
      ext entry
      simp
  | cons item rest ih =>
      obtain ⟨hfresh, hrest⟩ := List.nodup_cons.1 hnodup
      rw [List.foldl_cons, ih _ hrest, entries_removeSnapshot, without_without]
      apply without_congr
      intro entry _
      have hsame : ∀ other ∈ rest,
          (Takes isRevision
              (without (entries disk) (Takes isRevision (entries disk) (base ++ [item.2]) addonName))
              (base ++ [other.2]) addonName entry.1 ↔
            Takes isRevision (entries disk) (base ++ [other.2]) addonName entry.1) := by
        intro other hother
        apply takes_congr
        intro held hinside
        rw [mem_without]
        apply and_iff_left
        intro htakes
        apply hfresh
        rw [eq_of_inside htakes.inside hinside]
        exact List.mem_map_of_mem hother
      rw [List.exists_mem_cons_iff]
      apply or_congr_right
      apply exists_congr
      intro other
      apply and_congr_right
      intro hother
      exact hsame other hother

theorem isProtected_iff {keep : List Path} {path : Path} :
    isProtected keep path = true ↔ path ∈ keep := by
  simp [isProtected]

/-- The loop removes what is not kept and has no room, in its order. -/
theorem foldl_pruneCandidate (base : Path) (addonName : String) (keep : List Path)
    (items : List Candidate) (s : Pruning) :
    items.foldl (pruneCandidate isRevision base addonName keep) s =
      let unkept := items.filter fun item => !isProtected keep (base ++ [item.2, addonName])
      ⟨(unkept.drop s.room).foldl
          (fun disk item => removeSnapshot isRevision disk (base ++ [item.2]) addonName) s.disk,
        s.room - unkept.length,
        s.removed ++ (unkept.drop s.room).map fun item => base ++ [item.2, addonName]⟩ := by
  induction items generalizing s with
  | nil => simp
  | cons item rest ih =>
      obtain ⟨disk, room, removed⟩ := s
      rw [List.foldl_cons, ih]
      by_cases hkeep : isProtected keep (base ++ [item.2, addonName]) = true
      · simp [pruneCandidate, hkeep]
      · cases room with
        | zero => simp [pruneCandidate, hkeep]
        | succ room => simp [pruneCandidate, hkeep]

end Snapshots

/-! ### A call -/

/-- What `prune_snapshots` is called with, and the disk it is called on. -/
structure PruneCall where
  workspace : Path
  catalogName : String
  addonName : String
  keep : List Path
  limit : Int
  disk : Managed

namespace PruneCall

section Call

variable (isRevision : String → Bool) (call : PruneCall)

def base : Path :=
  managedBase call.workspace call.catalogName

def legacy : Path :=
  managedSnapshotPath call.workspace call.catalogName call.addonName none

def snapshot (item : Candidate) : Path :=
  call.base ++ [item.2, call.addonName]

def found : List Candidate :=
  candidates isRevision call.disk call.base call.addonName

/-- The revisions that are not in `keep`, newest first. -/
def unkept : List Candidate :=
  ((call.found isRevision).insertionSort fun one other => other.1 ≤ one.1).filter
    fun item => !isProtected call.keep (call.snapshot item)

/-- The directories of the add-on that are in `keep`. -/
def kept : List Path :=
  ((call.found isRevision).map call.snapshot ++
    if isDir call.disk call.legacy then [call.legacy] else []).filter (isProtected call.keep)

/-- The room that is left when each element of `keep` takes up some. -/
def room : Nat :=
  (max (call.limit - call.keep.length) 0).toNat

/-- The room that is left when each directory of the add-on in `keep` takes up some. -/
def roomBesideKept : Nat :=
  (max (call.limit - (call.kept isRevision).length) 0).toNat

/-- What there is room for. -/
def staying : List Candidate :=
  (call.unkept isRevision).take call.room

/-- What there is no room for. -/
def surplus : List Candidate :=
  (call.unkept isRevision).drop call.room

/-- What goes with the surplus revisions. -/
def RevisionsGone (path : Path) : Prop :=
  ∃ item ∈ call.surplus isRevision,
    Takes isRevision (entries call.disk) (call.base ++ [item.2]) call.addonName path

def LegacyGoes : Prop :=
  HasDir (without (entries call.disk) (call.RevisionsGone isRevision)) call.legacy ∧
    call.legacy ∉ call.keep

/-- What goes in all. -/
def Gone (path : Path) : Prop :=
  call.RevisionsGone isRevision path ∨
    call.LegacyGoes isRevision ∧
      Takes isRevision (without (entries call.disk) (call.RevisionsGone isRevision)) call.base
        call.addonName path

def result : Managed × List Path :=
  pruneSnapshots isRevision call.workspace call.catalogName call.addonName call.keep call.limit
    call.disk

end Call

variable {isRevision : String → Bool} {call : PruneCall}

theorem mem_found {item : Candidate} (h : item ∈ call.found isRevision) :
    isRevision item.2 = true ∧ HasDir (entries call.disk) (call.snapshot item) ∧
      isThere call.disk (call.base ++ [item.2, "papaia-app.yaml"]) = false := by
  obtain ⟨revision, -, hitem⟩ := List.mem_filterMap.1 h
  split at hitem
  · cases hitem
  · next hrevision =>
      split at hitem
      · next mtime hlookup =>
          obtain rfl := Option.some.inj hitem
          obtain ⟨before, behind, hdisk, -⟩ := List.lookup_eq_some_iff.1 hlookup
          have hboth : isRevision revision = true ∧
              isThere call.disk (call.base ++ [revision, "papaia-app.yaml"]) = false := by
            simpa using hrevision
          have hdir : HasDir (entries call.disk) (call.snapshot (mtime, revision)) :=
            ⟨mtime, by rw [mem_entries, hdisk]; simp [snapshot]⟩
          exact ⟨hboth.1, hdir, hboth.2⟩
      · cases hitem

/-- The candidates are in the order of the directory. -/
theorem candidates_sublist (disk : Managed) (base : Path) (addonName : String) :
    ((candidates isRevision disk base addonName).map Prod.snd).Sublist (iterdir disk base) := by
  rw [candidates]
  induction iterdir disk base with
  | nil => simp
  | cons revision rest ih =>
      rw [List.filterMap_cons]
      split
      · exact ih.cons _
      · next item hitem =>
          have hname : item.2 = revision := by
            split at hitem
            · cases hitem
            · split at hitem
              · rw [← Option.some.inj hitem]
              · cases hitem
          rw [List.map_cons, hname]
          exact ih.cons_cons _

theorem nodup_found (hsound : Sound call.disk) : ((call.found isRevision).map Prod.snd).Nodup :=
  (nodup_iterdir hsound.nodup call.base).sublist (candidates_sublist _ _ _)

theorem perm_unkept : (call.unkept isRevision).Perm
    ((call.found isRevision).filter fun item => !isProtected call.keep (call.snapshot item)) :=
  (List.perm_insertionSort _ _).filter _

theorem mem_unkept {item : Candidate} : item ∈ call.unkept isRevision ↔
    item ∈ call.found isRevision ∧ call.snapshot item ∉ call.keep := by
  rw [perm_unkept.mem_iff, List.mem_filter, ← isProtected_iff]
  simp

theorem unkept_eq : call.staying isRevision ++ call.surplus isRevision = call.unkept isRevision :=
  List.take_append_drop _ _

theorem nodup_unkept (hsound : Sound call.disk) :
    ((call.unkept isRevision).map Prod.snd).Nodup := by
  rw [(perm_unkept.map Prod.snd).nodup_iff]
  exact (nodup_found hsound).sublist (List.filter_sublist.map _)

theorem unkept_sorted :
    (call.unkept isRevision).Pairwise fun one other => other.1 ≤ one.1 :=
  List.Pairwise.filter _ (List.pairwise_insertionSort _ _)

theorem legacy_eq : call.legacy = call.base ++ [call.addonName] :=
  rfl

theorem legacy_ne_snapshot (item : Candidate) : call.legacy ≠ call.snapshot item := by
  intro h
  have hlength := congrArg List.length h
  simp [legacy_eq, snapshot] at hlength

/-! ### What is left, and what is returned -/

/-- Nothing is found where the directory of the catalog is missing. -/
theorem nothing_below (hsound : Sound call.disk) (hbase : isDir call.disk call.base = false)
    (name : String) (item : Item Rat) : (call.base ++ [name], item) ∉ call.disk := by
  intro hmem
  have hparent := hsound.parents _ hmem (by simp)
  rw [List.dropLast_concat] at hparent
  rw [← isDir_iff, hbase] at hparent
  cases hparent

theorem found_eq_nil (hsound : Sound call.disk) (hbase : isDir call.disk call.base = false) :
    call.found isRevision = [] := by
  have hnone : iterdir call.disk call.base = [] := by
    apply List.eq_nil_iff_forall_not_mem.2
    intro name hname
    obtain ⟨item, hmem⟩ := mem_iterdir_iff.1 hname
    exact nothing_below hsound hbase name item hmem
  rw [found, candidates, hnone]
  rfl

section Result

variable (isRevision call)

/-- The disk when the revisions have been gone through. -/
def revisionsPruned : Managed :=
  (call.surplus isRevision).foldl
    (fun disk item => removeSnapshot isRevision disk (call.base ++ [item.2]) call.addonName) call.disk

end Result

theorem entries_revisionsPruned (hsound : Sound call.disk) :
    entries (call.revisionsPruned isRevision) =
      without (entries call.disk) (call.RevisionsGone isRevision) := by
  apply entries_foldl_removeSnapshot
  exact (nodup_unkept hsound).sublist ((List.drop_sublist _ _).map _)

/-- The call without its way out where there is no directory of the catalog. -/
theorem result_eq (hsound : Sound call.disk) : call.result isRevision =
    if isDir (call.revisionsPruned isRevision) call.legacy && !isProtected call.keep call.legacy then
      (removeSnapshot isRevision (call.revisionsPruned isRevision) call.base call.addonName,
        (call.surplus isRevision).map call.snapshot ++ [call.legacy])
    else (call.revisionsPruned isRevision, (call.surplus isRevision).map call.snapshot) := by
  by_cases hbase : isDir call.disk call.base = true
  · rw [result, pruneSnapshots]
    have hdir : isDir call.disk (managedBase call.workspace call.catalogName) = true := hbase
    simp only [hdir, Bool.not_true, Bool.false_eq_true, if_false, foldl_pruneCandidate,
      List.nil_append]
    rfl
  · have hbase : isDir call.disk call.base = false := by simpa using hbase
    have hsurplus : call.surplus isRevision = [] := by
      rw [surplus, unkept, found_eq_nil hsound hbase]
      simp
    have hlegacy : isDir call.disk call.legacy = false := by
      rw [Bool.eq_false_iff]
      intro hdir
      obtain ⟨info, hmem⟩ := isDir_iff.1 hdir
      exact nothing_below hsound hbase _ _ hmem
    have hdir : isDir call.disk (managedBase call.workspace call.catalogName) = false := hbase
    simp [result, pruneSnapshots, revisionsPruned, hdir, hsurplus, hlegacy]

theorem legacyGoes_iff (hsound : Sound call.disk) : call.LegacyGoes isRevision ↔
    (isDir (call.revisionsPruned isRevision) call.legacy && !isProtected call.keep call.legacy) = true := by
  rw [Bool.and_eq_true, isDir_iff, entries_revisionsPruned hsound, LegacyGoes, ← isProtected_iff]
  simp

/-- What is on the disk after a call. -/
theorem entries_result (hsound : Sound call.disk) :
    entries (call.result isRevision).1 = without (entries call.disk) (call.Gone isRevision) := by
  rw [result_eq hsound]
  split
  · next hlegacy =>
      have hgoes := (legacyGoes_iff hsound).2 hlegacy
      rw [entries_removeSnapshot, entries_revisionsPruned hsound, without_without]
      apply without_congr
      intro entry _
      simp [Gone, hgoes]
  · next hlegacy =>
      have hstays : ¬call.LegacyGoes isRevision := fun h => hlegacy ((legacyGoes_iff hsound).1 h)
      rw [entries_revisionsPruned hsound]
      apply without_congr
      intro entry _
      simp [Gone, hstays]

theorem isDir_result_iff (hsound : Sound call.disk) {path : Path} :
    isDir (call.result isRevision).1 path = true ↔
      isDir call.disk path = true ∧ ¬call.Gone isRevision path := by
  rw [isDir_iff, entries_result hsound, hasDir_without, isDir_iff]

/-- What a call returns. -/
theorem mem_returned_iff (hsound : Sound call.disk) {path : Path} :
    path ∈ (call.result isRevision).2 ↔
      path ∈ (call.surplus isRevision).map call.snapshot ∨
        call.LegacyGoes isRevision ∧ path = call.legacy := by
  rw [result_eq hsound, legacyGoes_iff hsound]
  split
  · next hlegacy => rw [List.mem_append, List.mem_singleton, and_iff_right hlegacy]
  · next hlegacy =>
      rw [or_iff_left]
      exact fun h => hlegacy h.1

theorem nodup_map_snapshot {items : List Candidate} (h : (items.map Prod.snd).Nodup) :
    (items.map call.snapshot).Nodup := by
  have hnames : items.map call.snapshot =
      (items.map Prod.snd).map fun name => call.base ++ [name, call.addonName] := by
    rw [List.map_map]
    rfl
  rw [hnames]
  apply h.map
  intro one other hsame
  simpa using hsame

theorem legacy_not_mem (items : List Candidate) : call.legacy ∉ items.map call.snapshot := by
  intro h
  obtain ⟨item, -, hitem⟩ := List.mem_map.1 h
  exact legacy_ne_snapshot item hitem.symm

theorem nodup_returned (hsound : Sound call.disk) : (call.result isRevision).2.Nodup := by
  have hsurplus : ((call.surplus isRevision).map call.snapshot).Nodup :=
    nodup_map_snapshot ((nodup_unkept hsound).sublist ((List.drop_sublist _ _).map _))
  rw [result_eq hsound]
  split
  · exact hsurplus.append (List.nodup_singleton _) (by simpa using legacy_not_mem _)
  · exact hsurplus

/-- `keep` has at least as many elements as it names directories of the add-on. -/
theorem length_kept_le (hsound : Sound call.disk) :
    (call.kept isRevision).length ≤ call.keep.length := by
  have hfound : ((call.found isRevision).map call.snapshot).Nodup :=
    nodup_map_snapshot (nodup_found hsound)
  have hnodup : (call.kept isRevision).Nodup := by
    apply List.Nodup.filter
    split
    · exact hfound.append (List.nodup_singleton _) (by simpa using legacy_not_mem _)
    · rwa [List.append_nil]
  apply (List.subperm_of_subset hnodup _).length_le
  intro path hpath
  exact isProtected_iff.1 (List.mem_filter.1 hpath).2

theorem hasDir_snapshot {item : Candidate} (h : item ∈ call.unkept isRevision) :
    isDir call.disk (call.snapshot item) = true :=
  isDir_iff.2 (mem_found (mem_unkept.1 h).1).2.1

/-- What there is no room for is gone, with its leftovers. -/
theorem gone_of_surplus {item : Candidate} (hitem : item ∈ call.surplus isRevision) {top : Path}
    (htop : top ∈ call.snapshot item :: leftovers (call.base ++ [item.2]) call.addonName)
    (hdir : isDir call.disk top = true) : call.Gone isRevision top := by
  have hsame : call.snapshot item = call.base ++ [item.2] ++ [call.addonName] := by simp [snapshot]
  rw [hsame] at htop
  exact .inl ⟨item, hitem, .inl ⟨top, htop, isDir_iff.1 hdir, List.prefix_rfl⟩⟩

/-- The legacy directory is gone when it goes, with its leftovers. -/
theorem gone_of_legacyGoes (hgoes : call.LegacyGoes isRevision) {top : Path}
    (htop : top ∈ call.legacy :: leftovers call.base call.addonName)
    (hdir : isDir call.disk top = true) : call.Gone isRevision top := by
  by_cases hrevisions : call.RevisionsGone isRevision top
  · exact .inl hrevisions
  · exact .inr ⟨hgoes, .inl ⟨top, htop, hasDir_without.2 ⟨isDir_iff.1 hdir, hrevisions⟩,
      List.prefix_rfl⟩⟩

end PruneCall

/-! ### What nobody needs -/

/-- Pruning removes what nothing needs, and says what it removed. -/
structure PrunesUnneeded (isRevision : String → Bool) (registered : List Path) (call : PruneCall) :
    Prop where
  /-- Directories of `keep` stay. -/
  keepsNeeded : ∀ path ∈ call.keep, isDir call.disk path = true →
    isDir (call.result isRevision).1 path = true
  /-- Directories that other add-ons are registered at stay. -/
  sparesOthers : ∀ path ∈ registered, isDir call.disk path = true →
    isDir (call.result isRevision).1 path = true
  /-- As many directories of the add-on stay as the limit says, or as are kept. -/
  fillsUp : (call.kept isRevision).length +
      (call.unkept isRevision).countP (fun item => isDir (call.result isRevision).1 (call.snapshot item)) =
    min ((call.kept isRevision).length + (call.unkept isRevision).length)
      (max call.limit.toNat (call.kept isRevision).length)
  /-- The revisions that stay without being kept are the newest ones. -/
  keepsNewest : ∀ one ∈ call.unkept isRevision, ∀ other ∈ call.unkept isRevision,
    isDir (call.result isRevision).1 (call.snapshot one) = true →
      isDir (call.result isRevision).1 (call.snapshot other) = false → other.1 ≤ one.1
  /-- The legacy directory goes unless it is kept. -/
  dropsLegacy : call.legacy ∉ call.keep → isDir (call.result isRevision).1 call.legacy = false
  /-- The leftovers of what goes go as well. -/
  dropsLeftovers : ∀ parent, (parent = call.base ∨ ∃ item ∈ call.found isRevision,
      parent = call.base ++ [item.2]) → isDir call.disk (parent ++ [call.addonName]) = true →
    isDir (call.result isRevision).1 (parent ++ [call.addonName]) = false →
      ∀ leftover ∈ leftovers parent call.addonName,
        isDir (call.result isRevision).1 leftover = false
  /-- What is returned is the directories of the add-on that are gone. -/
  returned : (call.result isRevision).2.Nodup ∧ ∀ path, path ∈ (call.result isRevision).2 ↔
    path ∈ call.legacy :: (call.found isRevision).map call.snapshot ∧
      isDir call.disk path = true ∧ isDir (call.result isRevision).1 path = false

/-- What has to stay: what is kept, what others are registered at, and what there is room for. -/
def PruneCall.Needed (isRevision : String → Bool) (registered : List Path) (call : PruneCall)
    (path : Path) : Prop :=
  path ∈ call.keep ∨ path ∈ registered ∨ path ∈ (call.staying isRevision).map call.snapshot

section Iff

variable {isRevision : String → Bool} {call : PruneCall}

open PruneCall

/-- What stays of the revisions that are not kept is among those there is room for. -/
theorem countP_unkept (hsound : Sound call.disk) :
    (call.unkept isRevision).countP (fun item =>
        isDir (call.result isRevision).1 (call.snapshot item)) =
      (call.staying isRevision).countP fun item =>
        isDir (call.result isRevision).1 (call.snapshot item) := by
  have hsurplus : (call.surplus isRevision).countP (fun item =>
      isDir (call.result isRevision).1 (call.snapshot item)) = 0 := by
    rw [List.countP_eq_zero]
    intro item hitem hstays
    have hdir := hasDir_snapshot (List.mem_of_mem_drop hitem)
    exact ((isDir_result_iff hsound).1 hstays).2 (gone_of_surplus hitem List.mem_cons_self hdir)
  rw [← unkept_eq, List.countP_append, hsurplus, Nat.add_zero]

/-- The limit is met when what there is room for stays, and the room is what the limit leaves. -/
theorem fills_up_iff (hsound : Sound call.disk) :
    (call.kept isRevision).length + (call.unkept isRevision).countP (fun item =>
        isDir (call.result isRevision).1 (call.snapshot item)) =
      min ((call.kept isRevision).length + (call.unkept isRevision).length)
        (max call.limit.toNat (call.kept isRevision).length) ↔
    min (call.unkept isRevision).length call.room =
        min (call.unkept isRevision).length (call.roomBesideKept isRevision) ∧
      ∀ item ∈ call.staying isRevision, isDir (call.result isRevision).1 (call.snapshot item) = true := by
  have hkept : (call.kept isRevision).length ≤ call.keep.length := length_kept_le hsound
  have hlength : (call.staying isRevision).length = min call.room (call.unkept isRevision).length :=
    List.length_take
  have hle := @List.countP_le_length _
    (fun item => isDir (call.result isRevision).1 (call.snapshot item)) (call.staying isRevision)
  rw [countP_unkept hsound, ← List.countP_eq_length]
  simp only [room, roomBesideKept] at *
  omega

theorem isDir_result_eq_false_iff (hsound : Sound call.disk) {path : Path} :
    isDir (call.result isRevision).1 path = false ↔
      (isDir call.disk path = true → call.Gone isRevision path) := by
  rw [Bool.eq_false_iff, ne_eq, isDir_result_iff hsound]
  exact not_and_not_right

/-- A revision directory that becomes empty is a directory. -/
theorem isDir_of_revisionsGone (h : call.RevisionsGone isRevision call.legacy) :
    isDir call.disk call.legacy = true := by
  obtain ⟨item, -, hcleared | ⟨hpath, -, hvacant⟩⟩ := h
  · obtain ⟨below, hbelow, hpath⟩ := hcleared.below
    have hlength := congrArg List.length hpath
    have hpos := List.length_pos_iff.2 hbelow
    simp only [legacy_eq, List.length_append, List.length_singleton] at hlength
    omega
  · rw [hpath, isDir_iff]
    exact (hasDir_without.1 hvacant.1).1

/-- When nothing needed is gone, the revisions that are gone are those there is no room for. -/
theorem surplus_of_gone {registered : List Path}
    (hneeded : ∀ path, isDir call.disk path = true → call.Needed isRevision registered path →
      ¬call.Gone isRevision path)
    {item : Candidate} (hitem : item ∈ call.found isRevision)
    (hgone : call.Gone isRevision (call.snapshot item)) : item ∈ call.surplus isRevision := by
  have hdir : isDir call.disk (call.snapshot item) = true := isDir_iff.2 (mem_found hitem).2.1
  have hkeep : call.snapshot item ∉ call.keep := fun h => hneeded _ hdir (.inl h) hgone
  have hunkept : item ∈ call.unkept isRevision := mem_unkept.2 ⟨hitem, hkeep⟩
  rw [← unkept_eq, List.mem_append] at hunkept
  rcases hunkept with hstays | hsurplus
  · exact absurd hgone (hneeded _ hdir (.inr (.inr (List.mem_map_of_mem hstays))))
  · exact hsurplus

/-- When nothing needed is gone, the legacy directory goes when it is gone. -/
theorem legacyGoes_of_gone {registered : List Path}
    (hneeded : ∀ path, isDir call.disk path = true → call.Needed isRevision registered path →
      ¬call.Gone isRevision path)
    (hlegacy : ¬call.RevisionsGone isRevision call.legacy)
    (hdir : isDir call.disk call.legacy = true) (hgone : call.Gone isRevision call.legacy) :
    call.LegacyGoes isRevision :=
  ⟨hasDir_without.2 ⟨isDir_iff.1 hdir, hlegacy⟩, fun h => hneeded _ hdir (.inl h) hgone⟩

end Iff

/-! ### Other add-ons -/

theorem not_revisionShape (isDecimal : Char → Bool) (rest : List Char) :
    revisionShape isDecimal ('_' :: rest) = false := by
  have hhex : isLowerHex '_' = false := rfl
  simp [revisionShape, hhex]

/-- No leftover is called like a revision. -/
theorem not_isRevision_of_underscore {isDecimal : Char → Bool} {name : String} {rest : List Char}
    (h : name.toList = '_' :: rest) : isRevision isDecimal name = false := by
  rw [isRevision, h, not_revisionShape]
  cases rest with
  | nil => rfl
  | cons c rest => simp [not_revisionShape]

theorem toList_leftover (name suffix : String) :
    ("_" ++ name ++ suffix).toList = '_' :: (name ++ suffix).toList := by
  simp

/-- What goes with a name in a directory is called like it, or starts with an underscore. -/
theorem Cleared.eq {held : Set (Path × Item Rat)} {parent path : Path} {name last : String}
    (h : Cleared held parent name (parent ++ last :: path)) :
    last = name ∨ ∃ rest, last.toList = '_' :: rest := by
  obtain ⟨top, htop, -, hinside⟩ := h
  have hlast : ∀ {here : String}, parent ++ [here] <+: parent ++ last :: path → last = here := by
    intro here hhere
    have hcons : [here] <+: last :: path := (List.prefix_append_right_inj parent).1 hhere
    simpa [eq_comm] using hcons
  simp only [leftovers, List.mem_cons, List.not_mem_nil, or_false] at htop
  rcases htop with rfl | rfl | rfl
  · exact .inl (hlast hinside)
  · exact .inr ⟨_, (congrArg String.toList (hlast hinside)).trans (toList_leftover name ".prev")⟩
  · exact .inr ⟨_, (congrArg String.toList (hlast hinside)).trans (toList_leftover name ".staging")⟩

section Others

variable {isDecimal : Char → Bool} {call : PruneCall} {other : String}

open PruneCall

/-- The legacy directory of another add-on stays: it has a manifest, so it is no revision. -/
theorem legacy_spared (hother : other ≠ call.addonName)
    (hgrammar : ∀ rest, other.toList ≠ '_' :: rest)
    (hmanifest : isThere call.disk (call.base ++ [other, "papaia-app.yaml"]) = true) :
    ¬call.Gone (isRevision isDecimal) (call.base ++ [other]) := by
  rintro (⟨item, hitem, hcleared | ⟨hpath, -⟩⟩ | ⟨-, hcleared | ⟨hpath, -⟩⟩)
  · obtain ⟨below, hbelow, hpath⟩ := hcleared.below
    have hlength := congrArg List.length hpath
    have hpos := List.length_pos_iff.2 hbelow
    simp only [List.length_append, List.length_singleton] at hlength
    omega
  · have hname : other = item.2 := by simpa using hpath
    have hfound := mem_found (mem_unkept.1 (List.mem_of_mem_drop hitem)).1
    rw [← hname, hmanifest] at hfound
    cases hfound.2.2
  · rcases hcleared.eq with hsame | ⟨rest, hrest⟩
    · exact hother hsame
    · exact hgrammar rest hrest
  · have hlength := congrArg List.length hpath
    simp at hlength

/-- A snapshot of another add-on stays when the add-on that is pruned is not called like a revision. -/
theorem revision_spared {revision : String} (hname : isRevision isDecimal call.addonName = false)
    (hother : other ≠ call.addonName) (hgrammar : ∀ rest, other.toList ≠ '_' :: rest)
    (hrevision : isRevision isDecimal revision = true) :
    ¬call.Gone (isRevision isDecimal) (call.base ++ [revision, other]) := by
  have hsplit : call.base ++ [revision, other] = call.base ++ [revision] ++ [other] := by simp
  rintro (⟨item, hitem, htakes⟩ | ⟨-, hcleared | ⟨hpath, -⟩⟩)
  · have hrev : item.2 = revision :=
      eq_of_inside htakes.inside (hsplit ▸ List.prefix_append _ _)
    rcases htakes with hcleared | ⟨hpath, -⟩
    · rw [hrev, hsplit] at hcleared
      rcases hcleared.eq with hsame | ⟨rest, hrest⟩
      · exact hother hsame
      · exact hgrammar rest hrest
    · have hlength := congrArg List.length hpath
      simp at hlength
  · rcases hcleared.eq with hsame | ⟨rest, hrest⟩
    · rw [hsame, hname] at hrevision
      cases hrevision
    · rw [not_isRevision_of_underscore hrest] at hrevision
      cases hrevision
  · have hlength := congrArg List.length hpath
    simp at hlength

end Others

/-! ### Runs -/

/-- What runs after an upgrade is a call that keeps what `deployment.yaml` names. -/
theorem pruneAfter_eq (isRevision : String → Bool) (workspace : Path) (catalogName addonName : String)
    (registered previous extra : Option Path) (disk : Managed) :
    pruneAfter isRevision workspace catalogName addonName registered previous extra disk =
      PruneCall.result isRevision
        { workspace, catalogName, addonName, limit := 3, disk
          keep := registered.toList ++ previous.toList ++ extra.toList } :=
  rfl

/-- `_managed/cat` of a workspace, with what lies below it. -/
def managedDisk (below : List (List String × Item Rat)) : Managed :=
  [([], .dir 0), (["addons"], .dir 0), (["addons", "_managed"], .dir 0),
    (managedBase [] "cat", .dir 0)] ++
    below.map fun entry => (managedBase [] "cat" ++ entry.1, entry.2)

/-- One snapshot of `web`, which is kept. -/
def oneKept : PruneCall where
  workspace := []
  catalogName := "cat"
  addonName := "web"
  keep := [managedSnapshotPath [] "cat" "web" (some "aaaaaaaaaaaa")]
  limit := 3
  disk := managedDisk [(["aaaaaaaaaaaa"], .dir 1), (["aaaaaaaaaaaa", "web"], .dir 1)]

/-- Three snapshots of `web`, the oldest registered and the one to go back to. -/
def keptTwice : PruneCall where
  workspace := []
  catalogName := "cat"
  addonName := "web"
  keep := [managedSnapshotPath [] "cat" "web" (some "aaaaaaaaaaaa"),
    managedSnapshotPath [] "cat" "web" (some "aaaaaaaaaaaa")]
  limit := 3
  disk := managedDisk [(["aaaaaaaaaaaa"], .dir 1), (["aaaaaaaaaaaa", "web"], .dir 1),
    (["bbbbbbbbbbbb"], .dir 2), (["bbbbbbbbbbbb", "web"], .dir 2),
    (["cccccccccccc"], .dir 3), (["cccccccccccc", "web"], .dir 3)]

/-- An add-on called like the revision that `web` is registered at. -/
def namedLikeRevision : PruneCall where
  workspace := []
  catalogName := "cat"
  addonName := "aaaaaaaaaaaa"
  keep := []
  limit := 3
  disk := managedDisk [(["aaaaaaaaaaaa"], .dir 1), (["aaaaaaaaaaaa", "web"], .dir 1)]

theorem sound_iff (disk : Managed) : Sound disk ↔ (disk.map Prod.fst).Nodup ∧
    ∀ entry ∈ disk, entry.1 ≠ [] → isDir disk entry.1.dropLast = true :=
  ⟨fun h => ⟨h.nodup, fun entry hmem hne => isDir_iff.2 (h.parents entry hmem hne)⟩,
    fun h => ⟨h.1, fun entry hmem hne => isDir_iff.1 (h.2 entry hmem hne)⟩⟩

end Papaia.Addons
