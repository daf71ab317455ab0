/-
Module: Papaia.Proofs.Selection
Purpose: The include globs of a selection of documents against the files that were counted for it.
Trusted boundary: the Unicode categories and `casefold`, `repr`; the tree stands still during a call
Main exports: counted_eq, Kept, kept_selected, Documents.HasFile, EmbedsCounted,
  include_patterns_match_count_iff
-/
import Papaia.Data.Spelling
import Papaia.Lib.Paired
import Papaia.Proofs.DocumentsJail
import Mathlib.Data.List.Dedup

namespace Papaia.Ingest

open Text FileTree Paired

section Documents

variable {rt : DocumentsRuntime} {docs : Documents}

/-! ### The count -/

theorem counted_eq (rels : List String) :
    docs.counted rt rels =
      (rels.mapM (docs.filesUnder rt)).map fun yielded => Keyed.lastOfEach Prod.fst yielded.flatten := by
  have hrun : ∀ seen, rels.foldlM (fun seen rel => do
      let files ← docs.filesUnder rt rel
      return files.foldl (Keyed.assign Prod.fst) seen) seen =
        (rels.mapM (docs.filesUnder rt)).map fun yielded =>
          yielded.flatten.foldl (Keyed.assign Prod.fst) seen := by
    induction rels with
    | nil => exact fun _ => rfl
    | cons rel rest ih =>
        intro seen
        rw [List.foldlM_cons, List.mapM_cons]
        cases docs.filesUnder rt rel with
        | error raised => rfl
        | ok files =>
            simp only [bind, Except.bind, pure, Except.pure] at ih ⊢
            rw [ih]
            cases rest.mapM (docs.filesUnder rt) with
            | error raised => rfl
            | ok yielded => simp [Except.map, List.foldl_append]
  exact hrun []

/-- A regular file of the tree, outside the hidden folders. -/
def Documents.HasFile (docs : Documents) (path : String) (size : Nat) : Prop :=
  ∃ parts mtime, Leads docs.root parts (.file ⟨size, mtime⟩) ∧ docs.Outside parts ∧
    path = joinWith "/" parts

theorem isPart_of_leads {parts : Path} {node : DocumentsNode} (h : Leads docs.root parts node) :
    ∀ part ∈ parts, IsPart part := by
  intro part hpart
  have hname := h.names docs.plain part hpart
  exact ⟨hname.2.2.2, hname.1⟩

theorem Documents.HasFile.unique {path : String} {size other : Nat} (h : docs.HasFile path size)
    (hother : docs.HasFile path other) : size = other := by
  obtain ⟨parts, mtime, hleads, -, rfl⟩ := h
  obtain ⟨parts', mtime', hleads', -, hpath⟩ := hother
  obtain rfl : parts = parts' :=
    @joinWith_inj '/' parts parts' (isPart_of_leads hleads) (isPart_of_leads hleads') hpath
  have hfile := hleads.unique docs.plain hleads'
  injection hfile with hinfo
  exact congrArg FileInfo.size hinfo

/-- A path is what was selected, or below it. -/
def Covered (selected path : String) : Prop :=
  selected = "" ∨ path = selected ∨ startsWith path (selected ++ "/") = true

theorem joinWith_append {above below : Path} (habove : above ≠ []) (hbelow : below ≠ []) :
    joinWith "/" (above ++ below) = joinWith "/" above ++ "/" ++ joinWith "/" below := by
  induction above with
  | nil => exact absurd rfl habove
  | cons part rest ih =>
      by_cases hrest : rest = []
      · subst hrest
        exact joinWith_cons hbelow
      · rw [List.cons_append, joinWith_cons (by simp [hrest]), ih hrest, joinWith_cons hrest]
        simp [String.append_assoc]

/-- The path of what is found under a covered path goes on from it. -/
theorem exists_below_of_startsWith {above parts : Path} (habove : ∀ part ∈ above, IsPart part)
    (hparts : ∀ part ∈ parts, IsPart part)
    (h : startsWith (joinWith "/" parts) (joinWith "/" above ++ "/") = true) :
    ∃ below, parts = above ++ below ∧ below ≠ [] := by
  obtain ⟨rest, hrest⟩ := startsWith_iff_exists.1 h
  have hsplit : pathParts (joinWith "/" parts) = pathParts (joinWith "/" above) ++ pathParts rest := by
    rw [hrest, pathParts, pathParts, pathParts, String.toList_append, String.toList_append,
      List.append_assoc, ← List.map_append]
    exact congrArg _ (List.splitOn_append_cons_self _ _)
  have hfilled : parts ≠ [] := by
    rintro rfl
    have hnil := congrArg String.toList hrest
    simp [joinWith] at hnil
  rw [pathParts_joinWith hfilled hparts] at hsplit
  have hne : pathParts rest ≠ [] := by simp [pathParts]
  by_cases hnil : above = []
  · subst hnil
    have hbad := hparts "" (by rw [hsplit]; simp [pathParts, joinWith])
    exact absurd rfl hbad.2
  · rw [pathParts_joinWith hnil habove] at hsplit
    exact ⟨_, hsplit, hne⟩

/-- What `files_under` yields is the files the path covers. -/
theorem Resolves.mem_filesUnder {rel : String} {node : DocumentsNode} (h : Resolves rt docs rel node) :
    ∃ files, docs.filesUnder rt rel = .ok files ∧ ∀ path size, (path, size) ∈ files ↔
      docs.HasFile path size ∧ Covered (joinWith "/" (cleanParts rel)) path := by
  obtain ⟨files, hfiles, hmem⟩ := h.filesUnder
  have habove : ∀ part ∈ cleanParts rel, IsPart part := fun _ => isPart_of_mem_cleanParts
  refine ⟨files, hfiles, ?_⟩
  intro path size
  rw [hmem]
  constructor
  · rintro ⟨below, mtime, hleads, houtside, rfl⟩
    refine ⟨⟨_, mtime, leads_append.2 ⟨node, h.leads, hleads⟩, houtside, rfl⟩, ?_⟩
    by_cases hnil : cleanParts rel = []
    · exact .inl ((joinWith_eq_empty_iff habove).2 hnil)
    · by_cases hbelow : below = []
      · exact .inr (.inl (by rw [hbelow, List.append_nil]))
      · exact .inr (.inr (startsWith_iff_exists.2 ⟨_, joinWith_append hnil hbelow⟩))
  · rintro ⟨⟨parts, mtime, hleads, houtside, rfl⟩, hcovered⟩
    have hparts := isPart_of_leads hleads
    obtain ⟨below, rfl⟩ : ∃ below, parts = cleanParts rel ++ below := by
      rcases hcovered with hroot | hsame | hstart
      · exact ⟨parts, by rw [(joinWith_eq_empty_iff habove).1 hroot, List.nil_append]⟩
      · exact ⟨[], by rw [List.append_nil]; exact @joinWith_inj '/' _ _ hparts habove hsame⟩
      · obtain ⟨below, hbelow, -⟩ := exists_below_of_startsWith habove hparts hstart
        exact ⟨below, hbelow⟩
    obtain ⟨middle, hmiddle, hbelow⟩ := leads_append.1 hleads
    obtain rfl := hmiddle.unique docs.plain h.leads
    exact ⟨below, mtime, hbelow, houtside, rfl⟩

/-! ### The globs -/

theorem le_of_startsWith {path start : String} (h : startsWith path start = true) : start ≤ path := by
  apply not_lt.1
  intro hlt
  exact (List.isPrefixOf_iff_prefix.1 h).le (String.lt_iff_toList_lt.1 hlt)

theorem lt_of_startsWith {path start : String} (h : startsWith path (start ++ "/") = true) :
    start < path := by
  obtain ⟨rest, rfl⟩ := startsWith_iff_exists.1 h
  refine lt_of_le_of_ne ?_ ?_
  · apply le_of_startsWith
    simp [startsWith, String.append_assoc]
  · intro hsame
    have hlength := congrArg String.length hsame
    simp only [String.length_append] at hlength
    have hslash : "/".length = 1 := by decide
    omega

theorem mem_sortedSet {texts : List String} {text : String} :
    text ∈ sortedSet texts ↔ text ∈ texts := by
  rw [sortedSet, List.mem_mergeSort, List.mem_dedup]

theorem pairwise_sortedSet (texts : List String) : (sortedSet texts).Pairwise (· < ·) := by
  have hsorted : (sortedSet texts).Pairwise fun one other => decide (one ≤ other) = true :=
    List.pairwise_mergeSort (fun _ _ _ h h' => by simpa using le_trans (by simpa using h) (by simpa using h'))
      (fun one other => by simpa using le_total one other) _
  have hdistinct : (sortedSet texts).Pairwise (· ≠ ·) :=
    (List.mergeSort_perm _ _).nodup_iff.2 texts.nodup_dedup
  refine (hsorted.and hdistinct).imp ?_
  rintro one other ⟨hle, hne⟩
  exact lt_of_le_of_ne (by simpa using hle) hne

/-- The glob of a path that is kept, and whether it is a folder. -/
def patternOf (kept : String × Bool) : String :=
  if kept.2 then kept.1 ++ "/**" else kept.1

/-- The folders among what is kept. -/
def foldersOf (kept : List (String × Bool)) : List String :=
  (kept.filter Prod.snd).map Prod.fst

/-- What is kept of the paths the loop went over. -/
structure Kept (rt : DocumentsRuntime) (docs : Documents) (done : List String)
    (kept : List (String × Bool)) : Prop where
  taken : ∀ one ∈ kept, one.1 ∈ done ∧ '*' ∉ one.1.toList ∧
    ∃ node, Resolves rt docs one.1 node ∧ node.isDir = one.2
  covered : ∀ rel ∈ done, ∃ one ∈ kept, rel = one.1 ∨
    one.2 = true ∧ startsWith rel (one.1 ++ "/") = true
  order : kept.Pairwise fun one other => one.1 < other.1 ∧
    (one.2 = true → startsWith other.1 (one.1 ++ "/") = false)

theorem mem_foldersOf {kept : List (String × Bool)} {folder : String} :
    folder ∈ foldersOf kept ↔ (folder, true) ∈ kept := by
  simp [foldersOf]

/-- One path is covered by a folder, or is kept. -/
theorem choose_ok {kept : List (String × Bool)} {rel : String} {found : List String × List String}
    (h : docs.choose rt (foldersOf kept, kept.map patternOf) rel = .ok found) :
    (found = (foldersOf kept, kept.map patternOf) ∧
      ∃ folder, (folder, true) ∈ kept ∧ (rel = folder ∨ startsWith rel (folder ++ "/") = true)) ∨
    ∃ node, Resolves rt docs rel node ∧ '*' ∉ rel.toList ∧
      (∀ folder, (folder, true) ∈ kept → startsWith rel (folder ++ "/") = false) ∧
      found = (foldersOf (kept ++ [(rel, node.isDir)]), (kept ++ [(rel, node.isDir)]).map patternOf) := by
  unfold Documents.choose at h
  split at h
  next hany =>
    obtain ⟨folder, hfolder, hcovers⟩ := List.any_eq_true.1 hany
    refine .inl ⟨(Except.ok.inj h).symm, folder, mem_foldersOf.1 hfolder, ?_⟩
    simpa using hcovers
  next hnone =>
    have hfree : ∀ folder, (folder, true) ∈ kept → startsWith rel (folder ++ "/") = false := by
      intro folder hfolder
      rw [Bool.eq_false_iff]
      intro hstart
      apply hnone
      rw [List.any_eq_true]
      exact ⟨folder, mem_foldersOf.2 hfolder, by simp [hstart]⟩
    unfold refuseGlob at h
    split at h
    next => cases h
    next hglob =>
      have hplain : '*' ∉ rel.toList := by
        intro hstar
        apply hglob
        rw [List.any_eq_true]
        exact ⟨'*', hstar, by decide⟩
      simp only [bind, Except.bind] at h
      cases hresolve : docs.resolve rt rel with
      | error raised => rw [hresolve] at h; cases h
      | ok resolved =>
          obtain ⟨path, node⟩ := resolved
          rw [hresolve] at h
          refine .inr ⟨node, (resolve_ok_iff.1 hresolve).2, hplain, hfree, ?_⟩
          cases hdir : node.isDir with
          | true =>
              simp only [hdir, if_true] at h
              obtain rfl := Except.ok.inj h
              simp [foldersOf, patternOf]
          | false =>
              simp only [hdir] at h
              obtain rfl := Except.ok.inj h
              simp [foldersOf, patternOf]

theorem Kept.step {done : List String} {kept : List (String × Bool)} {rel : String}
    {found : List String × List String} (h : Kept rt docs done kept) (hlast : ∀ one ∈ done, one < rel)
    (hchoose : docs.choose rt (foldersOf kept, kept.map patternOf) rel = .ok found) :
    ∃ kept', found = (foldersOf kept', kept'.map patternOf) ∧ Kept rt docs (done ++ [rel]) kept' := by
  rcases choose_ok hchoose with ⟨rfl, folder, hfolder, hcovers⟩ | ⟨node, hresolves, hplain, hfree, rfl⟩
  · refine ⟨kept, rfl, ?_⟩
    constructor
    case taken =>
      intro one hone
      exact (h.taken one hone).imp_left (List.mem_append_left _)
    case covered =>
      rw [List.forall_mem_append, List.forall_mem_singleton]
      exact ⟨h.covered, (folder, true), hfolder, hcovers.imp_right fun hstart => ⟨rfl, hstart⟩⟩
    case order => exact h.order
  · refine ⟨kept ++ [(rel, node.isDir)], rfl, ?_⟩
    constructor
    case taken =>
      rw [List.forall_mem_append, List.forall_mem_singleton]
      refine ⟨?_, by simp, hplain, node, hresolves, rfl⟩
      intro one hone
      exact (h.taken one hone).imp_left (List.mem_append_left _)
    case covered =>
      rw [List.forall_mem_append, List.forall_mem_singleton]
      constructor
      · intro other hother
        obtain ⟨one, hone, hcovers⟩ := h.covered other hother
        exact ⟨one, List.mem_append_left _ hone, hcovers⟩
      · exact ⟨_, List.mem_append_right _ List.mem_cons_self, .inl rfl⟩
    case order =>
      rw [List.pairwise_append]
      refine ⟨h.order, List.pairwise_singleton _ _, ?_⟩
      intro one hone other hother
      obtain rfl := List.mem_singleton.1 hother
      refine ⟨hlast one.1 (h.taken one hone).1, ?_⟩
      intro hdir
      exact hfree one.1 (by rw [← hdir]; exact hone)

/-- The loop keeps, of the sorted paths, those that no folder before them covers. -/
theorem kept_selected {selected : List String} {found : List String × List String}
    (hsorted : selected.Pairwise (· < ·)) (h : selected.foldlM (docs.choose rt) ([], []) = .ok found) :
    ∃ kept, found = (foldersOf kept, kept.map patternOf) ∧ Kept rt docs selected kept := by
  have hrun : ∀ (rest done : List String) (kept : List (String × Bool)), (done ++ rest).Pairwise (· < ·) →
      Kept rt docs done kept →
      rest.foldlM (docs.choose rt) (foldersOf kept, kept.map patternOf) = .ok found →
      ∃ kept', found = (foldersOf kept', kept'.map patternOf) ∧ Kept rt docs (done ++ rest) kept' := by
    intro rest
    induction rest with
    | nil =>
        intro done kept _ hkept hfound
        obtain rfl := Except.ok.inj hfound
        rw [List.append_nil]
        exact ⟨kept, rfl, hkept⟩
    | cons rel rest ih =>
        intro done kept hpairwise hkept hfound
        rw [List.foldlM_cons] at hfound
        cases hchoose : docs.choose rt (foldersOf kept, kept.map patternOf) rel with
        | error raised => rw [hchoose] at hfound; cases hfound
        | ok next =>
            rw [hchoose] at hfound
            have hlast : ∀ one ∈ done, one < rel := fun one hone =>
              (List.pairwise_append.1 hpairwise).2.2 one hone rel List.mem_cons_self
            obtain ⟨kept', rfl, hkept'⟩ := hkept.step hlast hchoose
            have hwhole : done ++ rel :: rest = done ++ [rel] ++ rest := by simp
            rw [hwhole] at hpairwise ⊢
            exact ih (done ++ [rel]) kept' hpairwise hkept' hfound
  have hstart : Kept rt docs [] [] := ⟨by simp, by simp, .nil⟩
  exact hrun selected [] [] hsorted hstart h

/-! ### What the globs take -/

theorem matches_patternOf {kept : String × Bool} (hplain : '*' ∉ kept.1.toList) {path : String} :
    Matches (patternOf kept) path ↔
      if kept.2 then startsWith path (kept.1 ++ "/") = true else path = kept.1 := by
  obtain ⟨rel, folder⟩ := kept
  have hstar : ∀ text : String, '*' ∈ (text ++ "/**").toList := by
    intro text
    rw [String.toList_append]
    exact List.mem_append_right _ (by decide)
  cases folder with
  | true =>
      simp only [patternOf, Matches, if_true]
      constructor
      · rintro (⟨folder, hsame, hstart⟩ | ⟨hno, -⟩)
        · rwa [(String.append_left_inj "/**").1 hsame]
        · exact absurd (hstar rel) hno
      · exact fun hstart => .inl ⟨rel, rfl, hstart⟩
  | false =>
      simp only [patternOf, Matches, Bool.false_eq_true, if_false]
      constructor
      · rintro (⟨folder, rfl, -⟩ | ⟨-, hsame⟩)
        · exact absurd (hstar folder) hplain
        · exact hsame
      · exact fun hsame => .inr ⟨hplain, hsame⟩

/-- One glob takes every path that another one takes. -/
def Covers (one other : String) : Prop :=
  ∀ path, Matches other path → Matches one path

/-- A path the glob of what is kept takes. -/
def sampleOf (kept : String × Bool) : String :=
  if kept.2 then kept.1 ++ "/" else kept.1

theorem matches_sampleOf {kept : String × Bool} (hplain : '*' ∉ kept.1.toList) :
    Matches (patternOf kept) (sampleOf kept) := by
  rw [matches_patternOf hplain]
  obtain ⟨rel, folder⟩ := kept
  cases folder <;> simp [sampleOf, startsWith]

/-- A text below a folder with a slash at its end is the folder or below it. -/
theorem startsWith_slash {path folder : String}
    (h : startsWith (path ++ "/") (folder ++ "/") = true) :
    path = folder ∨ startsWith path (folder ++ "/") = true := by
  obtain ⟨rest, hrest⟩ := startsWith_iff_exists.1 h
  rw [← String.toList_inj, String.toList_append, String.toList_append, String.toList_append] at hrest
  rcases List.eq_nil_or_concat rest.toList with hnil | ⟨before, last, hlast⟩
  · rw [hnil, List.append_nil] at hrest
    exact .inl (String.toList_inj.1 (List.append_cancel_right hrest))
  · refine .inr (startsWith_iff_exists.2 ⟨String.ofList before, ?_⟩)
    rw [hlast, List.concat_eq_append, ← List.append_assoc] at hrest
    have hpath := (List.append_inj' hrest rfl).1
    rw [← String.toList_inj, hpath]
    simp

/-- A glob takes its own sample, which the glob of a path that neither is nor covers it does not. -/
theorem not_covers {one other : String × Bool} (hplain : '*' ∉ one.1.toList)
    (hplain' : '*' ∉ other.1.toList) (hne : one.1 ≠ other.1)
    (hfree : one.2 = true → ¬startsWith other.1 (one.1 ++ "/") = true)
    (hslash : one.2 = false → other.2 = true → one.1 ≠ other.1 ++ "/") :
    ¬Covers (patternOf one) (patternOf other) := by
  intro hcovers
  have hmatch := hcovers _ (matches_sampleOf hplain')
  rw [matches_patternOf hplain] at hmatch
  obtain ⟨rel, folder⟩ := one
  obtain ⟨later, isFolder⟩ := other
  cases folder with
  | true =>
      cases isFolder with
      | true =>
          rcases startsWith_slash hmatch with hsame | hbelow
          · exact hne hsame.symm
          · exact hfree rfl hbelow
      | false => exact hfree rfl hmatch
  | false =>
      cases isFolder with
      | true => exact hslash rfl rfl hmatch.symm
      | false => exact hne hmatch.symm

/-- The globs that are kept do not cover each other. -/
theorem Kept.apart {done : List String} {kept : List (String × Bool)} (h : Kept rt docs done kept) :
    (kept.map patternOf).Pairwise fun one other => ¬Covers one other ∧ ¬Covers other one := by
  rw [List.pairwise_map]
  refine h.order.imp_of_mem ?_
  rintro one other hone hother ⟨hlt, hfree⟩
  have hplain := (h.taken _ hone).2.1
  have hplain' := (h.taken _ hother).2.1
  have hbelow : ∀ {path start : String}, path = start ++ "/" → startsWith path (start ++ "/") = true := by
    rintro path start rfl
    simp [startsWith]
  constructor
  · apply not_covers hplain hplain' hlt.ne
    · intro hdir hstart
      rw [hfree hdir] at hstart
      cases hstart
    · intro _ _ hsame
      exact lt_asymm hlt (lt_of_startsWith (hbelow hsame))
  · apply not_covers hplain' hplain hlt.ne'
    · intro _ hstart
      exact lt_asymm hlt (lt_of_startsWith hstart)
    · intro _ hdir hsame
      have hstart := hbelow hsame
      rw [hfree hdir] at hstart
      cases hstart

/-- A selection embeds what was counted for it, and none of its globs covers another one. -/
structure EmbedsCounted (rt : DocumentsRuntime) (docs : Documents) (rels patterns : List String) :
    Prop where
  counted : ∃ files, docs.counted rt rels = .ok files ∧
    docs.count rt rels = .ok ⟨files.length, (files.map Prod.snd).sum⟩ ∧
    (files.map Prod.fst).Nodup ∧
    ∀ path size, (path, size) ∈ files ↔ docs.HasFile path size ∧ Selects patterns path
  apart : patterns.Pairwise fun one other => ¬Covers one other ∧ ¬Covers other one

/-- What `include_patterns` has looked at when it accepts. -/
theorem includePatterns_ok {rels patterns : List String}
    (h : docs.includePatterns rt rels = .ok patterns) :
    (∀ rel ∈ rels, Clean rt.table rel) ∧
      ((patterns = [] ∧ ∃ rel ∈ rels, joinWith "/" (cleanParts rel) = "") ∨
        ∃ kept, patterns = kept.map patternOf ∧ kept ≠ [] ∧
          (∀ rel ∈ rels, joinWith "/" (cleanParts rel) ≠ "") ∧
          Kept rt docs (sortedSet (rels.map fun rel => joinWith "/" (cleanParts rel))) kept) := by
  have hcleaned : ∀ rel out, cleaned rt rel = .ok out →
      Clean rt.table rel ∧ joinWith "/" (cleanParts rel) = out := by
    intro rel out hok
    by_cases hclean : Clean rt.table rel
    · rw [cleaned_of_clean hclean] at hok
      exact ⟨hclean, Except.ok.inj hok⟩
    · obtain ⟨message, hbad⟩ := cleaned_of_not_clean hclean
      rw [hbad] at hok
      cases hok
  unfold Documents.includePatterns at h
  cases hmap : rels.mapM (cleaned rt) with
  | error raised => rw [hmap] at h; cases h
  | ok outs =>
      rw [hmap] at h
      have hall := mapM_eq_ok_iff.1 hmap
      have hclean : ∀ rel ∈ rels, Clean rt.table rel := by
        intro rel hrel
        obtain ⟨out, -, hok⟩ := exists_left hall rel hrel
        exact (hcleaned rel out hok).1
      have houts : (rels.map fun rel => joinWith "/" (cleanParts rel)) = outs := by
        rw [← List.forall₂_eq_eq_eq, List.forall₂_map_left_iff]
        exact hall.imp fun rel out hok => (hcleaned rel out hok).2
      subst houts
      refine ⟨hclean, ?_⟩
      simp only [bind, Except.bind] at h
      split at h
      next => cases h
      next hfilled =>
        split at h
        next hroot =>
          obtain rfl := Except.ok.inj h
          rw [List.contains_iff_mem, mem_sortedSet, List.mem_map] at hroot
          exact .inl ⟨rfl, hroot⟩
        next hroot =>
          cases hfold : (sortedSet (rels.map fun rel => joinWith "/" (cleanParts rel))).foldlM
              (docs.choose rt) ([], []) with
          | error raised => rw [hfold] at h; cases h
          | ok found =>
              obtain ⟨kept, rfl, hkept⟩ := kept_selected (pairwise_sortedSet _) hfold
              rw [hfold] at h
              dsimp only at h
              split at h
              next => cases h
              next =>
                obtain rfl := Except.ok.inj h
                refine .inr ⟨kept, rfl, ?_, ?_, hkept⟩
                · rintro rfl
                  obtain ⟨rel, hrel⟩ := List.exists_mem_of_ne_nil _ hfilled
                  obtain ⟨one, hone, -⟩ := hkept.covered rel hrel
                  cases hone
                · intro rel hrel hempty
                  apply hroot
                  rw [List.contains_iff_mem, mem_sortedSet]
                  exact List.mem_map.2 ⟨rel, hrel, hempty⟩

/-- What is counted when every path resolves: each file that one of the paths covers, once. -/
theorem counted_of_resolves {rels : List String} (h : ∀ rel ∈ rels, ∃ node, Resolves rt docs rel node) :
    ∃ files, docs.counted rt rels = .ok files ∧ (files.map Prod.fst).Nodup ∧
      ∀ path size, (path, size) ∈ files ↔ docs.HasFile path size ∧
        ∃ rel ∈ rels, Covered (joinWith "/" (cleanParts rel)) path := by
  have hyield : ∀ rel ∈ rels, ∃ files, docs.filesUnder rt rel = .ok files := by
    intro rel hrel
    obtain ⟨node, hnode⟩ := h rel hrel
    obtain ⟨files, hfiles, -⟩ := hnode.mem_filesUnder
    exact ⟨files, hfiles⟩
  obtain ⟨yielded, hmap⟩ := exists_mapM_eq_ok hyield
  have hall := mapM_eq_ok_iff.1 hmap
  have hmem : ∀ path size, (path, size) ∈ yielded.flatten ↔ docs.HasFile path size ∧
      ∃ rel ∈ rels, Covered (joinWith "/" (cleanParts rel)) path := by
    intro path size
    rw [List.mem_flatten]
    constructor
    · rintro ⟨files, hfiles, hfile⟩
      obtain ⟨rel, hrel, hok⟩ := exists_right hall files hfiles
      obtain ⟨node, hnode⟩ := h rel hrel
      obtain ⟨files', hok', hiff⟩ := hnode.mem_filesUnder
      obtain rfl := Except.ok.inj (hok.symm.trans hok')
      exact ((hiff path size).1 hfile).imp_right fun hcovered => ⟨rel, hrel, hcovered⟩
    · rintro ⟨hfile, rel, hrel, hcovered⟩
      obtain ⟨files, hfiles, hok⟩ := exists_left hall rel hrel
      obtain ⟨node, hnode⟩ := h rel hrel
      obtain ⟨files', hok', hiff⟩ := hnode.mem_filesUnder
      obtain rfl := Except.ok.inj (hok.symm.trans hok')
      exact ⟨files, hfiles, (hiff path size).2 ⟨hfile, hcovered⟩⟩
  refine ⟨Keyed.lastOfEach Prod.fst yielded.flatten, ?_, Keyed.distinct_lastOfEach _, ?_⟩
  · rw [counted_eq, hmap]
    rfl
  · intro path size
    rw [Keyed.mem_lastOfEach, ← hmem]
    constructor
    · exact Keyed.Latest.mem
    · intro hfile
      obtain ⟨⟨path', size'⟩, hlast, hpath⟩ :=
        Keyed.exists_latest (List.mem_map_of_mem (f := Prod.fst) hfile)
      obtain rfl : path' = path := hpath
      have hunique := ((hmem _ _).1 hfile).1.unique ((hmem _ _).1 hlast.mem).1
      rwa [hunique]

theorem resolves_of_counted {rels : List String} {files : List (String × Nat)}
    (h : docs.counted rt rels = .ok files) : ∀ rel ∈ rels, ∃ node, Resolves rt docs rel node := by
  rw [counted_eq] at h
  cases hmap : rels.mapM (docs.filesUnder rt) with
  | error raised => rw [hmap] at h; cases h
  | ok yielded =>
      intro rel hrel
      obtain ⟨out, -, hok⟩ := exists_left (mapM_eq_ok_iff.1 hmap) rel hrel
      exact resolves_of_filesUnder hok

/-- A file that a path covers makes the path its own, or a folder above it. -/
theorem isDir_of_covered {rel path : String} {size : Nat} {node : DocumentsNode}
    (hnode : Resolves rt docs rel node) (hfile : docs.HasFile path size) :
    (path = joinWith "/" (cleanParts rel) → node.isDir = false) ∧
      (startsWith path (joinWith "/" (cleanParts rel) ++ "/") = true → node.isDir = true) := by
  obtain ⟨parts, mtime, hleads, -, rfl⟩ := hfile
  have habove : ∀ part ∈ cleanParts rel, IsPart part := fun _ => isPart_of_mem_cleanParts
  constructor
  · intro hsame
    obtain rfl := @joinWith_inj '/' _ _ (isPart_of_leads hleads) habove hsame
    rw [hnode.leads.unique docs.plain hleads]
    rfl
  · intro hstart
    obtain ⟨below, rfl, hbelow⟩ := exists_below_of_startsWith habove (isPart_of_leads hleads) hstart
    obtain ⟨middle, hmiddle, hrest⟩ := leads_append.1 hleads
    obtain rfl := hmiddle.unique docs.plain hnode.leads
    obtain ⟨name, rest, rfl⟩ := List.exists_cons_of_ne_nil hbelow
    exact hrest.isDir_of_cons

/-- The globs that are kept take a file exactly where one of the paths covers it. -/
theorem Kept.selects_iff {rels : List String} {kept : List (String × Bool)}
    (h : Kept rt docs (sortedSet (rels.map fun rel => joinWith "/" (cleanParts rel))) kept)
    (hfilled : kept ≠ []) (hroot : ∀ rel ∈ rels, joinWith "/" (cleanParts rel) ≠ "") {path : String}
    {size : Nat} (hfile : docs.HasFile path size) :
    Selects (kept.map patternOf) path ↔ ∃ rel ∈ rels, Covered (joinWith "/" (cleanParts rel)) path := by
  have hof : ∀ one ∈ kept, ∃ rel ∈ rels, joinWith "/" (cleanParts rel) = one.1 := by
    intro one hone
    have hmem := (h.taken one hone).1
    rw [mem_sortedSet, List.mem_map] at hmem
    exact hmem
  constructor
  · rintro (hnone | ⟨pattern, hpattern, hmatch⟩)
    · exact absurd (List.map_eq_nil_iff.1 hnone) hfilled
    · obtain ⟨one, hone, rfl⟩ := List.mem_map.1 hpattern
      obtain ⟨rel, hrel, hsame⟩ := hof one hone
      rw [matches_patternOf (h.taken one hone).2.1] at hmatch
      refine ⟨rel, hrel, .inr ?_⟩
      rw [hsame]
      split at hmatch
      next => exact .inr hmatch
      next => exact .inl hmatch
  · rintro ⟨rel, hrel, hcovered⟩
    have hcovered := hcovered.resolve_left (hroot rel hrel)
    have hmem : joinWith "/" (cleanParts rel) ∈
        sortedSet (rels.map fun rel => joinWith "/" (cleanParts rel)) :=
      mem_sortedSet.2 (List.mem_map_of_mem hrel)
    obtain ⟨one, hone, hkept⟩ := h.covered _ hmem
    refine .inr ⟨patternOf one, List.mem_map_of_mem hone, ?_⟩
    obtain ⟨-, hplain, node, hnode, hdir⟩ := h.taken one hone
    rw [matches_patternOf hplain]
    obtain ⟨other, hother, hsame⟩ := hof one hone
    have hparts : joinWith "/" (cleanParts one.1) = one.1 := by
      rw [← hsame, cleanParts_joinWith fun _ => isPart_of_mem_cleanParts]
    have hkind := isDir_of_covered hnode hfile
    rw [hparts, hdir] at hkind
    rcases hkept with hself | ⟨hfolder, hbelow⟩
    · rw [hself] at hcovered
      rcases hcovered with hsame | hstart
      · rw [hkind.1 hsame]
        exact hsame
      · rw [hkind.2 hstart]
        exact hstart
    · rw [if_pos hfolder]
      rcases hcovered with hsame | hstart
      · rwa [hsame]
      · obtain ⟨rest, hrest⟩ := startsWith_iff_exists.1 hbelow
        obtain ⟨more, hmore⟩ := startsWith_iff_exists.1 hstart
        exact startsWith_iff_exists.2 ⟨rest ++ "/" ++ more, by rw [hmore, hrest]; simp [String.append_assoc]⟩

end Documents

end Papaia.Ingest
