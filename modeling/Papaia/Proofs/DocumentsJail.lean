/-
Module: Papaia.Proofs.DocumentsJail
Purpose: What a path of the documents folder leads to, and that nothing outside the folder is ever
  resolved, listed or counted.
Trusted boundary: the Unicode categories and `casefold`, `repr`; the tree stands still during a call
Main exports: cleanRel_ok_iff, Clean.again, resolve_ok_iff, mem_filesUnder_iff, InJail, jail_tight_iff
-/
import Papaia.Data.Spelling
import Papaia.Ingest.Documents

namespace Papaia.Ingest

open Text FileTree

/-! ### Cleaned paths -/

/-- The parts `clean_rel` keeps of a path. -/
def cleanParts (rel : String) : Path :=
  (pathParts rel).filter fun part => part ≠ ""

/-- What `clean_rel` asks of a path. -/
structure Clean (table : UnicodeTable) (rel : String) : Prop where
  start : startsWith rel "/" = false
  slashes : '\\' ∉ rel.toList
  short : rel.utf8ByteSize ≤ maxPathBytes
  parts : ∀ part ∈ cleanParts rel, partProblem table part = none

/-- A part between two slashes. -/
def IsPart (part : String) : Prop :=
  '/' ∉ part.toList ∧ part ≠ ""

theorem isPart_of_mem_cleanParts {rel part : String} (h : part ∈ cleanParts rel) : IsPart part := by
  obtain ⟨hmem, hfilled⟩ := List.mem_filter.1 h
  obtain ⟨run, hrun, rfl⟩ := List.mem_map.1 hmem
  constructor
  · rw [String.toList_ofList]
    intro hslash
    have hplain := (forall_mem_splitOnP (· == '/') _ run hrun '/' hslash).1
    simp at hplain
  · simpa using hfilled

theorem cleanRel_ok_iff {table : UnicodeTable} {rel out : String} :
    cleanRel table rel = .ok out ↔ Clean table rel ∧ joinWith "/" (cleanParts rel) = out := by
  by_cases hempty : rel = ""
  · subst hempty
    have hclean : Clean table "" := ⟨by decide, by decide, by decide, by simp [cleanParts, pathParts]⟩
    rw [and_iff_right hclean]
    simp [cleanRel, cleanParts, pathParts, joinWith]
  · unfold cleanRel
    rw [if_neg hempty]
    split
    next hbad =>
      refine iff_of_false (by simp) ?_
      rintro ⟨h, -⟩
      simp [h.start, h.slashes] at hbad
    next hgood =>
      simp only [Bool.or_eq_true, not_or, Bool.not_eq_true, List.contains_eq_mem,
        decide_eq_false_iff_not] at hgood
      split
      next hlong =>
        refine iff_of_false (by simp) ?_
        rintro ⟨h, -⟩
        exact absurd h.short (Nat.not_le.2 hlong)
      next hshort =>
        dsimp only
        split
        next problem hproblem =>
          refine iff_of_false (by simp) ?_
          rintro ⟨h, -⟩
          obtain ⟨part, hpart, hfound⟩ := List.exists_of_findSome?_eq_some hproblem
          rw [h.parts part hpart] at hfound
          cases hfound
        next hnone =>
          have hclean : Clean table rel :=
            ⟨hgood.1, hgood.2, Nat.le_of_not_lt hshort, List.findSome?_eq_none_iff.1 hnone⟩
          rw [and_iff_right hclean, Except.ok.injEq]
          rfl

section Joined

variable {parts : Path}

theorem joinWith_eq_empty_iff (h : ∀ part ∈ parts, IsPart part) :
    joinWith "/" parts = "" ↔ parts = [] := by
  constructor
  · intro hempty
    exact @joinWith_inj '/' parts [] h (by simp) hempty
  · rintro rfl
    rfl

theorem pathParts_joinWith (hparts : parts ≠ []) (h : ∀ part ∈ parts, IsPart part) :
    pathParts (joinWith "/" parts) = parts := by
  have hsplit : (joinWith "/" parts).toList.splitOn '/' = parts.map String.toList :=
    splitOn_joinWith hparts fun part hpart => (h part hpart).1
  rw [pathParts, hsplit, List.map_map]
  simp [Function.comp_def]

theorem partsOf_joinWith (h : ∀ part ∈ parts, IsPart part) :
    partsOf (joinWith "/" parts) = parts := by
  unfold partsOf
  by_cases hparts : parts = []
  · rw [hparts]
    rfl
  · rw [if_neg (mt (joinWith_eq_empty_iff h).1 hparts), pathParts_joinWith hparts h]

theorem cleanParts_joinWith (h : ∀ part ∈ parts, IsPart part) :
    cleanParts (joinWith "/" parts) = parts := by
  by_cases hparts : parts = []
  · rw [hparts]
    rfl
  · rw [cleanParts, pathParts_joinWith hparts h, List.filter_eq_self]
    intro part hpart
    simpa using (h part hpart).2

theorem joinWith_cons {part : String} (h : parts ≠ []) :
    joinWith "/" (part :: parts) = part ++ "/" ++ joinWith "/" parts := by
  cases parts with
  | nil => exact absurd rfl h
  | cons next rest => rfl

/-- Parts that are left out make a path no longer. -/
theorem utf8ByteSize_joinWith_filter (keep : String → Bool) :
    (joinWith "/" (parts.filter keep)).utf8ByteSize ≤ (joinWith "/" parts).utf8ByteSize := by
  induction parts with
  | nil => exact le_rfl
  | cons part rest ih =>
      by_cases hrest : rest = []
      · subst hrest
        cases hkeep : keep part <;> simp [hkeep, joinWith]
      · rw [joinWith_cons hrest, String.utf8ByteSize_append, String.utf8ByteSize_append]
        cases hkeep : keep part with
        | false =>
            rw [List.filter_cons_of_neg (by simp [hkeep])]
            omega
        | true =>
            rw [List.filter_cons_of_pos hkeep]
            by_cases hkept : rest.filter keep = []
            · rw [hkept, joinWith]
              omega
            · rw [joinWith_cons hkept, String.utf8ByteSize_append, String.utf8ByteSize_append]
              omega

end Joined

theorem partsOf_cleanParts (rel : String) :
    partsOf (joinWith "/" (cleanParts rel)) = cleanParts rel :=
  partsOf_joinWith fun _ => isPart_of_mem_cleanParts

theorem joinWith_pathParts (rel : String) : joinWith "/" (pathParts rel) = rel := by
  rw [← String.toList_inj, toList_joinWith, pathParts, List.map_map]
  have hsame : String.toList ∘ String.ofList = id := by
    funext chars
    exact String.toList_ofList
  rw [hsame, List.map_id]
  exact List.intercalate_splitOn '/'

/-- A path that was cleaned is clean, and has the same parts. -/
theorem Clean.again {table : UnicodeTable} {rel : String} (h : Clean table rel) :
    Clean table (joinWith "/" (cleanParts rel)) := by
  have hparts : ∀ part ∈ cleanParts rel, IsPart part := fun _ => isPart_of_mem_cleanParts
  have hchars : ∀ c ∈ (joinWith "/" (cleanParts rel)).toList, c ∈ rel.toList ∨ c = '/' := by
    apply forall_mem_joinWith
    · simp
    · intro part hpart c hc
      obtain ⟨run, hrun, rfl⟩ := List.mem_map.1 (List.mem_filter.1 hpart).1
      rw [String.toList_ofList] at hc
      exact .inl (forall_mem_splitOnP (· == '/') _ run hrun c hc).2
  constructor
  case start =>
    rw [Bool.eq_false_iff]
    intro hstart
    obtain ⟨chars, hlist⟩ : ∃ chars, (joinWith "/" (cleanParts rel)).toList = '/' :: chars := by
      obtain ⟨chars, hlist⟩ := List.isPrefixOf_iff_prefix.1 hstart
      exact ⟨chars, hlist.symm⟩
    have hfilled : cleanParts rel ≠ [] := by
      intro hnil
      rw [hnil] at hlist
      cases hlist
    have hsplit : pathParts (joinWith "/" (cleanParts rel)) =
        "" :: (chars.splitOn '/').map String.ofList := by
      rw [pathParts, hlist, ← List.nil_append ('/' :: chars),
        List.splitOn_append_cons_self_of_not_mem List.not_mem_nil]
      rfl
    rw [pathParts_joinWith hfilled hparts] at hsplit
    exact (hparts "" (by rw [hsplit]; exact List.mem_cons_self)).2 rfl
  case slashes =>
    intro hmem
    rcases hchars _ hmem with hrel | hslash
    · exact h.slashes hrel
    · cases hslash
  case short =>
    have hle : (joinWith "/" (cleanParts rel)).utf8ByteSize ≤
        (joinWith "/" (pathParts rel)).utf8ByteSize := utf8ByteSize_joinWith_filter _
    rw [joinWith_pathParts] at hle
    exact hle.trans h.short
  case parts =>
    rw [cleanParts_joinWith hparts]
    exact h.parts

/-! ### What a path leads to -/

section Documents

variable {rt : DocumentsRuntime} {docs : Documents} {rel : String}

/-- The first part of a path is not hidden. -/
def Documents.Shows (docs : Documents) (path : Path) : Prop :=
  ∀ first, path.head? = some first → first ∉ docs.hiddenTop

theorem descend_ok_iff {node target : DocumentsNode} {path : Path} (hplain : node.Plain)
    (hlink : node.isLink = false) :
    descend rel node path = .ok target ↔ Leads node path target ∧ target.isLink = false := by
  induction path generalizing node with
  | nil =>
      simp only [descend, Except.ok.injEq, leads_nil]
      constructor
      · rintro rfl
        exact ⟨rfl, hlink⟩
      · exact And.left
  | cons part rest ih =>
      cases node with
      | dir mtime entries =>
          rw [descend, leads_cons]
          cases hfind : find entries part with
          | none =>
              refine iff_of_false (by simp) ?_
              rintro ⟨⟨_, _, child, heq, hmem, -⟩, -⟩
              cases heq
              rw [(find_eq_some_iff hplain).2 hmem] at hfind
              cases hfind
          | some child =>
              have hmem := (find_eq_some_iff hplain).1 hfind
              have hsame : ∀ {other : DocumentsNode}, (part, other) ∈ entries → other = child :=
                fun h => hplain.same h hmem
              dsimp only
              cases hchild : child.isLink with
              | true =>
                  refine iff_of_false (by simp) ?_
                  rintro ⟨⟨_, _, other, heq, hother, hleads⟩, htarget⟩
                  cases heq
                  obtain rfl := hsame hother
                  cases hleads with
                  | here => rw [hchild] at htarget; cases htarget
                  | step => cases hchild
              | false =>
                  rw [if_neg (by simp), ih (hplain.below hmem).2 hchild]
                  constructor
                  · rintro ⟨hleads, htarget⟩
                    exact ⟨⟨_, _, child, rfl, hmem, hleads⟩, htarget⟩
                  · rintro ⟨⟨_, _, other, heq, hother, hleads⟩, htarget⟩
                    cases heq
                    obtain rfl := hsame hother
                    exact ⟨hleads, htarget⟩
      | file => simp [descend, leads_cons]
      | link => simp [Node.isLink] at hlink
      | special => simp [descend, leads_cons]

/-- A path goes on below what is neither a directory nor a link. -/
def Blocked (node : DocumentsNode) (path : Path) : Prop :=
  ∃ before part behind blocked, path = before ++ part :: behind ∧ Leads node before blocked ∧
    blocked.isDir = false ∧ blocked.isLink = false

theorem blocked_cons {mtime : PyFloat} {entries : List (String × DocumentsNode)} {part : String}
    {rest : Path} :
    Blocked (.dir mtime entries) (part :: rest) ↔
      ∃ child, (part, child) ∈ entries ∧ Blocked child rest := by
  constructor
  · rintro ⟨before, next, behind, blocked, hpath, hleads, hdir, hlink⟩
    cases hleads with
    | here => cases hdir
    | step hmem hbelow =>
        obtain ⟨rfl, rfl⟩ := List.cons.inj hpath
        exact ⟨_, hmem, _, next, behind, blocked, rfl, hbelow, hdir, hlink⟩
  · rintro ⟨child, hmem, before, next, behind, blocked, rfl, hleads, hdir, hlink⟩
    exact ⟨part :: before, next, behind, blocked, rfl, .step hmem hleads, hdir, hlink⟩

theorem descend_notADirectory_iff {node : DocumentsNode} {path : Path} (hplain : node.Plain)
    (hlink : node.isLink = false) :
    descend rel node path = .error .notADirectory ↔ Blocked node path := by
  induction path generalizing node with
  | nil =>
      refine iff_of_false (by simp [descend]) ?_
      rintro ⟨before, part, behind, -, hpath, -⟩
      simp at hpath
  | cons part rest ih =>
      have hhere : node.isDir = false → Blocked node (part :: rest) := fun hdir =>
        ⟨[], part, rest, node, rfl, .here node, hdir, hlink⟩
      cases node with
      | dir mtime entries =>
          rw [descend, blocked_cons]
          cases hfind : find entries part with
          | none =>
              refine iff_of_false (by simp) ?_
              rintro ⟨child, hmem, -⟩
              rw [(find_eq_some_iff hplain).2 hmem] at hfind
              cases hfind
          | some child =>
              have hmem := (find_eq_some_iff hplain).1 hfind
              dsimp only
              cases hchild : child.isLink with
              | true =>
                  refine iff_of_false (by simp) ?_
                  rintro ⟨other, hother, before, next, behind, blocked, -, hleads, hdir, hfree⟩
                  obtain rfl := hplain.same hother hmem
                  cases hleads with
                  | here => rw [hchild] at hfree; cases hfree
                  | step => cases hchild
              | false =>
                  rw [if_neg (by simp), ih (hplain.below hmem).2 hchild]
                  constructor
                  · exact fun h => ⟨child, hmem, h⟩
                  · rintro ⟨other, hother, h⟩
                    obtain rfl := hplain.same hother hmem
                    exact h
      | file => exact iff_of_true rfl (hhere rfl)
      | link => simp [Node.isLink] at hlink
      | special => exact iff_of_true rfl (hhere rfl)

theorem Documents.root_not_link (docs : Documents) : docs.root.isLink = false := by
  obtain ⟨mtime, entries, hroot⟩ := Node.isDir_iff.1 docs.isDir
  rw [hroot]
  rfl

theorem cleaned_of_clean (h : Clean rt.table rel) :
    cleaned rt rel = .ok (joinWith "/" (cleanParts rel)) := by
  rw [cleaned, cleanRel_ok_iff.2 ⟨h, rfl⟩]
  rfl

theorem cleaned_of_not_clean (h : ¬Clean rt.table rel) :
    ∃ message, cleaned rt rel = .error (.invalid message) := by
  unfold cleaned
  cases hclean : cleanRel rt.table rel with
  | error message => exact ⟨message, rfl⟩
  | ok out => exact absurd (cleanRel_ok_iff.1 hclean).1 h

theorem resolve_of_not_clean (h : ¬Clean rt.table rel) :
    ∃ message, docs.resolve rt rel = .error (.invalid message) := by
  obtain ⟨message, hcleaned⟩ := cleaned_of_not_clean h
  refine ⟨message, ?_⟩
  rw [Documents.resolve, hcleaned]
  rfl

theorem resolve_of_hidden (h : Clean rt.table rel) (hhidden : ¬docs.Shows (cleanParts rel)) :
    ∃ message, docs.resolve rt rel = .error (.invalid message) := by
  have hparts := partsOf_cleanParts rel
  cases hcases : cleanParts rel with
  | nil => simp [Documents.Shows, hcases] at hhidden
  | cons first rest =>
      have hfirst : docs.hiddenTop.contains first = true := by
        simpa [Documents.Shows, hcases] using hhidden
      rw [hcases] at hparts
      refine ⟨rt.repr first ++ " is not available here.", ?_⟩
      simp only [Documents.resolve, cleaned_of_clean h, bind, Except.bind, hparts, hcases, hfirst]
      rfl

theorem resolve_of_shown (h : Clean rt.table rel) (hshown : docs.Shows (cleanParts rel)) :
    docs.resolve rt rel =
      (descend (joinWith "/" (cleanParts rel)) docs.root (cleanParts rel)).map
        fun node => (cleanParts rel, node) := by
  have hparts := partsOf_cleanParts rel
  cases hcases : cleanParts rel with
  | nil =>
      rw [hcases] at hparts
      simp only [Documents.resolve, cleaned_of_clean h, bind, Except.bind, hcases, hparts]
      rfl
  | cons first rest =>
      have hfirst : docs.hiddenTop.contains first = false := by
        simpa using hshown first (by rw [hcases]; rfl)
      rw [hcases] at hparts
      simp only [Documents.resolve, cleaned_of_clean h, bind, Except.bind, hcases, hparts, hfirst]
      cases descend (joinWith "/" (first :: rest)) docs.root (first :: rest) <;> rfl

/-- What `resolve` returns for a path. -/
structure Resolves (rt : DocumentsRuntime) (docs : Documents) (rel : String) (node : DocumentsNode) :
    Prop where
  clean : Clean rt.table rel
  shown : docs.Shows (cleanParts rel)
  leads : Leads docs.root (cleanParts rel) node
  noLink : node.isLink = false

theorem resolve_ok_iff {path : Path} {node : DocumentsNode} :
    docs.resolve rt rel = .ok (path, node) ↔ path = cleanParts rel ∧ Resolves rt docs rel node := by
  by_cases hclean : Clean rt.table rel
  · by_cases hshown : docs.Shows (cleanParts rel)
    · have hiff : descend (joinWith "/" (cleanParts rel)) docs.root (cleanParts rel) = .ok node ↔
          Leads docs.root (cleanParts rel) node ∧ node.isLink = false :=
        descend_ok_iff docs.plain docs.root_not_link
      rw [resolve_of_shown hclean hshown]
      cases hdescend : descend (joinWith "/" (cleanParts rel)) docs.root (cleanParts rel) with
      | error raised =>
          rw [hdescend] at hiff
          refine iff_of_false (by simp [Except.map]) ?_
          rintro ⟨-, h⟩
          exact absurd (hiff.2 ⟨h.leads, h.noLink⟩) (by simp)
      | ok target =>
          rw [hdescend, Except.ok.injEq] at hiff
          simp only [Except.map, Except.ok.injEq, Prod.mk.injEq]
          constructor
          · rintro ⟨rfl, hsame⟩
            obtain ⟨hleads, hlink⟩ := hiff.1 hsame
            exact ⟨rfl, hclean, hshown, hleads, hlink⟩
          · rintro ⟨rfl, h⟩
            exact ⟨rfl, hiff.2 ⟨h.leads, h.noLink⟩⟩
    · obtain ⟨message, hresolve⟩ : ∃ message, docs.resolve rt rel = .error (.invalid message) :=
        resolve_of_hidden hclean hshown
      rw [hresolve]
      exact iff_of_false (by simp) fun h => hshown h.2.shown
  · obtain ⟨message, hresolve⟩ : ∃ message, docs.resolve rt rel = .error (.invalid message) :=
      resolve_of_not_clean hclean
    rw [hresolve]
    exact iff_of_false (by simp) fun h => hclean h.2.clean

theorem resolve_notADirectory_iff :
    docs.resolve rt rel = .error .notADirectory ↔
      Clean rt.table rel ∧ docs.Shows (cleanParts rel) ∧ Blocked docs.root (cleanParts rel) := by
  by_cases hclean : Clean rt.table rel
  · by_cases hshown : docs.Shows (cleanParts rel)
    · have hiff : descend (joinWith "/" (cleanParts rel)) docs.root (cleanParts rel) =
            .error .notADirectory ↔ Blocked docs.root (cleanParts rel) :=
        descend_notADirectory_iff docs.plain docs.root_not_link
      rw [resolve_of_shown hclean hshown, and_iff_right hclean, and_iff_right hshown, ← hiff]
      cases descend (joinWith "/" (cleanParts rel)) docs.root (cleanParts rel) <;> simp [Except.map]
    · obtain ⟨message, hresolve⟩ : ∃ message, docs.resolve rt rel = .error (.invalid message) :=
        resolve_of_hidden hclean hshown
      rw [hresolve]
      exact iff_of_false (by simp) fun h => hshown h.2.1
  · obtain ⟨message, hresolve⟩ : ∃ message, docs.resolve rt rel = .error (.invalid message) :=
      resolve_of_not_clean hclean
    rw [hresolve]
    exact iff_of_false (by simp) fun h => hclean h.1

theorem Resolves.again {node : DocumentsNode} (h : Resolves rt docs rel node) :
    Resolves rt docs (joinWith "/" (cleanParts rel)) node := by
  have hparts : cleanParts (joinWith "/" (cleanParts rel)) = cleanParts rel :=
    cleanParts_joinWith fun _ => isPart_of_mem_cleanParts
  constructor
  case clean => exact h.clean.again
  case shown => rw [hparts]; exact h.shown
  case leads => rw [hparts]; exact h.leads
  case noLink => exact h.noLink

theorem Resolves.of_again {node : DocumentsNode} (hclean : Clean rt.table rel)
    (h : Resolves rt docs (joinWith "/" (cleanParts rel)) node) : Resolves rt docs rel node := by
  have hparts : cleanParts (joinWith "/" (cleanParts rel)) = cleanParts rel :=
    cleanParts_joinWith fun _ => isPart_of_mem_cleanParts
  have hshown := h.shown
  have hleads := h.leads
  rw [hparts] at hshown hleads
  exact ⟨hclean, hshown, hleads, h.noLink⟩

/-! ### The files below a path -/

/-- A path with something below a top-level folder that is not hidden, or without a folder. -/
def Documents.Outside (docs : Documents) (path : Path) : Prop :=
  ∀ first second rest, path = first :: second :: rest → first ∉ docs.hiddenTop

theorem mem_filesHere_iff {above : Path} {here : List (String × DocumentsNode)} {path : String}
    {size : Nat} :
    (path, size) ∈ filesHere above here ↔
      ∃ name mtime, (name, Node.file ⟨size, mtime⟩) ∈ here ∧ path = joinWith "/" (above ++ [name]) := by
  rw [filesHere, List.mem_filterMap]
  constructor
  · rintro ⟨⟨name, node⟩, hmem, hfile⟩
    cases node with
    | file info =>
        obtain ⟨rfl, rfl⟩ := Prod.mk.inj (Option.some.inj hfile)
        exact ⟨name, info.mtime, hmem, rfl⟩
    | dir | link | special => cases hfile
  · rintro ⟨name, mtime, hmem, rfl⟩
    exact ⟨_, hmem, rfl⟩

theorem mem_visits_iff {above path : Path} {mtime : PyFloat}
    {entries here : List (String × DocumentsNode)} (habove : ∀ part ∈ above, IsPart part) :
    (path, here) ∈ docs.visits (joinWith "/" above) (.dir mtime entries) ↔
      (∃ info, Leads (.dir mtime entries) path (.dir info here)) ∧
        (above = [] → docs.Shows path) := by
  unfold Documents.visits
  dsimp only
  simp only [joinWith_eq_empty_iff habove]
  by_cases htop : above = []
  · subst htop
    cases path with
    | nil =>
        have hno : ∀ kept : List (String × DocumentsNode), ([], here) ∉ walkEntries kept := by
          intro kept hmem
          obtain ⟨name, child, path, -, -, hpath⟩ := mem_walkEntries_iff.1 hmem
          cases hpath
        simp [hno, leads_nil, Documents.Shows, eq_comm]
    | cons first rest =>
        rw [if_pos rfl, List.mem_cons, or_iff_right (by simp), mem_walkEntries_iff]
        simp only [mem_walk_iff, List.mem_filter, leads_cons]
        constructor
        · rintro ⟨name, child, path, ⟨hmem, hshown⟩, ⟨info, hleads⟩, hpath⟩
          obtain ⟨rfl, rfl⟩ := List.cons.inj hpath
          refine ⟨⟨info, _, _, child, rfl, hmem, hleads⟩, fun _ => ?_⟩
          simpa [Documents.Shows] using hshown
        · rintro ⟨⟨info, _, _, child, heq, hmem, hleads⟩, hshown⟩
          cases heq
          refine ⟨first, child, rest, ⟨hmem, ?_⟩, ⟨info, hleads⟩, rfl⟩
          simpa using hshown trivial first rfl
  · rw [if_neg htop, mem_walk_iff, and_iff_left fun h => absurd h htop]

/-- Below a first part that is shown everything is outside the hidden folders. -/
theorem outside_append {above visited : Path} {name : String} (hshown : docs.Shows above)
    (htop : above = [] → docs.Shows visited) : docs.Outside (above ++ (visited ++ [name])) := by
  intro first second rest hpath
  cases above with
  | cons part others =>
      obtain ⟨rfl, -⟩ := List.cons.inj hpath
      exact hshown _ rfl
  | nil =>
      cases visited with
      | nil => simp at hpath
      | cons part others =>
          obtain ⟨rfl, -⟩ := List.cons.inj hpath
          exact htop rfl _ rfl

theorem shows_of_outside {visited : Path} {name : String}
    (houtside : docs.Outside (visited ++ [name])) : docs.Shows visited := by
  intro first hfirst
  cases visited with
  | nil => cases hfirst
  | cons part others =>
      obtain rfl := Option.some.inj hfirst
      obtain ⟨second, rest, hrest⟩ : ∃ second rest, others ++ [name] = second :: rest :=
        List.exists_cons_of_ne_nil (by simp)
      exact houtside part second rest (by rw [List.cons_append, hrest])

/-- The files of the walk are the regular files that paths lead to. -/
theorem mem_walked_iff {above : Path} {mtime : PyFloat} {entries : List (String × DocumentsNode)}
    (habove : ∀ part ∈ above, IsPart part) (hshown : docs.Shows above) {path : String} {size : Nat} :
    (path, size) ∈ (docs.visits (joinWith "/" above) (.dir mtime entries)).flatMap
        (fun visit => filesHere (above ++ visit.1) visit.2) ↔
      ∃ below mtime', Leads (.dir mtime entries) below (Node.file ⟨size, mtime'⟩) ∧
        docs.Outside (above ++ below) ∧ path = joinWith "/" (above ++ below) := by
  rw [List.mem_flatMap]
  constructor
  · rintro ⟨⟨visited, here⟩, hvisit, hfile⟩
    obtain ⟨⟨info, hleads⟩, htop⟩ := (mem_visits_iff habove).1 hvisit
    obtain ⟨name, mtime', hmem, rfl⟩ := mem_filesHere_iff.1 hfile
    refine ⟨visited ++ [name], mtime', ?_, outside_append hshown htop, by rw [List.append_assoc]⟩
    exact leads_append.2 ⟨_, hleads, .step hmem (.here _)⟩
  · rintro ⟨below, mtime', hleads, houtside, rfl⟩
    obtain ⟨visited, name, rfl⟩ : ∃ visited name, below = visited ++ [name] := by
      rcases List.eq_nil_or_concat below with rfl | ⟨visited, name, rfl⟩
      · cases leads_nil.1 hleads
      · exact ⟨visited, name, by simp⟩
    obtain ⟨middle, hvisited, hlast⟩ := leads_append.1 hleads
    obtain ⟨info, here, child, rfl, hmem, hchild⟩ := leads_cons.1 hlast
    obtain rfl := leads_nil.1 hchild
    refine ⟨(visited, here), (mem_visits_iff habove).2 ⟨⟨info, hvisited⟩, ?_⟩, ?_⟩
    · intro htop
      rw [htop] at houtside
      exact shows_of_outside houtside
    · exact mem_filesHere_iff.2 ⟨name, mtime', hmem, by rw [List.append_assoc]⟩

/-- What `files_under` yields is the regular files at or below the path. -/
theorem Resolves.filesUnder {node : DocumentsNode} (h : Resolves rt docs rel node) :
    ∃ files, docs.filesUnder rt rel = .ok files ∧ ∀ path size, (path, size) ∈ files ↔
      ∃ below mtime, Leads node below (.file ⟨size, mtime⟩) ∧ docs.Outside (cleanParts rel ++ below) ∧
        path = joinWith "/" (cleanParts rel ++ below) := by
  have hparts : ∀ part ∈ cleanParts rel, IsPart part := fun _ => isPart_of_mem_cleanParts
  have hresolve : docs.resolve rt (joinWith "/" (cleanParts rel)) = .ok (cleanParts rel, node) := by
    rw [resolve_ok_iff]
    exact ⟨(cleanParts_joinWith hparts).symm, h.again⟩
  simp only [Documents.filesUnder, cleaned_of_clean h.clean, bind, Except.bind, hresolve]
  cases node with
  | file info =>
      refine ⟨[(joinWith "/" (cleanParts rel), info.size)], rfl, ?_⟩
      intro path size
      rw [List.mem_singleton, Prod.mk.injEq]
      constructor
      · rintro ⟨rfl, rfl⟩
        refine ⟨[], info.mtime, .here _, ?_, by rw [List.append_nil]⟩
        intro first second rest hpath
        apply h.shown first
        rw [List.append_nil] at hpath
        rw [hpath]
        rfl
      · rintro ⟨below, mtime, hleads, -, rfl⟩
        cases hleads
        exact ⟨by rw [List.append_nil], rfl⟩
  | dir mtime entries => exact ⟨_, rfl, fun _ _ => mem_walked_iff hparts h.shown⟩
  | link target toFolder => exact absurd h.noLink (by simp [Node.isLink])
  | special =>
      refine ⟨[], rfl, ?_⟩
      intro path size
      refine iff_of_false (by simp) ?_
      rintro ⟨below, mtime, hleads, -⟩
      cases hleads

theorem resolves_of_filesUnder {files : List (String × Nat)}
    (h : docs.filesUnder rt rel = .ok files) : ∃ node, Resolves rt docs rel node := by
  by_cases hclean : Clean rt.table rel
  · simp only [Documents.filesUnder, cleaned_of_clean hclean, bind, Except.bind] at h
    cases hresolve : docs.resolve rt (joinWith "/" (cleanParts rel)) with
    | error raised => rw [hresolve] at h; cases h
    | ok found =>
        obtain ⟨path, node⟩ := found
        exact ⟨node, .of_again hclean (resolve_ok_iff.1 hresolve).2⟩
  · obtain ⟨message, hcleaned⟩ := cleaned_of_not_clean hclean
    simp only [Documents.filesUnder, hcleaned, bind, Except.bind] at h
    cases h

/-! ### The listing of a folder -/

theorem joinWith_concat {above : Path} {name : String} (habove : ∀ part ∈ above, IsPart part) :
    joinWith "/" (above ++ [name]) =
      if joinWith "/" above = "" then name else joinWith "/" above ++ "/" ++ name := by
  simp only [joinWith_eq_empty_iff habove]
  induction above with
  | nil => rfl
  | cons part rest ih =>
      rw [if_neg (List.cons_ne_nil _ _), List.cons_append, joinWith_cons (by simp),
        ih (List.forall_mem_cons.1 habove).2]
      by_cases hrest : rest = []
      · subst hrest
        rfl
      · rw [if_neg hrest, joinWith_cons hrest]
        simp [String.append_assoc]

theorem entryOf_eq_some {above : Path} {item : String × DocumentsNode} {entry : Entry}
    (habove : ∀ part ∈ above, IsPart part) (h : docs.entryOf (joinWith "/" above) item = some entry) :
    entry.rel = joinWith "/" (above ++ [item.1]) ∧ item.2.isLink = false ∧
      (above = [] → item.1 ∉ docs.hiddenTop) := by
  unfold Documents.entryOf at h
  rw [joinWith_concat habove]
  split at h
  next => cases h
  next hkept =>
    have hshown : above = [] → item.1 ∉ docs.hiddenTop := by
      rintro rfl hmem
      simp [joinWith, hmem] at hkept
    obtain ⟨name, node⟩ := item
    cases node with
    | dir | file =>
        obtain rfl := Option.some.inj h
        exact ⟨rfl, rfl, hshown⟩
    | link | special => cases h

theorem mem_scan {items : List (String × DocumentsNode)} {entries : List Entry} {entry : Entry}
    (h : entry ∈ (docs.scan rel entries items).1) :
    entry ∈ entries ∨ ∃ item ∈ items, docs.entryOf rel item = some entry := by
  induction items generalizing entries with
  | nil => exact .inl h
  | cons item rest ih =>
      have hrest : (∃ item ∈ rest, docs.entryOf rel item = some entry) →
          ∃ other ∈ item :: rest, docs.entryOf rel other = some entry := by
        rintro ⟨other, hmem, hother⟩
        exact ⟨other, List.mem_cons_of_mem _ hmem, hother⟩
      unfold Documents.scan at h
      split at h
      next => exact (ih h).imp id hrest
      next new hnew =>
        split at h
        next => exact .inl h
        next =>
          rcases ih h with hmem | hmem
          · rcases List.mem_append.1 hmem with hold | hlast
            · exact .inl hold
            · obtain rfl := List.mem_singleton.1 hlast
              exact .inr ⟨item, List.mem_cons_self, hnew⟩
          · exact .inr (hrest hmem)

/-- What is listed stands in the folder, and is no link. -/
theorem listed_of_listDir {listing : Listing} (h : docs.listDir rt rel = .ok listing) :
    ∃ mtime items, Resolves rt docs rel (.dir mtime items) ∧ ∀ entry ∈ listing.entries,
      ∃ item ∈ items, entry.rel = joinWith "/" (cleanParts rel ++ [item.1]) ∧
        item.2.isLink = false ∧ (cleanParts rel = [] → item.1 ∉ docs.hiddenTop) := by
  by_cases hclean : Clean rt.table rel
  · simp only [Documents.listDir, cleaned_of_clean hclean, bind, Except.bind] at h
    cases hresolve : docs.resolve rt (joinWith "/" (cleanParts rel)) with
    | error raised => rw [hresolve] at h; cases h
    | ok found =>
        obtain ⟨path, node⟩ := found
        rw [hresolve] at h
        cases node with
        | dir mtime items =>
            refine ⟨mtime, items, .of_again hclean (resolve_ok_iff.1 hresolve).2, ?_⟩
            obtain rfl := Except.ok.inj h
            intro entry hentry
            rcases mem_scan (List.mem_mergeSort.1 hentry) with hno | ⟨item, hmem, hitem⟩
            · cases hno
            · exact ⟨item, hmem, entryOf_eq_some (fun _ => isPart_of_mem_cleanParts) hitem⟩
        | file | link | special => cases h
  · obtain ⟨message, hcleaned⟩ := cleaned_of_not_clean hclean
    simp only [Documents.listDir, hcleaned, bind, Except.bind] at h
    cases h

/-! ### The jail -/

/-- A path at or below the root, without a link on it, that does not begin with a hidden name. -/
structure InJail (docs : Documents) (path : Path) : Prop where
  names : ∀ name ∈ path, IsName name
  noLink : ∀ before behind, path = before ++ behind →
    ∃ node, Leads docs.root before node ∧ node.isLink = false
  shown : docs.Shows path

theorem inJail_of_leads {path : Path} {node : DocumentsNode} (hleads : Leads docs.root path node)
    (hlink : node.isLink = false) (hshown : docs.Shows path) : InJail docs path := by
  constructor
  case names => exact hleads.names docs.plain
  case noLink =>
    rintro before behind rfl
    obtain ⟨middle, hbefore, hbehind⟩ := leads_append.1 hleads
    refine ⟨middle, hbefore, ?_⟩
    cases hbehind with
    | here => exact hlink
    | step => rfl
  case shown => exact hshown

/-- What the jail is for. -/
structure Jailed (rt : DocumentsRuntime) (docs : Documents) (rel : String) : Prop where
  answers : ∀ raised, docs.resolve rt rel = .error raised →
    (∃ message, raised = .invalid message) ∨ ∃ path, raised = .notFound path
  within : ∀ path node, docs.resolve rt rel = .ok (path, node) → InJail docs path
  listed : ∀ listing, docs.listDir rt rel = .ok listing → ∀ entry ∈ listing.entries,
    ∃ path, entry.rel = joinWith "/" path ∧ InJail docs path
  yielded : ∀ files, docs.filesUnder rt rel = .ok files → ∀ file ∈ files,
    ∃ path, file.1 = joinWith "/" path ∧ InJail docs path

/-- The path goes on below a file, or below something else that is no directory and no link. -/
def GoesThroughFile (rt : DocumentsRuntime) (docs : Documents) (rel : String) : Prop :=
  Clean rt.table rel ∧ docs.Shows (cleanParts rel) ∧ Blocked docs.root (cleanParts rel)

/-- A regular file in the root has a hidden name. -/
def HidesFile (docs : Documents) : Prop :=
  ∃ name info, Leads docs.root [name] (.file info) ∧ name ∈ docs.hiddenTop

theorem cleanParts_eq_nil_iff (hclean : Clean rt.table rel) : cleanParts rel = [] ↔ rel = "" := by
  constructor
  · intro hparts
    by_contra hne
    obtain ⟨c, chars, hlist⟩ := List.exists_cons_of_ne_nil (toList_ne_nil hne)
    have hall : ∀ run ∈ rel.toList.splitOn '/', run = [] := by
      intro run hrun
      have hdropped := List.filter_eq_nil_iff.1 hparts (String.ofList run)
        (List.mem_map_of_mem hrun)
      simpa using hdropped
    have hslash : c = '/' := by
      by_contra hother
      rw [hlist, List.splitOn_cons_eq_if_modifyHead, if_neg (by simpa using hother)] at hall
      obtain ⟨first, rest, hsplit⟩ := List.exists_cons_of_ne_nil (List.splitOn_ne_nil '/' chars)
      rw [hsplit] at hall
      exact absurd (hall (c :: first) List.mem_cons_self) (List.cons_ne_nil _ _)
    have hstart := hclean.start
    simp [startsWith, hlist, hslash] at hstart
  · rintro rfl
    simp [cleanParts, pathParts]

theorem shows_append {above below : Path} (habove : above ≠ []) :
    docs.Shows (above ++ below) ↔ docs.Shows above := by
  obtain ⟨first, rest, rfl⟩ := List.exists_cons_of_ne_nil habove
  rfl

theorem resolves_root (rt : DocumentsRuntime) (docs : Documents) : Resolves rt docs "" docs.root where
  clean := ⟨by decide, by decide, by decide, by simp [cleanParts, pathParts]⟩
  shown := by simp [Documents.Shows, cleanParts, pathParts]
  leads := .here docs.root
  noLink := docs.root_not_link

/-- A file in the root with a hidden name is yielded for the root. -/
theorem not_jailed_of_hidesFile (hfile : HidesFile docs) : ¬Jailed rt docs "" := by
  intro h
  obtain ⟨name, info, hleads, hhidden⟩ := hfile
  obtain ⟨files, hfiles, hmem⟩ := (resolves_root rt docs).filesUnder
  have hyielded : (name, info.size) ∈ files := by
    rw [hmem]
    refine ⟨[name], info.mtime, hleads, ?_, rfl⟩
    intro first second rest hpath
    cases hpath
  obtain ⟨path, hpath, hjail⟩ := h.yielded files hfiles _ hyielded
  have hname : IsPart name := by
    have hplain := hleads.names docs.plain name (List.mem_singleton_self name)
    exact ⟨hplain.2.2.2, hplain.1⟩
  have hsame : path = [name] := by
    apply @joinWith_inj '/' path [name]
    · intro part hpart
      have hplain := hjail.names part hpart
      exact ⟨hplain.2.2.2, hplain.1⟩
    · exact List.forall_mem_singleton.2 hname
    · exact hpath.symm
  exact hjail.shown name (by rw [hsame]; rfl) hhidden

/-- The jail is tight exactly where the path goes through no file, and, of the root itself, where no
file in it has a hidden name. -/
theorem jail_tight_iff :
    Jailed rt docs rel ↔ ¬GoesThroughFile rt docs rel ∧ ¬(rel = "" ∧ HidesFile docs) := by
  constructor
  · intro h
    constructor
    · intro hthrough
      rcases h.answers _ (resolve_notADirectory_iff.2 hthrough) with ⟨_, hno⟩ | ⟨_, hno⟩ <;> cases hno
    · rintro ⟨rfl, hfile⟩
      exact not_jailed_of_hidesFile hfile h
  · rintro ⟨hthrough, hfile⟩
    constructor
    case answers =>
      intro raised hraised
      cases raised with
      | invalid message => exact .inl ⟨message, rfl⟩
      | notFound path => exact .inr ⟨path, rfl⟩
      | notADirectory => exact absurd (resolve_notADirectory_iff.1 hraised) hthrough
    case within =>
      intro path node hok
      obtain ⟨rfl, hresolves⟩ := resolve_ok_iff.1 hok
      exact inJail_of_leads hresolves.leads hresolves.noLink hresolves.shown
    case listed =>
      intro listing hok entry hentry
      obtain ⟨mtime, items, hresolves, hall⟩ := listed_of_listDir hok
      obtain ⟨⟨name, node⟩, hmem, hrel, hlink, htop⟩ := hall entry hentry
      refine ⟨cleanParts rel ++ [name], hrel, inJail_of_leads ?_ hlink ?_⟩
      · exact leads_append.2 ⟨_, hresolves.leads, .step hmem (.here node)⟩
      · by_cases hparts : cleanParts rel = []
        · rw [hparts]
          intro first hfirst
          obtain rfl := Option.some.inj hfirst
          exact htop hparts
        · exact (shows_append hparts).2 hresolves.shown
    case yielded =>
      intro files hok file hmem
      obtain ⟨node, hresolves⟩ := resolves_of_filesUnder hok
      obtain ⟨files', hok', hiff⟩ := hresolves.filesUnder
      obtain rfl := Except.ok.inj (hok.symm.trans hok')
      obtain ⟨below, mtime, hleads, houtside, hpath⟩ := (hiff file.1 file.2).1 hmem
      have hwhole := leads_append.2 ⟨node, hresolves.leads, hleads⟩
      refine ⟨cleanParts rel ++ below, hpath, inJail_of_leads hwhole rfl ?_⟩
      by_cases hparts : cleanParts rel = []
      · intro first hfirst hhidden
        rw [hparts, List.nil_append] at hwhole houtside hfirst
        cases below with
        | nil => cases hfirst
        | cons part rest =>
            obtain rfl := Option.some.inj hfirst
            cases rest with
            | nil =>
                have hrel := (cleanParts_eq_nil_iff hresolves.clean).1 hparts
                exact hfile ⟨hrel, part, ⟨file.2, mtime⟩, hwhole, hhidden⟩
            | cons second rest => exact houtside part second rest rfl hhidden
      · exact (shows_append hparts).2 hresolves.shown

end Documents

/-- A root with one file in it. -/
def oneFile : Documents where
  root := .dir (.finite 0) [("report.txt", .file ⟨12, .finite 0⟩)]
  hiddenTop := ["uploads"]
  isDir := rfl
  plain := by
    rw [Node.plain_dir]
    refine ⟨by simp, ?_⟩
    intro entry hentry
    obtain rfl := List.mem_singleton.1 hentry
    exact ⟨by decide, trivial⟩

/-- An interpreter that knows the control characters of ASCII. -/
def asciiRuntime : DocumentsRuntime where
  table := { isControl := fun c => c.val < 32, isSeparator := fun c => c = ' ' }
  repr text := "'" ++ text ++ "'"
  casefold := lower

/-- A path below that file is answered with an error of the system. -/
theorem path_through_file_escapes : ¬Jailed asciiRuntime oneFile "report.txt/x" := by
  intro h
  have hraised : oneFile.resolve asciiRuntime "report.txt/x" = .error .notADirectory := by
    rw [resolve_notADirectory_iff]
    have hparts : cleanParts "report.txt/x" = ["report.txt", "x"] := by decide
    rw [hparts]
    refine ⟨⟨by decide, by decide, by decide, ?_⟩, by simp [Documents.Shows, oneFile], ?_⟩
    · rw [hparts]
      decide
    · exact ⟨["report.txt"], "x", [], .file ⟨12, .finite 0⟩, rfl,
        .step List.mem_cons_self (.here _), rfl, rfl⟩
  rcases h.answers _ hraised with ⟨_, hno⟩ | ⟨_, hno⟩ <;> cases hno

end Papaia.Ingest
