/-
Module: Papaia.Ingest.Documents
Purpose: A folder the page browses and selects from: the checks of a path, the listing, the files below
  a path, and the count and the include globs of a selection.
Trusted boundary: the Unicode categories and `casefold`, `repr`; the tree stands still during a call
Main exports: Documents, resolve, listDir, filesUnder, counted, count, includePatterns, Matches
-/
import Papaia.Ingest.Transfers
import Papaia.Lib.FileTree
import Papaia.Lib.Keyed
import Mathlib.Data.List.Sort
import Mathlib.Data.String.Basic

namespace Papaia.Ingest

open Text FileTree

/-- What the functions of the interpreter compute, as far as this module asks for them. -/
structure DocumentsRuntime where
  table : UnicodeTable
  /-- `repr` of a text. -/
  repr : String → String
  casefold : String → String

/-- What is raised. -/
inductive DocumentsError where
  /-- `InvalidRequest`. -/
  | invalid (message : String)
  /-- `NotFound`. -/
  | notFound (path : String)
  /-- `NotADirectoryError`, from `lstat` of a path through something that is no directory. -/
  | notADirectory
deriving DecidableEq, Repr

/-- `st_size` and `st_mtime` of a regular file. -/
structure FileInfo where
  size : Nat
  mtime : PyFloat
deriving DecidableEq, Repr

/-- What stands under a name, with what is read of it. -/
abbrev DocumentsNode :=
  Node FileInfo PyFloat Unit

/-- One root and the names hidden at its top level. -/
structure Documents where
  root : DocumentsNode
  hiddenTop : List String
  isDir : root.isDir = true
  plain : root.Plain

structure Entry where
  name : String
  rel : String
  isDir : Bool
  size : Option Nat
  mtime : PyFloat
deriving DecidableEq, Repr

structure Listing where
  path : String
  entries : List Entry
  truncated : Bool
deriving DecidableEq, Repr

structure Counts where
  files : Nat
  bytes : Nat
deriving DecidableEq, Repr

def maxListing : Nat :=
  2000

def maxIncludes : Nat :=
  200

section Documents

variable (rt : DocumentsRuntime)

/-- `clean_rel`, with what it raises. -/
def cleaned (rel : String) : Except DocumentsError String :=
  (cleanRel rt.table rel).mapError .invalid

/-- `refuse_glob`. -/
def refuseGlob (rel : String) : Except DocumentsError Unit :=
  if rel.toList.any fun c => c == '*' || c == '?' then
    .error (.invalid (rt.repr rel ++ " contains '*' or '?', which the ingester would read as a " ++
      "wildcard. Rename the file or select its folder."))
  else .ok ()

/-! ### Paths -/

/-- The loop of `resolve`, from a node that was looked at. -/
def descend (rel : String) : DocumentsNode → Path → Except DocumentsError DocumentsNode
  | node, [] => .ok node
  | .dir _ entries, part :: rest =>
      match find entries part with
      | none => .error (.notFound rel)
      | some child =>
          if child.isLink then .error (.invalid "Symbolic links are not followed.")
          else descend rel child rest
  | _, _ :: _ => .error .notADirectory

/-- The parts of a cleaned path. -/
def partsOf (rel : String) : Path :=
  if rel = "" then [] else pathParts rel

/-- `resolve`: the parts of the path below the root, and what stands there. -/
def Documents.resolve (docs : Documents) (rel : String) :
    Except DocumentsError (Path × DocumentsNode) := do
  let rel ← cleaned rt rel
  let parts := partsOf rel
  match parts with
  | first :: _ =>
      if docs.hiddenTop.contains first then
        throw (.invalid (rt.repr first ++ " is not available here."))
  | [] => pure ()
  let node ← descend rel docs.root parts
  return (parts, node)

/-! ### Reading -/

/-- What `list_dir` shows of one item of the directory. -/
def Documents.entryOf (docs : Documents) (rel : String) (item : String × DocumentsNode) :
    Option Entry :=
  if rel = "" && docs.hiddenTop.contains item.1 then none
  else
    let relPath := if rel = "" then item.1 else rel ++ "/" ++ item.1
    match item.2 with
    | .dir mtime _ => some ⟨item.1, relPath, true, none, mtime⟩
    | .file info => some ⟨item.1, relPath, false, some info.size, info.mtime⟩
    | .link _ _ => none
    | .special _ => none

/-- The loop over the directory, up to the bound. -/
def Documents.scan (docs : Documents) (rel : String) (entries : List Entry) :
    List (String × DocumentsNode) → List Entry × Bool
  | [] => (entries, false)
  | item :: rest =>
      match docs.entryOf rel item with
      | none => docs.scan rel entries rest
      | some entry =>
          if maxListing ≤ entries.length then (entries, true)
          else docs.scan rel (entries ++ [entry]) rest

/-- The order of a listing: folders first, then by the folded name. -/
def entryBefore (one other : Entry) : Bool :=
  if one.isDir = other.isDir then decide (rt.casefold one.name ≤ rt.casefold other.name)
  else one.isDir

/-- `list_dir`. -/
def Documents.listDir (docs : Documents) (rel : String) : Except DocumentsError Listing := do
  let rel ← cleaned rt rel
  let (_, target) ← docs.resolve rt rel
  match target with
  | .dir _ items =>
      let (entries, truncated) := docs.scan rel [] items
      return ⟨rel, entries.mergeSort (entryBefore rt), truncated⟩
  | _ => throw (.invalid "That is not a folder.")

/-- The regular files among the entries of one directory of the walk. -/
def filesHere (above : Path) (entries : List (String × DocumentsNode)) : List (String × Nat) :=
  entries.filterMap fun
    | (name, .file info) => some (joinWith "/" (above ++ [name]), info.size)
    | _ => none

/-- The directories `files_under` goes through; at the top the hidden ones are left out. -/
def Documents.visits (docs : Documents) (rel : String) (target : DocumentsNode) :
    List (Path × List (String × DocumentsNode)) :=
  match target with
  | .dir _ entries =>
      if rel = "" then
        ([], entries) :: walkEntries (entries.filter fun entry => !docs.hiddenTop.contains entry.1)
      else walk target
  | _ => []

/-- `files_under`. -/
def Documents.filesUnder (docs : Documents) (rel : String) :
    Except DocumentsError (List (String × Nat)) := do
  let rel ← cleaned rt rel
  let (above, target) ← docs.resolve rt rel
  match target with
  | .file info => return [(rel, info.size)]
  | _ => return (docs.visits rel target).flatMap fun visit => filesHere (above ++ visit.1) visit.2

/-- The files `count` has seen, each with its size. -/
def Documents.counted (docs : Documents) (rels : List String) :
    Except DocumentsError (List (String × Nat)) :=
  rels.foldlM (fun seen rel => do
    let files ← docs.filesUnder rt rel
    return files.foldl (Keyed.assign Prod.fst) seen) []

/-- `count`. -/
def Documents.count (docs : Documents) (rels : List String) : Except DocumentsError Counts := do
  let seen ← docs.counted rt rels
  return ⟨seen.length, (seen.map Prod.snd).sum⟩

/-! ### Selecting -/

/-- One path of the loop in `include_patterns`, over the folders and the patterns found so far. -/
def Documents.choose (docs : Documents) (found : List String × List String) (rel : String) :
    Except DocumentsError (List String × List String) :=
  if found.1.any fun folder => rel = folder || startsWith rel (folder ++ "/") then .ok found
  else do
    refuseGlob rt rel
    let (_, node) ← docs.resolve rt rel
    if node.isDir then return (found.1 ++ [rel], found.2 ++ [rel ++ "/**"])
    else return (found.1, found.2 ++ [rel])

/-- `sorted` of a set. -/
def sortedSet (texts : List String) : List String :=
  texts.dedup.mergeSort fun one other => decide (one ≤ other)

/-- `include_patterns`. -/
def Documents.includePatterns (docs : Documents) (rels : List String) :
    Except DocumentsError (List String) := do
  let selected := sortedSet (← rels.mapM (cleaned rt))
  if selected = [] then throw (.invalid "Select at least one file or folder.")
  else if selected.contains "" then return []
  else
    let (_, patterns) ← selected.foldlM (docs.choose rt) ([], [])
    if maxIncludes < patterns.length then
      throw (.invalid ("That is " ++ toString patterns.length ++ " separate selections; select " ++
        "their folder instead (at most " ++ toString maxIncludes ++ ")."))
    else return patterns

end Documents

/-- A glob of `filters.include` takes a path: a folder everything below it, any other one itself. -/
def Matches (pattern path : String) : Prop :=
  (∃ folder, pattern = folder ++ "/**" ∧ startsWith path (folder ++ "/") = true) ∨
    ('*' ∉ pattern.toList ∧ path = pattern)

/-- The globs of a selection take a path; without globs the whole root is selected. -/
def Selects (patterns : List String) (path : String) : Prop :=
  patterns = [] ∨ ∃ pattern ∈ patterns, Matches pattern path

end Papaia.Ingest
