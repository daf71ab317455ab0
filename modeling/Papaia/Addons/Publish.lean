/-
Module: Papaia.Addons.Publish
Purpose: A directory tree written in the place of another: the copy into a directory beside the
  destination and the swap by two renames, one file-system step at a time.
Trusted boundary: a rename is atomic; `git archive` and `tar` leave any entries
Main exports: Kind, Content, copySteps, Routine, Publishing, step, Publishing.start
-/
import Papaia.Lib.FileTree
import Papaia.Lib.Runs

namespace Papaia.Addons

open FileTree Runs

/-! ### What a directory holds -/

/-- A source tree holds directories, files and links. -/
abbrev SourceTree :=
  Node (List UInt8) Unit Empty

inductive Kind where
  | dir
  | file (content : List UInt8)
  | link (target : String)
deriving DecidableEq

def kindOf : SourceTree → Kind
  | .file content => .file content
  | .link target _ => .link target
  | .dir _ _ => .dir

/-- What stands at and below a directory, which is itself the empty path. -/
abbrev Content :=
  List (Path × Kind)

def emptyDir : Content :=
  [([], .dir)]

/-- A rename may replace a directory that holds nothing. -/
def Content.vacant (content : Content) : Bool :=
  content.all fun entry => entry.1 = []

/-! ### The copy -/

/-- The calls of `_copy_tree_no_chmod` on the destination. -/
inductive CopyStep where
  | makeDir (path : Path)
  | makeLink (path : Path) (target : String)
  | openFile (path : Path)
  | writeFile (path : Path) (content : List UInt8)
deriving DecidableEq

/-- A step on what the destination holds; none where the call raises.  The walk comes to a directory
after the one above it, so `parents=True` has nothing to add. -/
def perform (content : Content) : CopyStep → Option Content
  | .makeDir path =>
      match content.lookup path with
      | none => some (content ++ [(path, .dir)])
      | some .dir => some content
      | some _ => none
  | .makeLink path target =>
      if (content.lookup path).isNone then some (content ++ [(path, .link target)]) else none
  | .openFile path =>
      if (content.lookup path).isNone then some (content ++ [(path, .file [])]) else none
  | .writeFile path written =>
      some (content.map fun entry => if entry.1 = path then (path, .file written) else entry)

/-- The calls for one name of `files`. -/
def fileSteps (path : Path) : SourceTree → List CopyStep
  | .file content => [.openFile path, .writeFile path content]
  | .link target _ => [.makeLink path target]
  | .dir _ _ => []

/-- `_copy_tree_no_chmod`: what a link calls a folder is among the names `_dirs`. -/
def copySteps (source : SourceTree) : List CopyStep :=
  (walk source).flatMap fun visit =>
    .makeDir visit.1 ::
      (visit.2.filter fun entry => !entry.2.isFolder).flatMap fun entry =>
        fileSteps (visit.1 ++ [entry.1]) entry.2

/-! ### The steps of a run -/

/-- What is run: `_publish_to_workspace`, which `materialize_local_addon` calls behind a guard of its
own, or `materialize_snapshot`. -/
inductive Routine where
  | publish (source : SourceTree)
  | snapshot

/-- Where a run stands: the call that comes next. -/
inductive Phase where
  | makeParent
  | clearStaging
  | makeStaging
  | copying (todo : List CopyStep)
  /-- `git archive` and `tar`. -/
  | extracting
  | clearPrev
  | moveDest
  | moveStaging
  | returned
  | raised
deriving DecidableEq

/-- The three sibling directories; none of those that are not there. -/
structure Publishing where
  phase : Phase
  dest : Option Content
  staging : Option Content
  prev : Option Content
deriving DecidableEq

inductive Event where
  /-- The call is made and does its work. -/
  | goesOn
  /-- Something of what `rmtree` removes is gone; the errors of the rest are ignored. -/
  | removes (left : Option Content)
  | extracts (content : Content)
  /-- The call raises. -/
  | fails

/-- What a removal may leave. -/
def Leaves (content left : Option Content) : Prop :=
  left = none ∨ ∃ before after, content = some before ∧ left = some after ∧ after.Sublist before

def Allowed (s : Publishing) : Event → Prop
  | .removes left => (s.phase = .clearStaging → Leaves s.staging left) ∧
      (s.phase = .clearPrev → Leaves s.prev left)
  | _ => True

/-- The call that comes next where it does not fail on its own. -/
def advance (routine : Routine) (s : Publishing) : Option Publishing :=
  match s.phase with
  | .makeParent => some { s with phase := .clearStaging }
  | .clearStaging => some { s with phase := .makeStaging }
  | .makeStaging =>
      match routine, s.staging with
      | .publish source, none =>
          some { s with phase := .copying (copySteps source), staging := some emptyDir }
      | .publish _, some _ => some { s with phase := .raised }
      -- `exist_ok=True`: what could not be removed stays
      | .snapshot, staging => some { s with phase := .extracting, staging := some (staging.getD emptyDir) }
  | .copying [] => some { s with phase := .clearPrev }
  | .copying (call :: todo) =>
      match s.staging.bind fun content => perform content call with
      | some content => some { s with phase := .copying todo, staging := some content }
      | none => some { s with phase := .raised }
  | .extracting => some { s with phase := .clearPrev }
  | .clearPrev => some { s with phase := .moveDest }
  | .moveDest =>
      match s.dest with
      | none => some { s with phase := .moveStaging }
      | some content =>
          if s.prev.all Content.vacant then
            some { s with phase := .moveStaging, dest := none, prev := some content }
          else some { s with phase := .raised }
  | .moveStaging =>
      if s.dest.all Content.vacant && s.staging.isSome then
        some { s with phase := .returned, dest := s.staging, staging := none }
      else some { s with phase := .raised }
  | .returned | .raised => none

/-- A run that has ended takes no step.  A process that dies takes none either, so every state that is
reached is one it may leave. -/
def step (routine : Routine) (s : Publishing) : Event → Option Publishing
  | .goesOn => advance routine s
  | .removes left =>
      match s.phase with
      | .clearStaging => some { s with staging := left }
      | .clearPrev => some { s with prev := left }
      | _ => none
  | .extracts content =>
      match s.phase with
      | .extracting => some { s with staging := some content }
      | _ => none
  | .fails =>
      match s.phase with
      | .returned | .raised => none
      | _ => some { s with phase := .raised }

/-- The call of a routine, on the directories as it finds them. -/
def Publishing.start (routine : Routine) (dest staging prev : Option Content) : Publishing :=
  { phase := match routine with
      | .publish _ => .makeParent
      | .snapshot => .clearStaging
    dest, staging, prev }

end Papaia.Addons
