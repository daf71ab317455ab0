/-
Module: Papaia.Config.OverlayJob
Purpose: The job that replaces or removes an overlay file and recreates the containers that read it,
  one step at a time, with what is done to the file on the host in between.
Trusted boundary: what the file system, the clock and papaia-ctl answer
Main exports: OverlayJob, Ending, Phase, Event, State, step
-/
import Papaia.Config.Overlay
import Papaia.Data.Text

namespace Papaia.Config

open Text

/-! ### The job -/

/-- What `overlay_callback` is given. -/
structure OverlayJob where
  label : String
  content : Option (List UInt8)
  expectedRevision : String
  event : HistoryEvent

/-- How a job ends. -/
inductive Ending where
  | conflict
  | conflictMeanwhile
  | overlay (error : OverlayError)
  | notRestarted
  | rolledBack (exc : String)
  | notHealthy (problem : String)
  | hookNodesFailed (skipped : List String)
  | done
  | raised
deriving DecidableEq, Repr

/-- The first letter in lower case. -/
def lowerFirst (text : String) : String :=
  match text.toList with
  | [] => ""
  | first :: rest => String.ofList (first.toLower :: rest)

/-- The message a job fails with; it has none where it does not fail, or fails by an error that is
not its own. -/
def Ending.message (job : OverlayJob) : Ending → Option String
  | conflict => some "The overlay file changed after the page loaded it. Nothing was changed."
  | conflictMeanwhile => some "The overlay file changed while the job ran. Nothing was changed."
  | overlay error => some error.message
  | notRestarted => none
  | rolledBack exc => some (job.label ++ " did not start with the new overlay, so the previous " ++
      "version was put back. (" ++ exc ++ ")")
  | notHealthy problem => some ("The overlay is in place, but " ++ lowerFirst problem ++
      " The previous version is in Versions if you want to go back.")
  | hookNodesFailed skipped => some ("The change is in place, but a node that only runs its " ++
      "hooks did not take part. Once it answers, run: " ++ joinWith "; " skipped)
  | done => none
  | raised => none

/-! ### The steps -/

/-- What a job knows of the file it replaced: the bytes, and the revision it read of its own. -/
structure Replaced where
  previous : Option (List UInt8)
  writtenRevision : String
deriving DecidableEq, Repr

/-- What a job is about to do. -/
inductive Phase where
  | compare
  | keep (current : OverlayFile)
  | replace (current : OverlayFile)
  | readBack (previous : Option (List UInt8))
  | active (replaced : Replaced)
  | stop (replaced : Replaced)
  | start (replaced : Replaced)
  | health (replaced : Replaced) (skipped : List String)
  | restore (replaced : Replaced) (exc : String)
  | startAgain (replaced : Replaced) (exc : String)
  | ended (previous : Option (Option (List UInt8))) (ending : Ending)
deriving DecidableEq, Repr

/-- What the job replaced, once it did. -/
def Phase.previous : Phase → Option (Option (List UInt8))
  | compare | keep _ | replace _ => none
  | readBack previous => some previous
  | active replaced | stop replaced | start replaced => some replaced.previous
  | health replaced _ | restore replaced _ | startAgain replaced _ => some replaced.previous
  | ended previous _ => previous

/-- The file is replaced, and the containers do not run with it yet. -/
def Phase.isUnderway : Phase → Bool
  | readBack _ | active _ | stop _ | start _ => true
  | _ => false

/-- What papaia-ctl answers, with the commands that nodes which only run hooks have missed. -/
inductive Answer where
  | ok (skipped : List String)
  | failed (problem : String)
deriving DecidableEq, Repr

/-- What happens next: the host changes the file, the job takes its next step, with what is answered
to it, or the step raises an error the job does not handle. -/
inductive Event where
  | edit (entry : Entry)
  | compare (io : Io)
  | keep (stamp : Nat) (io : Io) (listing stuck : List Version)
  | replace (readIo writeIo : Io)
  | readBack (io : Io)
  | active (isOn : Bool)
  | stop (answer : Answer)
  | start (answer : Answer)
  | health (problem : Option String)
  | restore (readIo writeIo : Io)
  | startAgain (answer : Answer)
  | raise
deriving DecidableEq, Repr

def Event.isEdit : Event → Bool
  | edit _ => true
  | _ => false

/-- The file, the versions kept of it, and the job. -/
structure State where
  entry : Entry
  history : List Version
  phase : Phase
deriving DecidableEq, Repr

namespace State

def goTo (s : State) (phase : Phase) : State :=
  { s with phase := phase }

/-- The job ends. -/
def ends (s : State) (ending : Ending) : State :=
  s.goTo (.ended s.phase.previous ending)

@[simp] theorem goTo_entry (s : State) (phase : Phase) : (s.goTo phase).entry = s.entry := rfl
@[simp] theorem goTo_history (s : State) (phase : Phase) : (s.goTo phase).history = s.history := rfl
@[simp] theorem goTo_phase (s : State) (phase : Phase) : (s.goTo phase).phase = phase := rfl
@[simp] theorem ends_entry (s : State) (ending : Ending) : (s.ends ending).entry = s.entry := rfl
@[simp] theorem ends_history (s : State) (ending : Ending) :
    (s.ends ending).history = s.history := rfl
@[simp] theorem ends_phase (s : State) (ending : Ending) :
    (s.ends ending).phase = .ended s.phase.previous ending := rfl

end State

variable (digest : List UInt8 → String) (job : OverlayJob)

/-- The comparison with the revision the editor was opened with. -/
def compareStep (s : State) (io : Io) : State :=
  match Overlay.read digest s.entry io with
  | .error error => s.ends (.overlay error)
  | .ok current =>
      if current.revision ≠ job.expectedRevision then s.ends .conflict
      else s.goTo (.keep current)

/-- The bytes are saved, where there are any; the directory is listed in any order. -/
def keepStep (s : State) (current : OverlayFile) (stamp : Nat) (io : Io)
    (listing stuck : List Version) : Option State :=
  match current.raw with
  | none => some (s.goTo (.replace current))
  | some raw =>
      match io with
      | some value => some (s.ends (.overlay (.unsaved value)))
      | none =>
          if listing.isPerm (History.save s.history stamp job.event raw :: s.history) then
            some ⟨s.entry, History.prune listing stuck, .replace current⟩
          else none

/-- The write or the removal. -/
def replaceStep (s : State) (current : OverlayFile) (readIo writeIo : Io) : State :=
  match Overlay.replace digest s.entry job.content current.revision readIo writeIo with
  | (.error error, _) => s.ends (.overlay error)
  | (.ok false, _) => s.ends .conflictMeanwhile
  | (.ok true, entry) =>
      match job.content with
      | none => ⟨entry, s.history, .active ⟨current.raw, ""⟩⟩
      | some _ => ⟨entry, s.history, .readBack current.raw⟩

/-- The end of `write`, after the lock: the file is read again. -/
def readBackStep (s : State) (previous : Option (List UInt8)) (io : Io) : State :=
  match Overlay.read digest s.entry io with
  | .error error => s.ends (.overlay error)
  | .ok written => s.goTo (.active ⟨previous, written.revision⟩)

/-- `_restore`, up to the start. -/
def restoreStep (s : State) (replaced : Replaced) (exc : String) (readIo writeIo : Io) : State :=
  match Overlay.replace digest s.entry replaced.previous replaced.writtenRevision readIo writeIo with
  | (.ok true, entry) => ⟨entry, s.history, .startAgain replaced exc⟩
  | (_, _) => s.ends (.rolledBack exc)

/-- One step of `overlay_callback`, or a change on the host. -/
def step (s : State) (e : Event) : Option State :=
  match s.phase, e with
  | _, .edit entry => some { s with entry := entry }
  | .compare, .compare io => some (compareStep digest job s io)
  | .keep current, .keep stamp io listing stuck => keepStep job s current stamp io listing stuck
  | .replace current, .replace readIo writeIo =>
      some (replaceStep digest job s current readIo writeIo)
  | .readBack previous, .readBack io => some (readBackStep digest s previous io)
  | .active replaced, .active isOn =>
      some (if isOn then s.goTo (.stop replaced) else s.ends .notRestarted)
  | .stop replaced, .stop (.ok _) => some (s.goTo (.start replaced))
  | .stop replaced, .stop (.failed problem) => some (s.goTo (.restore replaced problem))
  | .start replaced, .start (.ok skipped) => some (s.goTo (.health replaced skipped))
  | .start replaced, .start (.failed problem) => some (s.goTo (.restore replaced problem))
  | .health _ _, .health (some problem) => some (s.ends (.notHealthy problem))
  | .health _ [], .health none => some (s.ends .done)
  | .health _ (first :: rest), .health none => some (s.ends (.hookNodesFailed (first :: rest)))
  | .restore replaced exc, .restore readIo writeIo =>
      some (restoreStep digest s replaced exc readIo writeIo)
  | .startAgain _ exc, .startAgain _ => some (s.ends (.rolledBack exc))
  | .ended _ _, _ => none
  | _, .raise => some (s.ends .raised)
  | _, _ => none

end Papaia.Config
