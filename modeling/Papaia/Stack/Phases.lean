/-
Module: Papaia.Stack.Phases
Purpose: The phases of an upgrade, read from the log of its runner.
Trusted boundary: what `gettext` says in the language of the page
Main exports: PhaseState, Phase, upgradePhases, stripPrefix, phaseMatch, announcements, stateOf,
  phasesFromLog
-/
import Papaia.Data.Text

namespace Papaia.Stack.Phases

open Text

inductive PhaseState where
  | done
  | running
  | pending
  | failed
  | skipped
deriving DecidableEq, Repr

/-- One step of the upgrade, and how far it got. -/
structure Phase where
  key : String
  label : String
  state : PhaseState
  detail : String := ""
deriving DecidableEq, Repr

/-- An entry of `_PHASES`: what a line that announces the phase begins with, and what it has in it. -/
structure Announcement where
  key : String
  start : String
  part : String
  label : String
deriving DecidableEq, Repr

/-- `_PHASES`, in the order of their execution. -/
def upgradePhases : List Announcement :=
  [⟨"backup", "Creating a restore point", "", "Create a restore point"⟩,
    ⟨"stop", "Stopping and removing the containers", "", "Remove the containers"⟩,
    ⟨"checkout", "Moving the checkout to", "", "Move the checkout to the release tag"⟩,
    ⟨"migrations", "Running ", "migration", "Run the release migrations"⟩,
    ⟨"render", "Applying ", "configuration", "Apply the new configuration"⟩,
    ⟨"start", "Starting the stack", "", "Start the stack and add-ons"⟩]

def completeMarker : String := "upgrade complete:"
def migrationsNone : String := "No migrations to run"
def installOnNodes : String := "Installing "
def startOnNodes : String := "Starting every node"
def onEveryNode : String := "on every node"
def imagesKey : String := "images"
def imagesLabel : String := "Remove outdated Docker images"
def imagesStart : String := "Removing outdated Docker images"
def imagesDone : String := "Image cleanup "

/-! ### Lines -/

def linePrefixes : List String :=
  ["[papaia-ctl]", "[papaia-manager]", "[ok]", "[error]", "[!]"]

/-- `text.removeprefix(start)`. -/
def dropStart (text start : String) : String :=
  if startsWith text start then String.ofList (text.toList.drop start.length) else text

/-- `_strip_prefix`, with the prefixes that are still to be tried. -/
def stripPrefixFrom (line : String) : List String → String
  | [] => line
  | first :: rest =>
      if line = first then ""
      else if startsWith line (first ++ " ") then
        String.ofList (line.toList.drop (first.length + 1))
      else stripPrefixFrom line rest

def stripPrefix (line : String) : String :=
  stripPrefixFrom line linePrefixes

/-- `_phase_match`. -/
def phaseMatch (phase : Announcement) (line : String) : Bool :=
  if phase.key = "migrations" && (startsWith line migrationsNone ||
      (startsWith line installOnNodes && contains line onEveryNode)) then true
  else if phase.key = "start" && startsWith line startOnNodes then true
  else startsWith line phase.start && (phase.part = "" || contains line phase.part)

/-- The lines of a log without their prefixes. -/
def logLines (log : String) : List String :=
  (splitLines log).map fun raw => stripPrefix (strip raw)

/-! ### The phases -/

/-- `seen.setdefault(key, line)`. -/
def setDefault (seen : List (String × String)) (key line : String) : List (String × String) :=
  match seen.lookup key with
  | some _ => seen
  | none => seen ++ [(key, line)]

/-- What a line adds to the phases that were seen. -/
def seeLine (seen : List (String × String)) (line : String) : List (String × String) :=
  upgradePhases.foldl
    (fun seen phase => if phaseMatch phase line then setDefault seen phase.key line else seen) seen

/-- `seen`: the first announcement of each phase. -/
def announcements (lines : List String) : List (String × String) :=
  lines.foldl seeLine []

def order : List String := upgradePhases.map Announcement.key

/-- `last_seen`: the index of the last phase that was announced, -1 before the first. -/
def lastSeen (seen : List (String × String)) : Int :=
  (seen.map fun entry => (order.idxOf entry.1 : Int)).foldl max (-1)

def isComplete (lines : List String) : Bool :=
  lines.any fun line => contains line completeMarker

/-- The state of a phase by its index. -/
def stateOf (complete failed announced : Bool) (last index : Int) : PhaseState :=
  if complete then if announced then .done else .skipped
  else if announced then
    if index < last then .done else if failed then .failed else .running
  else if index < last then .skipped
  else .pending

variable (gettext : String → String)

/-- `_detail`. -/
def detail (key : String) (seen : List (String × String)) : String :=
  let line := (seen.lookup key).getD ""
  if key = "migrations" && startsWith line migrationsNone then gettext "none in this release"
  else if key = "checkout" && startsWith line "Moving the checkout to " then
    String.ofList ((dropStart line "Moving the checkout to ").toList.reverse.dropWhile
      (· = '.')).reverse
  else ""

/-- The first of the lines that begins with a text, and the lines behind it. -/
def findLine (start : String) : List String → Option (String × List String)
  | [] => none
  | line :: rest => if startsWith line start then some (line, rest) else findLine start rest

/-- `_images_phase`. -/
def imagesPhase (lines : List String) (running : Bool) : Phase :=
  let phase (state : PhaseState) (detail : String) : Phase :=
    { key := imagesKey, label := gettext imagesLabel, state, detail }
  match findLine imagesStart lines with
  | none => phase (if running then .pending else .skipped) ""
  | some (_, rest) =>
      match findLine imagesDone rest with
      | none => phase (if running then .running else .failed) ""
      | some (done, _) =>
          let outcome := dropStart done imagesDone
          if startsWith outcome "skipped" then
            phase .skipped (String.ofList ((dropStart outcome "skipped").toList.dropWhile
              fun c => c = ' ' || c = '-'))
          else phase .done (strip (dropStart outcome "finished:"))

/-- The six phases of the upgrade. -/
def sixPhases (lines : List String) (running : Bool) : List Phase :=
  let seen := announcements lines
  let complete := isComplete lines
  let failed := !running && !complete
  upgradePhases.zipIdx.map fun (phase, index) =>
    { key := phase.key
      label := gettext phase.label
      state := stateOf complete failed (seen.lookup phase.key).isSome (lastSeen seen) index
      detail := detail gettext phase.key seen }

/-- `phases_from_log`. -/
def phasesFromLog (log : String) (running pruneImages : Bool) : List Phase :=
  let lines := logLines log
  sixPhases gettext lines running ++
    if pruneImages then [imagesPhase gettext lines running] else []

end Papaia.Stack.Phases
