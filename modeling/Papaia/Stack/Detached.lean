/-
Module: Papaia.Stack.Detached
Purpose: The detached containers that run papaia-ctl: the arguments each is started with, what Docker
  makes of them, and what the manager reads back from a container.
Trusted boundary: Docker reads its options, inspects a container and lists the newest first as it
  documents; a shell splits a script without quotes at its blanks
Main exports: ContainerSpec, RunnerStatus, baseRunArgs, buildRunArgs, buildStackRunArgs,
  buildUpgradeRunArgs, Operation, Config, createdFrom, Container, specFromInspect,
  statusFromInspect, findRunner, exec
-/
import Papaia.Data.Value
import Papaia.Data.VersionKey
import Papaia.Lib.CommandLine
import Papaia.Stack.Requests
import Mathlib.Data.List.Sort
import Mathlib.Data.String.Basic

namespace Papaia.Stack

/-- The value of the label that tells the kinds apart. -/
def RunnerKind.labelValue : RunnerKind → String
  | .restore => "papaia-restore"
  | .stack => "papaia-stack"
  | .upgrade => "papaia-upgrade"

namespace Detached

open Text CommandLine

def runnerLabelKey : String := "de.fidonis.module"
def targetLabelKey : String := "de.fidonis.runner-target"
/-- What carried the target before every kind had one. -/
def formerTargetKey : String := "de.fidonis.restore-point"
def pruneLabelKey : String := "de.fidonis.upgrade-prune-images"

/-! ### Starting a runner -/

/-- The parts of a container's configuration that a runner inherits. -/
structure ContainerSpec where
  image : String
  binds : List String := []
  user : String := ""
  groupAdd : List String := []
  extraHosts : List String := []
deriving DecidableEq, Repr

def runnerName (target : String) (kind : RunnerKind) : String :=
  kind.namePrefix ++ target

/-- `papaia_ctl_path`, of a workspace directory as `Path` spells it. -/
def papaiaCtlPath (workspaceDir : String) : String :=
  workspaceDir ++ "/papaia/tools/papaia-ctl"

/-- An option and its value for each value. -/
def each (option : String) (values : List String) : List String :=
  values.flatMap fun value => [option, value]

def baseRunArgs (spec : ContainerSpec) (name : String) (kind : RunnerKind) (target : String)
    (extraLabels : List String) : List String :=
  ["run", "--detach", "--name", name, "--label", runnerLabelKey ++ "=" ++ kind.labelValue,
    "--label", targetLabelKey ++ "=" ++ target, "--restart", "no"] ++
  each "--label" extraLabels ++ each "--volume" spec.binds ++
  (if spec.user = "" then [] else ["--user", spec.user]) ++
  each "--group-add" spec.groupAdd ++ each "--add-host" spec.extraHosts ++ [spec.image]

/-- Why no arguments are built. -/
inductive BuildError where
  | restorePoint (value : String)
  | action (value : String)
  | nothingToStop
  | version (value : String)
deriving DecidableEq, Repr

def BuildError.message (repr : String → String) : BuildError → String
  | restorePoint value => "restore point " ++ repr value ++ " is not a valid snapshot id"
  | action value => "action " ++ repr value ++ " is not in ['restart', 'start', 'stop']"
  | nothingToStop => "--clean-up needs something to stop"
  | version value => "target version " ++ repr value ++ " is not a release version"

/-- `\d{4}-\d{2}-\d{2}_\d{2}-\d{2}-\d{2}`; none stands for a digit. -/
def restorePointShape : List (Option Char) :=
  let two := [none, none]
  two ++ two ++ some '-' :: two ++ some '-' :: two ++ some '_' :: two ++ some '-' :: two ++
    some '-' :: two

def hasShape : List (Option Char) → List Char → Bool
  | [], [] => true
  | place :: shape, c :: chars =>
      place.elim (decimalOf c).isSome (· == c) && hasShape shape chars
  | _, _ => false

/-- `is_valid_restore_point_id`: the `$` also stands before a line break at the end. -/
def isValidRestorePointId (value : String) : Bool :=
  hasShape restorePointShape value.toList ||
    value.toList.getLast? == some '\n' && hasShape restorePointShape value.toList.dropLast

/-- `is_valid_target_version`: `^\d+\.\d+\.\d+\Z`. -/
def isValidTargetVersion (value : String) : Bool :=
  let parts := value.toList.splitOn '.'
  parts.length == 3 && parts.all Versions.isNumber

/-- The directories of the manager. -/
structure Directories where
  workspaceDir : String
  configDir : String
deriving DecidableEq, Repr

/-- The papaia-ctl call of a restore. -/
def restoreCall (dirs : Directories) (restorePoint backupDir : String) (restartClean : Bool) :
    List String :=
  ["bash", papaiaCtlPath dirs.workspaceDir, "restore", "--config-dir=" ++ dirs.configDir,
    "--backup-dir=" ++ backupDir, "--restore-point=" ++ restorePoint, "-y"] ++
  if restartClean then ["--restart-clean"] else []

def buildRunArgs (spec : ContainerSpec) (dirs : Directories) (restorePoint backupDir : String)
    (restartClean : Bool) : Except BuildError (List String) :=
  if isValidRestorePointId restorePoint then
    .ok (baseRunArgs spec (runnerName restorePoint .restore) .restore restorePoint [] ++
      restoreCall dirs restorePoint backupDir restartClean)
  else .error (.restorePoint restorePoint)

def stackActions : List String := ["start", "stop", "restart"]

/-- `_stack_command`. -/
def stackCommand (action ctl configDir : String) (cleanUp : Bool) : List String :=
  let stop := "bash " ++ ctl ++ " stop --config-dir=" ++ configDir ++
    if cleanUp then " --clean-up" else ""
  let start := "bash " ++ ctl ++ " start --config-dir=" ++ configDir
  if action = "restart" then ["bash", "-c", stop ++ " && " ++ start]
  else ["bash", "-c", if action = "stop" then stop else start]

def buildStackRunArgs (spec : ContainerSpec) (dirs : Directories) (action : String)
    (cleanUp : Bool) : Except BuildError (List String) :=
  if action ∉ stackActions then .error (.action action)
  else if cleanUp && action == "start" then .error .nothingToStop
  else
    .ok (baseRunArgs spec (runnerName action .stack) .stack action [] ++
      stackCommand action (papaiaCtlPath dirs.workspaceDir) dirs.configDir cleanUp)

/-- `_UPGRADE_WITH_PRUNE`. -/
def upgradeWithPrune : String :=
  "cfg=$1; ws=$2; shift 2\n" ++
  ("\"$@\"\n" ++
  "rc=$?\n" ++
  "if [ \"$rc\" -eq 0 ]; then\n" ++
  "    python -m app.core.images prune --config-dir \"$cfg\" --workspace-dir \"$ws\" ||\n" ++
  "        echo \"[papaia-manager] Image cleanup skipped -- it could not be started\"\n" ++
  "fi\n" ++
  "exit \"$rc\"\n")

/-- The papaia-ctl call of an upgrade. -/
def upgradeCall (dirs : Directories) (version : String) (force noBackup : Bool) : List String :=
  ["bash", papaiaCtlPath dirs.workspaceDir, "upgrade", "--config-dir=" ++ dirs.configDir,
    "--version=" ++ version, "-y"] ++
  (if force then ["--force"] else []) ++ if noBackup then ["--no-backup"] else []

def buildUpgradeRunArgs (spec : ContainerSpec) (dirs : Directories) (version : String)
    (force noBackup pruneImages : Bool) : Except BuildError (List String) :=
  if isValidTargetVersion version then
    let args := baseRunArgs spec (runnerName version .upgrade) .upgrade version
      (if pruneImages then [pruneLabelKey ++ "=true"] else [])
    let ctl := upgradeCall dirs version force noBackup
    .ok (args ++
      if pruneImages then
        ["bash", "-c", upgradeWithPrune, "papaia-upgrade", dirs.configDir, dirs.workspaceDir] ++ ctl
      else ctl)
  else .error (.version version)

/-- What a runner is started for. -/
inductive Operation where
  | restore (restorePoint backupDir : String) (restartClean : Bool)
  | stack (action : String) (cleanUp : Bool)
  | upgrade (version : String) (force noBackup pruneImages : Bool)
deriving DecidableEq, Repr

def Operation.kind : Operation → RunnerKind
  | restore .. => .restore
  | stack .. => .stack
  | upgrade .. => .upgrade

def Operation.target : Operation → String
  | restore restorePoint _ _ => restorePoint
  | stack action _ => action
  | upgrade version _ _ _ => version

def Operation.prunes : Operation → Bool
  | upgrade _ _ _ pruneImages => pruneImages
  | _ => false

def Operation.args (spec : ContainerSpec) (dirs : Directories) :
    Operation → Except BuildError (List String)
  | restore restorePoint backupDir restartClean =>
      buildRunArgs spec dirs restorePoint backupDir restartClean
  | stack action cleanUp => buildStackRunArgs spec dirs action cleanUp
  | upgrade version force noBackup pruneImages =>
      buildUpgradeRunArgs spec dirs version force noBackup pruneImages

/-! ### Docker -/

/-- The options of `docker run` that a runner is started with. -/
def dockerOptions : Grammar String where
  isOption word := startsWith word "-"
  arity word :=
    if word = "--detach" then some false
    else if word ∈ ["--name", "--label", "--restart", "--volume", "--user", "--group-add",
      "--add-host"] then some true
    else none

/-- The configuration of a container. -/
structure Config where
  name : String
  labels : List (String × String)
  restart : String
  binds : List String
  user : String
  groupAdd : List String
  extraHosts : List String
  image : String
  command : List String
deriving DecidableEq, Repr

/-- A label is cut at the first equals sign. -/
def cutLabel (label : String) : String × String :=
  (String.ofList (label.toList.takeWhile (· != '=')),
    String.ofList ((label.toList.dropWhile (· != '=')).drop 1))

/-- An option that is given more than once counts as it is given last. -/
def lastOf (word : String) (options : List (Opt String)) : String :=
  (valuesOf word options).getLast?.getD ""

def configOf (options : List (Opt String)) : List String → Option Config
  | [] => none
  | image :: command => some {
      name := lastOf "--name" options
      labels := (valuesOf "--label" options).map cutLabel
      restart := lastOf "--restart" options
      binds := valuesOf "--volume" options
      user := lastOf "--user" options
      groupAdd := valuesOf "--group-add" options
      extraHosts := valuesOf "--add-host" options
      image := image
      command := command }

/-- The container that `docker` creates. -/
def createdFrom (args : List String) : Option Config :=
  if args.head? = some "run" then
    (parse dockerOptions args.tail).bind fun read => configOf read.1 read.2
  else none

/-- `State.Status`. -/
inductive Status where
  | created
  | running
  | restarting
  | paused
  | removing
  | exited
  | dead
deriving DecidableEq, Repr

def Status.text : Status → String
  | created => "created"
  | running => "running"
  | restarting => "restarting"
  | paused => "paused"
  | removing => "removing"
  | exited => "exited"
  | dead => "dead"

structure Life where
  status : Status
  exitCode : Int
  startedAt : String
  finishedAt : String
deriving DecidableEq, Repr

structure Container where
  config : Config
  life : Life
deriving DecidableEq, Repr

/-- A label that is given more than once has its last value. -/
def Config.labelMapping (config : Config) : Mapping :=
  config.labels.foldl (fun labels label => labels.put (.str label.1) (.str label.2)) []

/-- `docker inspect`. -/
def Container.inspect (c : Container) : Val :=
  .list [.map [
    (.str "Name", .str ("/" ++ c.config.name)),
    (.str "State", .map [
      (.str "Status", .str c.life.status.text),
      (.str "ExitCode", .int c.life.exitCode),
      (.str "StartedAt", .str c.life.startedAt),
      (.str "FinishedAt", .str c.life.finishedAt)]),
    (.str "HostConfig", .map [
      (.str "Binds", .list (c.config.binds.map .str)),
      (.str "GroupAdd", .list (c.config.groupAdd.map .str)),
      (.str "ExtraHosts", .list (c.config.extraHosts.map .str))]),
    (.str "Config", .map [
      (.str "Image", .str c.config.image),
      (.str "User", .str c.config.user),
      (.str "Labels", .map c.config.labelMapping)])]]

/-- `docker ps --filter label=...`. -/
def Config.hasLabel (config : Config) (kind : RunnerKind) : Bool :=
  (config.labelMapping.getD runnerLabelKey).str? == some kind.labelValue

/-! ### Reading a container -/

inductive InspectError where
  | noContainer
  | shape
  | noImage
  | runnerShape
deriving DecidableEq, Repr

def InspectError.message : InspectError → String
  | noContainer => "docker inspect returned no container"
  | shape => "docker inspect returned an unexpected shape"
  | noImage => "the manager container reports no image to reuse"
  | runnerShape => "docker inspect returned an unexpected shape for the runner"

/-- `value or {}` of what Docker gives as an object. -/
def part (m : Mapping) (key : String) : Mapping :=
  (m.getD key).mapping?.getD []

/-- `str(value or "")` of what Docker gives as a text. -/
def textAt (m : Mapping) (key : String) : String :=
  (m.getD key).str?.getD ""

/-- `[str(item) for item in value or []]` of what Docker gives as a list of texts. -/
def textsAt (m : Mapping) (key : String) : List String :=
  ((m.getD key).list?.getD []).map fun item => item.str?.getD ""

/-- `_spec_from_inspect`. -/
def specFromInspect (payload : Val) : Except InspectError ContainerSpec :=
  match payload.list?.getD [] with
  | [] => .error .noContainer
  | first :: _ =>
      match first.mapping? with
      | none => .error .shape
      | some entry =>
          let hostConfig := part entry "HostConfig"
          let config := part entry "Config"
          let image := if textAt config "Image" = "" then textAt entry "Image" else textAt config "Image"
          if image = "" then .error .noImage
          else .ok {
            image := image
            binds := textsAt hostConfig "Binds"
            user := textAt config "User"
            groupAdd := textsAt hostConfig "GroupAdd"
            extraHosts := textsAt hostConfig "ExtraHosts" }

structure RunnerStatus where
  name : String
  target : String
  status : String
  exitCode : Option Int
  startedAt : String
  finishedAt : String
  pruneImages : Bool := false
deriving DecidableEq, Repr

def RunnerStatus.isRunning (status : RunnerStatus) : Bool :=
  ["created", "running", "restarting", "paused"].contains status.status

def RunnerStatus.succeeded (status : RunnerStatus) : Bool :=
  !status.isRunning && status.exitCode == some 0

/-- `name.lstrip("/")`. -/
def withoutSlash (name : String) : String :=
  String.ofList (name.toList.dropWhile (· == '/'))

/-- `isinstance(value, int)`, with the number. -/
def int? : Val → Option Int
  | .int i => some i
  | .bool b => some (if b then 1 else 0)
  | _ => none

/-- The first of some texts that is not empty. -/
def firstText (texts : List String) : String :=
  (texts.find? (· != "")).getD ""

/-- `_status_from_inspect`. -/
def statusFromInspect (payload : Val) (kind : RunnerKind) : Except InspectError RunnerStatus :=
  match (payload.list?.getD []).head?.bind Val.mapping? with
  | none => .error .runnerShape
  | some entry =>
      let state := part entry "State"
      let labels := part (part entry "Config") "Labels"
      let name := withoutSlash (textAt entry "Name")
      let labelled := firstText [textAt labels targetLabelKey, textAt labels formerTargetKey]
      let target :=
        if labelled = "" && startsWith name kind.namePrefix then
          String.ofList (name.toList.drop kind.namePrefix.toList.length)
        else labelled
      let status := firstText [textAt state "Status", "unknown"]
      .ok {
        name := name
        target := target
        status := status
        exitCode := if status = "running" then none else int? (state.getD "ExitCode")
        startedAt := textAt state "StartedAt"
        finishedAt := textAt state "FinishedAt"
        pruneImages := (labels.getD pruneLabelKey).str? == some "true" }

/-- `find_runner`, of the containers in the order they were created; Docker lists the newest
first. -/
def findRunner (docker : List Container) (kind : RunnerKind) :
    Except InspectError (Option RunnerStatus) := do
  let listed := docker.reverse.filter fun c => c.config.hasLabel kind
  let statuses ← listed.mapM fun c => statusFromInspect c.inspect kind
  match statuses.find? RunnerStatus.isRunning with
  | some status => pure (some status)
  | none => pure (statuses.insertionSort fun one other => one.startedAt ≤ other.startedAt).getLast?

/-! ### What the container runs -/

/-- The commands of a script without quotes that joins them with `&&`. -/
def shellCommands (script : String) : List (List String) :=
  (words script).splitOn "&&"

/-- Commands one after the other until one fails, and the exit code. -/
def runAll (run : List String → Int) : List (List String) → List (List String) × Int
  | [] => ([], 0)
  | argv :: rest =>
      if rest.isEmpty || run argv != 0 then ([argv], run argv)
      else (argv :: (runAll run rest).1, (runAll run rest).2)

def pruneCall (dirs : Directories) : List String :=
  ["python", "-m", "app.core.images", "prune", "--config-dir", dirs.configDir, "--workspace-dir",
    dirs.workspaceDir]

/-- The script of an upgrade that cleans up, on its positional parameters. -/
def runWithPrune (run : List String → Int) : List String → List (List String) × Int
  | cfg :: ws :: argv =>
      if run argv = 0 then ([argv, pruneCall ⟨ws, cfg⟩], run argv) else ([argv], run argv)
  | _ => ([], 0)

/-- The command of a container: what is run, and its exit code. -/
def exec (run : List String → Int) : List String → List (List String) × Int
  | shell :: flag :: script :: params =>
      if shell = "bash" ∧ flag = "-c" then
        if script = upgradeWithPrune then runWithPrune run params.tail
        else runAll run (shellCommands script)
      else ([shell :: flag :: script :: params], run (shell :: flag :: script :: params))
  | argv => ([argv], run argv)

end Detached

end Papaia.Stack
