/-
Module: Papaia.Stack.UpgradeStart
Purpose: The upgrade check and the start of an upgrade: checks one after the other and the answer that
  is kept, requests that go by that answer, and the stack under them.
Trusted boundary: what git and papaia-ctl answer is data; a lock serves those who wait in their order
Main exports: Gate, parseGateJson, UpgradeCheck, resolved, Answers, runCheck, UpgradeBody,
  UpgradeRefusal, asked, checkForce, checkGate, cleared, Start, State, Event, step
-/
import Papaia.Stack.Detached

namespace Papaia.Stack.UpgradeStart

open Text

/-! ### The gate -/

/-- One add-on's verdict; what only the page shows of it is left out. -/
structure GateResult where
  name : String
  status : String
deriving DecidableEq, Repr

structure Gate where
  passed : Bool := true
  results : List GateResult := []
deriving DecidableEq, Repr

def Gate.blocking (gate : Gate) : List GateResult :=
  gate.results.filter fun r => ["INCOMPATIBLE", "ERROR"].contains r.status

def Gate.hasError (gate : Gate) : Bool :=
  gate.results.any fun r => r.status == "ERROR"

def Gate.forceable (gate : Gate) : Bool :=
  !gate.passed && !gate.hasError

/-- `str(entry.get(key) or default)` of what papaia-ctl writes as a text. -/
def textOr (entry : Mapping) (key default : String) : String :=
  Detached.firstText [Detached.textAt entry key, default]

/-- `parse_gate_json`, of a report that is parsed, or what is wrong with its JSON. -/
def parseGateJson (report : Except String Val) (exitCode : Int) : Except String Gate :=
  match report with
  | .error exc => .error ("could not read the add-on compatibility report: " ++ exc)
  | .ok raw =>
      match raw.list? with
      | none => .error "the add-on compatibility report is not a list"
      | some entries => .ok {
          passed := exitCode == 0
          results := (entries.filterMap Val.mapping?).map fun entry =>
            ⟨textOr entry "name" "?", textOr entry "status" "UNKNOWN"⟩ }

/-! ### The check -/

/-- `UpgradeCheck`, as far as the start of an upgrade goes by it. -/
structure UpgradeCheck where
  current : String := ""
  target : String := ""
  tag : String := ""
  status : String := ""
  gate : Gate := {}
deriving DecidableEq, Repr

def UpgradeCheck.upToDate (check : UpgradeCheck) : Bool :=
  check.status == "up-to-date"

/-- One line of the resolver: what stands before the first tabulator and behind it. -/
def cutTab (line : String) : String × String :=
  (String.ofList (line.toList.takeWhile (· != '\t')),
    String.ofList ((line.toList.dropWhile (· != '\t')).drop 1))

/-- `parse_resolve_tsv(text).get(key, "")`, for one of its keys. -/
def resolved (text key : String) : String :=
  let lines := (splitLines (String.ofList (text.toList.filter (· != '\r')))).map cutTab
  let values := lines.filterMap fun line =>
    if line.1 = key && line.2 != "" then some line.2 else none
  values.getLast?.getD ""

/-- What a command of papaia-ctl answers. -/
structure Output where
  exitCode : Int
  out : String
  err : String := ""
deriving DecidableEq, Repr

/-- What git and papaia-ctl answer while a check runs. -/
structure Answers where
  repo : String
  isGit : Bool
  resolve : Option String → Output
  /-- `worktree prune` and `worktree add` of a tag. -/
  prune : Except String Unit
  worktree : String → Except String Unit
  /-- `addon-check --json` in that worktree: the exit code and the report. -/
  addonCheck : String → Int × Except String Val
  /-- `upgrade-plan` in that worktree, from a version to a version. -/
  plan : String → String → String → Output

def stripOr (text default : String) : String :=
  if strip text = "" then default else strip text

/-- `_evaluate_target`; the migrations it lists are shown and nothing goes by them. -/
def evaluateTarget (answers : Answers) (tag current target : String) : Except String Gate := do
  answers.prune
  (answers.worktree tag).mapError fun exc =>
    "could not check out " ++ tag ++ " for inspection. Does the tag exist? (" ++ exc ++ ")"
  let gate ← parseGateJson (answers.addonCheck tag).2 (answers.addonCheck tag).1
  let plan := answers.plan tag current target
  if plan.exitCode = 0 then pure gate
  else .error (stripOr plan.err "could not determine the pending migrations")

/-- `run_check`, between taking the lock and leaving it. -/
def runCheck (answers : Answers) (version : Option String) : Except String UpgradeCheck :=
  if answers.isGit then
    let output := answers.resolve version
    if output.exitCode = 0 then
      let check : UpgradeCheck := {
        current := resolved output.out "CURRENT"
        target := resolved output.out "TARGET"
        tag := resolved output.out "TAG"
        status := resolved output.out "STATUS" }
      if !check.upToDate && check.tag != "" then
        (evaluateTarget answers check.tag check.current check.target).map fun gate =>
          { check with gate := gate }
      else .ok check
    else .error (stripOr output.err "could not resolve a target release")
  else .error (answers.repo ++ " is not a git checkout, so it cannot be moved to a release tag")

/-! ### What a start is refused for -/

structure UpgradeBody where
  version : String
  force : Bool := false
  noBackup : Bool := false
  pruneImages : Bool := false
deriving DecidableEq, Repr

structure CheckoutState where
  isGit : Bool := false
  clean : Bool := true
  error : String := ""
deriving DecidableEq, Repr

/-- `PAPAIA_BACKUP_DIR`, and whether it can be reached. -/
structure BackupDir where
  path : Option String
  reachable : Bool
deriving DecidableEq, Repr

inductive UpgradeRefusal where
  | badVersion (value : String)
  | noCheck (version : String)
  | upToDate (current : String)
  | noCheckout
  | checkout (error : String)
  | dirty
  | nothingToForce
  | malformed
  | incompatible (target : String) (names : List String)
  | noBackupDir
  | unreachable (path : String)
deriving DecidableEq, Repr

def UpgradeRefusal.statusCode : UpgradeRefusal → Nat
  | .badVersion _ | .nothingToForce | .malformed => 400
  | _ => 409

def UpgradeRefusal.message (repr : String → String) : UpgradeRefusal → String
  | .badVersion value => repr value ++ " is not a release version (X.Y.Z)"
  | .noCheck version => "no completed check for " ++ version ++
      "; run the upgrade check again before starting the upgrade"
  | .upToDate current => "already at " ++ current ++ " -- there is no newer release to move to"
  | .noCheckout =>
      "the papaia workspace is not a git checkout, so it cannot be moved to a release tag"
  | .checkout error => error
  | .dirty => "the checkout has uncommitted changes to tracked files. Commit, stash or discard " ++
      "them on the host first -- the upgrade moves the checkout to a release tag and would " ++
      "otherwise take those edits with it."
  | .nothingToForce =>
      "the add-on compatibility check passed; there is nothing for force to override"
  | .malformed => "force cannot override a malformed add-on manifest -- papaia-ctl refuses an " ++
      "ERROR result regardless of the flag. Fix the add-on first."
  | .incompatible target names => "the add-on compatibility check failed against " ++ target ++
      " (" ++ (if names.isEmpty then "an add-on" else joinWith ", " names) ++
      "). Update the add-ons first, or re-run with force."
  | .noBackupDir => "PAPAIA_BACKUP_DIR is not set in the stack configuration, so no restore point " ++
      "can be written. Set it on the host, or start the upgrade without a restore point."
  | .unreachable path => "the backup directory " ++ path ++ " is not reachable from the manager " ++
      "container, so the restore point would fail after the stack is already down"

/-- `start_upgrade`, up to its first await: the check it goes by. -/
def asked (cached : Option UpgradeCheck) (body : UpgradeBody) :
    Except UpgradeRefusal UpgradeCheck :=
  if Detached.isValidTargetVersion body.version then
    match cached with
    | none => .error (.noCheck body.version)
    | some check =>
        if check.target ≠ body.version then .error (.noCheck body.version)
        else if check.upToDate then .error (.upToDate check.current)
        else .ok check
  else .error (.badVersion body.version)

def checkForce (body : UpgradeBody) (check : UpgradeCheck) : Except UpgradeRefusal Unit :=
  if body.force then
    if check.gate.passed then .error .nothingToForce
    else if check.gate.hasError then .error .malformed
    else .ok ()
  else .ok ()

def checkGate (body : UpgradeBody) (check : UpgradeCheck) : Except UpgradeRefusal Unit :=
  if !check.gate.passed && !body.force then
    .error (.incompatible check.target (check.gate.blocking.map GateResult.name))
  else .ok ()

def checkCheckout (state : CheckoutState) : Except UpgradeRefusal Unit :=
  if !state.isGit then .error .noCheckout
  else if state.error ≠ "" then .error (.checkout state.error)
  else if !state.clean then .error .dirty
  else .ok ()

def checkBackup (body : UpgradeBody) (backup : BackupDir) : Except UpgradeRefusal Unit :=
  if body.noBackup then .ok ()
  else
    match backup.path with
    | none => .error .noBackupDir
    | some path => if backup.reachable then .ok () else .error (.unreachable path)

/-- `start_upgrade`, behind its first await and up to `_require_idle`. -/
def cleared (body : UpgradeBody) (check : UpgradeCheck) (checkout : CheckoutState)
    (backup : BackupDir) : Except UpgradeRefusal Unit := do
  checkCheckout checkout
  checkForce body check
  checkGate body check
  checkBackup body backup

/-! ### The requests over the stack -/

/-- A start that goes by a check.  `seen` is how many checks had completed when it was asked for, and
`resets` how many there were whenever the answer had been dropped; `flight` is its place among the
requests that want the stack. -/
structure Start where
  body : UpgradeBody
  check : UpgradeCheck
  seen : Nat
  resets : List Nat
  refusal : Option UpgradeRefusal := none
  flight : Option Nat := none
  ended : Bool := false
deriving DecidableEq, Repr

/-- `checks` are the checks that have been asked for; the first holds the lock.  `completed` are the
answers there have been, and `resets` how many there had been whenever the answer was dropped. -/
structure State where
  stack : Stack.State
  cached : Option UpgradeCheck := none
  checks : List (Option String) := []
  completed : List UpgradeCheck := []
  resets : List Nat := []
  starts : List Start := []
deriving DecidableEq, Repr

inductive Event where
  | requestCheck (version : Option String)
  /-- The check that holds the lock ends; it may be cancelled. -/
  | finishCheck (answers : Option Answers)
  | ask (body : UpgradeBody)
  | clear (i : Nat) (checkout : CheckoutState) (backup : BackupDir)
  /-- The runner has been started and is looked for. -/
  | inspected (i : Nat) (found : Bool)
  /-- Another request, a runner or a job. -/
  | stack (e : Stack.Event)
  /-- The process starts again, and with it no request goes on. -/
  | restart

/-- `reset_cache`. -/
def resetCache (s : State) : State :=
  { s with cached := none, resets := s.resets ++ [s.completed.length] }

def setStart (s : State) (i : Nat) (start : Start) : State :=
  { s with starts := s.starts.set i start }

/-- The request joins those that want the stack. -/
def join (s : State) (i : Nat) (start : Start) : State :=
  let request := Request.upgrade start.body.version
  { setStart s i { start with flight := some s.stack.flights.length } with
    stack := { s.stack with flights := s.stack.flights ++ [⟨request, request.acts, none⟩] } }

/-- Whether `docker run` has started the runner of a start. -/
def hasRun (s : State) (start : Start) : Bool :=
  (start.flight.bind fun j => s.stack.flights[j]?).any fun flight =>
    flight.acts.isEmpty && flight.refusal.isNone

def isUpgrade : Stack.Event → Bool
  | .arrive (.upgrade _) => true
  | _ => false

def step (s : State) : Event → Option State
  | .requestCheck version =>
      if version.all Detached.isValidTargetVersion then
        some { s with checks := s.checks ++ [version] }
      else some s
  | .finishCheck answers =>
      match s.checks with
      | [] => none
      | version :: rest =>
          match answers.map fun answers => runCheck answers version with
          | some (.ok check) => some { s with
              checks := rest, cached := some check, completed := s.completed ++ [check] }
          | _ => some { s with checks := rest }
  | .ask body =>
      match asked s.cached body with
      | .ok check => some { s with
          starts := s.starts ++ [{
            body := body, check := check, seen := s.completed.length, resets := s.resets }] }
      | .error _ => some s
  | .clear i checkout backup =>
      (s.starts[i]?).bind fun start =>
        if start.ended || start.refusal.isSome || start.flight.isSome then none
        else
          match cleared start.body start.check checkout backup with
          | .ok () => some (join s i start)
          | .error refusal => some (setStart s i { start with refusal := some refusal })
  | .inspected i found =>
      (s.starts[i]?).bind fun start =>
        if start.ended || !hasRun s start then none
        else
          let answered := setStart s i { start with ended := true }
          some (if found then resetCache answered else answered)
  | .stack e =>
      if isUpgrade e then none else (Stack.step s.stack e).map fun stack => { s with stack := stack }
  | .restart =>
      some { resetCache s with
        checks := []
        starts := s.starts.map fun start => { start with ended := true }
        stack := { s.stack with flights := s.stack.flights.map fun flight => { flight with acts := [] } } }

end Papaia.Stack.UpgradeStart
