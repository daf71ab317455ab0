/-
Module: Papaia.Host.NodeHealth
Purpose: The readings of the nodes: runs of a node's `doctor` that callers share, the last reading and
  the report behind it in two dictionaries, and the mail status that is read from the report.
Trusted boundary: DoctorPackage; the answers of the nodes; the monotonic clock, in microseconds
Main exports: Answer, measured, limitOf, served, RelayAnswer, runOnNode, State, Event, delivery, step
-/
import Mathlib.Logic.Function.Basic
import Papaia.Host.Doctor

namespace Papaia.Host.NodeHealth

open Text

/-! ### One run -/

/-- `CtlError`, another exception, or the status, the output and the errors of the command. -/
inductive Answer where
  | ctlError (message : String)
  | unexpected
  | exited (code : Int) (out err : String)
deriving DecidableEq, Repr

/-- `_first_line`. -/
def firstLine (text : String) : String :=
  let line := ((splitLines text).map strip).find? (· ≠ "")
  String.ofList ((line.getD "").toList.take 200)

/-- The reason of a run that ended with another status than 0. -/
def exitReason (code : Int) (out err : String) : String :=
  let first := firstLine (if err ≠ "" then err else out)
  if first ≠ "" then first
  else "doctor exited with status " ++ renderInt code ++ " and no output"

variable (pkg : DoctorPackage)

/-- What a run leaves: the report in its output, and the reading; none where an exception got out. -/
def measured (now : Int) : Answer → Option String × Option HostHealth
  | .ctlError message => (none, some (unavailable now message))
  | .unexpected => (none, some (unavailable now "the host check failed unexpectedly"))
  | .exited code out err =>
      match nodeReport pkg out with
      | .error _ => (none, none)
      | .ok report =>
          if code ≠ 0 then (report, some (unavailable now (exitReason code out err)))
          else (report, (parseNodeDoctor pkg now out).toOption)

/-! ### Age -/

def second : Int := 1000000

/-- `RECHECK_MIN_INTERVAL_SECONDS`. -/
def recheckMinInterval : Int := 5 * second

/-- `FAILURE_TTL_SECONDS`. -/
def failureTtl : Int := 15 * second

/-- The age below which a reading is served. -/
def limitOf (force : Bool) (available : Bool) (interval : Int) : Int :=
  if force then recheckMinInterval
  else if available then interval
  else min failureTtl interval

/-! ### The mail status -/

/-- `_NO_NODE_REPORT`. -/
def noNodeReport : String :=
  "the node's doctor gave no readable answer"

/-- The relay's status: there is none, or it is parsed from the report. -/
inductive RelayAnswer where
  | unavailable (reason : String)
  | report (text : String)
deriving DecidableEq, Repr

/-- `_run_on_node` once it has the reading and, right after, the report. -/
def runOnNode (health : HostHealth) : Option String → RelayAnswer
  | some report => .report report
  | none => .unavailable (if health.reason ≠ "" then health.reason else noNodeReport)

/-! ### The runs of a process -/

/-- How a run ended. -/
structure Ended where
  time : Int
  report : Option String
  health : Option HostHealth

/-- A task of `_measure_node`: it has not begun, is under way, or has ended. -/
structure Task where
  node : String
  begun : Bool := false
  ended : Option Ended := none

/-- What the dictionaries hold for a node, and the runs that last began and last ended. -/
structure NodeState where
  /-- `_node_cache`, with the run it is from. -/
  cache : Option (Int × HostHealth × Nat) := none
  /-- `_node_reports`. -/
  report : Option String := none
  /-- `_node_runs`. -/
  run : Option Nat := none
  lastBegun : Option Nat := none
  lastEnded : Option Nat := none

/-- The dictionaries, the tasks, and the task each caller waits for. -/
structure State where
  nodes : String → NodeState := fun _ => {}
  tasks : Nat → Option Task := fun _ => none
  newTask : Nat := 0
  waiting : List Nat := []

/-- A process that has just started. -/
def start : State := {}

inductive Event where
  /-- `load_node_health`, up to its first await; the mail status calls it as the Host page does. -/
  | load (node : String) (force : Bool) (interval now : Int)
  /-- The first step of a task. -/
  | begin (task : Nat)
  /-- A task is answered and ends. -/
  | finish (task : Nat) (answer : Answer) (now : Int)
  /-- A caller that waited goes on. -/
  | resume (caller : Nat)

/-- The reading that is served without a run, with the run it is from. -/
def served (node : NodeState) (force : Bool) (interval now : Int) : Option (HostHealth × Nat) :=
  match node.cache with
  | some (time, health, run) =>
      if now - time < limitOf force health.available interval then some (health, run) else none
  | none => none

/-- The run of a node that has not ended. -/
def inFlight (s : State) (node : String) : Option Nat :=
  (s.nodes node).run.filter fun run => (s.tasks run).any fun task => task.ended.isNone

/-- What a caller is given by a step: the node, the reading and the run it is from. -/
def delivery (s : State) : Event → Option (String × HostHealth × Nat)
  | .load node force interval now =>
      (served (s.nodes node) force interval now).map fun found => (node, found)
  | .resume caller => do
      let run ← s.waiting[caller]?
      let task ← s.tasks run
      let ended ← task.ended
      let health ← ended.health
      pure (task.node, health, run)
  | _ => none

def State.setNode (s : State) (node : String) (value : NodeState) : State :=
  { s with nodes := Function.update s.nodes node value }

def State.setTask (s : State) (run : Nat) (task : Task) : State :=
  { s with tasks := Function.update s.tasks run (some task) }

@[simp] theorem State.setNode_self (s : State) (node : String) (value : NodeState) :
    (s.setNode node value).nodes node = value :=
  Function.update_self ..

theorem State.setNode_of_ne (s : State) {node other : String} (value : NodeState)
    (h : other ≠ node) : (s.setNode node value).nodes other = s.nodes other :=
  Function.update_of_ne h ..

@[simp] theorem State.setNode_tasks (s : State) (node : String) (value : NodeState) :
    (s.setNode node value).tasks = s.tasks := rfl

@[simp] theorem State.setTask_self (s : State) (run : Nat) (task : Task) :
    (s.setTask run task).tasks run = some task :=
  Function.update_self ..

theorem State.setTask_of_ne (s : State) {run other : Nat} (task : Task) (h : other ≠ run) :
    (s.setTask run task).tasks other = s.tasks other :=
  Function.update_of_ne h ..

@[simp] theorem State.setTask_nodes (s : State) (run : Nat) (task : Task) :
    (s.setTask run task).nodes = s.nodes := rfl

/-- The task in the place of one, or another one as it was. -/
theorem State.setTask_cases {s : State} {run other : Nat} {task found : Task}
    (h : (s.setTask run task).tasks other = some found) :
    other = run ∧ found = task ∨ other ≠ run ∧ s.tasks other = some found := by
  by_cases hother : other = run
  · subst hother
    rw [State.setTask_self] at h
    exact .inl ⟨rfl, (Option.some.inj h).symm⟩
  · rw [State.setTask_of_ne s task hother] at h
    exact .inr ⟨hother, h⟩

def step (s : State) : Event → Option State
  | .load node force interval now =>
      match served (s.nodes node) force interval now with
      | some _ => some s
      | none =>
          match inFlight s node with
          | some run => some { s with waiting := s.waiting ++ [run] }
          | none =>
              let started := (s.setTask s.newTask { node }).setNode node
                { s.nodes node with run := some s.newTask }
              some { started with
                newTask := s.newTask + 1
                waiting := s.waiting ++ [s.newTask] }
  | .begin run =>
      match s.tasks run with
      | some task =>
          if task.begun then none
          else
            some ((s.setTask run { task with begun := true }).setNode task.node
              { s.nodes task.node with report := none, lastBegun := some run })
      | none => none
  | .finish run answer now =>
      match s.tasks run with
      | some task =>
          if task.begun ∧ task.ended.isNone then
            let left := measured pkg now answer
            let node := s.nodes task.node
            some ((s.setTask run { task with ended := some ⟨now, left.1, left.2⟩ }).setNode task.node
              { node with
                report := left.1.or node.report
                cache := (left.2.map fun health => (now, health, run)).or node.cache
                lastEnded := some run })
          else none
      | none => none
  | .resume caller =>
      match s.waiting[caller]? with
      | some run =>
          if (s.tasks run).any fun task => task.ended.isSome then
            some { s with waiting := s.waiting.eraseIdx caller }
          else none
      | none => none

end Papaia.Host.NodeHealth
