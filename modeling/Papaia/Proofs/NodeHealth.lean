/-
Module: Papaia.Proofs.NodeHealth
Purpose: When the report of a node is the one behind its reading: one run of a node is in flight at a
  time, and no other run has begun since the one whose reading is returned.
Trusted boundary: none
Main exports: Sound, SingleFlight, Latest, Paired, node_reports_pair
-/
import Papaia.Host.NodeHealth
import Papaia.Lib.Runs
import Papaia.Proofs.Doctor

namespace Papaia.Host.NodeHealth

variable {pkg : DoctorPackage}

/-! ### The law -/

/-- At most one run of a node has not ended. -/
def SingleFlight (s : State) : Prop :=
  ∀ one other task task', s.tasks one = some task → s.tasks other = some task' →
    task.ended = none → task'.ended = none → task.node = task'.node → one = other

/-- A reading comes from a run of the node, and one that is served without a run is younger than its
limit. -/
def Measured (s : State) (e : Event) : Prop :=
  ∀ node health run, delivery s e = some (node, health, run) →
    ∃ task ended, s.tasks run = some task ∧ task.node = node ∧ task.ended = some ended ∧
      ended.health = some health ∧
        ∀ force interval now, e = .load node force interval now →
          now - ended.time < limitOf force health.available interval

/-- A reading is returned with the report of its run, and where the mail status finds no report the
run of the node that ended last had none. -/
def Paired (s : State) (e : Event) : Prop :=
  ∀ node health run, delivery s e = some (node, health, run) →
    ∃ task ended, s.tasks run = some task ∧ task.ended = some ended ∧
      (s.nodes node).report = ended.report ∧
        ∀ reason, runOnNode health (s.nodes node).report = .unavailable reason →
          ∃ last task' ended', (s.nodes node).lastEnded = some last ∧ s.tasks last = some task' ∧
            task'.ended = some ended' ∧ ended'.report = none

/-- No run of the node has begun since this one; or one has, and is still under way, and this one had
no report. -/
def Latest (s : State) (node : String) (run : Nat) : Prop :=
  (s.nodes node).lastBegun = some run ∨
    (s.nodes node).lastEnded = some run ∧
      ∃ task ended, s.tasks run = some task ∧ task.ended = some ended ∧ ended.report = none ∧
        ∀ later task', (s.nodes node).lastBegun = some later → s.tasks later = some task' →
          task'.ended = none

/-- A caller is given a reading of the latest run. -/
def Foreseen (s : State) : Event → Prop
  | .load node force interval now =>
      ∀ health run, served (s.nodes node) force interval now = some (health, run) →
        Latest s node run
  | .resume caller =>
      ∀ run task, s.waiting[caller]? = some run → s.tasks run = some task → Latest s task.node run
  | _ => True

/-! ### What every run keeps -/

structure Sound (s : State) : Prop where
  fresh : ∀ run task, s.tasks run = some task → run < s.newTask
  started : ∀ run task, s.tasks run = some task → task.ended ≠ none → task.begun = true
  flight : ∀ run task, s.tasks run = some task → task.ended = none →
    (s.nodes task.node).run = some run
  begun : ∀ run task, s.tasks run = some task → task.begun = true → task.ended = none →
    (s.nodes task.node).lastBegun = some run
  nothing : ∀ node, (s.nodes node).lastBegun = none → (s.nodes node).report = none
  last : ∀ node run, (s.nodes node).lastBegun = some run →
    ∃ task, s.tasks run = some task ∧ task.node = node ∧
      (s.nodes node).report = task.ended.bind Ended.report ∧
        (task.ended ≠ none → (s.nodes node).lastEnded = some run)
  cached : ∀ node time health run, (s.nodes node).cache = some (time, health, run) →
    ∃ task ended, s.tasks run = some task ∧ task.node = node ∧ task.ended = some ended ∧
      ended.time = time ∧ ended.health = some health

theorem sound_start : Sound start := by
  constructor <;> intros <;> simp_all [start]

theorem Sound.singleFlight {s : State} (h : Sound s) : SingleFlight s := by
  intro one other task task' hone hother hended hended' hnode
  have hrun := h.flight one task hone hended
  rw [hnode, h.flight other task' hother hended'] at hrun
  exact (Option.some.inj hrun).symm

theorem inFlight_eq_none {s : State} (h : Sound s) {node : String} (hnone : inFlight s node = none)
    {run : Nat} {task : Task} (htask : s.tasks run = some task) (hnode : task.node = node) :
    task.ended ≠ none := by
  intro hended
  have hrun := h.flight run task htask hended
  rw [hnode] at hrun
  simp [inFlight, hrun, htask, hended] at hnone

/-- A new task for a node without one. -/
theorem Sound.start {s : State} (h : Sound s) {node : String} (hnone : inFlight s node = none) :
    Sound { (s.setTask s.newTask { node }).setNode node { s.nodes node with run := some s.newTask }
      with newTask := s.newTask + 1 } := by
  have hold : ∀ {run : Nat} {task : Task}, s.tasks run = some task →
      (s.setTask s.newTask { node }).tasks run = some task := by
    intro run task htask
    rw [State.setTask_of_ne s _ (h.fresh run task htask).ne, htask]
  have hsame : ∀ other, ((s.setTask s.newTask { node }).setNode node
      { s.nodes node with run := some s.newTask }).nodes other =
        { s.nodes other with run := if other = node then some s.newTask else (s.nodes other).run } := by
    intro other
    by_cases hother : other = node
    · subst hother
      simp
    · rw [State.setNode_of_ne _ _ hother, if_neg hother]
      rfl
  constructor
  case fresh =>
    intro run task htask
    rcases State.setTask_cases htask with ⟨rfl, -⟩ | ⟨-, htask⟩
    · exact Nat.lt_succ_self _
    · exact (h.fresh run task htask).trans (Nat.lt_succ_self _)
  case started =>
    intro run task htask hended
    rcases State.setTask_cases htask with ⟨-, rfl⟩ | ⟨-, htask⟩
    · exact absurd rfl hended
    · exact h.started run task htask hended
  case flight =>
    intro run task htask hended
    rw [hsame]
    rcases State.setTask_cases htask with ⟨rfl, rfl⟩ | ⟨-, htask⟩
    · exact if_pos rfl
    · have hother : task.node ≠ node := fun hnode => inFlight_eq_none h hnone htask hnode hended
      exact (if_neg hother).trans (h.flight run task htask hended)
  case begun =>
    intro run task htask hbegun hended
    rw [hsame]
    rcases State.setTask_cases htask with ⟨-, rfl⟩ | ⟨-, htask⟩
    · cases hbegun
    · exact h.begun run task htask hbegun hended
  case nothing =>
    intro other hother
    rw [hsame] at hother ⊢
    exact h.nothing other hother
  case last =>
    intro other run hother
    rw [hsame] at hother ⊢
    obtain ⟨task, htask, hrest⟩ := h.last other run hother
    exact ⟨task, hold htask, hrest⟩
  case cached =>
    intro other time health run hother
    rw [hsame] at hother
    obtain ⟨task, ended, htask, hrest⟩ := h.cached other time health run hother
    exact ⟨task, ended, hold htask, hrest⟩

/-- What a change of a node leaves every node keeps. -/
theorem read_setNode {β : Type} (read : NodeState → β) {s : State} {node : String}
    {value : NodeState} (hkept : read value = read (s.nodes node)) (other : String) :
    read ((s.setNode node value).nodes other) = read (s.nodes other) := by
  by_cases hother : other = node
  · subst hother
    rw [State.setNode_self, hkept]
  · rw [State.setNode_of_ne _ _ hother]

section Change

variable {s : State} {run other : Nat} {task : Task} {node : String}

theorem Sound.fresh_change (h : Sound s) (htask : s.tasks run = some task) {changed found : Task}
    (hfound : (s.setTask run changed).tasks other = some found) : other < s.newTask := by
  rcases State.setTask_cases hfound with ⟨rfl, -⟩ | ⟨-, hfound⟩
  · exact h.fresh other task htask
  · exact h.fresh other found hfound

/-- The last task of another node is not the one that changes. -/
theorem Sound.last_change (h : Sound s) (htask : s.tasks run = some task) (changed : Task)
    (hnode : node ≠ task.node) (hlast : (s.nodes node).lastBegun = some other) :
    ∃ found, (s.setTask run changed).tasks other = some found ∧ found.node = node ∧
      (s.nodes node).report = found.ended.bind Ended.report ∧
        (found.ended ≠ none → (s.nodes node).lastEnded = some other) := by
  obtain ⟨found, hfound, hfoundNode, hrest⟩ := h.last node other hlast
  have hother : other ≠ run := by
    rintro rfl
    rw [htask] at hfound
    obtain rfl := Option.some.inj hfound
    exact hnode hfoundNode.symm
  exact ⟨found, (State.setTask_of_ne s _ hother).trans hfound, hfoundNode, hrest⟩

/-- A reading in the cache is of a task that has ended, not of the one that changes. -/
theorem Sound.cached_change (h : Sound s) (htask : s.tasks run = some task)
    (hopen : task.ended = none) (changed : Task) {time health}
    (hcache : (s.nodes node).cache = some (time, health, other)) :
    ∃ found ended, (s.setTask run changed).tasks other = some found ∧ found.node = node ∧
      found.ended = some ended ∧ ended.time = time ∧ ended.health = some health := by
  obtain ⟨found, ended, hfound, hfoundNode, hfoundEnded, hrest⟩ :=
    h.cached node time health other hcache
  have hother : other ≠ run := by
    rintro rfl
    rw [htask] at hfound
    obtain rfl := Option.some.inj hfound
    rw [hopen] at hfoundEnded
    cases hfoundEnded
  exact ⟨found, ended, (State.setTask_of_ne s _ hother).trans hfound, hfoundNode, hfoundEnded, hrest⟩

end Change

/-- A task begins: the report of its node goes. -/
theorem Sound.begin {s : State} (h : Sound s) {run : Nat} {task : Task}
    (htask : s.tasks run = some task) (hbegun : task.begun = false) :
    Sound ((s.setTask run { task with begun := true }).setNode task.node
      { s.nodes task.node with report := none, lastBegun := some run }) := by
  have hended : task.ended = none := by
    by_contra hended
    rw [h.started run task htask hended] at hbegun
    cases hbegun
  constructor
  case fresh =>
    intro other found hfound
    exact h.fresh_change htask hfound
  case started =>
    intro other found hfound hdone
    rcases State.setTask_cases hfound with ⟨-, rfl⟩ | ⟨-, hfound⟩
    · rfl
    · exact h.started other found hfound hdone
  case flight =>
    intro other found hfound hopen
    rw [read_setNode NodeState.run (by rfl)]
    rcases State.setTask_cases hfound with ⟨rfl, rfl⟩ | ⟨-, hfound⟩
    · exact h.flight other task htask hended
    · exact h.flight other found hfound hopen
  case begun =>
    intro other found hfound hfoundBegun hopen
    rcases State.setTask_cases hfound with ⟨rfl, rfl⟩ | ⟨hother, hfound⟩
    · rw [State.setNode_self]
    · have hnode : found.node ≠ task.node :=
        fun hnode => hother (h.singleFlight other run found task hfound htask hopen hended hnode)
      rw [State.setNode_of_ne _ _ hnode]
      exact h.begun other found hfound hfoundBegun hopen
  case nothing =>
    intro node hnothing
    by_cases hnode : node = task.node
    · subst hnode
      rw [State.setNode_self] at hnothing
      cases hnothing
    · rw [State.setNode_of_ne _ _ hnode] at hnothing ⊢
      exact h.nothing node hnothing
  case last =>
    intro node other hlast
    by_cases hnode : node = task.node
    · subst hnode
      rw [State.setNode_self] at hlast ⊢
      obtain rfl := Option.some.inj hlast
      refine ⟨_, State.setTask_self s run _, rfl, ?_, ?_⟩
      · simp [hended]
      · intro hdone
        exact absurd hended hdone
    · rw [State.setNode_of_ne _ _ hnode] at hlast ⊢
      exact h.last_change htask _ hnode hlast
  case cached =>
    intro node time health other hcached
    rw [read_setNode NodeState.cache (by rfl)] at hcached
    exact h.cached_change htask hended _ hcached

/-- A task ends: its report and its reading are stored together. -/
theorem Sound.finish {s : State} (h : Sound s) {run : Nat} {task : Task} (ended : Ended)
    (htask : s.tasks run = some task) (hbegun : task.begun = true) (hopen : task.ended = none) :
    Sound ((s.setTask run { task with ended := some ended }).setNode task.node
      { s.nodes task.node with
        report := ended.report.or (s.nodes task.node).report
        cache := (ended.health.map fun health => (ended.time, health, run)).or
          (s.nodes task.node).cache
        lastEnded := some run }) := by
  have hlastBegun := h.begun run task htask hbegun hopen
  have hreport : (s.nodes task.node).report = none := by
    obtain ⟨found, hfound, -, hreport, -⟩ := h.last task.node run hlastBegun
    rw [htask] at hfound
    obtain rfl := Option.some.inj hfound
    rw [hreport, hopen]
    rfl
  constructor
  case fresh =>
    intro other found hfound
    exact h.fresh_change htask hfound
  case started =>
    intro other found hfound hdone
    rcases State.setTask_cases hfound with ⟨-, rfl⟩ | ⟨-, hfound⟩
    · exact hbegun
    · exact h.started other found hfound hdone
  case flight =>
    intro other found hfound hfoundOpen
    rw [read_setNode NodeState.run (by rfl)]
    rcases State.setTask_cases hfound with ⟨-, rfl⟩ | ⟨-, hfound⟩
    · cases hfoundOpen
    · exact h.flight other found hfound hfoundOpen
  case begun =>
    intro other found hfound hfoundBegun hfoundOpen
    rw [read_setNode NodeState.lastBegun (by rfl)]
    rcases State.setTask_cases hfound with ⟨-, rfl⟩ | ⟨-, hfound⟩
    · cases hfoundOpen
    · exact h.begun other found hfound hfoundBegun hfoundOpen
  case nothing =>
    intro node hnothing
    by_cases hnode : node = task.node
    · subst hnode
      rw [State.setNode_self] at hnothing
      rw [hlastBegun] at hnothing
      cases hnothing
    · rw [State.setNode_of_ne _ _ hnode] at hnothing ⊢
      exact h.nothing node hnothing
  case last =>
    intro node other hlast
    by_cases hnode : node = task.node
    · subst hnode
      rw [State.setNode_self] at hlast ⊢
      obtain rfl := Option.some.inj (hlastBegun.symm.trans hlast)
      refine ⟨_, State.setTask_self s run _, rfl, ?_, fun _ => rfl⟩
      simp [hreport]
    · rw [State.setNode_of_ne _ _ hnode] at hlast ⊢
      exact h.last_change htask _ hnode hlast
  case cached =>
    intro node time health other hcached
    by_cases hnode : node = task.node
    · subst hnode
      rw [State.setNode_self] at hcached
      cases hhealth : ended.health with
      | none =>
          simp only [hhealth, Option.map_none, Option.none_or] at hcached
          exact h.cached_change htask hopen _ hcached
      | some reading =>
          simp only [hhealth, Option.map_some, Option.some_or, Option.some.injEq,
            Prod.mk.injEq] at hcached
          obtain ⟨rfl, rfl, rfl⟩ := hcached
          exact ⟨_, ended, State.setTask_self s run _, rfl, rfl, rfl, hhealth⟩
    · rw [State.setNode_of_ne _ _ hnode] at hcached
      exact h.cached_change htask hopen _ hcached

theorem Sound.waiting {s : State} (h : Sound s) (waiting : List Nat) :
    Sound { s with waiting := waiting } :=
  ⟨h.fresh, h.started, h.flight, h.begun, h.nothing, h.last, h.cached⟩

theorem sound_step {s s' : State} {e : Event} (h : Sound s) (hstep : step pkg s e = some s') :
    Sound s' := by
  cases e with
  | load node force interval now =>
      unfold step at hstep
      dsimp only at hstep
      split at hstep
      next =>
        obtain rfl := Option.some.inj hstep
        exact h
      next =>
        split at hstep
        next =>
          obtain rfl := Option.some.inj hstep
          exact h.waiting _
        next hnone =>
          obtain rfl := Option.some.inj hstep
          exact (h.start hnone).waiting _
  | begin run =>
      unfold step at hstep
      dsimp only at hstep
      split at hstep
      next task htask =>
        split at hstep
        next => cases hstep
        next hbegun =>
          obtain rfl := Option.some.inj hstep
          exact h.begin htask (by simpa using hbegun)
      next => cases hstep
  | finish run answer now =>
      unfold step at hstep
      dsimp only at hstep
      split at hstep
      next task htask =>
        split at hstep
        next hopen =>
          obtain rfl := Option.some.inj hstep
          exact h.finish ⟨now, (measured pkg now answer).1, (measured pkg now answer).2⟩ htask
            hopen.1 (by simpa using hopen.2)
        next => cases hstep
      next => cases hstep
  | resume caller =>
      unfold step at hstep
      dsimp only at hstep
      split at hstep
      next run hrun =>
        split at hstep
        next =>
          obtain rfl := Option.some.inj hstep
          exact h.waiting _
        next => cases hstep
      next => cases hstep

theorem sound_of_reaches {s : State}
    (h : Runs.Reaches (step pkg) (fun _ _ => True) start s) : Sound s :=
  h.invariant sound_start fun _ _ _ hs _ hstep => sound_step hs hstep

/-! ### What callers are given -/

theorem served_eq_some {node : NodeState} {force : Bool} {interval now : Int} {health : HostHealth}
    {run : Nat} (h : served node force interval now = some (health, run)) :
    ∃ time, node.cache = some (time, health, run) ∧
      now - time < limitOf force health.available interval := by
  unfold served at h
  split at h
  next time cached other hcache =>
    split at h
    next hyoung =>
      obtain ⟨rfl, rfl⟩ := Prod.mk.inj (Option.some.inj h)
      exact ⟨time, hcache, hyoung⟩
    next => cases h
  next => cases h

/-- A caller that waited is given what its task ended with. -/
theorem delivery_resume {s : State} {caller : Nat} {node : String} {health : HostHealth} {run : Nat}
    (h : delivery s (.resume caller) = some (node, health, run)) :
    ∃ task ended, s.waiting[caller]? = some run ∧ s.tasks run = some task ∧ task.node = node ∧
      task.ended = some ended ∧ ended.health = some health := by
  unfold delivery at h
  obtain ⟨found, hfound, h⟩ := Option.bind_eq_some_iff.1 h
  obtain ⟨task, htask, h⟩ := Option.bind_eq_some_iff.1 h
  obtain ⟨ended, hended, h⟩ := Option.bind_eq_some_iff.1 h
  obtain ⟨reading, hreading, h⟩ := Option.bind_eq_some_iff.1 h
  obtain ⟨rfl, rfl, rfl⟩ : task.node = node ∧ reading = health ∧ found = run := by simpa using h
  exact ⟨task, ended, hfound, htask, rfl, hended, hreading⟩

theorem Sound.measured {s : State} (h : Sound s) (e : Event) : Measured s e := by
  intro node health run hdelivery
  cases e with
  | load other force interval now =>
      obtain ⟨found, hfound, hsame⟩ := Option.map_eq_some_iff.1 hdelivery
      obtain ⟨rfl, rfl⟩ := Prod.mk.inj hsame
      obtain ⟨time, hcache, hyoung⟩ := served_eq_some hfound
      obtain ⟨task, ended, htask, hnode, hended, rfl, hhealth⟩ := h.cached other time health run hcache
      refine ⟨task, ended, htask, hnode, hended, hhealth, ?_⟩
      intro force' interval' now' hload
      obtain ⟨-, rfl, rfl, rfl⟩ := Event.load.inj hload
      exact hyoung
  | resume caller =>
      obtain ⟨task, ended, -, htask, hnode, hended, hhealth⟩ := delivery_resume hdelivery
      exact ⟨task, ended, htask, hnode, hended, hhealth, nofun⟩
  | begin run => cases hdelivery
  | finish run answer now => cases hdelivery

/-- The report that is read with a reading of the latest run. -/
theorem Sound.report_of_latest {s : State} (h : Sound s) {node : String} {run : Nat} {task : Task}
    {ended : Ended} (htask : s.tasks run = some task) (hended : task.ended = some ended)
    (hlatest : Latest s node run) :
    (s.nodes node).report = ended.report ∧ (s.nodes node).lastEnded = some run := by
  rcases hlatest with hlast | ⟨hlastEnded, found, ended', hfound, hended', hnone, hopen⟩
  · obtain ⟨found, hfound, -, hreport, hlastEnded⟩ := h.last node run hlast
    rw [htask] at hfound
    obtain rfl := Option.some.inj hfound
    rw [hended] at hreport
    exact ⟨hreport, hlastEnded (by rw [hended]; exact Option.some_ne_none _)⟩
  · rw [htask] at hfound
    obtain rfl := Option.some.inj hfound
    rw [hended] at hended'
    obtain rfl := Option.some.inj hended'
    refine ⟨?_, hlastEnded⟩
    cases hlast : (s.nodes node).lastBegun with
    | none => rw [h.nothing node hlast, hnone]
    | some later =>
        obtain ⟨other, hother, -, hreport, -⟩ := h.last node later hlast
        rw [hreport, hopen later other hlast hother, hnone]
        rfl

theorem runOnNode_unavailable {health : HostHealth} {report : Option String} {reason : String}
    (h : runOnNode health report = .unavailable reason) : report = none := by
  cases report with
  | none => rfl
  | some text => cases h

theorem Sound.paired {s : State} (h : Sound s) {e : Event} (hforeseen : Foreseen s e) :
    Paired s e := by
  intro node health run hdelivery
  obtain ⟨task, ended, htask, hnode, hended, -, -⟩ := h.measured e node health run hdelivery
  have hlatest : Latest s node run := by
    cases e with
    | load other force interval now =>
        obtain ⟨found, hfound, hsame⟩ := Option.map_eq_some_iff.1 hdelivery
        obtain ⟨rfl, rfl⟩ := Prod.mk.inj hsame
        exact hforeseen health run hfound
    | resume caller =>
        obtain ⟨found, -, hwaiting, hfound, rfl, -, -⟩ := delivery_resume hdelivery
        exact hforeseen run found hwaiting hfound
    | begin run => cases hdelivery
    | finish run answer now => cases hdelivery
  obtain ⟨hreport, hlastEnded⟩ := h.report_of_latest htask hended hlatest
  refine ⟨task, ended, htask, hended, hreport, ?_⟩
  intro reason hmail
  have hnone := runOnNode_unavailable hmail
  rw [hreport] at hnone
  exact ⟨run, task, ended, hlastEnded, htask, hended, hnone⟩

/-- In every run at most one run of a node is in flight, and a reading that is served without one is
younger than its limit; and whoever is given a reading of the latest run reads the report that it
was parsed from. -/
theorem node_reports_pair {s : State} (h : Runs.Reaches (step pkg) (fun _ _ => True) start s) :
    SingleFlight s ∧ ∀ e, Measured s e ∧ (Foreseen s e → Paired s e) := by
  have hsound := sound_of_reaches h
  exact ⟨hsound.singleFlight, fun e => ⟨hsound.measured e, hsound.paired⟩⟩

/-! ### A reader beside a run -/

/-- The Host page asks a node, which answers with a report. -/
def answered : List Event :=
  [.load "b" false (60 * second) 0, .begin 0, .finish 0 (.exited 0 clockAnswer "") 0]

/-- The state after some steps. -/
def after (events : List Event) : State :=
  (Runs.replay (step clockPackage) start events).getD start

theorem reaches_after {events : List Event}
    (h : (Runs.replay (step clockPackage) start events).isSome = true) :
    Runs.Reaches (step clockPackage) (fun _ _ => True) start (after events) :=
  Runs.reaches_of_isSome start (Runs.permits_all start events) h

/-- The page goes on with the reading of its own run. -/
theorem node_reports_pair_answered : Paired (after answered) (.resume 0) := by
  have hreached := reaches_after (show (Runs.replay (step clockPackage) start answered).isSome = true
    by decide)
  apply ((node_reports_pair hreached).2 (.resume 0)).2
  intro run task hwaiting htask
  have hrun : run = 0 := by
    have hfirst : (after answered).waiting[0]? = some 0 := by decide
    exact Option.some.inj (hwaiting.symm.trans hfirst)
  subst hrun
  have hnode : ((after answered).tasks 0).map Task.node = some "b" := by decide
  rw [htask] at hnode
  rw [Option.some.inj hnode]
  left
  decide

/-- Twenty seconds later somebody presses "Re-check", and the run of it begins. -/
def rechecked : List Event :=
  answered ++ [.load "b" true (60 * second) (20 * second), .begin 1]

/-- While that run is under way the mail page is served the reading of the first one, and is told
that the node gave no readable answer. -/
theorem recheck_takes_report :
    ¬ ∀ s, Runs.Reaches (step clockPackage) (fun _ _ => True) start s → ∀ e, Paired s e := by
  intro h
  have hreached := reaches_after (show (Runs.replay (step clockPackage) start rechecked).isSome = true
    by decide)
  have hpaired := h _ hreached (.load "b" false (60 * second) (21 * second))
  have hserved : (delivery (after rechecked) (.load "b" false (60 * second) (21 * second))).isSome =
      true := by decide
  obtain ⟨⟨node, health, run⟩, hdelivery⟩ := Option.isSome_iff_exists.1 hserved
  have hfrom : (delivery (after rechecked) (.load "b" false (60 * second) (21 * second))).map
      (fun given => (given.1, given.2.2)) = some ("b", 0) := by decide
  rw [hdelivery] at hfrom
  obtain ⟨rfl, rfl⟩ := Prod.mk.inj (Option.some.inj hfrom)
  obtain ⟨task, ended, htask, hended, hreport, -⟩ := hpaired _ _ _ hdelivery
  have hread : ((after rechecked).nodes "b").report = none := by decide
  have hwas : (((after rechecked).tasks 0).bind Task.ended).bind Ended.report = some clockText := by
    decide
  rw [htask] at hwas
  rw [hread] at hreport
  simp [hended, ← hreport] at hwas

end Papaia.Host.NodeHealth
