/-
Module: Papaia.Notifications.Loop
Purpose: When the background task of the notifications begins its passes: an interval after the last
  one, or at once when a job has ended, with the interval read again while it waits.
Trusted boundary: a timer runs out at most some lag late; a pass takes as long as it takes
Main exports: Timing, Phase, Begun, JobEnd, State, Event, beginPass, turn, step
-/
import Mathlib.Data.Option.Basic

namespace Papaia.Notifications.Loop

/-- The delays of the service, and how late the event loop may be; all times are milliseconds. -/
structure Timing where
  firstPassDelay : Int := 60000
  settingsPoll : Int := 10000
  lag : Int := 0
  poll_nonneg : 0 ≤ settingsPoll := by decide
  lag_nonneg : 0 ≤ lag := by decide

/-- What the task is doing. -/
inductive Phase where
  | starting (due : Int)
  | passing (started : Int)
  /-- In `_wait_for_next`, until a job ends or the time is over. -/
  | waiting (started due : Int)
deriving DecidableEq, Repr

def Phase.isWaiting : Phase → Bool
  | .waiting _ _ => true
  | _ => false

/-- A pass that has begun: when, since when the task had nothing to do, the interval it found and
when that was set, and whether a job had ended. -/
structure Begun where
  clock : Int
  idle : Int
  interval : Int
  changed : Int
  woken : Bool
deriving DecidableEq, Repr

/-- A job that has ended: when, how many passes had begun, and whether the task was waiting. -/
structure JobEnd where
  clock : Int
  passes : Nat
  waiting : Bool
deriving DecidableEq, Repr

/-- `wake` is since when the event is set. -/
structure State where
  clock : Int
  interval : Int
  phase : Phase
  wake : Option Int := none
  idle : Int
  changed : Int
  begun : List Begun := []
  jobs : List JobEnd := []
deriving DecidableEq, Repr

/-- `start`. -/
def State.launched (t : Timing) (clock interval : Int) : State where
  clock := clock
  interval := interval
  phase := .starting (clock + t.firstPassDelay)
  idle := clock
  changed := clock

inductive Event where
  | tick (clock : Int)
  /-- The interval is set on the page. -/
  | configure (interval : Int)
  /-- `on_job_finished`. -/
  | jobEnds
  /-- The task runs, up to its next wait. -/
  | proceed
deriving DecidableEq, Repr

/-- The head of the loop in `_run`. -/
def beginPass (s : State) : State :=
  { s with
    phase := .passing s.clock
    wake := none
    begun := s.begun ++ [⟨s.clock, s.idle, s.interval, s.changed, s.wake.isSome⟩] }

/-- One round of the loop in `_wait_for_next`. -/
def turn (t : Timing) (s : State) (started : Int) : State :=
  if s.wake.isSome then beginPass s
  else
    let remaining := started + s.interval - s.clock
    if remaining ≤ 0 then beginPass s
    else { s with phase := .waiting started (s.clock + min remaining t.settingsPoll) }

/-- How long the task can have been left waiting. -/
def latest (t : Timing) (s : State) : Option Int :=
  match s.phase with
  | .starting due => some (due + t.lag)
  | .passing _ => none
  | .waiting _ due => some (s.wake.elim due (min due) + t.lag)

def step (t : Timing) (s : State) : Event → Option State
  | .tick clock =>
      if s.clock ≤ clock ∧ ∀ limit ∈ latest t s, clock ≤ limit then some { s with clock := clock }
      else none
  | .configure interval => some { s with interval := interval, changed := s.clock }
  | .jobEnds =>
      some { s with
        wake := some (s.wake.getD s.clock)
        jobs := s.jobs ++ [⟨s.clock, s.begun.length, s.phase.isWaiting⟩] }
  | .proceed =>
      match s.phase with
      | .starting due => if due ≤ s.clock then some (beginPass s) else none
      | .passing started => some (turn t { s with idle := s.clock } started)
      | .waiting started due =>
          if s.wake.isSome ∨ due ≤ s.clock then some (turn t s started) else none

end Papaia.Notifications.Loop
