/-
Module: Papaia.Widgets.Runtime
Purpose: The readings of the dashboard's widgets: read once for all who ask meanwhile, remembered for
  the interval of their type, and kept to be shown for a while when the reads begin to fail.
Trusted boundary: the providers' answers and `parse_payload`; a clock that counts ticks
Main exports: WidgetType, WidgetType.interval, Key, WidgetResult, Answer, measured, failed, limit, State,
  Event, step
-/
import Papaia.Lib.Runs
import Papaia.Lib.SharedRead

namespace Papaia.Widgets

/-- A widget type, as far as its readings go. -/
structure WidgetType where
  id : String
  refreshSeconds : Int := 60
deriving DecidableEq, Repr

def minRefreshSeconds : Int := 15

def maxRefreshSeconds : Int := 3600

/-- The refresh interval, held between the floor and the ceiling. -/
def WidgetType.interval (widgetType : WidgetType) : Int :=
  min (max widgetType.refreshSeconds minRefreshSeconds) maxRefreshSeconds

/-- `READ_TIMEOUT_SECONDS` is the backstop of a read: when it is over, the read has failed. -/
def readTimeoutSeconds : Int := 40

def failureTtlSeconds : Int := 15

def staleMaxSeconds : Int := 900

/-- A type in a language: `f"{widget_type.id}:{current_locale()}"`; an id has no colon. -/
structure Key where
  widgetType : WidgetType
  locale : String
deriving DecidableEq, Repr

inductive Status where
  | ok
  | stale
  | unavailable
deriving DecidableEq, Repr

/-- Why a read has failed; the text of a failure is in the language of its key. -/
inductive Failure where
  | said (reason : String)
  | nothingToShow
  | notShowable (exc : String)
  | tookTooLong
  | couldNotBeRead
deriving DecidableEq, Repr

def Failure.msgid : Failure → String
  | .said reason => reason
  | .nothingToShow => "The widget has nothing to show."
  | .notShowable _ => "The widget produced a document the dashboard cannot show (%(exc)s)."
  | .tookTooLong => "Reading the widget took too long."
  | .couldNotBeRead => "The widget could not be read."

/-- What reading a widget came to. -/
structure WidgetResult (π : Type) where
  status : Status
  payload : Option π := none
  reason : Option Failure := none
  fetchedAt : Option Int := none
deriving DecidableEq, Repr

/-- How a provider ends: with a document, with `WidgetUnavailableError`, not in time, or with another
exception. -/
inductive Answer (δ : Type) where
  | document (doc : δ)
  | unavailable (exc : String)
  | timeout
  | raised
deriving DecidableEq, Repr

variable {δ π : Type}

/-- `_measure`, up to what it stores: the payload, or the failure. -/
def measured (parsePayload : δ → Except String π) : Answer δ → Except Failure π
  | .document doc => (parsePayload doc).mapError .notShowable
  | .unavailable exc => .error (if exc = "" then .nothingToShow else .said exc)
  | .timeout => .error .tookTooLong
  | .raised => .error .couldNotBeRead

/-- How many seconds a result is remembered. -/
def limit (key : Key) (result : WidgetResult π) : Int :=
  if result.status = .ok then key.widgetType.interval
  else min failureTtlSeconds key.widgetType.interval

/-- What is served of what is remembered, on a clock with so many ticks in a second. -/
def policy (second : Nat) : SharedRead.Policy Key Int (WidgetResult π) where
  serves := fun key _ result age => age < limit key result * second

/-- `_cache`, `_inflight` and the reads are shared; `good` is `_good`.  A read brings the time of the
request along that has begun it.  `answers` are the ends of the reads so far. -/
structure State (δ π : Type) where
  shared : SharedRead.State Key Int (WidgetResult π)
  good : Key → Option (Int × WidgetResult π) := fun _ => none
  answers : List (Nat × Answer δ) := []

/-- `stale` while the last good reading is young enough to show, else `unavailable`. -/
def failed (second : Nat) (clock : Int) (last : Option (Int × WidgetResult π)) (failure : Failure) :
    WidgetResult π :=
  (last.filter fun entry => clock - entry.1 ≤ staleMaxSeconds * second).elim
    { status := .unavailable, reason := some failure }
    fun entry => {
      status := .stale
      payload := entry.2.payload
      reason := some failure
      fetchedAt := entry.2.fetchedAt }

inductive Event (δ : Type) where
  /-- `read`, for a request of a moment. -/
  | ask (key : Key) (now : Int)
  /-- The provider of a read ends. -/
  | answer (i : Nat) (answer : Answer δ)
  /-- Who has waited goes on. -/
  | resume (c : Nat)
  | tick (d : Nat)

variable (second : Nat) (parsePayload : δ → Except String π)

/-- `_measure`, behind its await. -/
def State.measure (s : State δ π) (i : Nat) (read : SharedRead.Read Key Int (WidgetResult π))
    (answer : Answer δ) : State δ π :=
  let ended := { s with answers := s.answers ++ [(i, answer)] }
  match measured parsePayload answer with
  | .ok payload =>
      let result : WidgetResult π :=
        { status := .ok, payload := some payload, fetchedAt := some read.origin }
      { ended with
        shared := s.shared.finish (policy second) i read (some result)
        good := Function.update s.good read.key (some (s.shared.clock, result)) }
  | .error failure =>
      let result := failed second s.shared.clock (s.good read.key) failure
      { ended with shared := s.shared.finish (policy second) i read (some result) }

def step (s : State δ π) : Event δ → Option (State δ π)
  | .ask key now => some { s with shared := s.shared.ask (policy second) key now }
  | .answer i answer =>
      (s.shared.reads[i]?).bind fun read =>
        if read.ended.isSome then none else some (s.measure second parsePayload i read answer)
  | .resume c => (s.shared.resumeAt c).map fun shared => { s with shared := shared }
  | .tick d => some { s with shared := s.shared.tick d }

end Papaia.Widgets
