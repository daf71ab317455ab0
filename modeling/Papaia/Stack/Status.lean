/-
Module: Papaia.Stack.Status
Purpose: The readings the pages are built from: the snapshot of the stack, of one host or of every
  node, and the overview of the nodes, each looked up, queried and stored by calls in threads or
  tasks of their own while something else drops it.
Trusted boundary: the monotonic clock, in microseconds; what Docker and the core answer; a look-up
  and a store are one step each
Main exports: Snapshot.step, Overview.step
-/
import Papaia.Lib.Cached

namespace Papaia.Stack.Status

open Cached

def second : Int := 1000000

/-! ### The snapshot of the stack -/

namespace Snapshot

def cacheTtlSeconds : Int := 5
def statusTtlSeconds : Int := 30
def statusFailureTtlSeconds : Int := 15

variable {α : Type}

/-- A snapshot; none is the empty one, of a query that failed. -/
abbrev Answer (α : Type) := Reading (Option α)

/-- Where a call of `load_snapshot` is: before its look-up, past it on a single host since a time,
at the lock of the distributed reading or under it, at its query, or answered. -/
inductive Phase (α : Type) where
  | started
  | missed (now : Int)
  | waiting
  | locked
  | querying (stamp : Option Int) (begun : Nat)
  | answered (reading : Answer α)
deriving DecidableEq, Repr

structure Call (α : Type) where
  started : Nat
  phase : Phase α := .started
deriving DecidableEq, Repr

/-- `_CACHE`, `_STATUS_FAILED_AT` with the answer it stands for, whether `_STATUS_LOCK` is held, and
the calls. -/
structure State (α : Type) where
  cache : Slot (Option α) := none
  statusFailedAt : Slot (Option α) := none
  statusLock : Bool := false
  calls : List (Call α) := []
  clock : Int := 0
  history : History := {}
deriving DecidableEq, Repr

inductive Event (α : Type) where
  | call
  | lookUp (i : Nat) (now : Int) (distributed : Bool)
  | acquire (i : Nat) (now : Int)
  | query (i : Nat)
  | answer (i : Nat) (now : Int) (output : Option α)
  /-- `invalidate_snapshot` drops `_CACHE`. -/
  | invalidate
  /-- The same call drops `_STATUS_FAILED_AT` and returns. -/
  | invalidated (k : Nat)
deriving DecidableEq, Repr

def setPhase (s : State α) (i : Nat) (phase : Phase α) : State α :=
  { s with calls := s.calls.modify i fun call => { call with phase } }

/-- `load_snapshot` up to its query, or to the lock. -/
def lookUp (s : State α) (i : Nat) (now : Int) (distributed : Bool) : State α :=
  match s.cache.find (cacheTtlSeconds * second) now with
  | some reading => setPhase s i (.answered reading)
  | none => setPhase s i (if distributed then .waiting else .missed now)

/-- `_load_distributed` up to its query. -/
def acquire (s : State α) (i : Nat) (now : Int) : State α :=
  match s.cache.find (statusTtlSeconds * second) now with
  | some reading => setPhase s i (.answered reading)
  | none =>
      match s.statusFailedAt.find (statusFailureTtlSeconds * second) now with
      | some reading => setPhase s i (.answered reading)
      | none => { setPhase s i .locked with statusLock := true }

/-- The end of `load_snapshot` on a single host: it keeps the time of its look-up. -/
def stored (s : State α) (i : Nat) (stamp : Int) (begun : Nat) : Option α → State α
  | none => setPhase s i (.answered { begun, content := none })
  | some snapshot =>
      let reading : Answer α := { begun, content := some snapshot }
      { setPhase s i (.answered reading) with cache := some (stamp, reading) }

/-- The end of `_load_distributed`. -/
def storedDistributed (s : State α) (i : Nat) (begun : Nat) (now : Int) : Option α → State α
  | none =>
      let reading : Answer α := { begun, content := none }
      { setPhase s i (.answered reading) with
        statusFailedAt := some (now, reading), statusLock := false }
  | some snapshot =>
      let reading : Answer α := { begun, content := some snapshot }
      { setPhase s i (.answered reading) with
        statusFailedAt := none, cache := some (now, reading), statusLock := false }

/-- A step of the call `i`. -/
def stepCall (s : State α) (i : Nat) (phase : Phase α) : Event α → Option (State α)
  | .lookUp _ now distributed =>
      match phase with
      | .started => some (lookUp { s with clock := now } i now distributed)
      | _ => none
  | .acquire _ now =>
      match phase with
      | .waiting =>
          if s.statusLock then none else some (acquire { s with clock := now } i now)
      | _ => none
  | .query _ =>
      match phase with
      | .missed now => some (setPhase s i (.querying (some now) s.history.tick))
      | .locked => some (setPhase s i (.querying none s.history.tick))
      | _ => none
  | .answer _ now output =>
      match phase with
      | .querying (some stamp) begun => some (stored { s with clock := now } i stamp begun output)
      | .querying none begun =>
          some (storedDistributed { s with clock := now } i begun now output)
      | _ => none
  | _ => none

/-- The call that an event is a step of, and the time it is taken at. -/
def Event.target (s : State α) : Event α → Option (Nat × Int)
  | .lookUp i now _ | .acquire i now | .answer i now _ => some (i, now)
  | .query i => some (i, s.clock)
  | .call | .invalidate | .invalidated _ => none

def step (s : State α) (e : Event α) : Option (State α) :=
  match e with
  | .call =>
      some { s with
        calls := s.calls ++ [{ started := s.history.tick }], history := s.history.next }
  | .invalidate => some { s with cache := none, history := s.history.invalidate none }
  | .invalidated k =>
      if (s.history.invalidations[k]?.map Invalidation.returned) = some none then
        some { s with statusFailedAt := none, history := s.history.return k }
      else none
  | e =>
      (e.target s).bind fun (i, now) =>
        if s.clock ≤ now then
          s.calls[i]?.bind fun call =>
            (stepCall s i call.phase e).map fun after =>
              { after with history := s.history.next }
        else none

end Snapshot

/-! ### The overview of the nodes -/

namespace Overview

def overviewTtlSeconds : Int := 30

variable {ν : Type}

/-- Where a call of `overview` is. -/
inductive Phase (ν : Type) where
  | started (fresh : Bool)
  | missed
  | querying (begun : Nat)
  | answered (reading : Reading (List ν))
  /-- `NodeError`. -/
  | raised
deriving DecidableEq, Repr

structure Call (ν : Type) where
  started : Nat
  phase : Phase ν
deriving DecidableEq, Repr

structure State (ν : Type) where
  overviewCache : Slot (List ν) := none
  calls : List (Call ν) := []
  clock : Int := 0
  history : History := {}
deriving DecidableEq, Repr

inductive Event (ν : Type) where
  | call (fresh : Bool)
  | lookUp (i : Nat) (now : Int)
  | query (i : Nat)
  /-- The core's list with what every node answered, or none when it could not be read. -/
  | answer (i : Nat) (now : Int) (states : Option (List ν))
  /-- `invalidate_overview`. -/
  | invalidate
deriving DecidableEq, Repr

def setPhase (s : State ν) (i : Nat) (phase : Phase ν) : State ν :=
  { s with calls := s.calls.modify i fun call => { call with phase } }

/-- `overview` up to its query. -/
def lookUp (s : State ν) (i : Nat) (fresh : Bool) (now : Int) : State ν :=
  if fresh then setPhase s i .missed
  else
    match s.overviewCache.find (overviewTtlSeconds * second) now with
    | some reading => setPhase s i (.answered reading)
    | none => setPhase s i .missed

/-- The end of `overview`. -/
def stored (s : State ν) (i : Nat) (begun : Nat) (now : Int) : Option (List ν) → State ν
  | none => setPhase s i .raised
  | some states =>
      let reading : Reading (List ν) := { begun, content := states }
      { setPhase s i (.answered reading) with overviewCache := some (now, reading) }

def stepCall (s : State ν) (i : Nat) (phase : Phase ν) : Event ν → Option (State ν)
  | .lookUp _ now =>
      match phase with
      | .started fresh => some (lookUp { s with clock := now } i fresh now)
      | _ => none
  | .query _ =>
      match phase with
      | .missed => some (setPhase s i (.querying s.history.tick))
      | _ => none
  | .answer _ now states =>
      match phase with
      | .querying begun => some (stored { s with clock := now } i begun now states)
      | _ => none
  | _ => none

def Event.target (s : State ν) : Event ν → Option (Nat × Int)
  | .lookUp i now | .answer i now _ => some (i, now)
  | .query i => some (i, s.clock)
  | .call _ | .invalidate => none

def step (s : State ν) (e : Event ν) : Option (State ν) :=
  match e with
  | .call fresh =>
      some { s with
        calls := s.calls ++ [{ started := s.history.tick, phase := .started fresh }]
        history := s.history.next }
  | .invalidate =>
      some { s with
        overviewCache := none, history := s.history.invalidate (some s.history.tick) }
  | e =>
      (e.target s).bind fun (i, now) =>
        if s.clock ≤ now then
          s.calls[i]?.bind fun call =>
            (stepCall s i call.phase e).map fun after =>
              { after with history := s.history.next }
        else none

end Overview

end Papaia.Stack.Status
