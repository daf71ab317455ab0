/-
Module: Papaia.Auth.Renewal
Purpose: Requests that renew a session or ask for its access token, one step between two awaits at a
  time: two modules, each with its own locks and its own memory of what the provider answered.
Trusted boundary: the clock, in microseconds, does not go back; a refresh token stands for its
  digest; the provider rotates a refresh token when it is used; any request that waits for a free
  lock may be the next to take it
Main exports: Call, Memory, pruneRefreshState, prune, Task, State, Event, step
-/
import Papaia.Auth.Session
import Mathlib.Data.List.AList
import Mathlib.Logic.Function.Basic

namespace Papaia.Auth.Renewal

/-! ### What the process remembers -/

/-- What a request needs: a renewed session, from `_refresh_session`, or an access token, from
`user_access_token`. -/
inductive Call where
  | refreshSession
  | userAccessToken
deriving DecidableEq, Repr

/-- A `dict` by refresh token. -/
abbrev Table (α : Type) := AList fun _ : RefreshToken => α

/-- The session that a renewal gave. -/
structure Payload where
  user : Claims
  oidc : RefreshToken
deriving DecidableEq, Repr

/-- `_refresh_locks` and `_refresh_results` of the one module, `_locks` and `_cache` of the other;
a lock is a number. -/
structure Memory where
  refreshLocks : Table Nat := ∅
  refreshResults : Table (Int × Payload) := ∅
  locks : Table Nat := ∅
  cache : Table (Int × String) := ∅

/-- `pop` for each of some keys. -/
def popAll {α : Type} (table : Table α) (keys : List RefreshToken) : Table α :=
  keys.foldl (fun left key => left.erase key) table

def refreshResultTtlSeconds : Int := 60
def skewSeconds : Int := 30
def maxLocks : Nat := 512

/-- The keys of what passes a test. -/
def keysWhere {α : Type} (table : Table α) (test : α → Bool) : List RefreshToken :=
  (table.entries.filter fun entry => test entry.2).map Sigma.fst

/-- A table of locks without those that nothing is remembered for, once it has run away. -/
def sweep {α : Type} (locks : Table Nat) (live : Table α) : Table Nat :=
  if maxLocks < locks.keys.length then
    popAll locks (locks.keys.filter fun key => (live.lookup key).isNone)
  else locks

/-- `_prune_refresh_state`. -/
def pruneRefreshState (now : Int) (memory : Memory) : Memory :=
  let results := popAll memory.refreshResults
    (keysWhere memory.refreshResults fun result =>
      refreshResultTtlSeconds * second < now - result.1)
  { memory with refreshResults := results, refreshLocks := sweep memory.refreshLocks results }

/-- `_prune`. -/
def prune (now : Int) (memory : Memory) : Memory :=
  let cache := popAll memory.cache (keysWhere memory.cache fun cached => cached.1 ≤ now)
  { memory with cache, locks := sweep memory.locks cache }

/-- The access token that is remembered for a refresh token, unless it is about to expire. -/
def cachedToken (memory : Memory) (refreshToken : RefreshToken) (now : Int) : Option String :=
  match memory.cache.lookup refreshToken with
  | some (expiresAt, accessToken) =>
      if skewSeconds * second < expiresAt - now then some accessToken else none
  | none => none

/-- `setdefault`: the lock of a refresh token, a new one when there is none. -/
def lockOf (locks : Table Nat) (refreshToken : RefreshToken) (new : Nat) : Nat :=
  (locks.lookup refreshToken).getD new

def setDefault (locks : Table Nat) (refreshToken : RefreshToken) (new : Nat) : Table Nat :=
  match locks.lookup refreshToken with
  | some _ => locks
  | none => locks.insert refreshToken new

/-! ### Requests -/

/-- Where a request is: between two calls, at a lock, at the provider since a time, or refused. -/
inductive Phase where
  | ready
  | waiting (lock : Nat)
  | presenting (lock : Nat) (since : Int)
  | failed
deriving DecidableEq, Repr

/-- A request of a browser: the session it works on, what it still needs, and the access token it
was given. -/
structure Task where
  browser : Nat
  session : Session
  calls : List Call
  phase : Phase := .ready
  accessToken : Option String := none
deriving DecidableEq, Repr

/-- A request that got all it needed. -/
def Task.Succeeded (task : Task) : Prop :=
  task.calls = [] ∧ task.phase = .ready

instance (task : Task) : Decidable task.Succeeded :=
  inferInstanceAs (Decidable (_ ∧ _))

def Task.Ended (task : Task) : Prop :=
  task.Succeeded ∨ task.phase = .failed

/-- A refresh token that was presented to the provider. -/
structure Presented where
  call : Call
  token : RefreshToken
  «at» : Int
deriving DecidableEq, Repr

/-- The memory of the process, its requests, the locks that are held, and for each sign-in the
serial of the newest refresh token of the provider.  `presented` and `refused` are the history of
the run, the last first. -/
structure State where
  memory : Memory := {}
  tasks : List Task := []
  held : List Nat := []
  newLock : Nat := 0
  clock : Int := 0
  newest : Nat → Nat
  presented : List Presented := []
  refused : List RefreshToken := []

/-- A refresh token that was not used: the newest of its sign-in. -/
def Unused (s : State) (refreshToken : RefreshToken) : Prop :=
  refreshToken.serial = s.newest refreshToken.session

instance (s : State) (refreshToken : RefreshToken) : Decidable (Unused s refreshToken) :=
  inferInstanceAs (Decidable (_ = _))

/-! ### The steps -/

/-- A request goes on after its first call. -/
def Task.next (task : Task) : Task :=
  { task with calls := task.calls.tail, phase := .ready }

/-- A request that renewed its session. -/
def Task.apply (task : Task) (payload : Payload) : Task :=
  { task.next with session := applySession task.session payload.user payload.oidc }

/-- A request that `get_current_user` could not renew: it goes on while its claims are good. -/
def Task.unrenewed (task : Task) (now : Int) : Task :=
  match task.session.user with
  | none => { task with phase := .failed }
  | some claims =>
      if claims.exp * second < now then { task with session := {}, phase := .failed }
      else task.next

def setTask (s : State) (i : Nat) (task : Task) : State :=
  { s with tasks := s.tasks.set i task }

/-- A call up to its lock. -/
def enter (s : State) (i : Nat) (task : Task) (call : Call) (now : Int) : State :=
  match call, task.session.oidc with
  | .refreshSession, none => setTask s i (task.unrenewed now)
  | .refreshSession, some refreshToken =>
      let lock := lockOf s.memory.refreshLocks refreshToken s.newLock
      { setTask s i { task with phase := .waiting lock } with
        memory := { s.memory with
          refreshLocks := setDefault s.memory.refreshLocks refreshToken s.newLock }
        newLock := s.newLock + 1 }
  | .userAccessToken, none => setTask s i { task with phase := .failed }
  | .userAccessToken, some refreshToken =>
      match cachedToken s.memory refreshToken now with
      | some accessToken => setTask s i { task.next with accessToken := some accessToken }
      | none =>
          let lock := lockOf s.memory.locks refreshToken s.newLock
          { setTask s i { task with phase := .waiting lock } with
            memory := { s.memory with
              locks := setDefault s.memory.locks refreshToken s.newLock }
            newLock := s.newLock + 1 }

/-- The provider is asked, under the lock. -/
def present (s : State) (i : Nat) (task : Task) (call : Call) (refreshToken : RefreshToken)
    (lock : Nat) (now : Int) : State :=
  { setTask s i { task with phase := .presenting lock now } with
    held := lock :: s.held
    presented := { call, token := refreshToken, «at» := now } :: s.presented }

/-- A call under its lock, up to the provider. -/
def acquire (s : State) (i : Nat) (task : Task) (call : Call) (refreshToken : RefreshToken)
    (lock : Nat) (now : Int) : State :=
  match call with
  | .refreshSession =>
      let pruned := { s with memory := pruneRefreshState now s.memory }
      match pruned.memory.refreshResults.lookup refreshToken with
      | some (_, payload) => setTask pruned i (task.apply payload)
      | none => present pruned i task call refreshToken lock now
  | .userAccessToken =>
      let pruned := { s with memory := prune now s.memory }
      match cachedToken pruned.memory refreshToken now with
      | some accessToken => setTask pruned i { task.next with accessToken := some accessToken }
      | none => present pruned i task call refreshToken lock now

/-- What `_refresh_session` does with an answer. -/
def refreshed (s : State) (i : Nat) (task : Task) (refreshToken : RefreshToken) (since now : Int) :
    Option TokenSet → State
  | none => setTask s i (task.unrenewed now)
  | some tokenSet =>
      let payload : Payload :=
        { user := tokenSet.claims, oidc := tokenSet.kept refreshToken }
      { setTask s i (task.apply payload) with
        memory := { s.memory with
          refreshResults := s.memory.refreshResults.insert refreshToken (since, payload) } }

/-- What `user_access_token` does with an answer. -/
def accessed (s : State) (i : Nat) (task : Task) (refreshToken : RefreshToken) (since : Int)
    (answer : Option TokenSet) : State :=
  match answer.bind fun tokenSet => tokenSet.accessToken.map fun token => (tokenSet, token) with
  | none => setTask s i { task with phase := .failed }
  | some (tokenSet, accessToken) =>
      let rotated := tokenSet.kept refreshToken
      let expiresAt := if tokenSet.accessExpiresAt = 0 then since + 60 * second
        else tokenSet.accessExpiresAt
      { setTask s i { task.apply { user := tokenSet.claims, oidc := rotated } with
          accessToken := some accessToken } with
        memory := { s.memory with
          cache := (s.memory.cache.insert refreshToken (expiresAt, accessToken)).insert rotated
            (expiresAt, accessToken) } }

/-- What the provider does with a refresh token: it refuses it, or answers with the next one. -/
def provide (s : State) (refreshToken : RefreshToken) (answer : Option TokenSet) : Option State :=
  match answer with
  | none => some { s with refused := refreshToken :: s.refused }
  | some tokenSet =>
      if Unused s refreshToken ∧
          tokenSet.refreshToken = some { refreshToken with serial := refreshToken.serial + 1 } ∧
          tokenSet.claims.sub = refreshToken.account then
        some { s with
          newest := Function.update s.newest refreshToken.session (refreshToken.serial + 1) }
      else none

/-- What a request does between two awaits: it goes up to its lock, up to the provider under it, or
on with the answer. -/
inductive Move where
  | enter
  | acquire
  | answer (tokenSet : Option TokenSet)
deriving DecidableEq, Repr

inductive Event where
  /-- A request of a browser arrives with its cookie. -/
  | arrive (browser : Nat) (calls : List Call)
  | move (i : Nat) (now : Int) (move : Move)
deriving DecidableEq, Repr

/-- What a request may need: a renewed session, an access token, or both. -/
def needs : List (List Call) :=
  [[.refreshSession], [.userAccessToken], [.refreshSession, .userAccessToken]]

/-- One move of the request `i`, at a time. -/
def stepTask (s : State) (i : Nat) (task : Task) (now : Int) : Move → Option State
  | .enter =>
      match task.phase, task.calls with
      | .ready, call :: _ => some (enter s i task call now)
      | _, _ => none
  | .acquire =>
      match task.phase, task.calls, task.session.oidc with
      | .waiting lock, call :: _, some refreshToken =>
          if lock ∈ s.held then none
          else some (acquire s i task call refreshToken lock now)
      | _, _, _ => none
  | .answer answer =>
      match task.phase, task.calls, task.session.oidc with
      | .presenting lock since, call :: _, some refreshToken =>
          (provide s refreshToken answer).map fun provided =>
            let released := { provided with held := s.held.erase lock }
            match call with
            | .refreshSession => refreshed released i task refreshToken since now answer
            | .userAccessToken => accessed released i task refreshToken since answer
      | _, _, _ => none

/-- One step; a browser sends the same cookie with each of its requests. -/
def step (cookie : Nat → Session) (s : State) : Event → Option State
  | .arrive browser calls =>
      if calls ∈ needs then
        some { s with tasks := s.tasks ++ [{ browser, session := cookie browser, calls }] }
      else none
  | .move i now move =>
      if s.clock ≤ now then
        s.tasks[i]?.bind fun task => stepTask { s with clock := now } i task now move
      else none

end Papaia.Auth.Renewal
