/-
Module: Papaia.Auth.SignOut
Purpose: A session from its sign-in to its sign-out: the renewals and access-token requests that come
  one after another with any of its cookies, and what the sign-out takes back of what the process
  remembers.
Trusted boundary: the clock, in microseconds, does not go back; a refresh token stands for its
  digest; the provider keeps a refresh token in its sign-in; whether the CSRF token of a form is good
Main exports: forget, logout, userAccessToken, refreshSession, State, Event, step
-/
import Papaia.Auth.Renewal

namespace Papaia.Auth.SignOut

open Renewal

/-! ### Signing out -/

/-- `forget`: the token under this key goes, and every entry that holds the same one. -/
def forget (memory : Memory) (refreshToken : RefreshToken) : Memory :=
  let cache := memory.cache.erase refreshToken
  { memory with
    locks := memory.locks.erase refreshToken
    cache := match memory.cache.lookup refreshToken with
      | some (_, accessToken) => popAll cache (keysWhere cache fun cached => cached.2 = accessToken)
      | none => cache }

/-- `logout`: the memory and the session it leaves. -/
def logout (memory : Memory) (session : Session) (verified : Bool) : Memory × Session :=
  match session.user, session.oidc with
  | none, none => (memory, {})
  | _, refreshToken =>
      if verified then
        match refreshToken with
        | some refreshToken => (forget memory refreshToken, {})
        | none => (memory, {})
      else (memory, session)

/-! ### What a request is given -/

/-- An access token, or the session that a renewal gave. -/
inductive Given where
  | accessToken (token : String)
  | payload (payload : Payload)
deriving DecidableEq, Repr

/-- How a request ends: the memory and the session it leaves, and what it was given. -/
structure Outcome where
  memory : Memory
  session : Session
  given : Option Given

/-- `user_access_token`; the clock is read before the lock and under it. -/
def userAccessToken (memory : Memory) (session : Session) (newLock : Nat) (first now : Int)
    (answer : Option TokenSet) : Outcome :=
  match session.oidc with
  | none => { memory, session, given := none }
  | some refreshToken =>
      match cachedToken memory refreshToken first with
      | some accessToken => { memory, session, given := some (.accessToken accessToken) }
      | none =>
          let pruned := prune now
            { memory with locks := setDefault memory.locks refreshToken newLock }
          match cachedToken pruned refreshToken now with
          | some accessToken =>
              { memory := pruned, session, given := some (.accessToken accessToken) }
          | none =>
              match answer.bind fun tokenSet =>
                  tokenSet.accessToken.map fun token => (tokenSet, token) with
              | none => { memory := pruned, session, given := none }
              | some (tokenSet, accessToken) =>
                  let rotated := tokenSet.kept refreshToken
                  let expiresAt := if tokenSet.accessExpiresAt = 0 then now + 60 * second
                    else tokenSet.accessExpiresAt
                  { memory := { pruned with
                      cache := (pruned.cache.insert refreshToken (expiresAt, accessToken)).insert
                        rotated (expiresAt, accessToken) }
                    session := applySession session tokenSet.claims rotated
                    given := some (.accessToken accessToken) }

/-- `_refresh_session`. -/
def refreshSession (memory : Memory) (session : Session) (newLock : Nat) (now : Int)
    (answer : Option TokenSet) : Outcome :=
  match session.oidc with
  | none => { memory, session, given := none }
  | some refreshToken =>
      let pruned := pruneRefreshState now
        { memory with refreshLocks := setDefault memory.refreshLocks refreshToken newLock }
      match pruned.refreshResults.lookup refreshToken with
      | some (_, payload) =>
          { memory := pruned, session := applySession session payload.user payload.oidc,
            given := some (.payload payload) }
      | none =>
          match answer with
          | none => { memory := pruned, session, given := none }
          | some tokenSet =>
              let payload : Payload :=
                { user := tokenSet.claims, oidc := tokenSet.kept refreshToken }
              { memory := { pruned with
                  refreshResults := pruned.refreshResults.insert refreshToken (now, payload) }
                session := applySession session payload.user payload.oidc
                given := some (.payload payload) }

def respond (memory : Memory) (session : Session) (newLock : Nat) (first now : Int)
    (answer : Option TokenSet) : Call → Outcome
  | .refreshSession => refreshSession memory session newLock now answer
  | .userAccessToken => userAccessToken memory session newLock first now answer

/-! ### The run of a process -/

/-- What the logout endpoint of the provider did. -/
inductive EndSession where
  | ended
  | noEndpoint
  | failed
deriving DecidableEq, Repr

/-- The memory of the process, the refresh tokens that cookies ever carried, and the sign-ins that
the provider ended. -/
structure State where
  memory : Memory := {}
  newLock : Nat := 0
  clock : Int := 0
  cookies : List RefreshToken := []
  ended : List Nat := []

inductive Event where
  /-- A sign-in ends with its first cookie. -/
  | signIn (refreshToken : RefreshToken) (now : Int)
  | request (call : Call) (session : Session) (first now : Int) (answer : Option TokenSet)
  | logout (session : Session) (verified : Bool) (endSession : EndSession) (now : Int)
deriving DecidableEq, Repr

/-- A session that some cookie carried. -/
def Carried (s : State) (session : Session) : Prop :=
  ∀ refreshToken ∈ session.oidc, refreshToken ∈ s.cookies

/-- What the provider may answer: it refuses the refresh tokens of a sign-in that it ended, and what
it answers with belongs to the same sign-in. -/
def Answers (s : State) (session : Session) (answer : Option TokenSet) : Prop :=
  ∀ refreshToken ∈ session.oidc, ∀ tokenSet ∈ answer, refreshToken.session ∉ s.ended ∧
    (tokenSet.kept refreshToken).session = refreshToken.session

instance (s : State) (session : Session) : Decidable (Carried s session) :=
  inferInstanceAs (Decidable (∀ refreshToken ∈ session.oidc, refreshToken ∈ s.cookies))

instance (s : State) (session : Session) (answer : Option TokenSet) :
    Decidable (Answers s session answer) :=
  inferInstanceAs (Decidable (∀ refreshToken ∈ session.oidc, ∀ tokenSet ∈ answer,
    refreshToken.session ∉ s.ended ∧ (tokenSet.kept refreshToken).session = refreshToken.session))

def step (s : State) : Event → Option State
  | .signIn refreshToken now =>
      if s.clock ≤ now ∧ refreshToken.session ∉ s.ended then
        some { s with clock := now, cookies := refreshToken :: s.cookies }
      else none
  | .request call session first now answer =>
      if s.clock ≤ first ∧ first ≤ now ∧ Carried s session ∧ Answers s session answer then
        let outcome := respond s.memory session s.newLock first now answer call
        some { s with
          memory := outcome.memory
          newLock := s.newLock + 1
          clock := now
          cookies := outcome.session.oidc.toList ++ s.cookies }
      else none
  | .logout session verified endSession now =>
      if s.clock ≤ now ∧ Carried s session then
        some { s with
          memory := (logout s.memory session verified).1
          clock := now
          ended := if verified ∧ endSession = .ended then
              session.oidc.toList.map RefreshToken.session ++ s.ended
            else s.ended }
      else none

end Papaia.Auth.SignOut
