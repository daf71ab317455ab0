/-
Module: Papaia.Auth.Session
Purpose: The session of a browser, the claims and tokens it holds, and what every request does with
  them before anything else: the account is read, and renewed when its token is about to expire.
Trusted boundary: the clock, in microseconds; what the provider answers; a session that is read back
  from its cookie is the one that was written
Main exports: Claims, TokenSet, Session, refreshSession, getCurrentUser, requireAdmin
-/
import Mathlib.Data.Option.Basic
import Mathlib.Data.List.Basic

namespace Papaia.Auth

/-! ### Claims and roles -/

structure Settings where
  managerAdminRole : String
  managerUserRole : String

/-- `OIDCClaims`; `authTime` is 0 when the token did not say. -/
structure Claims where
  sub : String
  preferredUsername : String
  roles : List String
  exp : Int
  authTime : Int := 0
deriving DecidableEq, Repr

def isAdmin (claims : Claims) (settings : Settings) : Bool :=
  claims.roles.contains settings.managerAdminRole

def isUser (claims : Claims) (settings : Settings) : Bool :=
  claims.roles.contains settings.managerUserRole

def hasManagerAccess (claims : Claims) (settings : Settings) : Bool :=
  isAdmin claims settings || isUser claims settings

/-! ### Tokens -/

/-- A refresh token as the provider knows it: whose it is, in which of the sign-ins it keeps open,
and how many came before it there. -/
structure RefreshToken where
  account : String
  session : Nat := 0
  serial : Nat := 0
deriving DecidableEq, Repr

/-- What the provider answers with; `accessExpiresAt` is 0 when it did not say. -/
structure TokenSet where
  claims : Claims
  refreshToken : Option RefreshToken
  accessToken : Option String := none
  accessExpiresAt : Int := 0
deriving DecidableEq, Repr

/-- The refresh token to hold after an answer: `token_set.refresh_token or refresh_token`. -/
def TokenSet.kept (tokenSet : TokenSet) (presented : RefreshToken) : RefreshToken :=
  tokenSet.refreshToken.getD presented

/-! ### The session -/

/-- The entry that ties a callback to the step-up it ends; the verifier stands for its digest. -/
structure Pending where
  verifier : String
  sub : String
  «at» : Int
  authTime : Int
  next : String
deriving DecidableEq, Repr

structure Session where
  user : Option Claims := none
  oidc : Option RefreshToken := none
  stepUpPending : Option Pending := none
  stepUpAt : Option Int := none
  postLoginRedirect : Option String := none
deriving DecidableEq, Repr

/-- `_apply_session`. -/
def applySession (session : Session) (user : Claims) (oidc : RefreshToken) : Session :=
  { session with user := some user, oidc := some oidc }

/-- A second, on a clock of microseconds. -/
def second : Int := 1000000

/-- `int(time.time())`. -/
def seconds (now : Int) : Int := now / second

structure HttpError where
  statusCode : Nat
  detail : String
  location : Option String := none
deriving DecidableEq, Repr

structure AuditEntry where
  user : String
  action : String
  target : String
  result : String
deriving DecidableEq, Repr

/-- How a request ends, with the session it leaves and what it wrote to the audit log. -/
structure Response (α : Type) where
  session : Session
  outcome : Except HttpError α
  audit : Option AuditEntry := none

/-! ### The account of a request -/

def refreshSkewSeconds : Int := 60

/-- `_refresh_session`, with what the provider answers to the refresh token of the session, or what
it answered to another request that presented the same token. -/
def refreshSession (session : Session) (answer : Option TokenSet) : Session × Option Claims :=
  match session.oidc, answer with
  | some refreshToken, some tokenSet =>
      (applySession session tokenSet.claims (tokenSet.kept refreshToken), some tokenSet.claims)
  | _, _ => (session, none)

/-- `get_current_user`; the clock is read before and after the renewal. -/
def getCurrentUser (session : Session) (now later : Int) (answer : Option TokenSet) :
    Response Claims :=
  match session.user with
  | none =>
      { session, outcome := .error ⟨401, "not authenticated", some "/auth/login"⟩ }
  | some claims =>
      if refreshSkewSeconds * second ≤ claims.exp * second - now then
        { session, outcome := .ok claims }
      else
        match refreshSession session answer with
        | (renewed, some refreshed) => { session := renewed, outcome := .ok refreshed }
        | (kept, none) =>
            if claims.exp * second < later then
              { session := {}, outcome := .error ⟨401, "session expired", some "/auth/login"⟩ }
            else { session := kept, outcome := .ok claims }

/-- `require_admin`. -/
def requireAdmin (settings : Settings) (session : Session) (now later : Int)
    (answer : Option TokenSet) : Response Claims :=
  let current := getCurrentUser session now later answer
  match current.outcome with
  | .error error => { current with outcome := .error error }
  | .ok claims =>
      if isAdmin claims settings then current
      else { current with outcome := .error { statusCode := 403, detail := "admin role required" } }

/-! ### What a renewal leaves -/

/-- The session a request goes on with: the same, none, or one renewed for the account whose refresh
token it held. -/
inductive Renewed (session : Session) : Session → Prop where
  | same : Renewed session session
  | cleared : Renewed session {}
  | renewed {refreshToken : RefreshToken} {tokenSet : TokenSet}
      (held : session.oidc = some refreshToken)
      (account : tokenSet.claims.sub = refreshToken.account)
      (rotated : (tokenSet.kept refreshToken).account = refreshToken.account) :
      Renewed session (applySession session tokenSet.claims (tokenSet.kept refreshToken))

/-- What the provider answers to a refresh token is about the account it belongs to. -/
def renews (session : Session) (answer : Option TokenSet) : Bool :=
  match session.oidc, answer with
  | some refreshToken, some tokenSet =>
      tokenSet.claims.sub = refreshToken.account &&
        (tokenSet.kept refreshToken).account = refreshToken.account
  | _, _ => true

theorem renewed_refreshSession {session : Session} {answer : Option TokenSet}
    (h : renews session answer = true) : Renewed session (refreshSession session answer).1 := by
  unfold refreshSession
  unfold renews at h
  split
  · next refreshToken tokenSet held =>
      simp only [held, Bool.and_eq_true, decide_eq_true_eq] at h
      exact .renewed held h.1 h.2
  · exact .same

/-- The account a renewal gives is the one in the session it leaves. -/
theorem refreshSession_user (session : Session) (answer : Option TokenSet) {claims : Claims}
    (h : (refreshSession session answer).2 = some claims) :
    (refreshSession session answer).1.user = some claims := by
  unfold refreshSession at h ⊢
  split at h
  · simpa [applySession] using h
  · cases h

theorem refreshSession_none (session : Session) (answer : Option TokenSet)
    (h : (refreshSession session answer).2 = none) : (refreshSession session answer).1 = session := by
  unfold refreshSession at h ⊢
  split at h
  · cases h
  · rfl

variable {session : Session} {now later : Int} {answer : Option TokenSet}

theorem renewed_getCurrentUser (now later : Int) (h : renews session answer = true) :
    Renewed session (getCurrentUser session now later answer).session := by
  have hrefresh := renewed_refreshSession h
  unfold getCurrentUser
  split
  · exact .same
  · split
    · exact .same
    · split
      · next hrenewed => simpa only [hrenewed] using hrefresh
      · next hkept =>
          split
          · exact .cleared
          · simpa only [hkept] using hrefresh

/-- The account of a request is the one in the session it goes on with. -/
theorem getCurrentUser_user {claims : Claims}
    (h : (getCurrentUser session now later answer).outcome = .ok claims) :
    (getCurrentUser session now later answer).session.user = some claims := by
  unfold getCurrentUser at h ⊢
  split at h
  · cases h
  · next held huser =>
      split at h
      · next hfresh =>
          rw [if_pos hfresh]
          cases h
          exact huser
      · next hfresh =>
          rw [if_neg hfresh]
          split at h
          · next renewed refreshed hrenewed =>
              cases h
              have := refreshSession_user session answer (congrArg Prod.snd hrenewed)
              simpa only [hrenewed] using this
          · next kept hkept =>
              split at h
              · cases h
              · next hexpired =>
                  have hsame := refreshSession_none session answer (congrArg Prod.snd hkept)
                  simp only [hkept] at hsame ⊢
                  rw [if_neg hexpired]
                  cases h
                  simpa only [hsame] using huser

theorem renewed_requireAdmin (settings : Settings) (now later : Int)
    (h : renews session answer = true) :
    Renewed session (requireAdmin settings session now later answer).session := by
  have hcurrent := renewed_getCurrentUser now later h
  unfold requireAdmin
  dsimp only
  split
  · exact hcurrent
  · split <;> exact hcurrent

theorem requireAdmin_ok {settings : Settings} {claims : Claims}
    (h : (requireAdmin settings session now later answer).outcome = .ok claims) :
    (requireAdmin settings session now later answer).session.user = some claims := by
  unfold requireAdmin at h ⊢
  dsimp only at h ⊢
  split at h
  · cases h
  · next held hheld =>
      split at h
      · next hadmin =>
          rw [if_pos hadmin]
          exact getCurrentUser_user h
      · cases h

end Papaia.Auth
