/-
Module: Papaia.Auth.StepUp
Purpose: Signing in and stepping up: the requests of one browser session, and the provider that
  answers them out of a sign-in of its own, which any client may have renewed.
Trusted boundary: the clock, in microseconds; a PKCE verifier is new and stands for its digest and
  for the state it is signed into; the provider answers a code once, about the account of the
  sign-in it was issued for and with the time of that sign-in or none
Main exports: stepUp, finishStepUp, callback, requireStepUp, logout, State, Event, step
-/
import Papaia.Auth.Session

namespace Papaia.Auth

/-! ### The requests -/

/-- `_safe_next`; after these checks `urlsplit` finds neither a scheme nor a host. -/
def safeNext (raw : String) : Option String :=
  match raw.toList with
  | '/' :: rest =>
      if rest.head? = some '/' then none
      else if rest.any fun ch => ['\\', '\x00', '\n', '\r', '\t'].contains ch then none
      else some raw
  | _ => none

/-- `login`: the session remembers where to go back to. -/
def login (session : Session) (next : String) : Session :=
  match safeNext next with
  | some dest => { session with postLoginRedirect := some dest }
  | none => session

/-- `step_up`: the account that may step up and the session that waits for its callback. -/
def stepUp (settings : Settings) (session : Session) (now later : Int) (answer : Option TokenSet)
    (verifier next : String) : Response Claims :=
  let response := requireAdmin settings session now later answer
  match response.outcome with
  | .error _ => response
  | .ok user =>
      let pending : Pending :=
        { verifier, sub := user.sub, «at» := seconds later, authTime := user.authTime
          next := (safeNext next).getD "/" }
      { response with session := { response.session with stepUpPending := some pending } }

def stepUpSeconds : Int := 300
def stepUpSkewSeconds : Int := 5

/-- Whether the time of a sign-in shows that it was made for the step-up. -/
def Pending.isFresh (pending : Pending) (authTime : Int) : Bool :=
  if pending.authTime ≠ 0 then pending.authTime < authTime
  else pending.at - stepUpSkewSeconds ≤ authTime

/-- `_finish_step_up`: the path to return to when the callback ends a step-up. -/
def finishStepUp (session : Session) (verifier : String) (claims : Claims) (later : Int) :
    Response (Option String) :=
  match session.stepUpPending.filter fun pending => pending.verifier = verifier with
  | none => { session := { session with stepUpAt := none }, outcome := .ok none }
  | some pending =>
      let ended := { session with stepUpPending := none }
      if claims.sub ≠ pending.sub || !pending.isFresh claims.authTime then
        { session := ended
          outcome := .error
            { statusCode := 403
              detail := "The sign-in could not be confirmed. Sign in again and retry." } }
      else
        { session := { ended with stepUpAt := some (seconds later) }
          outcome := .ok (some pending.next) }

/-- The parameters of a callback; `verifier` is the one of a state whose signature holds. -/
structure Query where
  error : String := ""
  verifier : Option String
  code : String
deriving DecidableEq, Repr

/-- Where a callback sends the browser. -/
inductive Landing where
  | steppedUp (path : String)
  | signedIn (path : String)
deriving DecidableEq, Repr

/-- The session once the claims of a callback are in it. -/
def signedIn (session : Session) (tokenSet : TokenSet) : Session :=
  { session with
    user := some tokenSet.claims
    oidc := tokenSet.refreshToken.or session.oidc }

/-- `callback`, with what the provider answers to the code. -/
def callback (settings : Settings) (session : Session) (query : Query)
    (answer : Option TokenSet) (later : Int) : Response Landing :=
  let refuse := fun (statusCode : Nat) (detail : String) =>
    ({ session, outcome := .error { statusCode, detail } } : Response Landing)
  if query.error ≠ "" then refuse 400 ("authentication error: " ++ query.error)
  else
    match query.verifier with
    | none => refuse 400 "missing OIDC session state — please start login again"
    | some verifier =>
        if query.code = "" then refuse 400 "missing authorization code"
        else
          match answer with
          | none => refuse 401 "authentication failed"
          | some tokenSet =>
              if !hasManagerAccess tokenSet.claims settings then
                refuse 403 "your account does not have a role granting access to this application"
              else
                let finished := finishStepUp session verifier tokenSet.claims later
                match finished.outcome with
                | .error error => { session := finished.session, outcome := .error error }
                | .ok (some path) =>
                    { session := signedIn finished.session tokenSet
                      outcome := .ok (.steppedUp path) }
                | .ok none =>
                    let landed := signedIn finished.session tokenSet
                    let dest := (landed.postLoginRedirect.filter fun dest =>
                      dest.toList.head? = some '/').getD "/"
                    { session := { landed with postLoginRedirect := none }
                      outcome := .ok (.signedIn dest) }

/-- `stepped_up`. -/
def steppedUp (session : Session) (now : Int) : Bool :=
  match session.stepUpAt with
  | none => false
  | some «at» => 0 ≤ now - «at» * second && now - «at» * second < stepUpSeconds * second

/-- `require_step_up`. -/
def requireStepUp (settings : Settings) (session : Session) (now later : Int)
    (answer : Option TokenSet) (path : String) : Response Claims :=
  let response := requireAdmin settings session now later answer
  match response.outcome with
  | .error _ => response
  | .ok user =>
      if steppedUp response.session later then response
      else
        { response with
          outcome := .error
            { statusCode := 403
              detail := "Confirm your sign-in first; this action needs a fresh one." }
          audit := some
            { user := user.preferredUsername, action := "step-up.refused", target := path
              result := "failed" } }

/-- `logout`: a session that holds an account ends only for a request that proves its origin. -/
def logout (session : Session) (csrf : Bool) : Session :=
  if session.user.isNone && session.oidc.isNone then {}
  else if csrf then {}
  else session

/-! ### The provider and the history -/

/-- A real sign-in at the provider. -/
structure SignIn where
  account : String
  authTime : Nat
  tick : Nat
deriving DecidableEq, Repr

/-- A code the provider issued for the challenge of a verifier, from the sign-in it has open. -/
structure Code where
  code : String
  verifier : String
  signIn : SignIn
deriving DecidableEq, Repr

/-- A step-up that an account requested. -/
structure Asked where
  verifier : String
  sub : String
  tick : Nat
deriving DecidableEq, Repr

/-- A callback that confirmed a step-up. -/
structure Confirmed where
  verifier : String
  «at» : Int
  tick : Nat
deriving DecidableEq, Repr

/-- The session, the sign-in that the provider has open with the codes it issued, and the verifiers
in use.  `asked`, `signIns` and `confirmed` are the history of the run, and `tick` counts its
steps. -/
structure State where
  session : Session := {}
  provider : Option SignIn := none
  codes : List Code := []
  issued : List String := []
  tick : Nat := 0
  asked : List Asked := []
  signIns : List SignIn := []
  confirmed : List Confirmed := []
deriving DecidableEq, Repr

/-! ### The steps -/

/-- What happens: requests to the manager, which carry the times they read and what the provider
answers them, and what happens at the provider itself. -/
inductive Event where
  | login (next verifier : String)
  | stepUp (now later : Int) (answer : Option TokenSet) (verifier next : String)
  | callback (query : Query) (answer : Option TokenSet) (later : Int)
  /-- Any page. -/
  | request (now later : Int) (answer : Option TokenSet)
  /-- A request that only an account that stepped up may make. -/
  | guarded (now later : Int) (answer : Option TokenSet) (path : String)
  /-- `user_access_token` asks the provider for a new token; an answer without one is an error. -/
  | accessToken (answer : Option TokenSet)
  | logout (csrf : Bool)
  /-- A real sign-in, in this browser or in another client of the same sign-in. -/
  | signIn (account : String) (now clock : Int)
  | signOut
  /-- The provider answers an authorization request out of the sign-in it has open. -/
  | authorize (verifier code : String)
deriving DecidableEq, Repr

/-- Whether an answer of the provider is about a sign-in. -/
def answers (tokenSet : TokenSet) (signIn : SignIn) : Bool :=
  tokenSet.claims.sub = signIn.account &&
    (tokenSet.claims.authTime = signIn.authTime || tokenSet.claims.authTime = 0) &&
    tokenSet.refreshToken.all fun refreshToken => refreshToken.account = signIn.account

/-- The code that an answer is given for. -/
def redeemed (codes : List Code) (query : Query) (tokenSet : TokenSet) : Option Code :=
  codes.find? fun issued =>
    issued.code = query.code && query.verifier = some issued.verifier &&
      answers tokenSet issued.signIn

/-- The confirmations after a callback. -/
def confirms (s : State) (query : Query) (outcome : Except HttpError Landing) (later : Int) :
    List Confirmed :=
  match query.verifier, outcome with
  | some verifier, .ok (.steppedUp _) => { verifier, «at» := later, tick := s.tick } :: s.confirmed
  | _, _ => s.confirmed

/-- The state after a callback. -/
def called (settings : Settings) (s : State) (query : Query) (answer : Option TokenSet)
    (later : Int) : State :=
  let response := callback settings s.session query answer later
  { s with
    session := response.session
    confirmed := confirms s query response.outcome later
    tick := s.tick + 1 }

def step (settings : Settings) (s : State) : Event → Option State
  | .login next verifier =>
      if verifier ∈ s.issued then none
      else some { s with
        session := login s.session next, issued := verifier :: s.issued, tick := s.tick + 1 }
  | .stepUp now later answer verifier next =>
      if verifier ∈ s.issued || !renews s.session answer then none
      else
        let response := stepUp settings s.session now later answer verifier next
        some { s with
          session := response.session
          issued := verifier :: s.issued
          asked := match response.outcome with
            | .ok user => { verifier, sub := user.sub, tick := s.tick } :: s.asked
            | .error _ => s.asked
          tick := s.tick + 1 }
  | .callback query answer later =>
      match answer with
      | none => some (called settings s query none later)
      | some tokenSet =>
          (redeemed s.codes query tokenSet).map fun code =>
            called settings { s with codes := s.codes.erase code } query (some tokenSet) later
  | .request now later answer =>
      if renews s.session answer then
        some { s with
          session := (getCurrentUser s.session now later answer).session, tick := s.tick + 1 }
      else none
  | .guarded now later answer path =>
      if renews s.session answer then
        some { s with
          session := (requireStepUp settings s.session now later answer path).session
          tick := s.tick + 1 }
      else none
  | .accessToken answer =>
      if renews s.session answer then
        let tokenSet := answer.filter fun tokenSet => tokenSet.accessToken.isSome
        some { s with session := (refreshSession s.session tokenSet).1, tick := s.tick + 1 }
      else none
  | .logout csrf => some { s with session := logout s.session csrf, tick := s.tick + 1 }
  | .signIn account _ clock =>
      let signIn : SignIn := { account, authTime := (seconds clock).toNat, tick := s.tick }
      some { s with
        provider := some signIn, signIns := signIn :: s.signIns, tick := s.tick + 1 }
  | .signOut => some { s with provider := none, tick := s.tick + 1 }
  | .authorize verifier code =>
      match s.provider with
      | none => none
      | some signIn =>
          if verifier ∈ s.issued then
            some { s with codes := { code, verifier, signIn } :: s.codes, tick := s.tick + 1 }
          else none

end Papaia.Auth
