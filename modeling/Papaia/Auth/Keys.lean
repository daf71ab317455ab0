/-
Module: Papaia.Auth.Keys
Purpose: Which sign-ins are believed: the identity token of an answer is checked with a key of the
  provider, and the provider's keys are kept for a while and asked for by one request at a time.
Trusted boundary: the header of a token, its signature and its claims are read by a library; what the
  provider answers with its keys is data
Main exports: Jose, Failure, findJwk, algorithmForKey, extractClaims, applyRoleFallback, validated, Fetch,
  Task, State, Event, step
-/
import Papaia.Auth.Session
import Papaia.Data.Value
import Papaia.Lib.Runs

namespace Papaia.Auth.Keys

/-! ### The checks of a token -/

/-- A key of a JWKS, as JSON. -/
abbrev Jwk := Mapping

/-- A JWKS, as JSON: whatever the provider answers with. -/
abbrev Jwks := Val

inductive JoseError where
  | expiredSignature
  | jwtError
deriving DecidableEq, Repr

/-- What the manager takes from the library for tokens. -/
structure Jose where
  /-- `get_unverified_header`, none where it raises. -/
  header : String → Option Mapping
  /-- `decode` with a key, an algorithm, an audience and the access token, at a time. -/
  decode : String → Jwk → String → String → Option String → Int → Except JoseError Mapping
  /-- `get_unverified_claims`, none where it raises. -/
  unverifiedClaims : String → Option Mapping
  /-- `str` of a JSON value. -/
  str : Val → String

/-- An `OIDCError`. -/
inductive OidcError where
  | malformedHeader
  | missingKid
  | keyNotFound
  | unsupportedKeyType
  | algorithmNotPermitted
  | expired
  | failed
  | missingSub
  | missingExp
deriving DecidableEq, Repr

def OidcError.msgid : OidcError → String
  | .malformedHeader => "malformed id_token header"
  | .missingKid => "id_token header missing kid"
  | .keyNotFound => "signing key not found in JWKS"
  | .unsupportedKeyType => "unsupported JWK key type: %(kty)r"
  | .algorithmNotPermitted => "JWK algorithm not permitted: %(alg)r"
  | .expired => "id_token expired"
  | .failed => "id_token validation failed"
  | .missingSub => "id_token missing required sub claim"
  | .missingExp => "id_token missing exp claim"

/-- How a check ends without claims; `raised` is any other exception. -/
inductive Failure where
  | oidc (error : OidcError)
  | raised
deriving DecidableEq, Repr

/-- `_ALLOWED_ALGS`. -/
def allowedAlgs : List String :=
  ["RS256", "RS384", "RS512", "ES256", "ES384", "ES512"]

def isNull : Val → Bool
  | .null => true
  | _ => false

/-- A key that is not for encryption only. -/
def signs (key : Jwk) : Bool :=
  isNull (key.getD "use") || (key.getD "use").str? == some "sig"

/-- A key that a token names. -/
def names (kid : String) (key : Jwk) : Bool :=
  (key.getD "kid").str? == some kid && signs key

/-- The loop of `_find_jwk`: what is not an object on the way to the key has no `get`. -/
def findIn (kid : String) : List Val → Except Failure (Option Jwk)
  | [] => .ok none
  | .map key :: rest => if names kid key then .ok (some key) else findIn kid rest
  | _ :: _ => .error .raised

/-- `_find_jwk`. -/
def findJwk (jwks : Jwks) (kid : String) : Except Failure (Option Jwk) :=
  match jwks.mapping? with
  | none => .error .raised
  | some fields =>
      match (fields.get? "keys").getD (.list []) with
      | .list keys => findIn kid keys
      | .map entries => if entries.isEmpty then .ok none else .error .raised
      | .str text => if text = "" then .ok none else .error .raised
      | _ => .error .raised

/-- Whether Python can look a value up in a set. -/
def hashable : Val → Bool
  | .scalar _ => true
  | _ => false

/-- `_algorithm_for_key`: from the key, never from the header of the token. -/
def algorithmForKey (key : Jwk) : Except Failure String :=
  let alg := key.getD "alg"
  if isNull alg then
    if (key.getD "kty").str? == some "RSA" then .ok "RS256"
    else if (key.getD "kty").str? == some "EC" then .ok "ES256"
    else .error (.oidc .unsupportedKeyType)
  else if hashable alg then
    match allowedAlgs.find? fun allowed => alg.str? == some allowed with
    | some allowed => .ok allowed
    | none => .error (.oidc .algorithmNotPermitted)
  else .error .raised

/-- `int(value)` of an int or a float; none of anything else, and an exception of what is no number. -/
def intOf : Val → Option (Except Failure Int)
  | .int value => some (.ok value)
  | .bool value => some (.ok (if value then 1 else 0))
  | .float (.finite value) => some (.ok (value.num.tdiv value.den))
  | .float _ => some (.error .raised)
  | _ => none

/-- What stands at the end of a path of keys; on the way there what is missing is `default`. -/
def walk (default : Val) : List String → Val → Val
  | [], node => node
  | part :: rest, node =>
      match node.mapping? with
      | none => default
      | some fields => walk default rest ((fields.get? part).getD default)

/-- `_extract_claims`, with `role_claim.split(".")`. -/
def extractClaims (jose : Jose) (rolePath : List String) (payload : Mapping) : Except Failure Claims :=
  match ((payload.getD "sub").str?).filter (· != "") with
  | none => .error (.oidc .missingSub)
  | some sub =>
      match intOf (payload.getD "exp") with
      | none => .error (.oidc .missingExp)
      | some exp => do
          let exp ← exp
          let authTime ← (intOf (payload.getD "auth_time")).getD (.ok 0)
          .ok {
            sub := sub
            preferredUsername := ((payload.get? "preferred_username").map jose.str).getD sub
            roles := ((walk (.list []) rolePath (.map payload)).list?.getD []).map jose.str
            exp := exp
            authTime := authTime }

/-- `_roles_from_unverified_jwt`. -/
def rolesFromUnverifiedJwt (jose : Jose) (token : String) (paths : List (List String)) : List String :=
  match jose.unverifiedClaims token with
  | none => []
  | some payload =>
      let found := paths.findSome? fun path =>
        ((walk .null path (.map payload)).list?).filter fun roles => !roles.isEmpty
      ((found.getD []).filter Val.truthy).map jose.str

/-- `_apply_role_fallback`. -/
def applyRoleFallback (jose : Jose) (rolePath : List String) (claims : Claims)
    (accessToken : Option String) : Claims :=
  if claims.roles.isEmpty then
    match accessToken.filter (· != "") with
    | none => claims
    | some token =>
        let roles := rolesFromUnverifiedJwt jose token [rolePath, ["realm_access", "roles"]]
        if roles.isEmpty then claims else { claims with roles := roles }
  else claims

/-- The client the tokens are for, the claim with the roles, and how long keys are kept. -/
structure Client where
  clientId : String
  rolePath : List String
  jwksCacheTtl : Int

def decodeFailure : JoseError → Failure
  | .expiredSignature => .oidc .expired
  | .jwtError => .oidc .failed

/-- What `_validate_id_token` does with the key, and `_token_set_from_response` with the claims. -/
def validated (jose : Jose) (client : Client) (idToken : String) (accessToken : Option String)
    (key : Jwk) (now : Int) : Except Failure Claims := do
  let alg ← algorithmForKey key
  let payload ← (jose.decode idToken key alg client.clientId accessToken now).mapError decodeFailure
  let claims ← extractClaims jose client.rolePath payload
  .ok (applyRoleFallback jose client.rolePath claims accessToken)

/-- The key id of a token's header. -/
def kidOf (jose : Jose) (idToken : String) : Except Failure String :=
  match jose.header idToken with
  | none => .error (.oidc .malformedHeader)
  | some header =>
      match ((header.getD "kid").str?).filter (· != "") with
      | none => .error (.oidc .missingKid)
      | some kid => .ok kid

/-! ### The keys of the provider -/

/-- A request for the provider's keys, of a task that was or was not forced to ask; how it ended: with
an answer, or with an exception. -/
structure Fetch where
  task : Nat
  forced : Bool
  began : Int
  ended : Option (Int × Option Jwks) := none
deriving Repr

/-- Where a check is: at the lock or behind it with its fetch, for the second time when it is forced to
ask anew; or over. -/
inductive Phase where
  | waiting (forced : Bool)
  | fetching (forced : Bool) (fetch : Nat)
  | ended (outcome : Except Failure Claims)
  | cancelled

/-- The check of a token. -/
structure Task where
  idToken : String
  accessToken : Option String
  kid : String
  presented : Int
  phase : Phase

/-- The client as it stands: `clock` is the monotonic time, `wall` the time that tokens speak of. -/
structure State where
  clock : Int := 0
  wall : Int := 0
  jwks : Option Jwks := none
  jwksFetchedAt : Int := 0
  lock : Option Nat := none
  fetches : List Fetch := []
  tasks : List Task := []

inductive Event where
  /-- The answer of the token endpoint has come. -/
  | present (idToken : String) (accessToken : Option String)
  | acquire (i : Nat)
  /-- The provider answers with its keys, or the request fails. -/
  | answer (i : Nat) (jwks : Option Jwks)
  | cancel (i : Nat)
  | tick (d : Nat) (wall : Int)

variable (jose : Jose) (client : Client)

/-- The keys that are young enough. -/
def State.fresh (s : State) : Option Jwks :=
  s.jwks.filter fun _ => s.clock - s.jwksFetchedAt < client.jwksCacheTtl

def Task.fail (task : Task) (failure : Failure) : Task :=
  { task with phase := .ended (.error failure) }

/-- `_resolve_key` behind a call of `_get_jwks`, and what follows: the token is checked, or the provider
asked anew. -/
def Task.look (task : Task) (wall : Int) (forced : Bool) (jwks : Jwks) : Task :=
  match findJwk jwks task.kid with
  | .error failure => task.fail failure
  | .ok (some key) =>
      { task with phase := .ended (validated jose client task.idToken task.accessToken key wall) }
  | .ok none => if forced then task.fail (.oidc .keyNotFound) else { task with phase := .waiting true }

def State.add (s : State) (task : Task) : State :=
  { s with tasks := s.tasks ++ [task] }

def State.setTask (s : State) (i : Nat) (task : Task) : State :=
  { s with tasks := s.tasks.set i task }

/-- A check begins: the keys that are kept are looked into, if they are young enough. -/
def State.present (s : State) (idToken : String) (accessToken : Option String) : State :=
  match kidOf jose idToken with
  | .error failure => s.add (Task.fail ⟨idToken, accessToken, "", s.clock, .waiting false⟩ failure)
  | .ok kid =>
      let task : Task := ⟨idToken, accessToken, kid, s.clock, .waiting false⟩
      match s.fresh client with
      | some jwks => s.add (task.look jose client s.wall false jwks)
      | none => s.add task

/-- Under the lock the provider is asked. -/
def State.fetch (s : State) (i : Nat) (task : Task) (forced : Bool) : State :=
  { s.setTask i { task with phase := .fetching forced s.fetches.length } with
    lock := some i
    fetches := s.fetches ++ [⟨i, forced, s.clock, none⟩] }

/-- Under the lock: the keys may have come meanwhile. -/
def State.acquire (s : State) (i : Nat) (task : Task) (forced : Bool) : State :=
  match if forced then none else s.fresh client with
  | some jwks => s.setTask i (task.look jose client s.wall false jwks)
  | none => s.fetch i task forced

/-- A fetch ends and the lock is left. -/
def State.leave (s : State) (fetch : Nat) (jwks : Option Jwks) : State :=
  { s with
    lock := none
    fetches := s.fetches.modify fetch fun f => { f with ended := some (s.clock, jwks) } }

/-- What the provider answered is kept; a null is as if nothing had been. -/
def State.keep (s : State) (jwks : Jwks) : State :=
  { s with jwks := if isNull jwks then none else some jwks, jwksFetchedAt := s.clock }

/-- `assert self._jwks is not None`, and the look into the keys. -/
def Task.answered (task : Task) (wall : Int) (forced : Bool) (jwks : Jwks) : Task :=
  if isNull jwks then task.fail .raised else task.look jose client wall forced jwks

/-- One move of the check `i`. -/
def stepTask (s : State) (i : Nat) (task : Task) : Event → Option State
  | .acquire _ =>
      match task.phase with
      | .waiting forced => if s.lock.isNone then some (s.acquire jose client i task forced) else none
      | _ => none
  | .answer _ jwks =>
      match task.phase with
      | .fetching forced fetch =>
          match jwks with
          | none => some ((s.leave fetch none).setTask i (task.fail .raised))
          | some jwks =>
              some (((s.leave fetch (some jwks)).keep jwks).setTask i
                (task.answered jose client s.wall forced jwks))
      | _ => none
  | .cancel _ =>
      match task.phase with
      | .waiting _ => some (s.setTask i { task with phase := .cancelled })
      | .fetching _ fetch => some ((s.leave fetch none).setTask i { task with phase := .cancelled })
      | _ => none
  | _ => none

def step (s : State) (e : Event) : Option State :=
  match e with
  | .present idToken accessToken => some (s.present jose client idToken accessToken)
  | .tick d wall => some { s with clock := s.clock + d, wall := wall }
  | .acquire i | .answer i _ | .cancel i =>
      (s.tasks[i]?).bind fun task => stepTask jose client s i task e

end Papaia.Auth.Keys
