/-
Module: Papaia.Identity.Realm
Purpose: The realm's roles and accounts, and the operations of the Users page and of the Roles page
  on them.
Trusted boundary: Keycloak carries out what it is asked for, lists the roles of the realm in the
  order of `roles` with a new one last, and drops a deleted role everywhere; no name of a role is
  empty or has blanks at its ends
Main exports: Role, Realm, Manager, Refusal, Operation, step, reaches
-/
import Papaia.Data.Text
import Papaia.Lib.Walk
import Papaia.Lib.Runs
import Mathlib.Data.List.Dedup
import Mathlib.Data.List.Sort
import Mathlib.Logic.Function.Basic

namespace Papaia.Identity

open Text

/-! ### The realm -/

/-- A role of the realm, or of one of its clients. -/
inductive Role where
  | realm (name : String)
  | client (client name : String)
deriving DecidableEq, Repr

/-- What Keycloak holds: the roles of the realm, what each role contains, and of each account the
realm roles mapped to it, the roles it has of clients and by its groups, and whether it is
enabled. -/
structure Realm where
  roles : List String
  members : Role → List Role
  descriptions : String → String
  users : List String
  direct : String → List String
  granted : String → List Role
  enabled : String → Bool
  known : ∀ role name, .realm name ∈ members role → name ∈ roles
  unused : ∀ name, name ∉ roles → members (.realm name) = []

/-- The realm roles among some roles: those that are no role of a client. -/
def realmNames (roles : List Role) : List String :=
  roles.filterMap fun
    | .realm name => some name
    | .client _ _ => none

theorem mem_realmNames {roles : List Role} {name : String} :
    name ∈ realmNames roles ↔ .realm name ∈ roles := by
  rw [realmNames, List.mem_filterMap]
  constructor
  · rintro ⟨role, hrole, hname⟩
    cases role with
    | realm other => exact Option.some.inj hname ▸ hrole
    | client => cases hname
  · exact fun h => ⟨_, h, rfl⟩

namespace Realm

/-- `role_composites`, without the roles of clients. -/
def composites (realm : Realm) (name : String) : List String :=
  realmNames (realm.members (.realm name))

/-- `_MAX_WALK`. -/
def maxWalk : Nat := 500

/-- `_reaches`: whether a role is another one or lies below it, by the realm roles it sees. -/
def reaches (realm : Realm) (start target : String) : Bool :=
  Walk.walk realm.composites target maxWalk maxWalk ([start], [start])

end Realm

/-- `is_technical_role`. -/
def isTechnicalRole (name : String) : Bool :=
  ["offline_access", "uma_authorization"].contains name || startsWith name "default-roles-"

/-- `_known`: the roles that can be handed out, of the first 500 Keycloak lists. -/
def Realm.handedOut (realm : Realm) : List String :=
  (realm.roles.take 500).filter fun name => !isTechnicalRole name

/-! ### Refusals -/

/-- What the pages answer instead of doing what they are asked; an account that is missing is
reported in Keycloak's own words. -/
inductive Refusal where
  | badName
  | technical (name : String)
  | longDescription
  | builtIn (name : String)
  | unknownRoles (names : List String)
  | exists (name : String)
  | roleMissing (name : String)
  | userMissing
  | loop (name member : String)
  | ownIdentityRole (name : String)
  | ownAccount
  | keyError (name : String)
deriving DecidableEq, Repr

def maxDescription : Nat := 255

def Refusal.message : Refusal → String
  | badName => "A role name needs 1 to 127 letters, digits or . _ : - and must start with a " ++
      "letter or digit."
  | technical name => name ++ " is one of Keycloak's own roles."
  | longDescription => "The description is limited to 255 characters."
  | builtIn name => name ++ " is a built-in role of the stack: services refer to it by name, so " ++
      "it is not changed or deleted here."
  | unknownRoles names => "Unknown role: " ++ joinWith ", " names
  | .exists name => "A role named " ++ name ++ " already exists."
  | roleMissing name => "Role " ++ name ++ " was not found."
  | userMissing => ""
  | loop name member =>
      if member = name then
        name ++ " cannot contain " ++ member ++ ": a role cannot contain itself."
      else
        name ++ " cannot contain " ++ member ++ ": " ++ member ++ " already contains " ++ name ++
          ", which would make a loop."
  | ownIdentityRole name => "You cannot take the " ++ name ++ " role away from your own account."
  | ownAccount => "You cannot disable your own account."
  | keyError name => name

/-! ### What the manager is configured with -/

/-- The signed-in account, and the roles the manager is configured with. -/
structure Manager where
  actor : String
  identityRole : String
  adminRole : String
  userRole : String

/-- `BUILT_IN_ROLES`. -/
def builtInRoles : List String :=
  ["papaia-admin", "librechat-admin", "librechat-user", "litellm-admin", "manager-admin",
    "npm-admin", "user", "viewer", "finance", "localai-access", "qdrant-admin",
    "qdrant-ingest-operator"]

/-- `_built_in`: the stack's own roles, and the three the manager is configured with. -/
def Manager.builtIn (m : Manager) (name : String) : Bool :=
  builtInRoles.contains name || [m.adminRole, m.userRole, m.identityRole].contains name

/-! ### Checks -/

/-- `_NAME`. -/
def roleName (name : String) : Bool :=
  match name.toList with
  | [] => false
  | first :: rest =>
      first.isAlphanum && rest.length ≤ 126 &&
        rest.all fun c => c.isAlphanum || ['.', '_', ':', '-'].contains c

/-- `sorted(set(names))`. -/
def sortedNames (names : List String) : List String :=
  names.dedup.insertionSort (· ≤ ·)

@[simp] theorem mem_sortedNames {names : List String} {name : String} :
    name ∈ sortedNames names ↔ name ∈ names := by
  simp [sortedNames]

/-- `require_known_roles`. -/
def requireKnownRoles (wanted known : List String) : Option Refusal :=
  match sortedNames (wanted.filter fun name => !known.contains name) with
  | [] => none
  | unknown => some (.unknownRoles unknown)

/-- `_require_editable`. -/
def requireEditable (m : Manager) (name : String) : Option Refusal :=
  if isTechnicalRole name then some (.technical name)
  else if m.builtIn name then some (.builtIn name)
  else none

/-! ### What Keycloak does -/

namespace Realm

/-- A new role, with nothing in it. -/
def createRole (realm : Realm) (name description : String) : Realm :=
  { realm with
    roles := realm.roles ++ [name]
    descriptions := Function.update realm.descriptions name description
    known := fun role other h => List.mem_append_left _ (realm.known role other h)
    unused := fun other h => realm.unused other fun hmem => h (List.mem_append_left _ hmem) }

/-- A description that reads the same is left as it is. -/
def describeRole (realm : Realm) (name description : String) : Realm :=
  { realm with
    descriptions :=
      if description = strip (realm.descriptions name) then realm.descriptions
      else Function.update realm.descriptions name description }

/-- The members of a role changed by a function that only brings in roles that are there. -/
def changeMembers (realm : Realm) (name : String) (change : List Role → List Role)
    (h : name ∈ realm.roles ∧ ∀ members other, .realm other ∈ change members →
      .realm other ∈ members ∨ other ∈ realm.roles) : Realm :=
  { realm with
    members := Function.update realm.members (.realm name) (change (realm.members (.realm name)))
    known := by
      intro role other hmem
      by_cases hrole : role = .realm name
      · subst hrole
        rw [Function.update_self] at hmem
        exact (h.2 _ other hmem).elim (realm.known _ other) id
      · rw [Function.update_of_ne hrole] at hmem
        exact realm.known role other hmem
    unused := by
      intro other hother
      have hne : Role.realm other ≠ .realm name := by
        rintro ⟨rfl⟩
        exact hother h.1
      rw [Function.update_of_ne hne]
      exact realm.unused other hother }

/-- `add_role_composites`, for roles that are there. -/
def addComposites (realm : Realm) (name : String) (names : List String) : Realm :=
  if h : name ∈ realm.roles ∧ ∀ other ∈ names, other ∈ realm.roles then
    realm.changeMembers name (· ++ names.map .realm) ⟨h.1, by
      intro members other hmem
      rcases List.mem_append.1 hmem with hmem | hmem
      · exact .inl hmem
      · obtain ⟨same, hsame, heq⟩ := List.mem_map.1 hmem
        exact .inr (Role.realm.inj heq ▸ h.2 same hsame)⟩
  else realm

/-- `remove_role_composites`. -/
def removeComposites (realm : Realm) (name : String) (names : List String) : Realm :=
  if h : name ∈ realm.roles then
    realm.changeMembers name (·.filter fun role => role ∉ names.map Role.realm) ⟨h, by
      intro members other hmem
      exact .inl (List.mem_of_mem_filter hmem)⟩
  else realm

/-- A deleted role is in no role and on no account. -/
def deleteRole (realm : Realm) (name : String) : Realm :=
  { realm with
    roles := realm.roles.filter (· ≠ name)
    members := fun role =>
      if role = .realm name then [] else (realm.members role).filter (· ≠ .realm name)
    direct := fun user => (realm.direct user).filter (· ≠ name)
    granted := fun user => (realm.granted user).filter (· ≠ .realm name)
    known := by
      intro role other hmem
      split at hmem
      · cases hmem
      · obtain ⟨hmem, hne⟩ := List.mem_filter.1 hmem
        refine List.mem_filter.2 ⟨realm.known role other hmem, ?_⟩
        simpa using hne
    unused := by
      intro other hother
      split
      · rfl
      next hne =>
        have hnot : other ∉ realm.roles := by
          intro hmem
          apply hother
          refine List.mem_filter.2 ⟨hmem, ?_⟩
          simpa using hne
        rw [realm.unused other hnot]
        rfl }

def addRoles (realm : Realm) (user : String) (names : List String) : Realm :=
  { realm with direct := Function.update realm.direct user (realm.direct user ++ names) }

def removeRoles (realm : Realm) (user : String) (names : List String) : Realm :=
  { realm with
    direct := Function.update realm.direct user ((realm.direct user).filter (· ∉ names)) }

def setEnabled (realm : Realm) (user : String) (value : Bool) : Realm :=
  { realm with enabled := Function.update realm.enabled user value }

end Realm

/-! ### The operations -/

/-- What the two pages are asked for. -/
inductive Operation where
  | setRoles (user : String) (wanted : List String)
  | setEnabled (user : String) (value : Bool)
  | create (name description : String) (members : List String)
  | update (name description : String) (members : List String)
  | delete (name : String)
deriving DecidableEq, Repr

/-- An operation leaves a realm, and is refused or not. -/
abbrev Outcome := Realm × Option Refusal

/-- `set_roles`. -/
def setRoles (m : Manager) (realm : Realm) (user : String) (wanted : List String) : Outcome :=
  if !realm.users.contains user then (realm, some .userMissing)
  else
    let known := realm.handedOut
    match requireKnownRoles wanted known with
    | some refusal => (realm, some refusal)
    | none =>
        let current := (realm.direct user).filter known.contains
        let toAdd := sortedNames (wanted.filter fun name => !current.contains name)
        let toRemove := sortedNames (current.filter fun name => !wanted.contains name)
        if user = m.actor ∧ m.identityRole ∈ toRemove then
          (realm, some (.ownIdentityRole m.identityRole))
        else ((realm.addRoles user toAdd).removeRoles user toRemove, none)

/-- `set_enabled`. -/
def setEnabled (m : Manager) (realm : Realm) (user : String) (value : Bool) : Outcome :=
  if !value && user == m.actor then (realm, some .ownAccount)
  else if !realm.users.contains user then (realm, some .userMissing)
  else (realm.setEnabled user value, none)

/-- The checks of `create`; the last one is Keycloak's, for a name beyond the roles it listed. -/
def createRefusal (realm : Realm) (name description : String) (members : List String) :
    Option Refusal :=
  if !roleName name then some .badName
  else if isTechnicalRole name then some (.technical name)
  else if maxDescription < description.length then some .longDescription
  else if realm.handedOut.contains name then some (.exists name)
  else
    match requireKnownRoles (sortedNames members) realm.handedOut with
    | some refusal => some refusal
    | none => if realm.roles.contains name then some (.exists name) else none

/-- `create`. -/
def create (realm : Realm) (name description : String) (members : List String) : Outcome :=
  let name := strip name
  let description := strip description
  match createRefusal realm name description members with
  | some refusal => (realm, some refusal)
  | none => ((realm.createRole name description).addComposites name (sortedNames members), none)

/-- The checks of `update` before it looks for loops. -/
def updateRefusal (m : Manager) (realm : Realm) (name description : String)
    (members : List String) : Option Refusal :=
  match requireEditable m name with
  | some refusal => some refusal
  | none =>
      if maxDescription < (strip description).length then some .longDescription
      else if !realm.handedOut.contains name then some (.roleMissing name)
      else requireKnownRoles (sortedNames members) realm.handedOut

/-- The members an update brings in and takes out. -/
def toAdd (realm : Realm) (name : String) (members : List String) : List String :=
  sortedNames (members.filter fun member => !(realm.composites name).contains member)

def toRemove (realm : Realm) (name : String) (members : List String) : List String :=
  sortedNames ((realm.composites name).filter fun member => !members.contains member)

/-- `update`. -/
def update (m : Manager) (realm : Realm) (name description : String) (members : List String) :
    Outcome :=
  match updateRefusal m realm name description members with
  | some refusal => (realm, some refusal)
  | none =>
      match (toAdd realm name members).find? fun member => realm.reaches member name with
      | some member => (realm, some (.loop name member))
      | none =>
          let added := (realm.describeRole name (strip description)).addComposites name
            (toAdd realm name members)
          -- `[known[m] for m in to_remove]`: a member that cannot be handed out is not found
          match (toRemove realm name members).find? fun member =>
              !realm.handedOut.contains member with
          | some member => (added, some (.keyError member))
          | none => (added.removeComposites name (toRemove realm name members), none)

/-- `delete`. -/
def delete (m : Manager) (realm : Realm) (name : String) : Outcome :=
  match requireEditable m name with
  | some refusal => (realm, some refusal)
  | none =>
      if realm.handedOut.contains name then (realm.deleteRole name, none)
      else (realm, some (.roleMissing name))

/-- One operation of one of the pages. -/
def step (m : Manager) (realm : Realm) : Operation → Outcome
  | .setRoles user wanted => setRoles m realm user wanted
  | .setEnabled user value => setEnabled m realm user value
  | .create name description members => create realm name description members
  | .update name description members => update m realm name description members
  | .delete name => delete m realm name

/-- The realm after an operation, refused or not. -/
def runStep (m : Manager) (realm : Realm) (op : Operation) : Option Realm :=
  some (step m realm op).1

end Papaia.Identity
