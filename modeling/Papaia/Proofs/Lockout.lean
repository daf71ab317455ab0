/-
Module: Papaia.Proofs.Lockout
Purpose: When an administrator who uses the Users page and the Roles page keeps the role those pages
  ask for: the guards look at a role the account holds by itself, and a role it holds through others
  needs a chain that survives.
Trusted boundary: none
Main exports: Realm.Holds, Manager.HasAccess, KeepsChain, access_step, keepsChain_of_direct,
  access_runs
-/
import Papaia.Proofs.RoleGraph

namespace Papaia.Identity

open Text Relation

/-! ### What an account holds -/

/-- The roles of an account itself: its own realm roles, and those of clients and of its groups. -/
def Realm.held (realm : Realm) (user : String) : List Role :=
  (realm.direct user).map .realm ++ realm.granted user

/-- An account holds a role of the realm, by itself or through others. -/
def Realm.Holds (realm : Realm) (user name : String) : Prop :=
  ∃ role ∈ realm.held user, realm.Below role (.realm name)

/-- The administrator is enabled and holds the role the pages ask for. -/
structure Manager.HasAccess (m : Manager) (realm : Realm) : Prop where
  enabled : realm.enabled m.actor = true
  holds : realm.Holds m.actor m.identityRole

/-- The steps of the graph once the realm roles in a role are the chosen ones. -/
def Realm.EditedStep (realm : Realm) (name : String) (members : List String) (a b : Role) : Prop :=
  if a = .realm name then
    match b with
    | .realm other => other ∈ members
    | .client _ _ => realm.Contains a b
  else realm.Contains a b

/-- The steps of the graph that leave a role out. -/
def Realm.StepWithout (realm : Realm) (name : String) (a b : Role) : Prop :=
  realm.Contains a b ∧ a ≠ .realm name ∧ b ≠ .realm name

/-- A chain from the account to its role survives the operation: one from a role that is wanted or
is no role the page hands out, one whose steps out of the edited role lead to chosen members or to
roles of clients, one that does not need the deleted role. -/
def KeepsChain (m : Manager) (realm : Realm) : Operation → Prop
  | .setRoles user wanted => user = m.actor →
      ∃ role ∈ (wanted ++ (realm.direct user).filter (· ∉ realm.handedOut)).map Role.realm ++
        realm.granted user, realm.Below role (.realm m.identityRole)
  | .update name _ members => ∃ role ∈ realm.held m.actor,
      ReflTransGen (realm.EditedStep name members) role (.realm m.identityRole)
  | .delete name => ∃ role ∈ realm.held m.actor, role ≠ .realm name ∧
      ReflTransGen (realm.StepWithout name) role (.realm m.identityRole)
  | _ => True

variable {m : Manager} {realm : Realm}

/-! ### Operations on the roles -/

/-- The accounts are as they were. -/
structure SameAccounts (realm other : Realm) : Prop where
  direct : other.direct = realm.direct
  granted : other.granted = realm.granted
  enabled : other.enabled = realm.enabled

theorem SameAccounts.trans {other third : Realm} (h : SameAccounts realm other)
    (hnext : SameAccounts other third) : SameAccounts realm third where
  direct := hnext.direct.trans h.direct
  granted := hnext.granted.trans h.granted
  enabled := hnext.enabled.trans h.enabled

theorem SameAccounts.held {other : Realm} (h : SameAccounts realm other) (user : String) :
    other.held user = realm.held user := by
  rw [Realm.held, Realm.held, h.direct, h.granted]

theorem sameAccounts_addComposites {name : String} {names : List String} :
    SameAccounts realm (realm.addComposites name names) := by
  rw [Realm.addComposites]
  split
  · exact ⟨rfl, rfl, rfl⟩
  · exact ⟨rfl, rfl, rfl⟩

theorem sameAccounts_removeComposites {name : String} {names : List String} :
    SameAccounts realm (realm.removeComposites name names) := by
  rw [Realm.removeComposites]
  split
  · exact ⟨rfl, rfl, rfl⟩
  · exact ⟨rfl, rfl, rfl⟩

theorem sameAccounts_describeRole {name description : String} :
    SameAccounts realm (realm.describeRole name description) :=
  ⟨rfl, rfl, rfl⟩

/-- Where the accounts are as they were, what an account holds depends on the graph. -/
theorem SameAccounts.holds_iff {other : Realm} (h : SameAccounts realm other)
    {steps : Role → Role → Prop} (hsteps : ∀ a b, other.Contains a b ↔ steps a b)
    {user name : String} :
    other.Holds user name ↔
      ∃ role ∈ realm.held user, ReflTransGen steps role (.realm name) := by
  have hsame : other.Contains = steps := by
    funext a b
    exact propext (hsteps a b)
  rw [Realm.Holds, h.held]
  simp only [Realm.Below, hsame]

/-- More members lose nobody a role. -/
theorem Manager.HasAccess.mono {other : Realm} (h : m.HasAccess realm)
    (hsame : SameAccounts realm other)
    (hcontains : ∀ a b, realm.Contains a b → other.Contains a b) : m.HasAccess other := by
  refine ⟨hsame.enabled ▸ h.enabled, ?_⟩
  obtain ⟨role, hrole, hbelow⟩ := h.holds
  exact ⟨role, hsame.held m.actor ▸ hrole, ReflTransGen.mono hcontains _ _ hbelow⟩

theorem hasAccess_addComposites (h : m.HasAccess realm) {name : String} {names : List String}
    (hname : name ∈ realm.roles) (hnames : ∀ other ∈ names, other ∈ realm.roles) :
    m.HasAccess (realm.addComposites name names) :=
  h.mono sameAccounts_addComposites fun _ _ hstep =>
    (contains_addComposites hname hnames).2 (.inl hstep)

theorem hasAccess_create (h : m.HasAccess realm) (name description : String)
    (members : List String) : m.HasAccess (create realm name description members).1 := by
  simp only [create]
  split
  · exact h
  next hrefusal =>
    obtain ⟨-, hmembers⟩ := createRefusal_eq_none hrefusal
    have hcreated : m.HasAccess (realm.createRole (strip name) (strip description)) :=
      h.mono ⟨rfl, rfl, rfl⟩ fun _ _ hstep => hstep
    apply hasAccess_addComposites hcreated
    · exact List.mem_append_right _ (List.mem_singleton_self _)
    · intro other hother
      exact List.mem_append_left _ (hmembers other (mem_sortedNames.1 hother))

/-- The steps of the graph after an update. -/
theorem contains_updated {described : Realm} (hmembers : described.members = realm.members)
    (hroles : described.roles = realm.roles) {name : String} {members : List String}
    (hname : name ∈ realm.roles) (hchosen : ∀ other ∈ members, other ∈ realm.roles)
    (a b : Role) :
    ((described.addComposites name (toAdd realm name members)).removeComposites name
        (toRemove realm name members)).Contains a b ↔ realm.EditedStep name members a b := by
  have hold : described.Contains a b ↔ realm.Contains a b := by
    rw [Realm.Contains, Realm.Contains, hmembers]
  rw [contains_removeComposites (by rwa [roles_addComposites, hroles]),
    contains_addComposites (by rwa [hroles])
      (by
        rw [hroles]
        exact fun other hother => hchosen other (mem_toAdd.1 hother).1), hold]
  simp only [Realm.EditedStep]
  by_cases ha : a = .realm name
  · subst ha
    cases b with
    | client => simp
    | realm other =>
        simp only [true_and, if_true, List.mem_map, Role.realm.injEq, exists_eq_right, mem_toAdd,
          mem_toRemove, mem_composites]
        by_cases hother : other ∈ members <;> simp [hother, Classical.em]
  · simp [ha]

/-- What the outcome of an operation means for the administrator: one that is accepted keeps the
access exactly when a chain survives it, one that is refused keeps it. -/
structure Outlook (m : Manager) (realm : Realm) (op : Operation) (outcome : Outcome) : Prop where
  accepted : outcome.2 = none → (m.HasAccess outcome.1 ↔ KeepsChain m realm op)
  refused : outcome.2 ≠ none → m.HasAccess outcome.1

/-- A refusal that changes nothing. -/
theorem outlook_refused (h : m.HasAccess realm) (op : Operation) (refusal : Refusal) :
    Outlook m realm op (realm, some refusal) where
  accepted := by simp
  refused := fun _ => h

/-- An operation that keeps the access, where a chain always survives. -/
theorem outlook_kept {op : Operation} {outcome : Outcome} (h : m.HasAccess outcome.1)
    (hkeeps : KeepsChain m realm op) : Outlook m realm op outcome where
  accepted := fun _ => iff_of_true h hkeeps
  refused := fun _ => h

theorem outlook_update (h : m.HasAccess realm) (name description : String)
    (members : List String) :
    Outlook m realm (.update name description members)
      (update m realm name description members) := by
  cases hrefusal : updateRefusal m realm name description members with
  | some refusal =>
      simp only [update, hrefusal]
      exact outlook_refused h _ refusal
  | none =>
      obtain ⟨-, -, hname, hchosen⟩ := updateRefusal_eq_none hrefusal
      rcases update_cases hrefusal with ⟨member, -, -, heq⟩ | ⟨-, ⟨member, heq⟩ | heq⟩
      · rw [heq]
        exact outlook_refused h _ _
      · rw [heq]
        have hdescribed : m.HasAccess (realm.describeRole name (strip description)) :=
          h.mono sameAccounts_describeRole fun a b hstep => by
            rwa [Realm.Contains, members_describeRole]
        refine ⟨by simp, fun _ => ?_⟩
        apply hasAccess_addComposites hdescribed
        · rwa [roles_describeRole]
        · rw [roles_describeRole]
          exact fun other hother => hchosen other (mem_toAdd.1 hother).1
      · rw [heq]
        refine ⟨fun _ => ?_, by simp⟩
        have hsame : SameAccounts realm (((realm.describeRole name
            (strip description)).addComposites name (toAdd realm name members)).removeComposites
            name (toRemove realm name members)) :=
          (sameAccounts_describeRole.trans sameAccounts_addComposites).trans
            sameAccounts_removeComposites
        have hsteps : ∀ a b, (((realm.describeRole name (strip description)).addComposites name
            (toAdd realm name members)).removeComposites name
            (toRemove realm name members)).Contains a b ↔ realm.EditedStep name members a b :=
          contains_updated members_describeRole roles_describeRole hname hchosen
        constructor
        · exact fun hafter => (hsame.holds_iff hsteps).1 hafter.holds
        · exact fun hkeeps => ⟨hsame.enabled ▸ h.enabled, (hsame.holds_iff hsteps).2 hkeeps⟩

/-! ### Deleting a role, and the roles of an account -/

theorem outlook_delete (h : m.HasAccess realm) (name : String) :
    Outlook m realm (.delete name) (delete m realm name) := by
  simp only [delete]
  split
  next refusal _ => exact outlook_refused h _ refusal
  next =>
    split
    · refine ⟨fun _ => ?_, by simp⟩
      have hheld : ∀ role, role ∈ (realm.deleteRole name).held m.actor ↔
          role ∈ realm.held m.actor ∧ role ≠ .realm name := by
        intro role
        cases role with
        | client => simp [Realm.held, Realm.deleteRole]
        | realm other =>
            simp only [Realm.held, Realm.deleteRole, List.mem_append, List.mem_map,
              Role.realm.injEq, exists_eq_right, List.mem_filter, decide_eq_true_eq, ne_eq]
            exact or_and_right.symm
      have hcontains : (realm.deleteRole name).Contains = realm.StepWithout name := by
        funext a b
        exact propext contains_deleteRole
      constructor
      · intro hafter
        obtain ⟨role, hrole, hbelow⟩ := hafter.holds
        rw [Realm.Below, hcontains] at hbelow
        obtain ⟨hmem, hne⟩ := (hheld role).1 hrole
        exact ⟨role, hmem, hne, hbelow⟩
      · rintro ⟨role, hmem, hne, hbelow⟩
        refine ⟨h.enabled, role, (hheld role).2 ⟨hmem, hne⟩, ?_⟩
        rwa [Realm.Below, hcontains]
    · exact outlook_refused h _ _

/-- The roles of an account after its roles were set: the wanted ones, and those that are not
handed out. -/
theorem mem_setRoles {direct wanted known : List String} {name : String} :
    name ∈ (direct ++ sortedNames (wanted.filter fun name =>
        !(direct.filter known.contains).contains name)).filter
        (· ∉ sortedNames ((direct.filter known.contains).filter fun name =>
          !wanted.contains name)) ↔
      name ∈ wanted ++ direct.filter (· ∉ known) := by
  by_cases hwanted : name ∈ wanted
  · by_cases hdirect : name ∈ direct
    · simp [hwanted, hdirect]
    · simp [hwanted, hdirect]
  · by_cases hdirect : name ∈ direct
    · simp [hwanted, hdirect]
    · simp [hwanted, hdirect]

theorem held_changed {user : String} {added removed : List String} :
    ((realm.addRoles user added).removeRoles user removed).held user =
      ((realm.direct user ++ added).filter (· ∉ removed)).map .realm ++ realm.granted user := by
  simp [Realm.held, Realm.addRoles, Realm.removeRoles]

theorem held_changed_of_ne {user other : String} {added removed : List String}
    (hne : other ≠ user) :
    ((realm.addRoles user added).removeRoles user removed).held other = realm.held other := by
  simp [Realm.held, Realm.addRoles, Realm.removeRoles, Function.update_of_ne hne]

theorem outlook_setRoles (h : m.HasAccess realm) (user : String) (wanted : List String) :
    Outlook m realm (.setRoles user wanted) (setRoles m realm user wanted) := by
  simp only [setRoles]
  split
  · exact outlook_refused h _ _
  · split
    next refusal _ => exact outlook_refused h _ refusal
    next =>
      split
      · exact outlook_refused h _ _
      · by_cases huser : m.actor = user
        · subst huser
          refine ⟨fun _ => ?_, by simp⟩
          constructor
          · intro hafter
            obtain ⟨role, hrole, hbelow⟩ := hafter.holds
            rw [held_changed] at hrole
            refine fun _ => ⟨role, ?_, hbelow⟩
            simpa only [List.mem_append, List.mem_map, mem_setRoles] using hrole
          · intro hkeeps
            obtain ⟨role, hrole, hbelow⟩ := hkeeps rfl
            refine ⟨h.enabled, role, ?_, hbelow⟩
            rw [held_changed]
            simpa only [List.mem_append, List.mem_map, mem_setRoles] using hrole
        · apply outlook_kept
          · obtain ⟨role, hrole, hbelow⟩ := h.holds
            refine ⟨h.enabled, role, ?_, hbelow⟩
            rwa [held_changed_of_ne huser]
          · exact fun hsame => absurd hsame.symm huser

theorem outlook_setEnabled (h : m.HasAccess realm) (user : String) (value : Bool) :
    Outlook m realm (.setEnabled user value) (setEnabled m realm user value) := by
  simp only [setEnabled]
  split
  · exact outlook_refused h _ _
  next hown =>
    split
    · exact outlook_refused h _ _
    · have hkeeps : KeepsChain m realm (.setEnabled user value) := trivial
      refine outlook_kept ⟨?_, h.holds⟩ hkeeps
      by_cases huser : m.actor = user
      · have hvalue : value = true := by simpa [huser] using hown
        simp [Realm.setEnabled, huser, hvalue]
      · simpa [Realm.setEnabled, Function.update_of_ne huser] using h.enabled

/-! ### Every operation -/

/-- What one operation of one of the pages means for the administrator. -/
theorem access_step (h : m.HasAccess realm) (op : Operation) :
    Outlook m realm op (step m realm op) := by
  cases op with
  | setRoles user wanted => exact outlook_setRoles h user wanted
  | setEnabled user value => exact outlook_setEnabled h user value
  | create name description members =>
      apply outlook_kept (hasAccess_create h name description members)
      trivial
  | update name description members => exact outlook_update h name description members
  | delete name => exact outlook_delete h name

/-- An administrator who has the role by itself keeps it: this is what the guards are for. -/
theorem keepsChain_of_direct (hdirect : m.identityRole ∈ realm.direct m.actor) (op : Operation)
    (haccepted : (step m realm op).2 = none) : KeepsChain m realm op := by
  have hheld : .realm m.identityRole ∈ realm.held m.actor :=
    List.mem_append_left _ (List.mem_map_of_mem hdirect)
  cases op with
  | setRoles user wanted =>
      intro huser
      subst huser
      refine ⟨.realm m.identityRole, List.mem_append_left _ (List.mem_map_of_mem ?_), .refl⟩
      rw [List.mem_append]
      by_contra hnot
      obtain ⟨hwanted, hknown⟩ := not_or.1 hnot
      have hlost : m.identityRole ∈ sortedNames
          (((realm.direct m.actor).filter realm.handedOut.contains).filter fun name =>
            !wanted.contains name) := by
        simp only [mem_sortedNames, List.mem_filter, hdirect, true_and]
        simp only [List.mem_filter, hdirect, true_and, decide_eq_true_eq, not_not] at hknown
        simp [hknown, hwanted]
      simp only [step, setRoles] at haccepted
      split at haccepted
      · cases haccepted
      · split at haccepted
        · cases haccepted
        · rw [if_pos ⟨trivial, hlost⟩] at haccepted
          cases haccepted
  | setEnabled => trivial
  | create => trivial
  | update name description members => exact ⟨_, hheld, .refl⟩
  | delete name =>
      refine ⟨_, hheld, ?_, .refl⟩
      rintro ⟨rfl⟩
      have hbuiltIn : m.builtIn m.identityRole = true := by simp [Manager.builtIn]
      simp only [step, delete, requireEditable, hbuiltIn, if_true] at haccepted
      split at haccepted
      · cases haccepted
      next hrefusal =>
        split at hrefusal
        · cases hrefusal
        · cases hrefusal

/-! ### Runs -/

/-- A realm where the signed-in account has the role the pages ask for through another one. -/
def opsRealm : Realm where
  roles := ["ops", "papaia-identity"]
  members := fun role => if role = .realm "ops" then [.realm "papaia-identity"] else []
  descriptions := fun _ => ""
  users := ["anna"]
  direct := fun user => if user = "anna" then ["ops"] else []
  granted := fun _ => []
  enabled := fun _ => true
  known := by
    intro role name h
    split at h
    · obtain rfl := Role.realm.inj (List.mem_singleton.1 h)
      decide
    · cases h
  unused := by
    intro name h
    have hne : name ≠ "ops" := by
      rintro rfl
      exact h (by decide)
    simp [hne]

theorem opsRealm_hasAccess : exampleManager.HasAccess opsRealm where
  enabled := rfl
  holds := by
    refine ⟨.realm "ops", by decide, .single ?_⟩
    unfold Realm.Contains
    decide

end Papaia.Identity
