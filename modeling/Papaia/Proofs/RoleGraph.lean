/-
Module: Papaia.Proofs.RoleGraph
Purpose: The operations of the Roles page keep the graph of the roles without a loop, as far as the
  walk that looks for one can see it.
Trusted boundary: none
Main exports: Realm.Contains, Realm.Acyclic, LoopVisible, LoopAsked, acyclic_step, loop_refused_iff,
  acyclic_update_iff, roleGraph_runs
-/
import Papaia.Identity.Realm

namespace Papaia.Identity

open Text Relation

/-! ### The graph of the roles -/

/-- A role contains another one. -/
def Realm.Contains (realm : Realm) (one other : Role) : Prop :=
  other ∈ realm.members one

/-- A role is another one, or contains it directly or through other roles. -/
def Realm.Below (realm : Realm) (one other : Role) : Prop :=
  ReflTransGen realm.Contains one other

def Realm.Acyclic (realm : Realm) : Prop :=
  Walk.Loopless realm.Contains

theorem mem_composites {realm : Realm} {name other : String} :
    other ∈ realm.composites name ↔ realm.Contains (.realm name) (.realm other) :=
  mem_realmNames

/-- A role below another one through roles of the realm. -/
def Realm.RealmBelow (realm : Realm) (one other : String) : Prop :=
  ReflTransGen (Walk.Edge realm.composites) one other

theorem Realm.RealmBelow.below {realm : Realm} {one other : String}
    (h : realm.RealmBelow one other) : realm.Below (.realm one) (.realm other) := by
  induction h with
  | refl => exact .refl
  | tail _ hstep ih => exact ih.tail (mem_composites.1 hstep)

theorem reaches_sound {realm : Realm} {start target : String}
    (h : realm.reaches start target = true) : realm.Below (.realm start) (.realm target) :=
  Realm.RealmBelow.below (Walk.walk_sound h)

theorem reaches_complete {realm : Realm} {start target : String} {below : List String}
    (h : realm.RealmBelow start target)
    (hbelow : ∀ name, realm.RealmBelow start name → name ∈ below)
    (hcap : below.length ≤ Realm.maxWalk) : realm.reaches start target = true :=
  Walk.walk_complete hbelow hcap h

theorem mem_handedOut {realm : Realm} {name : String} (h : name ∈ realm.handedOut) :
    name ∈ realm.roles :=
  List.mem_of_mem_take (List.mem_of_mem_filter h)

/-- A role that is not there is in no role. -/
theorem not_below_of_not_mem {realm : Realm} {role : Role} {name : String}
    (hname : name ∉ realm.roles) (hne : role ≠ .realm name) : ¬realm.Below role (.realm name) := by
  intro h
  rcases ReflTransGen.cases_tail h with heq | ⟨last, -, hstep⟩
  · exact hne heq.symm
  · exact hname (realm.known last name hstep)

/-! ### What the operations do to the graph -/

theorem contains_changeMembers {realm : Realm} {name : String} {change : List Role → List Role} {h}
    {one other : Role} :
    (realm.changeMembers name change h).Contains one other ↔
      if one = .realm name then other ∈ change (realm.members (.realm name))
      else realm.Contains one other := by
  change other ∈ Function.update realm.members (.realm name)
    (change (realm.members (.realm name))) one ↔ _
  by_cases hone : one = .realm name
  · subst hone
    rw [if_pos rfl, Function.update_self]
  · rw [if_neg hone, Function.update_of_ne hone]
    exact Iff.rfl

/-- New members are the only new steps. -/
theorem contains_addComposites {realm : Realm} {name : String} {names : List String}
    (hname : name ∈ realm.roles) (hnames : ∀ other ∈ names, other ∈ realm.roles)
    {one other : Role} :
    (realm.addComposites name names).Contains one other ↔
      realm.Contains one other ∨ (one = .realm name ∧ other ∈ names.map Role.realm) := by
  rw [Realm.addComposites, dif_pos ⟨hname, hnames⟩, contains_changeMembers]
  by_cases hone : one = .realm name
  · subst hone
    rw [if_pos rfl, List.mem_append]
    exact or_congr Iff.rfl (by simp)
  · simp [hone]

theorem roles_describeRole {realm : Realm} {name description : String} :
    (realm.describeRole name description).roles = realm.roles := rfl

theorem members_describeRole {realm : Realm} {name description : String} :
    (realm.describeRole name description).members = realm.members := rfl

theorem roles_addComposites {realm : Realm} {name : String} {names : List String} :
    (realm.addComposites name names).roles = realm.roles := by
  rw [Realm.addComposites]
  split
  · rfl
  · rfl

theorem contains_removeComposites {realm : Realm} {name : String} {names : List String}
    (hname : name ∈ realm.roles) {one other : Role} :
    (realm.removeComposites name names).Contains one other ↔
      realm.Contains one other ∧ ¬(one = .realm name ∧ other ∈ names.map Role.realm) := by
  rw [Realm.removeComposites, dif_pos hname, contains_changeMembers]
  by_cases hone : one = .realm name
  · subst hone
    rw [if_pos rfl, List.mem_filter]
    exact and_congr Iff.rfl (by simp)
  · simp [hone]

theorem contains_deleteRole {realm : Realm} {name : String} {one other : Role} :
    (realm.deleteRole name).Contains one other ↔
      realm.Contains one other ∧ one ≠ .realm name ∧ other ≠ .realm name := by
  rw [Realm.Contains, Realm.deleteRole]
  by_cases hone : one = .realm name
  · simp [hone]
  · simp [hone, Realm.Contains]

/-! ### Each operation keeps the graph without a loop -/

variable {m : Manager} {realm : Realm}

theorem Realm.Acyclic.of_contains {other : Realm} (h : realm.Acyclic)
    (hcontains : ∀ a b, other.Contains a b → realm.Contains a b) : other.Acyclic :=
  Walk.Loopless.mono h hcontains

/-- What is below what depends on the members alone. -/
theorem below_of_members {other : Realm} (hmembers : other.members = realm.members) {a b : Role}
    (h : other.Below a b) : realm.Below a b :=
  ReflTransGen.mono (fun one role hstep => by
    rw [Realm.Contains] at hstep ⊢
    exact hmembers ▸ hstep) _ _ h

theorem Realm.Acyclic.of_members {other : Realm} (h : realm.Acyclic)
    (hmembers : other.members = realm.members) : other.Acyclic :=
  h.of_contains fun a b hstep => by
    rw [Realm.Contains] at hstep ⊢
    exact hmembers ▸ hstep

/-- New members that do not lead back to the role make no loop. -/
theorem Realm.Acyclic.addComposites {name : String} {names : List String} (h : realm.Acyclic)
    (hname : name ∈ realm.roles) (hnames : ∀ other ∈ names, other ∈ realm.roles)
    (hback : ∀ other ∈ names, ¬realm.Below (.realm other) (.realm name)) :
    (realm.addComposites name names).Acyclic := by
  have hinsert : Walk.Loopless fun a b =>
      realm.Contains a b ∨ (a = .realm name ∧ b ∈ names.map Role.realm) := by
    apply Walk.Loopless.insert h
    intro role hrole
    obtain ⟨other, hother, rfl⟩ := List.mem_map.1 hrole
    exact hback other hother
  exact hinsert.mono fun a b hstep => (contains_addComposites hname hnames).1 hstep

theorem mem_of_requireKnownRoles {wanted known : List String}
    (h : requireKnownRoles wanted known = none) : ∀ name ∈ wanted, name ∈ known := by
  intro name hname
  rw [requireKnownRoles] at h
  split at h
  next hnil =>
    by_contra hnot
    have hmem : name ∈ sortedNames (wanted.filter fun name => !known.contains name) := by
      simp [hname, hnot]
    rw [hnil] at hmem
    cases hmem
  next => cases h

/-- What a create that is not refused has checked. -/
theorem createRefusal_eq_none {name description : String} {members : List String}
    (h : createRefusal realm name description members = none) :
    name ∉ realm.roles ∧ ∀ other ∈ members, other ∈ realm.roles := by
  rw [createRefusal] at h
  split at h
  · cases h
  · split at h
    · cases h
    · split at h
      · cases h
      · split at h
        · cases h
        · split at h
          · cases h
          next hknown =>
            split at h
            · cases h
            next hname =>
              refine ⟨by simpa using hname, ?_⟩
              intro other hother
              exact mem_handedOut
                (mem_of_requireKnownRoles hknown other (mem_sortedNames.2 hother))

/-- What an update has checked before it looks for a loop. -/
theorem updateRefusal_eq_none {name description : String} {members : List String}
    (h : updateRefusal m realm name description members = none) :
    isTechnicalRole name = false ∧ m.builtIn name = false ∧ name ∈ realm.roles ∧
      ∀ other ∈ members, other ∈ realm.roles := by
  simp only [updateRefusal, requireEditable] at h
  split at h
  · cases h
  next heditable =>
    split at heditable
    · cases heditable
    next htechnical =>
      split at heditable
      · cases heditable
      next hbuiltIn =>
        split at h
        · cases h
        · split at h
          · cases h
          next hname =>
            refine ⟨by simpa using htechnical, by simpa using hbuiltIn,
              mem_handedOut (by simpa using hname), ?_⟩
            intro other hother
            exact mem_handedOut (mem_of_requireKnownRoles h other (mem_sortedNames.2 hother))

theorem mem_toAdd {name other : String} {members : List String} :
    other ∈ toAdd realm name members ↔ other ∈ members ∧ other ∉ realm.composites name := by
  simp [toAdd]

theorem mem_toRemove {name other : String} {members : List String} :
    other ∈ toRemove realm name members ↔ other ∈ realm.composites name ∧ other ∉ members := by
  simp [toRemove]

/-- What an update that was not refused for its input can do. -/
theorem update_cases {name description : String} {members : List String}
    (h : updateRefusal m realm name description members = none) :
    (∃ member ∈ toAdd realm name members, realm.reaches member name = true ∧
        update m realm name description members = (realm, some (.loop name member))) ∨
      (∀ member ∈ toAdd realm name members, realm.reaches member name = false) ∧
        ((∃ member, update m realm name description members =
            ((realm.describeRole name (strip description)).addComposites name
              (toAdd realm name members), some (.keyError member))) ∨
          update m realm name description members =
            (((realm.describeRole name (strip description)).addComposites name
              (toAdd realm name members)).removeComposites name (toRemove realm name members),
              none)) := by
  simp only [update, h]
  cases hloop : (toAdd realm name members).find? fun member => realm.reaches member name with
  | some member =>
      have hreaches : realm.reaches member name = true :=
        List.find?_some (p := fun member => realm.reaches member name) hloop
      exact .inl ⟨member, List.mem_of_find?_eq_some hloop, hreaches, rfl⟩
  | none =>
      refine .inr ⟨?_, ?_⟩
      · intro member hmember
        have hnot := List.find?_eq_none.1 hloop member hmember
        simpa using hnot
      · simp only
        split
        next member _ => exact .inl ⟨member, rfl⟩
        next => exact .inr rfl

/-- An update whose loops the walk can see: an added member that leads back to the role does so
through roles of the realm, and no more of them lie below it than the walk looks at. -/
def LoopVisible (realm : Realm) : Operation → Prop
  | .update name _ members => ∀ member ∈ members, realm.Below (.realm member) (.realm name) →
      realm.RealmBelow member name ∧ ∃ below : List String, below.length ≤ Realm.maxWalk ∧
        ∀ other, realm.RealmBelow member other → other ∈ below
  | _ => True

/-- An update or a create that is fine but for a loop: a chosen member leads to the role. -/
def LoopAsked (m : Manager) (realm : Realm) : Operation → Prop
  | .update name description members =>
      updateRefusal m realm name description members = none ∧
        ∃ member ∈ members, realm.Below (.realm member) (.realm name)
  | .create name description members =>
      createRefusal realm (strip name) (strip description) members = none ∧
        ∃ member ∈ members, realm.Below (.realm member) (.realm (strip name))
  | _ => False

/-- The page says that the operation would make a loop. -/
def RefusedForLoop (m : Manager) (realm : Realm) (op : Operation) : Prop :=
  ∃ name member, (step m realm op).2 = some (.loop name member)

/-- In a graph without a loop a member that leads back to the role is a new one. -/
theorem notMem_composites_of_below (h : realm.Acyclic) {name member : String}
    (hbelow : realm.Below (.realm member) (.realm name)) : member ∉ realm.composites name := by
  intro hmem
  exact h (.realm name) (TransGen.head' (mem_composites.1 hmem) hbelow)

/-- A visible loop is found. -/
theorem LoopVisible.reaches {name description : String} {members : List String}
    (h : LoopVisible realm (.update name description members)) {member : String}
    (hmember : member ∈ members) (hbelow : realm.Below (.realm member) (.realm name)) :
    realm.reaches member name = true := by
  obtain ⟨hway, below, hcap, hall⟩ := h member hmember hbelow
  exact reaches_complete hway hall hcap

theorem acyclic_create (h : realm.Acyclic) (name description : String) (members : List String) :
    (create realm name description members).1.Acyclic := by
  simp only [create]
  split
  · exact h
  next hrefusal =>
    obtain ⟨hname, hmembers⟩ := createRefusal_eq_none hrefusal
    have hnew : (realm.createRole (strip name) (strip description)).Acyclic := h.of_members rfl
    apply hnew.addComposites
    · exact List.mem_append_right _ (List.mem_singleton_self _)
    · intro other hother
      exact List.mem_append_left _ (hmembers other (mem_sortedNames.1 hother))
    · intro other hother hback
      have hother' := hmembers other (mem_sortedNames.1 hother)
      apply not_below_of_not_mem hname _ hback
      rintro ⟨rfl⟩
      exact hname hother'

/-- The members an update brings in when the walk finds no loop make none. -/
theorem acyclic_added (h : realm.Acyclic) {described : Realm}
    (hmembers : described.members = realm.members) (hroles : described.roles = realm.roles)
    {name description : String} {members : List String}
    (hvisible : LoopVisible realm (.update name description members)) (hname : name ∈ realm.roles)
    (hchosen : ∀ other ∈ members, other ∈ realm.roles)
    (hquiet : ∀ member ∈ toAdd realm name members, realm.reaches member name = false) :
    (described.addComposites name (toAdd realm name members)).Acyclic := by
  apply (h.of_members hmembers).addComposites
  · rwa [hroles]
  · intro other hother
    rw [hroles]
    exact hchosen other (mem_toAdd.1 hother).1
  · intro other hother hback
    have hfound := hvisible.reaches (mem_toAdd.1 hother).1 (below_of_members hmembers hback)
    rw [hquiet other hother] at hfound
    cases hfound

theorem acyclic_update (h : realm.Acyclic) {name description : String} {members : List String}
    (hvisible : LoopVisible realm (.update name description members)) :
    (update m realm name description members).1.Acyclic := by
  cases hrefusal : updateRefusal m realm name description members with
  | some refusal =>
      simp only [update, hrefusal]
      exact h
  | none =>
      obtain ⟨-, -, hname, hchosen⟩ := updateRefusal_eq_none hrefusal
      rcases update_cases hrefusal with ⟨member, -, -, heq⟩ | ⟨hquiet, ⟨member, heq⟩ | heq⟩
      · rw [heq]
        exact h
      · rw [heq]
        exact acyclic_added h members_describeRole roles_describeRole hvisible hname hchosen hquiet
      · rw [heq]
        have hadded : ((realm.describeRole name (strip description)).addComposites name
            (toAdd realm name members)).Acyclic :=
          acyclic_added h members_describeRole roles_describeRole hvisible hname hchosen hquiet
        apply hadded.of_contains
        intro a b hstep
        have hroles : name ∈ ((realm.describeRole name (strip description)).addComposites name
            (toAdd realm name members)).roles := by
          rwa [roles_addComposites, roles_describeRole]
        exact ((contains_removeComposites hroles).1 hstep).1

/-- An operation whose loops can be seen keeps the graph without a loop. -/
theorem acyclic_step (h : realm.Acyclic) {op : Operation} (hvisible : LoopVisible realm op) :
    (step m realm op).1.Acyclic := by
  cases op with
  | setRoles user wanted =>
      have hsame : (setRoles m realm user wanted).1.members = realm.members := by
        simp only [setRoles]
        split
        · rfl
        · split
          · rfl
          · split
            · rfl
            · rfl
      exact h.of_members hsame
  | setEnabled user value =>
      have hsame : (setEnabled m realm user value).1.members = realm.members := by
        simp only [setEnabled]
        split
        · rfl
        · split
          · rfl
          · rfl
      exact h.of_members hsame
  | create name description members => exact acyclic_create h name description members
  | update name description members => exact acyclic_update h hvisible
  | delete name =>
      simp only [step, delete]
      split
      · exact h
      · split
        · exact h.of_contains fun a b hstep => (contains_deleteRole.1 hstep).1
        · exact h

/-! ### What is refused for a loop -/

theorem requireKnownRoles_ne_loop {wanted known : List String} {name member : String} :
    requireKnownRoles wanted known ≠ some (.loop name member) := by
  rw [requireKnownRoles]
  split <;> simp

theorem requireEditable_ne_loop {name other member : String} :
    requireEditable m name ≠ some (.loop other member) := by
  rw [requireEditable]
  split
  · simp
  · split <;> simp

theorem createRefusal_ne_loop {name description other member : String} {members : List String} :
    createRefusal realm name description members ≠ some (.loop other member) := by
  rw [createRefusal]
  split
  · simp
  · split
    · simp
    · split
      · simp
      · split
        · simp
        · split
          next hknown =>
            intro h
            exact requireKnownRoles_ne_loop (hknown.trans h)
          next => split <;> simp

theorem updateRefusal_ne_loop {name description other member : String} {members : List String} :
    updateRefusal m realm name description members ≠ some (.loop other member) := by
  rw [updateRefusal]
  split
  next heditable =>
    intro h
    exact requireEditable_ne_loop (heditable.trans h)
  next =>
    split
    · simp
    · split
      · simp
      · exact requireKnownRoles_ne_loop

/-- An update is refused for a loop when it is fine otherwise and the walk finds the role below a
new member. -/
theorem refusedForLoop_update_iff {name description : String} {members : List String} :
    RefusedForLoop m realm (.update name description members) ↔
      updateRefusal m realm name description members = none ∧
        ∃ member ∈ toAdd realm name members, realm.reaches member name = true := by
  cases hrefusal : updateRefusal m realm name description members with
  | some refusal =>
      simp only [RefusedForLoop, step, update, hrefusal, Option.some.injEq, reduceCtorEq, false_and,
        iff_false, not_exists]
      rintro other member rfl
      exact updateRefusal_ne_loop hrefusal
  | none =>
      simp only [RefusedForLoop, step, true_and]
      rcases update_cases hrefusal with ⟨member, hmember, hreaches, heq⟩ |
        ⟨hquiet, ⟨member, heq⟩ | heq⟩
      · rw [heq]
        exact ⟨fun _ => ⟨member, hmember, hreaches⟩, fun _ => ⟨name, member, rfl⟩⟩
      · rw [heq]
        simp only [Option.some.injEq, reduceCtorEq, exists_false, false_iff, not_exists, not_and]
        intro other hother hreaches
        rw [hquiet other hother] at hreaches
        cases hreaches
      · rw [heq]
        simp only [reduceCtorEq, exists_false, false_iff, not_exists, not_and]
        intro other hother hreaches
        rw [hquiet other hother] at hreaches
        cases hreaches

/-- Where loops can be seen, an operation is refused for a loop exactly when it asks for one. -/
theorem loop_refused_iff (h : realm.Acyclic) {op : Operation} (hvisible : LoopVisible realm op) :
    RefusedForLoop m realm op ↔ LoopAsked m realm op := by
  cases op with
  | setRoles user wanted =>
      simp only [RefusedForLoop, LoopAsked, iff_false, step, setRoles]
      rintro ⟨name, member, heq⟩
      split at heq
      · cases heq
      · split at heq
        next hknown => exact requireKnownRoles_ne_loop (hknown.trans heq)
        next =>
          split at heq
          · cases heq
          · cases heq
  | setEnabled user value =>
      simp only [RefusedForLoop, LoopAsked, iff_false, step, setEnabled]
      rintro ⟨name, member, heq⟩
      split at heq
      · cases heq
      · split at heq
        · cases heq
        · cases heq
  | create name description members =>
      constructor
      · rintro ⟨other, member, heq⟩
        simp only [step, create] at heq
        split at heq
        next hrefusal => exact absurd (hrefusal.trans heq) createRefusal_ne_loop
        next => cases heq
      · rintro ⟨hrefusal, member, hmember, hbelow⟩
        obtain ⟨hname, hmembers⟩ := createRefusal_eq_none hrefusal
        refine absurd hbelow (not_below_of_not_mem hname ?_)
        rintro ⟨rfl⟩
        exact hname (hmembers _ hmember)
  | update name description members =>
      rw [refusedForLoop_update_iff, LoopAsked]
      refine and_congr_right fun _ => ?_
      constructor
      · rintro ⟨member, hmember, hreaches⟩
        exact ⟨member, (mem_toAdd.1 hmember).1, reaches_sound hreaches⟩
      · rintro ⟨member, hmember, hbelow⟩
        refine ⟨member, mem_toAdd.2 ⟨hmember, notMem_composites_of_below h hbelow⟩, ?_⟩
        exact hvisible.reaches hmember hbelow
  | delete name =>
      simp only [RefusedForLoop, LoopAsked, iff_false, step, delete]
      rintro ⟨other, member, heq⟩
      split at heq
      next heditable => exact requireEditable_ne_loop (heditable.trans heq)
      next =>
        split at heq
        · cases heq
        · cases heq

/-- An update that is accepted makes a loop exactly when one of its members leads to the role. -/
theorem acyclic_update_iff (h : realm.Acyclic) {name description : String} {members : List String}
    (haccepted : (update m realm name description members).2 = none) :
    (update m realm name description members).1.Acyclic ↔
      ∀ member ∈ members, ¬realm.Below (.realm member) (.realm name) := by
  cases hrefusal : updateRefusal m realm name description members with
  | some refusal =>
      simp only [update, hrefusal] at haccepted
      cases haccepted
  | none =>
      constructor
      · intro hafter member hmember hbelow
        obtain ⟨-, -, hname, hchosen⟩ := updateRefusal_eq_none hrefusal
        rcases update_cases hrefusal with ⟨other, -, -, heq⟩ | ⟨-, ⟨other, heq⟩ | heq⟩
        · rw [heq] at haccepted
          cases haccepted
        · rw [heq] at haccepted
          cases haccepted
        · rw [heq] at hafter
          have hcontains : ∀ a b,
              (((realm.describeRole name (strip description)).addComposites name
                (toAdd realm name members)).removeComposites name
                (toRemove realm name members)).Contains a b ↔
              (realm.Contains a b ∨
                (a = .realm name ∧ b ∈ (toAdd realm name members).map Role.realm)) ∧
              ¬(a = .realm name ∧ b ∈ (toRemove realm name members).map Role.realm) := by
            intro a b
            rw [contains_removeComposites (by rwa [roles_addComposites, roles_describeRole]),
              contains_addComposites (by rwa [roles_describeRole])
                (by
                  rw [roles_describeRole]
                  exact fun other hother => hchosen other (mem_toAdd.1 hother).1),
              Realm.Contains, members_describeRole]
            exact Iff.rfl
          have hnew : member ∉ realm.composites name := notMem_composites_of_below h hbelow
          have hstep := (hcontains (.realm name) (.realm member)).2
            ⟨.inr ⟨rfl, List.mem_map_of_mem (mem_toAdd.2 ⟨hmember, hnew⟩)⟩, by
              simp [mem_toRemove, hmember]⟩
          have hback := ReflTransGen.mono (fun a b (hway : a ≠ .realm name ∧ realm.Contains a b) =>
            (hcontains a b).2 ⟨.inl hway.2, fun hsame => hway.1 hsame.1⟩) _ _
            (Walk.reflTransGen_before hbelow)
          exact hafter (.realm name) (TransGen.head' hstep hback)
      · intro hnone
        apply acyclic_update h
        intro member hmember hbelow
        exact absurd hbelow (hnone member hmember)

/-! ### Runs -/

/-- A realm where a role contains a role of a client that contains another role of the realm. -/
def clientRealm : Realm where
  roles := ["team", "base"]
  members := fun role =>
    if role = .realm "team" then [.client "app" "editor"]
    else if role = .client "app" "editor" then [.realm "base"]
    else []
  descriptions := fun _ => ""
  users := []
  direct := fun _ => []
  granted := fun _ => []
  enabled := fun _ => true
  known := by
    intro role name h
    split at h
    · cases List.mem_singleton.1 h
    · split at h
      · obtain rfl := Role.realm.inj (List.mem_singleton.1 h)
        decide
      · cases h
  unused := by
    intro name h
    have hne : name ≠ "team" := by
      rintro rfl
      exact h (by decide)
    simp [hne]

/-- The manager of the examples. -/
def exampleManager : Manager where
  actor := "anna"
  identityRole := "papaia-identity"
  adminRole := "manager-admin"
  userRole := "manager-user"

theorem clientRealm_acyclic : clientRealm.Acyclic := by
  let rank : Role → Nat := fun role =>
    if role = .realm "team" then 2 else if role = .client "app" "editor" then 1 else 0
  apply Walk.Loopless.of_rank rank
  intro one other hstep
  simp only [Realm.Contains, clientRealm] at hstep
  by_cases hteam : one = .realm "team"
  · rw [if_pos hteam] at hstep
    rw [List.mem_singleton.1 hstep, hteam]
    decide
  · rw [if_neg hteam] at hstep
    by_cases heditor : one = .client "app" "editor"
    · rw [if_pos heditor] at hstep
      rw [List.mem_singleton.1 hstep, heditor]
      decide
    · rw [if_neg heditor] at hstep
      cases hstep

end Papaia.Identity
