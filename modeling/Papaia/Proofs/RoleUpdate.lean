/-
Module: Papaia.Proofs.RoleUpdate
Purpose: When an update of a role either changes the role completely or writes nothing.
Trusted boundary: Keycloak carries out what it is asked for; descriptions are compared as the page
  shows them, without blanks at their ends
Main exports: Admissible, update_of_admissible, AllOrNothing, update_all_or_nothing_iff
-/
import Papaia.Lib.Lines
import Papaia.Proofs.RoleGraph

namespace Papaia.Identity

open Text Lines

variable {m : Manager} {realm : Realm} {name description : String} {members : List String}

/-! ### What is checked -/

/-- Nothing that is checked before the first write speaks against the update. -/
structure Admissible (m : Manager) (realm : Realm) (name description : String)
    (members : List String) : Prop where
  shown : isTechnicalRole name = false
  own : m.builtIn name = false
  short : (strip description).length ≤ maxDescription
  listed : name ∈ realm.handedOut
  given : ∀ member ∈ members, member ∈ realm.handedOut
  loopless : ∀ member ∈ members, member ∉ realm.composites name → realm.reaches member name = false

/-- `InvalidInput` or a `KeycloakError`. -/
def Refusal.answered : Refusal → Bool
  | .keyError _ => false
  | _ => true

theorem requireKnownRoles_cases (wanted known : List String) :
    (requireKnownRoles wanted known = none ∧ ∀ name ∈ wanted, name ∈ known) ∨
      (∃ names, requireKnownRoles wanted known = some (.unknownRoles names)) ∧
        ∃ name ∈ wanted, name ∉ known := by
  cases hrequire : requireKnownRoles wanted known with
  | none => exact .inl ⟨rfl, mem_of_requireKnownRoles hrequire⟩
  | some refusal =>
      refine .inr ?_
      unfold requireKnownRoles at hrequire
      split at hrequire
      next => cases hrequire
      next unknown hne =>
        refine ⟨⟨_, hrequire.symm⟩, ?_⟩
        obtain ⟨name, hname⟩ := List.exists_mem_of_ne_nil _ hne
        rw [mem_sortedNames, List.mem_filter] at hname
        exact ⟨name, hname.1, by simpa using hname.2⟩

/-- The checks of the input pass, or what they raise is an answer. -/
theorem updateRefusal_cases :
    (updateRefusal m realm name description members = none ∧ isTechnicalRole name = false ∧
        m.builtIn name = false ∧ (strip description).length ≤ maxDescription ∧
        name ∈ realm.handedOut ∧ ∀ member ∈ members, member ∈ realm.handedOut) ∨
      (∃ refusal, updateRefusal m realm name description members = some refusal ∧
        refusal.answered = true) ∧ ¬Admissible m realm name description members := by
  unfold updateRefusal requireEditable
  cases htechnical : isTechnicalRole name with
  | true => exact .inr ⟨⟨_, rfl, rfl⟩, fun h => by rw [h.shown] at htechnical; cases htechnical⟩
  | false =>
      cases hown : m.builtIn name with
      | true => exact .inr ⟨⟨_, rfl, rfl⟩, fun h => by rw [h.own] at hown; cases hown⟩
      | false =>
          simp only [Bool.false_eq_true, if_false]
          by_cases hlong : maxDescription < (strip description).length
          · rw [if_pos hlong]
            exact .inr ⟨⟨_, rfl, rfl⟩, fun h => Nat.not_le.2 hlong h.short⟩
          · rw [if_neg hlong]
            by_cases hlisted : name ∈ realm.handedOut
            · rw [if_neg (by simpa using hlisted)]
              rcases requireKnownRoles_cases (sortedNames members) realm.handedOut with
                ⟨hnone, hall⟩ | ⟨⟨names, hsome⟩, member, hmember, hunknown⟩
              · refine .inl ⟨hnone, trivial, trivial, Nat.le_of_not_lt hlong, hlisted, ?_⟩
                exact fun member hmember => hall member (mem_sortedNames.2 hmember)
              · refine .inr ⟨⟨_, hsome, rfl⟩, ?_⟩
                exact fun h => hunknown (h.given member (mem_sortedNames.1 hmember))
            · rw [if_pos (by simpa using hlisted)]
              exact .inr ⟨⟨_, rfl, rfl⟩, fun h => hlisted h.listed⟩

/-! ### What an update does -/

/-- The realm with the description and the new members. -/
def added (realm : Realm) (name description : String) (members : List String) : Realm :=
  (realm.describeRole name (strip description)).addComposites name (toAdd realm name members)

/-- An admissible update writes; it then fails where a member that is taken out is not handed out. -/
theorem update_of_admissible (h : Admissible m realm name description members) :
    update m realm name description members =
      match (toRemove realm name members).find? fun member => !realm.handedOut.contains member with
      | some member => (added realm name description members, some (.keyError member))
      | none => ((added realm name description members).removeComposites name
          (toRemove realm name members), none) := by
  rcases @updateRefusal_cases m realm name description members with ⟨hnone, -⟩ | ⟨-, hbad⟩
  · have hloop : ((toAdd realm name members).find? fun member => realm.reaches member name) = none := by
      rw [List.find?_eq_none]
      intro member hmember
      rw [mem_toAdd] at hmember
      simp [h.loopless member hmember.1 hmember.2]
    simp only [update, hnone, hloop]
    rfl
  · exact absurd h hbad

/-- Any other update is answered and writes nothing. -/
theorem update_of_not_admissible (h : ¬Admissible m realm name description members) :
    ∃ refusal, update m realm name description members = (realm, some refusal) ∧
      refusal.answered = true := by
  rcases @updateRefusal_cases m realm name description members with
    ⟨hnone, hshown, hown, hshort, hlisted, hmembers⟩ | ⟨⟨refusal, hsome, hanswered⟩, -⟩
  · simp only [update, hnone]
    cases hloop : (toAdd realm name members).find? fun member => realm.reaches member name with
    | some member => exact ⟨_, rfl, rfl⟩
    | none =>
        exfalso
        apply h
        refine ⟨hshown, hown, hshort, hlisted, hmembers, ?_⟩
        intro member hmember hnew
        have hno := List.find?_eq_none.1 hloop member (mem_toAdd.2 ⟨hmember, hnew⟩)
        simpa using hno
  · exact ⟨refusal, by simp only [update, hsome], hanswered⟩

/-! ### Completely or not at all -/

/-- The role is what it was asked to be; its technical members and those of clients are what they
were. -/
structure Updated (before after : Realm) (name description : String) (members : List String) :
    Prop where
  description : strip (after.descriptions name) = strip description
  shown : ∀ other, isTechnicalRole other = false →
    (Role.realm other ∈ after.members (.realm name) ↔ other ∈ members)
  technical : ∀ other, isTechnicalRole other = true →
    (Role.realm other ∈ after.members (.realm name) ↔ Role.realm other ∈ before.members (.realm name))
  clients : ∀ client other, Role.client client other ∈ after.members (.realm name) ↔
    Role.client client other ∈ before.members (.realm name)

/-- An update returns and has changed the role, or is answered and has written nothing. -/
def AllOrNothing (m : Manager) (realm : Realm) (name description : String) (members : List String) :
    Prop :=
  ((update m realm name description members).2 = none ∧
      Updated realm (update m realm name description members).1 name description members) ∨
    ∃ refusal, update m realm name description members = (realm, some refusal) ∧
      refusal.answered = true

theorem isTechnicalRole_of_handedOut {other : String} (h : other ∈ realm.handedOut) :
    isTechnicalRole other = false := by
  have hkept := (List.mem_filter.1 h).2
  simpa using hkept

theorem descriptions_addComposites {names : List String} :
    (realm.addComposites name names).descriptions = realm.descriptions := by
  unfold Realm.addComposites
  split <;> rfl

theorem descriptions_removeComposites {names : List String} :
    (realm.removeComposites name names).descriptions = realm.descriptions := by
  unfold Realm.removeComposites
  split <;> rfl

/-- The description that is written is the given one. -/
theorem strip_describeRole :
    strip ((realm.describeRole name (strip description)).descriptions name) = strip description := by
  unfold Realm.describeRole
  dsimp only
  split
  next hsame => exact hsame.symm
  next => rw [Function.update_self, strip_strip]

/-- A role without members that are not handed out is changed completely. -/
theorem updated_of_handedOut (h : Admissible m realm name description members)
    (hall : ∀ member ∈ realm.composites name, member ∈ realm.handedOut) :
    Updated realm ((added realm name description members).removeComposites name
      (toRemove realm name members)) name description members := by
  have hname : name ∈ (realm.describeRole name (strip description)).roles := by
    rw [roles_describeRole]
    exact mem_handedOut h.listed
  have hadd : ∀ other ∈ toAdd realm name members,
      other ∈ (realm.describeRole name (strip description)).roles := by
    intro other hother
    rw [roles_describeRole]
    exact mem_handedOut (h.given other (mem_toAdd.1 hother).1)
  have hroles : name ∈ (added realm name description members).roles := by
    rw [added, roles_addComposites]
    exact hname
  have hcontains : ∀ role, role ∈ ((added realm name description members).removeComposites name
      (toRemove realm name members)).members (.realm name) ↔
        (role ∈ realm.members (.realm name) ∨ role ∈ (toAdd realm name members).map Role.realm) ∧
          role ∉ (toRemove realm name members).map Role.realm := by
    intro role
    have hremoved := @contains_removeComposites (added realm name description members) name
      (toRemove realm name members) hroles (.realm name) role
    have hadded := @contains_addComposites (realm.describeRole name (strip description)) name
      (toAdd realm name members) hname hadd (.realm name) role
    unfold Realm.Contains at hremoved hadded
    rw [hremoved, added, hadded]
    simp [members_describeRole]
  have hrealm : ∀ other, Role.realm other ∈ ((added realm name description members).removeComposites
      name (toRemove realm name members)).members (.realm name) ↔ other ∈ members := by
    intro other
    have hold : Role.realm other ∈ realm.members (.realm name) ↔ other ∈ realm.composites name :=
      mem_realmNames.symm
    rw [hcontains, hold, List.mem_map_of_injective fun _ _ => Role.realm.inj,
      List.mem_map_of_injective fun _ _ => Role.realm.inj, mem_toAdd, mem_toRemove]
    by_cases hin : other ∈ realm.composites name <;> simp [hin]
  constructor
  case description =>
    rw [descriptions_removeComposites, added, descriptions_addComposites, strip_describeRole]
  case shown =>
    intro other _
    exact hrealm other
  case technical =>
    intro other htechnical
    have hnot : other ∉ realm.handedOut := by
      intro hmem
      rw [isTechnicalRole_of_handedOut hmem] at htechnical
      cases htechnical
    rw [hrealm]
    apply iff_of_false
    · intro hmem
      exact hnot (h.given other hmem)
    · intro hmem
      have hold : other ∈ realm.composites name := mem_realmNames.2 hmem
      exact hnot (hall other hold)
  case clients =>
    intro client other
    rw [hcontains]
    simp

/-- An update is all or nothing exactly where, if nothing speaks against it, every realm role the role
contains is handed out: none is technical or beyond the roles that are listed. -/
theorem update_all_or_nothing_iff :
    AllOrNothing m realm name description members ↔
      (Admissible m realm name description members →
        ∀ member ∈ realm.composites name, member ∈ realm.handedOut) := by
  constructor
  · intro hwhole h member hmember
    by_contra hnot
    have hremove : member ∈ toRemove realm name members :=
      mem_toRemove.2 ⟨hmember, fun hgiven => hnot (h.given member hgiven)⟩
    have hupdate := update_of_admissible h
    cases hfind : (toRemove realm name members).find? fun member =>
        !realm.handedOut.contains member with
    | none =>
        have hno := List.find?_eq_none.1 hfind member hremove
        simp [hnot] at hno
    | some missing =>
        rw [hfind] at hupdate
        rcases hwhole with ⟨hreturns, -⟩ | ⟨refusal, hrefused, hanswered⟩
        · rw [hupdate] at hreturns
          cases hreturns
        · rw [hupdate] at hrefused
          obtain rfl := Option.some.inj (Prod.mk.inj hrefused).2
          cases hanswered
  · intro hall
    by_cases h : Admissible m realm name description members
    · have hfind : ((toRemove realm name members).find? fun member =>
          !realm.handedOut.contains member) = none := by
        rw [List.find?_eq_none]
        intro member hmember
        simp [hall h member (mem_toRemove.1 hmember).1]
      have hupdate := update_of_admissible h
      rw [hfind] at hupdate
      unfold AllOrNothing
      rw [hupdate]
      exact Or.inl ⟨rfl, updated_of_handedOut h (hall h)⟩
    · exact Or.inr (update_of_not_admissible h)

/-- A realm where a role contains one of Keycloak's own roles. -/
def offlineRealm : Realm where
  roles := ["team", "offline_access"]
  members := fun role => if role = .realm "team" then [.realm "offline_access"] else []
  descriptions := fun _ => ""
  users := []
  direct := fun _ => []
  granted := fun _ => []
  enabled := fun _ => true
  known := by
    intro role name h
    split at h
    · obtain rfl := Role.realm.inj (List.mem_singleton.1 h)
      decide
    · cases h
  unused := by
    intro name h
    have hne : name ≠ "team" := by
      rintro rfl
      exact h (by decide)
    simp [hne]

/-- The new description is written, and then the update ends with an error of the manager itself. -/
theorem technical_member_breaks_update :
    ¬AllOrNothing exampleManager offlineRealm "team" "The team" [] ∧
      (update exampleManager offlineRealm "team" "The team" []).2 =
        some (.keyError "offline_access") ∧
      (update exampleManager offlineRealm "team" "The team" []).1.descriptions "team" = "The team" := by
  have hraised : (update exampleManager offlineRealm "team" "The team" []).2 =
      some (.keyError "offline_access") := by decide
  refine ⟨?_, hraised, by decide⟩
  rintro (⟨hreturns, -⟩ | ⟨refusal, hrefused, hanswered⟩)
  · rw [hraised] at hreturns
    cases hreturns
  · rw [hrefused] at hraised
    obtain rfl := Option.some.inj hraised
    cases hanswered

end Papaia.Identity
