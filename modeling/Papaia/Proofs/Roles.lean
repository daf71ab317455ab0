/-
Module: Papaia.Proofs.Roles
Purpose: When setting the roles of a collection makes the given list the complete one.
Trusted boundary: none
Main exports: RolesSet, Settable, rolesSet_iff, setRoles_leaves
-/
import Papaia.Lib.Paired
import Papaia.Proofs.Requests

namespace Papaia.Rag

open Keyed Remote

/-! ### Points that grant something -/

/-- What a point grants to a role other than the operator on one collection. -/
def grantOf (backend : RagBackend) (name : String) (point : Point) : Option AclPoint :=
  (parseAclPoint point).filter (AclPoint.grantsOn backend name)

/-- The grants of such roles on one collection. -/
def grants (backend : RagBackend) (name : String) (points : List Point) : List AclPoint :=
  (parseAcl points).filter (AclPoint.grantsOn backend name)

/-- The grant of a role that the folded points show: the last of its points. -/
def Current (backend : RagBackend) (name : String) (points : List Point) (grant : AclPoint) :
    Prop :=
  Latest AclPoint.role (grants backend name points) grant

variable {backend : RagBackend} {name : String} {points : List Point} {point : Point}
  {grant : AclPoint}

theorem parse_id (h : parseAclPoint point = some grant) : grant.id = point.id.text := by
  unfold parseAclPoint at h
  split at h
  next =>
      split at h
      next =>
          split at h
          next => cases h
          next =>
              cases h
              rfl
      next => cases h
  next => cases h

theorem grantOf_eq_some : grantOf backend name point = some grant ↔
    parseAclPoint point = some grant ∧ grant.grantsOn backend name = true := by
  simp [grantOf, Option.filter_eq_some_iff]

theorem grantOf_id (h : grantOf backend name point = some grant) : grant.id = point.id.text :=
  parse_id (grantOf_eq_some.mp h).1

theorem grantsOn_iff : grant.grantsOn backend name = true ↔
    grant.collection = name ∧ grant.access ∈ accessLevels ∧ grant.role ≠ backend.operatorRole := by
  simp [AclPoint.grantsOn, and_assoc]

theorem mem_grants : grant ∈ grants backend name points ↔
    ∃ point ∈ points, grantOf backend name point = some grant := by
  simp only [grants, parseAcl, List.mem_filter, List.mem_filterMap, grantOf_eq_some]
  constructor
  · rintro ⟨⟨point, hmem, hparse⟩, hgrants⟩
    exact ⟨point, hmem, hparse, hgrants⟩
  · rintro ⟨point, hmem, hparse, hgrants⟩
    exact ⟨⟨point, hmem, hparse⟩, hgrants⟩

theorem parse_written {id : PointId} {role collection access : String} {policy : Val}
    {pointId : Option String} (rt : RagRuntime) (hrole : role ≠ "") (hcollection : collection ≠ "")
    (haccess : access ∈ accessLevels ++ [globalAccess]) :
    parseAclPoint ⟨id, (aclPoint rt role collection access policy pointId).payload⟩ =
      some ⟨id.text, role, collection, access, policy⟩ := by
  have hread : ∀ key value rest, Mapping.getD ((Scalar.str key, value) :: rest) key = value := by
    intro key value rest
    simp [Mapping.getD, Mapping.get?]
  have hskip : ∀ key other value rest, key ≠ other →
      Mapping.getD ((Scalar.str other, value) :: rest) key = Mapping.getD rest key := by
    intro key other value rest hne
    have hscalar : (Scalar.str key == Scalar.str other) = false := by simpa using hne
    simp [Mapping.getD, Mapping.get?, List.lookup_cons, hscalar]
  have hkept : ¬(role = "" ∨ collection = "" ∨ access ∉ accessLevels ++ [globalAccess]) := by
    simp only [hrole, hcollection, haccess, not_true_eq_false, or_self, not_false_eq_true]
  simp only [parseAclPoint, aclPoint, hread, hskip, ne_eq, String.reduceEq, not_false_eq_true]
  rw [if_neg (by simpa [and_assoc] using hkept)]

/-! ### Operators -/

theorem operatorPoint_parse (rt : RagRuntime) (backend : RagBackend) :
    parseAclPoint (operatorPoint rt backend) =
      some ⟨(operatorPoint rt backend).id.text, backend.operatorRole, globalCollection,
        globalAccess, .null⟩ :=
  parse_written rt backend.operatorSet (by decide) (by decide)

theorem operatorPoint_no_grant (rt : RagRuntime) (backend : RagBackend) (name : String) :
    grantOf backend name (operatorPoint rt backend) = none := by
  simp [grantOf, operatorPoint_parse, AclPoint.grantsOn]

theorem operatorHolds_iff : operatorHolds backend (parseAcl points) = true ↔
    ∃ point ∈ points, ∃ grant, parseAclPoint point = some grant ∧
      grant.role = backend.operatorRole ∧ grant.access = globalAccess := by
  simp only [operatorHolds, parseAcl, List.any_eq_true, List.mem_filterMap, Bool.and_eq_true,
    decide_eq_true_eq]
  constructor
  · rintro ⟨grant, ⟨point, hmem, hparse⟩, hrole, haccess⟩
    exact ⟨point, hmem, grant, hparse, hrole, haccess⟩
  · rintro ⟨point, hmem, grant, hparse, hrole, haccess⟩
    exact ⟨grant, ⟨point, hmem, hparse⟩, hrole, haccess⟩

/-- A global grant of the operator is no grant on a collection. -/
theorem global_no_grant (hparse : parseAclPoint point = some grant)
    (haccess : grant.access = globalAccess) : grantOf backend name point = none := by
  cases h : grantOf backend name point with
  | none => rfl
  | some other =>
      obtain ⟨hother, hgrants⟩ := grantOf_eq_some.mp h
      obtain rfl := Option.some.inj (hparse.symm.trans hother)
      have hlevel := (grantsOn_iff.mp hgrants).2.1
      rw [haccess] at hlevel
      exact absurd hlevel (by decide)

/-! ### The lists that are accepted -/

/-- What `normalise_grants` sees to. -/
structure Normal (backend : RagBackend) (roles : List RoleGrant) : Prop where
  named : ∀ grant ∈ roles, grant.role ≠ ""
  level : ∀ grant ∈ roles, grant.access ∈ accessLevels
  notOperator : ∀ grant ∈ roles, grant.role ≠ backend.operatorRole
  once : Distinct RoleGrant.role roles

theorem validateRole_ne {rt : RagRuntime} {role value : String}
    (h : validateRole rt role = .ok value) : value ≠ "" := by
  unfold validateRole at h
  dsimp only at h
  rintro rfl
  split at h
  next => cases h
  next hne =>
      split at h
      next => cases h
      next =>
          split at h
          next => cases h
          next => exact hne (Except.ok.inj h)

theorem takeGrants_normal {rt : RagRuntime} {seen wanted result : List RoleGrant}
    (hseen : Normal backend seen)
    (h : takeGrants rt backend.operatorRole seen wanted = .ok result) : Normal backend result := by
  induction wanted generalizing seen with
  | nil =>
      obtain rfl := Except.ok.inj h
      exact hseen
  | cons first rest ih =>
      unfold takeGrants at h
      split at h
      next => cases h
      next role hrole =>
          split at h
          next => cases h
          next hlevel =>
              split at h
              next => cases h
              next hoperator =>
                  split at h
                  next => cases h
                  next hnew =>
                      refine ih ?_ h
                      refine ⟨?_, ?_, ?_, ?_⟩
                      · simpa [or_imp, forall_and] using ⟨hseen.named, validateRole_ne hrole⟩
                      · simpa [or_imp, forall_and] using ⟨hseen.level, by simpa using hlevel⟩
                      · simpa [or_imp, forall_and] using ⟨hseen.notOperator, hoperator⟩
                      · rw [Distinct, List.map_append, List.nodup_append]
                        refine ⟨hseen.once, by simp, ?_⟩
                        intro one hone other hother
                        obtain rfl : other = role := by simpa using hother
                        rintro rfl
                        exact hnew hone

theorem normaliseGrants_normal {rt : RagRuntime} {wanted roles : List RoleGrant}
    (h : normaliseGrants rt wanted backend.operatorRole = .ok roles) : Normal backend roles := by
  unfold normaliseGrants at h
  cases htake : takeGrants rt backend.operatorRole [] wanted with
  | error e => simp [htake, Except.map] at h
  | ok result =>
      have hnormal : Normal backend result :=
        takeGrants_normal ⟨by simp, by simp, by simp, distinct_nil⟩ htake
      simp only [htake, Except.map, Except.ok.injEq] at h
      have hperm : roles.Perm result := h ▸ List.perm_insertionSort _ _
      refine ⟨?_, ?_, ?_, (hperm.map _).nodup_iff.mpr hnormal.once⟩
      · exact fun grant hmem => hnormal.named grant (hperm.mem_iff.mp hmem)
      · exact fun grant hmem => hnormal.level grant (hperm.mem_iff.mp hmem)
      · exact fun grant hmem => hnormal.notOperator grant (hperm.mem_iff.mp hmem)

/-! ### What is written and what is deleted -/

/-- The roles that hold something on the collection. -/
def heldRoles (backend : RagBackend) (name : String) (before : List Point) : List String :=
  (grants backend name before).map AclPoint.role

/-- The ids of the points that are written for roles without one. -/
def newIds (rt : RagRuntime) (backend : RagBackend) (name : String) (roles : List RoleGrant)
    (before : List Point) : List String :=
  (roles.filter fun grant => grant.role ∉ heldRoles backend name before).map fun grant =>
    aclPointId rt grant.role name

/-- The id of the operator's grant, when it is written. -/
def operatorIds (rt : RagRuntime) (backend : RagBackend) (before : List Point) : List String :=
  if operatorHolds backend (parseAcl before) then []
  else [aclPointId rt backend.operatorRole globalCollection]

section Written

variable {rt : RagRuntime} {roles : List RoleGrant} {before ups after : List Point}
  {ids : List PointId}

theorem mem_current : grant ∈ currentGrants backend name (parseAcl before) ↔
    Current backend name before grant :=
  mem_lastOfEach

theorem Current.mem (h : Current backend name before grant) : grant ∈ grants backend name before :=
  Latest.mem h

/-- A role that holds something holds what its last point says. -/
theorem exists_current {role : String} (h : role ∈ heldRoles backend name before) :
    ∃ grant, Current backend name before grant ∧ grant.role = role :=
  exists_latest h

theorem current_eq {one other : AclPoint} (hone : Current backend name before one)
    (hother : Current backend name before other) (hrole : one.role = other.role) : one = other :=
  Distinct.eq (distinct_lastOfEach _) (mem_current.mpr hone) (mem_current.mpr hother) hrole

/-- Points with distinct ids grant things with distinct ids. -/
theorem grant_eq_of_id (hdistinct : Distinct Point.id before) {one other : AclPoint}
    (hone : one ∈ grants backend name before) (hother : other ∈ grants backend name before)
    (hid : one.id = other.id) : one = other := by
  obtain ⟨p, hp, hgrant⟩ := mem_grants.mp hone
  obtain ⟨p', hp', hgrant'⟩ := mem_grants.mp hother
  rw [grantOf_id hgrant, grantOf_id hgrant'] at hid
  obtain rfl := hdistinct.eq hp hp' (PointId.text_injective hid)
  exact Option.some.inj (hgrant.symm.trans hgrant')

theorem read_eq_some {new : NewPoint} : new.read = some point ↔
    PointId.ofText new.id = some point.id ∧ point.payload = new.payload := by
  cases point with
  | mk id payload =>
      simp only [NewPoint.read, Option.map_eq_some_iff, Point.mk.injEq]
      constructor
      · rintro ⟨read, hread, rfl, rfl⟩
        exact ⟨hread, rfl⟩
      · rintro ⟨hread, rfl⟩
        exact ⟨id, hread, rfl, rfl⟩

theorem upsertFor_eq_some {wanted : RoleGrant} {new : NewPoint} :
    upsertFor rt name (currentGrants backend name (parseAcl before)) wanted = some new ↔
      (∃ grant, Current backend name before grant ∧ grant.role = wanted.role ∧
        grant.access ≠ wanted.access ∧
        new = aclPoint rt wanted.role name wanted.access grant.docPolicy (some grant.id)) ∨
      (wanted.role ∉ heldRoles backend name before ∧
        new = aclPoint rt wanted.role name wanted.access .null none) := by
  unfold upsertFor
  split
  next grant hfind =>
      have hcurrent := mem_current.mp (List.mem_of_find?_eq_some hfind)
      have hrole : grant.role = wanted.role := by simpa using List.find?_some hfind
      have hheld : wanted.role ∈ heldRoles backend name before :=
        hrole ▸ List.mem_map_of_mem hcurrent.mem
      have hunique : ∀ other, Current backend name before other → other.role = wanted.role →
          other = grant := by
        intro other hother hrole'
        exact current_eq hother hcurrent (hrole'.trans hrole.symm)
      split
      next haccess =>
          constructor
          · intro h
            cases h
          · rintro (⟨other, hother, hrole', hne, -⟩ | ⟨hnot, -⟩)
            · rw [hunique other hother hrole'] at hne
              exact absurd haccess hne
            · exact absurd hheld hnot
      next haccess =>
          constructor
          · intro h
            exact .inl ⟨grant, hcurrent, hrole, haccess, (Option.some.inj h).symm⟩
          · rintro (⟨other, hother, hrole', -, rfl⟩ | ⟨hnot, -⟩)
            · rw [hunique other hother hrole']
            · exact absurd hheld hnot
  next hfind =>
      have hnot : wanted.role ∉ heldRoles backend name before := by
        intro hheld
        obtain ⟨grant, hcurrent, hrole⟩ := exists_current hheld
        have := List.find?_eq_none.mp hfind grant (mem_current.mpr hcurrent)
        simp [hrole] at this
      constructor
      · intro h
        exact .inr ⟨hnot, (Option.some.inj h).symm⟩
      · rintro (⟨grant, hcurrent, hrole, -⟩ | ⟨-, rfl⟩)
        · exact absurd (hrole ▸ List.mem_map_of_mem hcurrent.mem) hnot
        · rfl

/-- What the point that is written for a listed grant is: it changes the point of the role, or is a new
one under the id for the role. -/
inductive Writes (rt : RagRuntime) (backend : RagBackend) (name : String) (before : List Point)
    (wanted : RoleGrant) (point : Point) : Prop where
  | changes (grant : AclPoint) (current : Current backend name before grant)
      (role : grant.role = wanted.role) (differs : grant.access ≠ wanted.access)
      (id : point.id.text = grant.id)
      (grants : grantOf backend name point =
        some ⟨grant.id, wanted.role, name, wanted.access, grant.docPolicy⟩)
  | adds (unheld : wanted.role ∉ heldRoles backend name before)
      (id : point.id.text = aclPointId rt wanted.role name)
      (grants : grantOf backend name point =
        some ⟨point.id.text, wanted.role, name, wanted.access, .null⟩)

/-- It grants the role what is listed. -/
theorem Writes.listed {wanted : RoleGrant} (h : Writes rt backend name before wanted point) :
    ∃ grant, grantOf backend name point = some grant ∧ grant.role = wanted.role ∧
      grant.access = wanted.access := by
  cases h with
  | changes grant current role differs id grants => exact ⟨_, grants, rfl, rfl⟩
  | adds unheld id grants => exact ⟨_, grants, rfl, rfl⟩

theorem writes_of_read (hname : name ≠ "") (hroles : Normal backend roles) {wanted : RoleGrant}
    {new : NewPoint} (hwanted : wanted ∈ roles)
    (hfor : upsertFor rt name (currentGrants backend name (parseAcl before)) wanted = some new)
    (hread : new.read = some point) : Writes rt backend name before wanted point := by
  obtain ⟨hid, hpayload⟩ := read_eq_some.mp hread
  have htext := PointId.text_of_ofText hid
  have hgrants : ∀ policy pointId,
      point.payload = (aclPoint rt wanted.role name wanted.access policy pointId).payload →
      grantOf backend name point =
        some ⟨point.id.text, wanted.role, name, wanted.access, policy⟩ := by
    intro policy pointId hpay
    refine grantOf_eq_some.mpr ⟨?_, ?_⟩
    · cases point with
      | mk id payload =>
          obtain rfl : payload = _ := hpay
          exact parse_written rt (hroles.named wanted hwanted) hname
            (List.mem_append_left _ (hroles.level wanted hwanted))
    · exact grantsOn_iff.mpr ⟨rfl, hroles.level wanted hwanted, hroles.notOperator wanted hwanted⟩
  rcases upsertFor_eq_some.mp hfor with ⟨grant, hcurrent, hrole, hne, rfl⟩ | ⟨hnot, rfl⟩
  · obtain ⟨old, -, hgrant⟩ := mem_grants.mp hcurrent.mem
    have hset : grant.id ≠ "" := grantOf_id hgrant ▸ old.id.text_ne
    have hsame : point.id.text = grant.id := by simpa [aclPoint, hset] using htext
    exact .changes grant hcurrent hrole hne hsame (hsame ▸ hgrants _ _ hpayload)
  · exact .adds hnot htext (hgrants _ _ hpayload)

theorem writes_of_mem (hname : name ≠ "") (hroles : Normal backend roles)
    (hups : Upserts rt backend name roles before ups) (hmem : point ∈ ups) :
    ∃ wanted ∈ roles, Writes rt backend name before wanted point := by
  obtain ⟨new, hnew, hread⟩ := (Paired.mem_mapM hups).mp hmem
  obtain ⟨wanted, hwanted, hfor⟩ := List.mem_filterMap.mp hnew
  exact ⟨wanted, hwanted, writes_of_read hname hroles hwanted hfor hread⟩

/-- A listed grant that is not there yet is written. -/
theorem exists_writes (hname : name ≠ "") (hroles : Normal backend roles)
    (hups : Upserts rt backend name roles before ups) {wanted : RoleGrant} (hwanted : wanted ∈ roles)
    (hdiffers : ∀ grant, Current backend name before grant → grant.role = wanted.role →
      grant.access ≠ wanted.access) :
    ∃ point ∈ ups, Writes rt backend name before wanted point := by
  have hfor : ∃ new,
      upsertFor rt name (currentGrants backend name (parseAcl before)) wanted = some new := by
    by_cases hheld : wanted.role ∈ heldRoles backend name before
    · obtain ⟨grant, hcurrent, hrole⟩ := exists_current hheld
      exact ⟨_, upsertFor_eq_some.mpr
        (.inl ⟨grant, hcurrent, hrole, hdiffers grant hcurrent hrole, rfl⟩)⟩
    · exact ⟨_, upsertFor_eq_some.mpr (.inr ⟨hheld, rfl⟩)⟩
  obtain ⟨new, hnew⟩ := hfor
  obtain ⟨point, hmem, hread⟩ :=
    Paired.exists_of_mapM hups (List.mem_filterMap.mpr ⟨wanted, hwanted, hnew⟩)
  exact ⟨point, hmem, writes_of_read hname hroles hwanted hnew hread⟩

theorem exists_change (hname : name ≠ "") (hroles : Normal backend roles)
    (hups : Upserts rt backend name roles before ups) (hcurrent : Current backend name before grant)
    {wanted : RoleGrant} (hwanted : wanted ∈ roles) (hrole : grant.role = wanted.role)
    (hne : grant.access ≠ wanted.access) :
    ∃ point ∈ ups, Writes rt backend name before wanted point ∧ point.id.text = grant.id ∧
      grantOf backend name point =
        some ⟨grant.id, wanted.role, name, wanted.access, grant.docPolicy⟩ := by
  have hdiffers : ∀ other, Current backend name before other → other.role = wanted.role →
      other.access ≠ wanted.access := by
    intro other hother hrole'
    rwa [current_eq hother hcurrent (hrole'.trans hrole.symm)]
  obtain ⟨point, hmem, hwrites⟩ := exists_writes hname hroles hups hwanted hdiffers
  refine ⟨point, hmem, hwrites, ?_⟩
  cases hwrites with
  | changes other current role differs id grants =>
      obtain rfl := current_eq current hcurrent (role.trans hrole.symm)
      exact ⟨id, grants⟩
  | adds unheld id grants => exact absurd (hrole ▸ List.mem_map_of_mem hcurrent.mem) unheld

theorem exists_addition (hname : name ≠ "") (hroles : Normal backend roles)
    (hups : Upserts rt backend name roles before ups) {wanted : RoleGrant} (hwanted : wanted ∈ roles)
    (hunheld : wanted.role ∉ heldRoles backend name before) :
    ∃ point ∈ ups, point.id.text = aclPointId rt wanted.role name := by
  obtain ⟨point, hmem, hwrites⟩ := exists_writes hname hroles hups hwanted
    fun grant hcurrent hrole => absurd (hrole ▸ List.mem_map_of_mem hcurrent.mem) hunheld
  cases hwrites with
  | changes other current role differs id grants =>
      exact absurd (role ▸ List.mem_map_of_mem current.mem) hunheld
  | adds unheld id grants => exact ⟨point, hmem, id⟩

theorem mem_stale (hstale : Stale backend name roles before ids) {id : PointId} :
    id ∈ ids ↔ ∃ grant, Current backend name before grant ∧
      grant.role ∉ roles.map RoleGrant.role ∧ grant.id = id.text := by
  have hnames : ∀ text, text ∈ staleIds roles (currentGrants backend name (parseAcl before)) ↔
      ∃ grant, Current backend name before grant ∧ grant.role ∉ roles.map RoleGrant.role ∧
        grant.id = text := by
    intro text
    simp only [staleIds, List.mem_map, List.mem_filter, mem_current, decide_eq_true_eq]
    constructor
    · rintro ⟨grant, ⟨hcurrent, hrole⟩, rfl⟩
      exact ⟨grant, hcurrent, hrole, rfl⟩
    · rintro ⟨grant, hcurrent, hrole, rfl⟩
      exact ⟨grant, ⟨hcurrent, hrole⟩, rfl⟩
  constructor
  · intro hmem
    obtain ⟨text, htext, hread⟩ := (Paired.mem_mapM hstale).mp hmem
    rw [PointId.text_of_ofText hread]
    exact (hnames text).mp htext
  · intro hgrant
    obtain ⟨read, hmem, hread⟩ := Paired.exists_of_mapM hstale ((hnames _).mpr hgrant)
    exact PointId.ofText_text hread ▸ hmem

theorem mem_newIds {id : String} : id ∈ newIds rt backend name roles before ↔
    ∃ wanted ∈ roles, wanted.role ∉ heldRoles backend name before ∧
      aclPointId rt wanted.role name = id := by
  simp [newIds, and_assoc]

theorem operatorPoint_id (rt : RagRuntime) (backend : RagBackend) :
    (operatorPoint rt backend).id.text =
      aclPointId rt backend.operatorRole globalCollection := by
  rfl

theorem mem_operatorIds {id : String} : id ∈ operatorIds rt backend before ↔
    operatorHolds backend (parseAcl before) = false ∧ (operatorPoint rt backend).id.text = id := by
  rw [operatorPoint_id, operatorIds]
  split
  next h => simp [h]
  next h => simp [h, eq_comm]

/-- The points there are when the grants are written. -/
theorem mem_written
    (hafter : after =
      let dropped := dropKeys Point.id (putAll Point.id before ups) ids
      if operatorHolds backend (parseAcl before) then dropped
      else put Point.id dropped (operatorPoint rt backend)) :
    point ∈ after ↔
      (((point ∈ before ∧ point.id ∉ ups.map Point.id) ∨ Latest Point.id ups point) ∧
        point.id ∉ ids ∧ point.id.text ∉ operatorIds rt backend before) ∨
      (operatorHolds backend (parseAcl before) = false ∧ point = operatorPoint rt backend) := by
  subst hafter
  dsimp only
  have hid : point.id.text ∉ operatorIds rt backend before ↔
      (operatorHolds backend (parseAcl before) = false →
        point.id ≠ (operatorPoint rt backend).id) := by
    rw [mem_operatorIds]
    constructor
    · intro h hholds hsame
      exact h ⟨hholds, by rw [hsame]⟩
    · rintro h ⟨hholds, htext⟩
      exact h hholds (PointId.text_injective htext.symm)
  rw [hid]
  cases hholds : operatorHolds backend (parseAcl before) with
  | true => simp [mem_dropKeys, mem_putAll]
  | false => simp [mem_put, mem_dropKeys, mem_putAll, and_assoc]

end Written

/-! ### The complete list -/

/-- The roles are set: the given list is what the collection grants, the points of the roles that stay
keep their id and their policy, the operator has its grant and all other points are as before. -/
structure RolesSet (rt : RagRuntime) (backend : RagBackend) (name : String)
    (roles : List RoleGrant) (before after : List Point) : Prop where
  exact : ∀ role access,
    (∃ grant ∈ grants backend name after, grant.role = role ∧ grant.access = access) ↔
      ⟨role, access⟩ ∈ roles
  keeps : ∀ grant ∈ grants backend name before, grant.role ∈ roles.map RoleGrant.role →
    ∃ kept ∈ grants backend name after, kept.id = grant.id ∧ kept.role = grant.role ∧
      kept.docPolicy = grant.docPolicy
  operator : operatorHolds backend (parseAcl after) = true
  others : ∀ point, grantOf backend name point = none →
    (point ∈ after ↔ point ∈ before ∨
      (operatorHolds backend (parseAcl before) = false ∧ point = operatorPoint rt backend))

/-- The points allow it: a role has one point only, or its other points say what is listed or are
overwritten, and what is written anew takes no place that is needed. -/
structure Settable (rt : RagRuntime) (backend : RagBackend) (name : String)
    (roles : List RoleGrant) (before : List Point) : Prop where
  single : ∀ grant ∈ grants backend name before, ¬Current backend name before grant →
    ⟨grant.role, grant.access⟩ ∈ roles ∨
      grant.id ∈ newIds rt backend name roles before ++ operatorIds rt backend before
  distinct : (newIds rt backend name roles before ++ operatorIds rt backend before).Nodup
  free : ∀ point ∈ before, point.id.text ∈ newIds rt backend name roles before →
    ∃ grant, grantOf backend name point = some grant ∧ ¬Current backend name before grant ∧
      grant.role ∉ roles.map RoleGrant.role
  operatorFree : ∀ point ∈ before, point.id.text ∈ operatorIds rt backend before →
    ∃ grant, grantOf backend name point = some grant ∧ grant.role ∉ roles.map RoleGrant.role

/-- The point of a listed role is under no id that is taken. -/
theorem Settable.listed_free {rt : RagRuntime} {roles : List RoleGrant} {before : List Point}
    (h : Settable rt backend name roles before) (hmem : point ∈ before)
    (hof : grantOf backend name point = some grant)
    (hrole : grant.role ∈ roles.map RoleGrant.role) :
    point.id.text ∉ newIds rt backend name roles before ∧
      point.id.text ∉ operatorIds rt backend before := by
  constructor
  · intro hnew
    obtain ⟨other, hother, -, hunlisted⟩ := h.free point hmem hnew
    obtain rfl := Option.some.inj (hof.symm.trans hother)
    exact hunlisted hrole
  · intro hoperator
    obtain ⟨other, hother, hunlisted⟩ := h.operatorFree point hmem hoperator
    obtain rfl := Option.some.inj (hof.symm.trans hother)
    exact hunlisted hrole

/-- So is a point of another kind. -/
theorem Settable.other_free {rt : RagRuntime} {roles : List RoleGrant} {before : List Point}
    (h : Settable rt backend name roles before) (hmem : point ∈ before)
    (hnone : grantOf backend name point = none) :
    point.id.text ∉ newIds rt backend name roles before ∧
      point.id.text ∉ operatorIds rt backend before := by
  constructor
  · intro hnew
    obtain ⟨grant, hof, -⟩ := h.free point hmem hnew
    rw [hnone] at hof
    cases hof
  · intro hoperator
    obtain ⟨grant, hof, -⟩ := h.operatorFree point hmem hoperator
    rw [hnone] at hof
    cases hof

section Complete

variable {rt : RagRuntime} {roles : List RoleGrant} {before ups after : List Point}
  {ids : List PointId}

theorem grantOf_of_id (hdistinct : Distinct Point.id before)
    (hgrant : grant ∈ grants backend name before) (hmem : point ∈ before)
    (hid : grant.id = point.id.text) : grantOf backend name point = some grant := by
  obtain ⟨other, hother, hof⟩ := mem_grants.mp hgrant
  rw [grantOf_id hof] at hid
  rwa [hdistinct.eq hother hmem (PointId.text_injective hid)] at hof

theorem wanted_eq (hroles : Normal backend roles) {one other : RoleGrant} (hone : one ∈ roles)
    (hother : other ∈ roles) (hrole : one.role = other.role) : one = other :=
  hroles.once.eq hone hother hrole

theorem after_distinct (hdistinct : Distinct Point.id before)
    (hafter : after =
      let dropped := dropKeys Point.id (putAll Point.id before ups) ids
      if operatorHolds backend (parseAcl before) then dropped
      else put Point.id dropped (operatorPoint rt backend)) : Distinct Point.id after := by
  subst hafter
  dsimp only
  have hdropped : Distinct Point.id (dropKeys Point.id (putAll Point.id before ups) ids) :=
    (hdistinct.putAll ups).filter _
  split
  next => exact hdropped
  next => exact hdropped.put _

/-- A point under no new id is not written, when it is not the point of a role that changes. -/
theorem unwritten (hname : name ≠ "") (hroles : Normal backend roles)
    (hdistinct : Distinct Point.id before) (hups : Upserts rt backend name roles before ups)
    (hmem : point ∈ before) (hnew : point.id.text ∉ newIds rt backend name roles before)
    (hgrant : ∀ grant, grantOf backend name point = some grant →
      Current backend name before grant → ⟨grant.role, grant.access⟩ ∈ roles) :
    point.id ∉ ups.map Point.id := by
  intro hid
  obtain ⟨other, hother, hsame⟩ := List.mem_map.mp hid
  obtain ⟨wanted, hwanted, hwrites⟩ := writes_of_mem hname hroles hups hother
  cases hwrites with
  | changes grant current role differs id grants =>
      rw [hsame] at id
      have hof := grantOf_of_id hdistinct current.mem hmem id.symm
      have heq := wanted_eq hroles hwanted (hgrant grant hof current) role.symm
      rw [heq] at differs
      exact differs rfl
  | adds unheld id grants =>
      rw [hsame] at id
      exact hnew (mem_newIds.mpr ⟨wanted, hwanted, unheld, id.symm⟩)

/-- A point is not deleted, when it is not the point of a role that is not listed. -/
theorem undeleted (hdistinct : Distinct Point.id before)
    (hstale : Stale backend name roles before ids) (hmem : point ∈ before)
    (hgrant : ∀ grant, grantOf backend name point = some grant →
      Current backend name before grant → ⟨grant.role, grant.access⟩ ∈ roles) :
    point.id ∉ ids := by
  intro hid
  obtain ⟨grant, hcurrent, hunlisted, htext⟩ := (mem_stale hstale).mp hid
  have hof := grantOf_of_id hdistinct hcurrent.mem hmem htext
  exact hunlisted (List.mem_map_of_mem (hgrant grant hof hcurrent))

variable (hname : name ≠ "") (hroles : Normal backend roles) (hdistinct : Distinct Point.id before)
  (hups : Upserts rt backend name roles before ups) (hstale : Stale backend name roles before ids)
  (hafter : after =
    let dropped := dropKeys Point.id (putAll Point.id before ups) ids
    if operatorHolds backend (parseAcl before) then dropped
    else put Point.id dropped (operatorPoint rt backend))

include hname hroles hdistinct hups hstale hafter

/-- A point under no new id stays, when it is not the point of a role that loses or changes it. -/
theorem stays (hmem : point ∈ before) (hnew : point.id.text ∉ newIds rt backend name roles before)
    (hoperator : point.id.text ∉ operatorIds rt backend before)
    (hgrant : ∀ grant, grantOf backend name point = some grant →
      Current backend name before grant → ⟨grant.role, grant.access⟩ ∈ roles) :
    point ∈ after := by
  refine (mem_written hafter).mpr (.inl ⟨.inl ⟨hmem, ?_⟩, ?_, hoperator⟩)
  · exact unwritten hname hroles hdistinct hups hmem hnew hgrant
  · exact undeleted hdistinct hstale hmem hgrant

omit hdistinct hstale in
/-- A point that grants a role something which held nothing before is the one written for it. -/
theorem new_point (hmem : point ∈ after) (hof : grantOf backend name point = some grant)
    (hunheld : grant.role ∉ heldRoles backend name before) :
    point.id.text = aclPointId rt grant.role name ∧ point.id ∉ ids ∧
      point.id.text ∉ operatorIds rt backend before := by
  rcases (mem_written hafter).mp hmem with ⟨⟨hbefore, -⟩ | hlatest, hkept, hoperator⟩ | ⟨-, rfl⟩
  · exact absurd (List.mem_map_of_mem (mem_grants.mpr ⟨point, hbefore, hof⟩)) hunheld
  · obtain ⟨wanted, hwanted, hwrites⟩ := writes_of_mem hname hroles hups hlatest.mem
    cases hwrites with
    | changes old current role differs id grants =>
        have hheld : old.role ∈ heldRoles backend name before := List.mem_map_of_mem current.mem
        obtain rfl := Option.some.inj (hof.symm.trans grants)
        exact absurd (role ▸ hheld) hunheld
    | adds unheld id grants =>
        obtain rfl := Option.some.inj (hof.symm.trans grants)
        exact ⟨id, hkept, hoperator⟩
  · rw [operatorPoint_no_grant] at hof
    cases hof

/-- Where exactly the list is granted, no other point of a role is in the way. -/
theorem single_of_exact
    (exact' : ∀ role access,
      (∃ grant ∈ grants backend name after, grant.role = role ∧ grant.access = access) ↔
        ⟨role, access⟩ ∈ roles)
    (hgrant : grant ∈ grants backend name before) (hnot : ¬Current backend name before grant) :
    ⟨grant.role, grant.access⟩ ∈ roles ∨
      grant.id ∈ newIds rt backend name roles before ++ operatorIds rt backend before := by
  by_contra hbad
  rw [List.mem_append, not_or, not_or] at hbad
  obtain ⟨hunlisted, hnew, hoperator⟩ := hbad
  obtain ⟨point, hmem, hof⟩ := mem_grants.mp hgrant
  rw [grantOf_id hof] at hnew hoperator
  have hstays : point ∈ after := by
    refine stays hname hroles hdistinct hups hstale hafter hmem hnew hoperator ?_
    intro other hother hcurrent
    obtain rfl := Option.some.inj (hof.symm.trans hother)
    exact absurd hcurrent hnot
  exact hunlisted ((exact' _ _).mp ⟨grant, mem_grants.mpr ⟨point, hstays, hof⟩, rfl, rfl⟩)

/-- Where the list is complete, the points have allowed it. -/
theorem settable_of_rolesSet (h : RolesSet rt backend name roles before after) :
    Settable rt backend name roles before := by
  have hkeys := after_distinct hdistinct hafter
  -- The new point of a listed role that held nothing.
  have hadded : ∀ wanted ∈ roles, wanted.role ∉ heldRoles backend name before →
      ∃ point ∈ after, point.id.text = aclPointId rt wanted.role name ∧ point.id ∉ ids ∧
        point.id.text ∉ operatorIds rt backend before ∧
        ∃ grant, grantOf backend name point = some grant ∧ grant.role = wanted.role := by
    intro wanted hwanted hunheld
    obtain ⟨grant, hgrant, hrole, -⟩ := (h.exact wanted.role wanted.access).mpr hwanted
    obtain ⟨point, hmem, hof⟩ := mem_grants.mp hgrant
    have hpoint := new_point hname hroles hups hafter hmem hof (hrole ▸ hunheld)
    rw [hrole] at hpoint
    exact ⟨point, hmem, hpoint.1, hpoint.2.1, hpoint.2.2, grant, hof, hrole⟩
  refine ⟨?_, ?_, ?_, ?_⟩
  · intro grant hgrant hnot
    exact single_of_exact hname hroles hdistinct hups hstale hafter h.exact hgrant hnot
  · refine List.nodup_append.mpr ⟨?_, ?_, ?_⟩
    · refine List.Nodup.map_on ?_ ((List.Nodup.of_map _ hroles.once).filter _)
      intro one hone other hother hid
      obtain ⟨honeMem, honeNew⟩ := List.mem_filter.mp hone
      obtain ⟨hotherMem, hotherNew⟩ := List.mem_filter.mp hother
      obtain ⟨p, hp, hpid, -, -, grant, hof, hrole⟩ := hadded one honeMem (by simpa using honeNew)
      obtain ⟨p', hp', hpid', -, -, grant', hof', hrole'⟩ :=
        hadded other hotherMem (by simpa using hotherNew)
      obtain rfl := hkeys.eq hp hp' (PointId.text_injective (by rw [hpid, hpid', hid]))
      obtain rfl := Option.some.inj (hof.symm.trans hof')
      exact wanted_eq hroles honeMem hotherMem (hrole.symm.trans hrole')
    · rw [operatorIds]
      split <;> simp
    · intro one hone other hother heq
      obtain ⟨wanted, hwanted, hunheld, rfl⟩ := mem_newIds.mp hone
      obtain ⟨point, -, hid, -, hoperator, -⟩ := hadded wanted hwanted hunheld
      rw [hid, heq] at hoperator
      exact hoperator hother
  · intro point hmem hnew
    obtain ⟨wanted, hwanted, hunheld, hid⟩ := mem_newIds.mp hnew
    obtain ⟨added, hadd, hadded, hkept, -, grant, hof, hrole⟩ := hadded wanted hwanted hunheld
    have hsame : added.id = point.id := PointId.text_injective (hadded.trans hid)
    cases hpoint : grantOf backend name point with
    | none =>
        have hafterPoint := (h.others point hpoint).mpr (.inl hmem)
        obtain rfl := hkeys.eq hadd hafterPoint hsame
        rw [hof] at hpoint
        cases hpoint
    | some old =>
        have hold : old ∈ grants backend name before := mem_grants.mpr ⟨point, hmem, hpoint⟩
        have hunlisted : old.role ∉ roles.map RoleGrant.role := by
          intro hlisted
          obtain ⟨kept, hkeptMem, hkeptId, hkeptRole, -⟩ := h.keeps old hold hlisted
          have hsameGrant := grantOf_of_id hkeys hkeptMem hadd
            (by rw [hkeptId, grantOf_id hpoint, hsame])
          obtain rfl := Option.some.inj (hof.symm.trans hsameGrant)
          exact hunheld (hrole ▸ hkeptRole ▸ List.mem_map_of_mem hold)
        refine ⟨old, rfl, ?_, hunlisted⟩
        intro hcurrent
        exact hkept (hsame ▸ (mem_stale hstale).mpr ⟨old, hcurrent, hunlisted, grantOf_id hpoint⟩)
  · intro point hmem hoperator
    obtain ⟨hholds, hid⟩ := mem_operatorIds.mp hoperator
    have hthere : operatorPoint rt backend ∈ after := (mem_written hafter).mpr (.inr ⟨hholds, rfl⟩)
    have hsame : (operatorPoint rt backend).id = point.id := PointId.text_injective hid
    cases hpoint : grantOf backend name point with
    | none =>
        have hafterPoint := (h.others point hpoint).mpr (.inl hmem)
        obtain rfl := hkeys.eq hthere hafterPoint hsame
        have hnot : operatorHolds backend (parseAcl before) = true :=
          operatorHolds_iff.mpr ⟨_, hmem, _, operatorPoint_parse rt backend, rfl, rfl⟩
        rw [hholds] at hnot
        cases hnot
    | some old =>
        refine ⟨old, rfl, ?_⟩
        intro hlisted
        obtain ⟨kept, hkeptMem, hkeptId, -, -⟩ :=
          h.keeps old (mem_grants.mpr ⟨point, hmem, hpoint⟩) hlisted
        have hsameGrant := grantOf_of_id hkeys hkeptMem hthere
          (by rw [hkeptId, grantOf_id hpoint, hsame])
        rw [operatorPoint_no_grant] at hsameGrant
        cases hsameGrant

omit hstale hafter in
/-- What is written for two roles is written under two ids. -/
theorem ups_distinct (h : Settable rt backend name roles before) : Distinct Point.id ups := by
  have hfilter : ∀ (news : List NewPoint) (read : List Point), news.mapM NewPoint.read = some read →
      read = news.filterMap NewPoint.read := by
    intro news
    induction news with
    | nil => simp
    | cons new rest ih =>
        intro read hread
        simp only [List.mapM_cons, Option.bind_eq_bind, Option.bind_eq_some_iff] at hread
        obtain ⟨first, hfirst, others, hothers, hcons⟩ := hread
        obtain rfl : first :: others = read := by simpa using hcons
        rw [List.filterMap_cons_some hfirst, ih others hothers]
  have hchanged : ∀ grant wanted, Current backend name before grant → wanted ∈ roles →
      grant.role = wanted.role → grant.id ∉ newIds rt backend name roles before := by
    intro grant wanted hcurrent hwanted hrole hnew
    obtain ⟨point, hmem, hof⟩ := mem_grants.mp hcurrent.mem
    obtain ⟨other, hother, -, hunlisted⟩ := h.free point hmem (grantOf_id hof ▸ hnew)
    obtain rfl := Option.some.inj (hof.symm.trans hother)
    exact hunlisted (hrole ▸ List.mem_map_of_mem hwanted)
  rw [hfilter _ _ hups, Distinct, List.Nodup, List.pairwise_map, List.pairwise_filterMap,
    List.pairwise_filterMap]
  have hnodup := List.pairwise_map.mp hroles.once
  refine hnodup.imp_of_mem ?_
  intro one other hone hother hrole new hnew new' hnew' point hread point' hread' hid
  have hw := writes_of_read hname hroles hone hnew hread
  have hw' := writes_of_read hname hroles hother hnew' hread'
  cases hw with
  | changes grant current role differs id grants =>
      cases hw' with
      | changes grant' current' role' differs' id' grants' =>
          have hgrant := grant_eq_of_id hdistinct current.mem current'.mem
            (by rw [← id, ← id', hid])
          exact hrole (role.symm.trans (hgrant ▸ role'))
      | adds unheld' id' grants' =>
          refine hchanged grant one current hone role (mem_newIds.mpr ⟨other, hother, unheld', ?_⟩)
          rw [← id', ← hid, id]
  | adds unheld id grants =>
      cases hw' with
      | changes grant' current' role' differs' id' grants' =>
          refine hchanged grant' other current' hother role'
            (mem_newIds.mpr ⟨one, hone, unheld, ?_⟩)
          rw [← id, hid, id']
      | adds unheld' id' grants' =>
          have hnew := (List.nodup_append.mp h.distinct).1
          have heq := List.inj_on_of_nodup_map hnew
            (List.mem_filter.mpr ⟨hone, by simpa using unheld⟩)
            (List.mem_filter.mpr ⟨hother, by simpa using unheld'⟩) (by rw [← id, ← id', hid])
          exact hrole (congrArg RoleGrant.role heq)

/-- What is written for a listed role is there in the end. -/
theorem written_stays (h : Settable rt backend name roles before) {wanted : RoleGrant}
    (hwanted : wanted ∈ roles) (hmem : point ∈ ups)
    (hwrites : Writes rt backend name before wanted point) : point ∈ after := by
  have hlatest : Latest Point.id ups point :=
    (latest_iff_mem (ups_distinct hname hroles hdistinct hups h)).mpr hmem
  refine (mem_written hafter).mpr (.inl ⟨.inr hlatest, ?_, ?_⟩)
  · intro hdeleted
    obtain ⟨old, hcurrent, hunlisted, hid⟩ := (mem_stale hstale).mp hdeleted
    cases hwrites with
    | changes grant current role differs id grants =>
        obtain rfl := grant_eq_of_id hdistinct hcurrent.mem current.mem (hid.trans id)
        exact hunlisted (role ▸ List.mem_map_of_mem hwanted)
    | adds unheld id grants =>
        obtain ⟨p, hp, hof⟩ := mem_grants.mp hcurrent.mem
        obtain ⟨same, hsame, hnot, -⟩ := h.free p hp
          (mem_newIds.mpr ⟨wanted, hwanted, unheld, by rw [← id, ← hid, grantOf_id hof]⟩)
        obtain rfl := Option.some.inj (hof.symm.trans hsame)
        exact hnot hcurrent
  · intro hoperator
    cases hwrites with
    | changes grant current role differs id grants =>
        obtain ⟨p, hp, hof⟩ := mem_grants.mp current.mem
        refine (h.listed_free hp hof (role ▸ List.mem_map_of_mem hwanted)).2 ?_
        rwa [← grantOf_id hof, ← id]
    | adds unheld id grants =>
        exact (List.nodup_append.mp h.distinct).2.2 _
          (mem_newIds.mpr ⟨wanted, hwanted, unheld, id.symm⟩) _ hoperator rfl

/-- The point of a listed role stays when it is not one that changes. -/
theorem listed_stays (h : Settable rt backend name roles before) (hmem : point ∈ before)
    (hof : grantOf backend name point = some grant) (hrole : grant.role ∈ roles.map RoleGrant.role)
    (hsame : Current backend name before grant → ⟨grant.role, grant.access⟩ ∈ roles) :
    point ∈ after := by
  have htaken := h.listed_free hmem hof hrole
  refine stays hname hroles hdistinct hups hstale hafter hmem htaken.1 htaken.2 ?_
  intro other hother
  obtain rfl := Option.some.inj (hof.symm.trans hother)
  exact hsame

/-- A point of another kind stays. -/
theorem other_stays (h : Settable rt backend name roles before) (hmem : point ∈ before)
    (hnone : grantOf backend name point = none) : point ∈ after := by
  have htaken := h.other_free hmem hnone
  refine stays hname hroles hdistinct hups hstale hafter hmem htaken.1 htaken.2 ?_
  intro grant hof _
  rw [hnone] at hof
  cases hof

omit hdistinct in
/-- What is granted in the end is listed. -/
theorem listed_of_after (h : Settable rt backend name roles before) (hmem : point ∈ after)
    (hof : grantOf backend name point = some grant) : ⟨grant.role, grant.access⟩ ∈ roles := by
  rcases (mem_written hafter).mp hmem with ⟨⟨hbefore, hups'⟩ | hwrote, hkept, hoperator⟩ | ⟨-, rfl⟩
  · have hgrant := mem_grants.mpr ⟨point, hbefore, hof⟩
    have hunwritten : ∀ other ∈ ups, other.id.text ≠ point.id.text := fun other hother hid =>
      hups' (List.mem_map.mpr ⟨other, hother, PointId.text_injective hid⟩)
    by_cases hcurrent : Current backend name before grant
    · have hlisted : grant.role ∈ roles.map RoleGrant.role := by
        by_contra hunlisted
        exact hkept ((mem_stale hstale).mpr ⟨grant, hcurrent, hunlisted, grantOf_id hof⟩)
      obtain ⟨wanted, hwanted, hrole⟩ := List.mem_map.mp hlisted
      have haccess : grant.access = wanted.access := by
        by_contra hne
        obtain ⟨other, hother, -, hid, -⟩ :=
          exists_change hname hroles hups hcurrent hwanted hrole.symm hne
        exact hunwritten other hother (hid.trans (grantOf_id hof))
      rw [← hrole, haccess]
      exact hwanted
    · rcases h.single grant hgrant hcurrent with hwanted | htaken
      · exact hwanted
      · rw [grantOf_id hof] at htaken
        rcases List.mem_append.mp htaken with hnew | hnew
        · obtain ⟨wanted, hwanted, hunheld, hid⟩ := mem_newIds.mp hnew
          obtain ⟨other, hother, hid'⟩ := exists_addition hname hroles hups hwanted hunheld
          exact absurd (hid'.trans hid) (hunwritten other hother)
        · exact absurd hnew hoperator
  · obtain ⟨wanted, hwanted, hwrites⟩ := writes_of_mem hname hroles hups hwrote.mem
    obtain ⟨same, hsame, hrole, haccess⟩ := hwrites.listed
    obtain rfl := Option.some.inj (hof.symm.trans hsame)
    rw [hrole, haccess]
    exact hwanted
  · rw [operatorPoint_no_grant] at hof
    cases hof

/-- What is listed is granted in the end. -/
theorem after_of_listed (h : Settable rt backend name roles before) {wanted : RoleGrant}
    (hwanted : wanted ∈ roles) :
    ∃ grant ∈ grants backend name after, grant.role = wanted.role ∧
      grant.access = wanted.access := by
  by_cases hthere : ∃ grant, Current backend name before grant ∧ grant.role = wanted.role ∧
      grant.access = wanted.access
  · obtain ⟨grant, hcurrent, hrole, haccess⟩ := hthere
    obtain ⟨point, hmem, hof⟩ := mem_grants.mp hcurrent.mem
    refine ⟨grant, mem_grants.mpr ⟨point, ?_, hof⟩, hrole, haccess⟩
    refine listed_stays hname hroles hdistinct hups hstale hafter h hmem hof ?_ ?_
    · exact hrole ▸ List.mem_map_of_mem hwanted
    · rw [hrole, haccess]
      exact fun _ => hwanted
  · obtain ⟨point, hmem, hwrites⟩ := exists_writes hname hroles hups hwanted
      fun grant hcurrent hrole haccess => hthere ⟨grant, hcurrent, hrole, haccess⟩
    obtain ⟨grant, hof, hrole, haccess⟩ := hwrites.listed
    have hafterPoint :=
      written_stays hname hroles hdistinct hups hstale hafter h hwanted hmem hwrites
    exact ⟨grant, mem_grants.mpr ⟨point, hafterPoint, hof⟩, hrole, haccess⟩

/-- A role that stays keeps its points, with their policies. -/
theorem keeps_points (h : Settable rt backend name roles before)
    (hgrant : grant ∈ grants backend name before) (hrole : grant.role ∈ roles.map RoleGrant.role) :
    ∃ kept ∈ grants backend name after, kept.id = grant.id ∧ kept.role = grant.role ∧
      kept.docPolicy = grant.docPolicy := by
  obtain ⟨point, hmem, hof⟩ := mem_grants.mp hgrant
  obtain ⟨wanted, hwanted, hsame⟩ := List.mem_map.mp hrole
  by_cases hchanged : Current backend name before grant ∧ grant.access ≠ wanted.access
  · obtain ⟨hcurrent, hne⟩ := hchanged
    obtain ⟨other, hother, hwrites, -, hgrants⟩ :=
      exists_change hname hroles hups hcurrent hwanted hsame.symm hne
    have hafterPoint :=
      written_stays hname hroles hdistinct hups hstale hafter h hwanted hother hwrites
    exact ⟨_, mem_grants.mpr ⟨other, hafterPoint, hgrants⟩, rfl, hsame, rfl⟩
  · refine ⟨grant, mem_grants.mpr ⟨point, ?_, hof⟩, rfl, rfl, rfl⟩
    refine listed_stays hname hroles hdistinct hups hstale hafter h hmem hof hrole ?_
    intro hcurrent
    have haccess : grant.access = wanted.access := by
      by_contra hne
      exact hchanged ⟨hcurrent, hne⟩
    rw [← hsame, haccess]
    exact hwanted

/-- Where the points allow it, the list is complete. -/
theorem rolesSet_of_settable (h : Settable rt backend name roles before) :
    RolesSet rt backend name roles before after := by
  refine ⟨?_, fun grant => keeps_points hname hroles hdistinct hups hstale hafter h, ?_, ?_⟩
  · intro role access
    constructor
    · rintro ⟨grant, hgrant, rfl, rfl⟩
      obtain ⟨point, hmem, hof⟩ := mem_grants.mp hgrant
      exact listed_of_after hname hroles hups hstale hafter h hmem hof
    · exact after_of_listed hname hroles hdistinct hups hstale hafter h
  · refine operatorHolds_iff.mpr ?_
    by_cases hholds : operatorHolds backend (parseAcl before) = true
    · obtain ⟨point, hmem, grant, hparse, hrole, haccess⟩ := operatorHolds_iff.mp hholds
      have hstays := other_stays hname hroles hdistinct hups hstale hafter h hmem
        (global_no_grant hparse haccess)
      exact ⟨point, hstays, grant, hparse, hrole, haccess⟩
    · exact ⟨_, (mem_written hafter).mpr (.inr ⟨by simpa using hholds, rfl⟩), _,
        operatorPoint_parse rt backend, rfl, rfl⟩
  · intro point hnone
    constructor
    · intro hmem
      rcases (mem_written hafter).mp hmem with ⟨⟨hbefore, -⟩ | hwrote, -⟩ | hoperator
      · exact .inl hbefore
      · obtain ⟨wanted, hwanted, hwrites⟩ := writes_of_mem hname hroles hups hwrote.mem
        obtain ⟨grant, hof, -⟩ := hwrites.listed
        rw [hnone] at hof
        cases hof
      · exact .inr hoperator
    · rintro (hbefore | hoperator)
      · exact other_stays hname hroles hdistinct hups hstale hafter h hbefore hnone
      · exact (mem_written hafter).mpr (.inr hoperator)

end Complete

/-! ### Setting the roles -/

variable {store : CollectionStore} {rt : RagRuntime} {roles : List RoleGrant}

theorem rolesSet_iff {before after : List Point} (hname : name ≠ "") (hroles : Normal backend roles)
    (hdistinct : Distinct Point.id before)
    (hwritten : GrantsWritten rt backend name roles before after) :
    RolesSet rt backend name roles before after ↔ Settable rt backend name roles before := by
  obtain ⟨ups, ids, hups, hstale, hafter⟩ := hwritten
  exact ⟨settable_of_rolesSet hname hroles hdistinct hups hstale hafter,
    rolesSet_of_settable hname hroles hdistinct hups hstale hafter⟩

theorem existingName_ok {rt : RagRuntime} {given name : String} {system : List String}
    (h : existingName rt given system = .ok name) : name = given ∧ name ≠ "" ∧ name ∉ system := by
  unfold existingName at h
  split at h
  next => cases h
  next hvalid =>
      split at h
      next => cases h
      next hsystem =>
          obtain rfl := Except.ok.inj h
          refine ⟨rfl, ?_, hsystem⟩
          rintro rfl
          exact hvalid (by simp)

theorem requireUsable_leaves {raises : RagError → Qdrant → Prop} {q : Qdrant}
    (hraise : ∀ e, raises e q) : Triple (· = q) store.requireUsable (fun _ q' => q' = q) raises := by
  unfold CollectionStore.requireUsable
  have hthrow : ∀ e, Triple (· = q) (throw e : RagCall Unit) (fun _ q' => q' = q) raises :=
    fun e => Triple.throw fun s hs => hs ▸ hraise e
  split
  next =>
      split
      next => exact Triple.pure fun _ hs => hs
      next => exact hthrow _
  next => exact Triple.pure fun _ hs => hs

/-- What `set_roles` leaves when it succeeds. -/
theorem setRoles_leaves {wanted : List RoleGrant} {q : Qdrant}
    (hroles : normaliseGrants rt wanted store.backend.operatorRole = .ok roles) :
    Triple (· = q) (store.setRoles rt name wanted)
      (fun _ q' => name ≠ "" ∧ ∃ after,
        GrantsWritten rt store.backend name roles (pointsOf q store.backend.aclCollection) after ∧
        Has store.backend.aclCollection after q q')
      fun _ _ => True := by
  unfold CollectionStore.setRoles
  refine Triple.bind (requireUsable_leaves fun _ => trivial) fun _ => ?_
  refine Triple.bind (Triple.ofExcept fun _ _ _ => trivial) fun known => Triple.fix fun s hs => ?_
  obtain ⟨hknown, rfl⟩ := hs
  obtain ⟨rfl, hname, -⟩ := existingName_ok hknown
  rw [hroles]
  refine Triple.bind (Triple.ofExcept fun _ _ _ => trivial) fun same => Triple.fix fun s' hs => ?_
  obtain ⟨hsame, rfl⟩ := hs
  obtain rfl := Except.ok.inj hsame
  refine Triple.bind (collectionExists_leaves fun _ => trivial) fun there =>
    Triple.fix fun s'' hs => ?_
  obtain ⟨rfl, -⟩ := hs
  cases there with
  | false => exact Triple.throw fun _ _ => trivial
  | true =>
      refine (writeGrants_leaves fun _ _ _ _ _ => trivial).consequence (fun _ h => h) ?_
        fun _ _ h => h
      exact fun _ _ h => ⟨hname, h⟩

/-- A call of `set_roles` that succeeds makes the list complete exactly where the points there were
allow it. -/
theorem set_roles_complete_iff (store : CollectionStore) (rt : RagRuntime) (name : String)
    (wanted : List RoleGrant) {roles : List RoleGrant} {w w' : World Qdrant Outage}
    (hroles : normaliseGrants rt wanted store.backend.operatorRole = .ok roles)
    (hrun : (store.setRoles rt name wanted).outcome w = (.ok (), w')) :
    RolesSet rt store.backend name roles (pointsOf w.state store.backend.aclCollection)
        (pointsOf w'.state store.backend.aclCollection) ↔
      Settable rt store.backend name roles (pointsOf w.state store.backend.aclCollection) := by
  obtain ⟨hname, after, hwritten, hhas⟩ := (setRoles_leaves hroles).returned rfl hrun
  rw [hhas.points]
  exact rolesSet_iff hname (normaliseGrants_normal hroles) (pointsOf_distinct _ _) hwritten

/-! ### Two points for one role -/

/-- The library, with the UUIDs of the names the examples use. -/
def exampleRuntime : RagRuntime where
  unicode := { isControl := fun c => c.toNat < 0x20, isSeparator := fun c => c.toNat = 0x20 }
  repr := fun text => "'" ++ text ++ "'"
  uuid5 := fun namespaceId text =>
    if namespaceId = metaNamespace ∧ text = "docs" then
      ⟨"3af6eb04-954e-592f-8341-320f6c9f1036", by decide⟩
    else if text = "editors|docs" then ⟨"7c10055b-8b4a-57d1-996a-898d04ae06cf", by decide⟩
    else ⟨"d954f5eb-24e8-5f0f-a4cf-9e8440ef0cda", by decide⟩

def exampleStore : CollectionStore where
  backend :=
    { metaCollection := "_collection_meta"
      aclCollection := "_rbac_acl"
      operatorRole := "qdrant-ingest-operator"
      operatorSet := by decide }
  blocked := none

/-- A point that says what a role may do. -/
def grantPoint (id : Uuid) (role collection access : String) (policy : Val) : Point where
  id := .uuid id
  payload :=
    .map [(.str "role", .str role), (.str "collection", .str collection),
      (.str "access", .str access), (.str "doc_policy", policy)]

def firstId : Uuid :=
  ⟨"7c10055b-8b4a-57d1-996a-898d04ae06cf", by decide⟩

def secondId : Uuid :=
  ⟨"77827f18-d058-5d0b-9978-7004efba7b0c", by decide⟩

def operatorId : Uuid :=
  ⟨"d954f5eb-24e8-5f0f-a4cf-9e8440ef0cda", by decide⟩

/-- A Qdrant with the collection `docs`, and the points of its ACL collection. -/
def exampleQdrant (points : List Point) (distinct : Distinct Point.id points) : Qdrant :=
  fun name =>
    if name = "docs" then some (.empty 4)
    else if name = "_rbac_acl" then
      some { vectorSize := 1, indexes := ["role"], points := points, distinct := distinct }
    else none

/-- The editors hold one grant, with a policy. -/
def singlePoints : List Point :=
  [grantPoint firstId "editors" "docs" "r" (.str "own"),
    grantPoint operatorId "qdrant-ingest-operator" "*" "m" .null]

/-- The editors hold two grants, one of them under a foreign id. -/
def doubledPoints : List Point :=
  grantPoint secondId "editors" "docs" "r" .null :: singlePoints

theorem singlePoints_distinct : Distinct Point.id singlePoints := by
  decide

theorem doubledPoints_distinct : Distinct Point.id doubledPoints := by
  decide

theorem editors_normalised :
    normaliseGrants exampleRuntime [⟨" editors ", "rw"⟩] exampleStore.backend.operatorRole =
      .ok [⟨"editors", "rw"⟩] := by
  decide

theorem single_settable :
    Settable exampleRuntime exampleStore.backend "docs" [⟨"editors", "rw"⟩] singlePoints := by
  have hnew : newIds exampleRuntime exampleStore.backend "docs" [⟨"editors", "rw"⟩] singlePoints =
      [] := by decide
  have hoperator : operatorIds exampleRuntime exampleStore.backend singlePoints = [] := by
    decide
  have hgrants : grants exampleStore.backend "docs" singlePoints =
      [⟨"7c10055b-8b4a-57d1-996a-898d04ae06cf", "editors", "docs", "r", .str "own"⟩] := by
    rfl
  refine ⟨?_, ?_, ?_, ?_⟩
  · intro grant hgrant hnot
    refine absurd ?_ hnot
    rw [hgrants, List.mem_singleton] at hgrant
    rw [Current, hgrants]
    exact ⟨[], [], by rw [hgrant]; rfl, by simp⟩
  · rw [hnew, hoperator]
    exact List.nodup_nil
  · intro point _ hmem
    rw [hnew] at hmem
    cases hmem
  · intro point _ hmem
    rw [hoperator] at hmem
    cases hmem

/-- With one point for the role its access is changed and its policy stays. -/
theorem editors_may_write :
    RolesSet exampleRuntime exampleStore.backend "docs" [⟨"editors", "rw"⟩] singlePoints
      (pointsOf
        ((exampleStore.setRoles exampleRuntime "docs" [⟨" editors ", "rw"⟩]).outcome
          ⟨exampleQdrant singlePoints singlePoints_distinct, []⟩).2.state "_rbac_acl") := by
  have hrun : ((exampleStore.setRoles exampleRuntime "docs" [⟨" editors ", "rw"⟩]).outcome
      ⟨exampleQdrant singlePoints singlePoints_distinct, []⟩).1 = .ok () := by
    decide
  exact (set_roles_complete_iff exampleStore exampleRuntime "docs" _ editors_normalised
    (Prod.ext hrun rfl)).mpr single_settable

/-- With two points for it a role that is not listed any more keeps one of them. -/
theorem doubled_grant_survives :
    let run := (exampleStore.setRoles exampleRuntime "docs" []).outcome
      ⟨exampleQdrant doubledPoints doubledPoints_distinct, []⟩
    run.1 = .ok () ∧
      ¬RolesSet exampleRuntime exampleStore.backend "docs" [] doubledPoints
        (pointsOf run.2.state "_rbac_acl") := by
  refine ⟨by decide, ?_⟩
  intro h
  have hleft : (grants exampleStore.backend "docs"
      (pointsOf ((exampleStore.setRoles exampleRuntime "docs" []).outcome
        ⟨exampleQdrant doubledPoints doubledPoints_distinct, []⟩).2.state "_rbac_acl")).map
      (fun grant => (grant.role, grant.access)) = [("editors", "r")] := by
    decide
  obtain ⟨grant, hgrant, hsame⟩ := List.mem_map.mp
    (hleft ▸ List.mem_singleton_self ("editors", "r"))
  have hlisted := (h.exact _ _).mp
    ⟨grant, hgrant, (Prod.mk.inj hsame).1, (Prod.mk.inj hsame).2⟩
  cases hlisted

end Papaia.Rag
