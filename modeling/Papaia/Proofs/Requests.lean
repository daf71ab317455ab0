/-
Module: Papaia.Proofs.Requests
Purpose: What the calls of the Collections page leave, when they return and when they raise.
Trusted boundary: none
Main exports: pointsOf, Has, collectionExists_leaves, ensure_leaves, readAcl_leaves, upsert_leaves,
  delete_leaves, GrantStage, applyGrants_leaves, ensureOperator_leaves
-/
import Papaia.Rag.Collections

namespace Papaia.Rag

open Remote

/-! ### Points -/

theorem isUuid_repr (value : Nat) : isUuid value.repr = false := by
  have hplain : '-' ∉ value.repr.toList := by
    rw [Nat.toList_repr]
    intro hmem
    exact absurd (Nat.isDigit_of_mem_toDigits (by decide) (by decide) hmem) (by decide)
  unfold isUuid
  rw [List.splitOn_eq_singleton hplain]
  simp

/-- A text that names a point names the one it is the text of. -/
theorem PointId.ofText_text {id read : PointId} (h : ofText id.text = some read) : read = id := by
  cases id with
  | uuid value => simpa [text] using h.symm
  | num value => simp [ofText, text, isUuid_repr] at h

theorem PointId.text_of_ofText {name : String} {id : PointId} (h : ofText name = some id) :
    id.text = name := by
  unfold ofText at h
  split at h
  next valid =>
      obtain rfl := Option.some.inj h
      rfl
  next => cases h

theorem PointId.text_injective {one other : PointId} (h : one.text = other.text) :
    one = other := by
  cases one with
  | uuid value => exact ofText_text (by rw [← h, text, ofText_uuid])
  | num value =>
      cases other with
      | uuid value' => exact (ofText_text (by rw [h, text, ofText_uuid])).symm
      | num value' =>
          have hchars : Nat.toDigits 10 value = Nat.toDigits 10 value' := by
            simpa [text] using congrArg String.toList h
          have hvalue := congrArg (Nat.ofDigitChars 10 · 0) hchars
          rw [Nat.ofDigitChars_toDigits (by decide) (by decide),
            Nat.ofDigitChars_toDigits (by decide) (by decide)] at hvalue
          rw [hvalue]

theorem PointId.text_ne (id : PointId) : id.text ≠ "" := by
  cases id with
  | num value =>
      intro h
      have hchars : value.repr.toList = [] := by simpa [text] using congrArg String.toList h
      rw [Nat.toList_repr] at hchars
      exact Nat.toDigits_ne_nil hchars
  | uuid value =>
      intro h
      have hvalid := value.valid
      rw [show value.text = "" from h] at hvalid
      exact absurd hvalid (by decide)

/-- The points of a collection; none where there is no such collection. -/
def pointsOf (q : Qdrant) (name : String) : List Point :=
  match q name with
  | some collection => collection.points
  | none => []

theorem pointsOf_distinct (q : Qdrant) (name : String) :
    Keyed.Distinct Point.id (pointsOf q name) := by
  unfold pointsOf
  split
  next collection _ => exact collection.distinct
  next => exact Keyed.distinct_nil

/-- A Qdrant that is another one, but for the points of one collection. -/
structure Has (name : String) (points : List Point) (before q : Qdrant) : Prop where
  points : pointsOf q name = points
  rest : ∀ other, other ≠ name → q other = before other

theorem Has.same {name : String} {q : Qdrant} : Has name (pointsOf q name) q q :=
  ⟨rfl, fun _ _ => rfl⟩

theorem Has.trans {name : String} {points later : List Point} {before q after : Qdrant}
    (one : Has name points before q) (two : Has name later q after) : Has name later before after :=
  ⟨two.points, fun other hother => (two.rest other hother).trans (one.rest other hother)⟩

theorem Has.update {name : String} {q : Qdrant} {points : List Point} (collection : Collection)
    (h : collection.points = points) :
    Has name points q (Function.update q name (some collection)) := by
  refine ⟨?_, fun other hother => Function.update_of_ne hother _ _⟩
  simp [pointsOf, h]

/-! ### Requests -/

theorem onCollection_some {α : Type} {name : String}
    {act : Collection → Except QdrantError (α × Collection)} {q : Qdrant} {collection : Collection}
    (h : q name = some collection) :
    onCollection name act q =
      (act collection).map fun answer =>
        (answer.1, Function.update q name (some answer.2)) := by
  simp [onCollection, h]

theorem onCollection_ok {α : Type} {name : String}
    {act : Collection → Except QdrantError (α × Collection)} {q q' : Qdrant} {a : α}
    (h : onCollection name act q = .ok (a, q')) :
    ∃ collection changed, q name = some collection ∧ act collection = .ok (a, changed) ∧
      q' = Function.update q name (some changed) := by
  cases hname : q name with
  | none => simp [onCollection, hname] at h
  | some collection =>
      rw [onCollection_some hname] at h
      cases hact : act collection with
      | error e =>
          rw [hact] at h
          cases h
      | ok answer =>
          rw [hact] at h
          cases h
          exact ⟨collection, answer.2, rfl, hact, rfl⟩

/-- An error with a status that tells what there is, is what the request says. -/
def Tells {α : Type} (request : Request α) (q : Qdrant) (e : RagError) : Prop :=
  ∀ status detail, e = .qdrant (.answered status detail) → status ∈ [400, 404, 409] →
    request q = .error (.answered status detail)

theorem send_leaves {α : Type} (request : Request α) (q : Qdrant) :
    Triple (· = q) (send request) (fun a q' => request q = .ok (a, q'))
      (fun e q' => q' = q ∧ Tells request q e) := by
  refine Triple.ask ?_ ?_
  · rintro s rfl
    cases hrequest : request s with
    | ok answer => rfl
    | error e =>
        refine ⟨rfl, ?_⟩
        intro status detail he _
        cases he
        exact hrequest
  · rintro s outage rfl
    refine ⟨rfl, ?_⟩
    intro status detail he hstatus
    cases he' : outage.error with
    | unavailable => simp [he'] at he
    | answered =>
        simp only [he', RagError.qdrant.injEq, QdrantError.answered.injEq] at he
        obtain ⟨rfl, rfl⟩ := he
        exact absurd hstatus (outage.honest _ _ he')

variable {raises : RagError → Qdrant → Prop}

/-- A request that succeeds, and leaves everything as it is when it does not. -/
theorem send_rule {α : Type} {request : Request α} {q : Qdrant} {post : α → Qdrant → Prop}
    (hok : ∀ a q', request q = .ok (a, q') → post a q') (hraise : ∀ e, raises e q) :
    Triple (· = q) (send request) post raises := by
  refine (send_leaves request q).consequence (fun _ h => h) hok ?_
  rintro e s ⟨rfl, -⟩
  exact hraise e

theorem answering_rule {α β : Type} (request : Request β) {q : Qdrant} {statuses : List Nat}
    {instead x : RagCall α} {post : α → Qdrant → Prop}
    (hx : Triple (· = q) x post (fun e q' => q' = q ∧ Tells request q e))
    (hstatuses : ∀ status ∈ statuses, status ∈ [400, 404, 409])
    (hinstead : ∀ status detail, status ∈ statuses →
      request q = .error (.answered status detail) → Triple (· = q) instead post raises)
    (hraise : ∀ e, raises e q) : Triple (· = q) (answering statuses instead x) post raises := by
  refine Triple.handle hx ?_
  intro e w hw
  obtain ⟨hq, htells⟩ := hw
  have hthrow : ∀ e', Triple (· = q) (throw e' : RagCall α) post raises := by
    intro e'
    exact Triple.throw fun s hs => hs ▸ hraise e'
  cases e with
  | qdrant error =>
      cases error with
      | unavailable => exact hthrow _ w hq
      | answered status detail =>
          by_cases hmem : status ∈ statuses
          · simp only [if_pos hmem]
            exact hinstead status detail hmem (htells status detail rfl (hstatuses status hmem)) w hq
          · simp only [if_neg hmem]
            exact hthrow _ w hq
  | invalidInput | collectionExists | collectionNotFound => exact hthrow _ w hq

/-! ### Requests that may be refused -/

theorem collectionExists_leaves {q : Qdrant} {name : String} (hraise : ∀ e, raises e q) :
    Triple (· = q) (collectionExists name) (fun there q' => q' = q ∧ there = (q name).isSome)
      raises := by
  refine answering_rule (readCollection name) ?_ (by simp) ?_ hraise
  · refine (send_leaves (readCollection name) q).bind fun _ => ?_
    refine Triple.pure ?_
    intro s hread
    obtain ⟨collection, changed, hname, hact, rfl⟩ := onCollection_ok hread
    obtain rfl : collection = changed := by simpa using hact
    exact ⟨by simp [← hname], by simp [hname]⟩
  · intro status detail hstatus hread
    refine Triple.pure ?_
    rintro s rfl
    refine ⟨rfl, ?_⟩
    cases hname : s name with
    | none => rfl
    | some collection => simp [readCollection, onCollection_some hname, Except.map] at hread

theorem createIndex_leaves {q : Qdrant} {name field : String} (hraise : ∀ e, raises e q) :
    Triple (· = q) (send (createIndex name field))
      (fun _ q' => Has name (pointsOf q name) q q' ∧ (q' name).isSome) raises := by
  refine send_rule ?_ hraise
  intro _ q' hindex
  obtain ⟨collection, changed, hname, hact, rfl⟩ := onCollection_ok hindex
  obtain rfl := (Prod.mk.inj (Except.ok.inj hact)).2
  refine ⟨?_, by simp⟩
  have hpoints : pointsOf q name = collection.points := by simp [pointsOf, hname]
  rw [hpoints]
  exact Has.update _ rfl

/-- A system collection that is ensured has the points it had. -/
theorem ensure_leaves {q : Qdrant} {name : String} {field : Option String}
    (hraise : ∀ e q', Has name (pointsOf q name) q q' → raises e q') :
    Triple (· = q) (ensureSystemCollection name field)
      (fun _ q' => Has name (pointsOf q name) q q') raises := by
  have hsame : ∀ e, raises e q := fun e => hraise e q Has.same
  refine (collectionExists_leaves hsame).bind fun there => ?_
  cases there with
  | true =>
      refine Triple.pure ?_
      rintro s ⟨rfl, -⟩
      exact Has.same
  | false =>
      refine Triple.fix fun s hs => ?_
      rw [hs.1]
      have hcreated : Triple (· = q)
          (answering [400, 409] (pure ()) (send (createCollection name 1)))
          (fun _ q' => Has name (pointsOf q name) q q') raises := by
        refine answering_rule (createCollection name 1) ?_ (by simp) ?_ hsame
        · refine (send_leaves _ q).consequence (fun _ h => h) ?_ fun _ _ h => h
          intro _ q' hcreate
          unfold createCollection at hcreate
          split at hcreate
          next => cases hcreate
          next hname =>
              cases hcreate
              have hpoints : pointsOf q name = [] := by simp [pointsOf, hname]
              rw [hpoints]
              exact Has.update _ rfl
        · intro status detail _ _
          refine Triple.pure ?_
          rintro s rfl
          exact Has.same
      refine hcreated.bind fun _ => ?_
      cases field with
      | none => exact Triple.pure fun _ hs => hs
      | some field =>
          refine Triple.fix fun s hs => ?_
          refine (createIndex_leaves fun e => hraise e s hs).consequence (fun _ h => h) ?_
            fun _ _ h => h
          rintro _ q' ⟨hindexed, -⟩
          rw [hs.points] at hindexed
          exact hs.trans hindexed

theorem upsertPoints_ok {q q' : Qdrant} {name : String} {points : List NewPoint} {a : Unit}
    (h : upsertPoints name points q = .ok (a, q')) :
    ∃ read, points.mapM NewPoint.read = some read ∧
      Has name (Keyed.putAll Point.id (pointsOf q name) read) q q' := by
  obtain ⟨collection, changed, hname, hact, rfl⟩ := onCollection_ok h
  have hpoints : pointsOf q name = collection.points := by simp [pointsOf, hname]
  cases hread : points.mapM NewPoint.read with
  | none => simp [hread] at hact
  | some read =>
      simp only [hread, Except.ok.injEq, Prod.mk.injEq, true_and] at hact
      obtain rfl := hact
      refine ⟨read, rfl, ?_⟩
      rw [hpoints]
      exact Has.update _ rfl

theorem upsert_leaves {q : Qdrant} {name : String} {points : List NewPoint}
    (hraise : ∀ e, raises e q) :
    Triple (· = q) (send (upsertPoints name points))
      (fun _ q' => ∃ read, points.mapM NewPoint.read = some read ∧
        Has name (Keyed.putAll Point.id (pointsOf q name) read) q q') raises :=
  send_rule (fun _ _ => upsertPoints_ok) hraise

theorem deletePoints_ok {q q' : Qdrant} {name : String} {ids : List String} {a : Unit}
    (h : deletePoints name ids q = .ok (a, q')) :
    ∃ read, ids.mapM PointId.ofText = some read ∧
      Has name (Keyed.dropKeys Point.id (pointsOf q name) read) q q' := by
  obtain ⟨collection, changed, hname, hact, rfl⟩ := onCollection_ok h
  have hpoints : pointsOf q name = collection.points := by simp [pointsOf, hname]
  cases hread : ids.mapM PointId.ofText with
  | none => simp [hread] at hact
  | some read =>
      simp only [hread, Except.ok.injEq, Prod.mk.injEq, true_and] at hact
      obtain rfl := hact
      refine ⟨read, rfl, ?_⟩
      rw [hpoints]
      exact Has.update _ rfl

theorem delete_leaves {q : Qdrant} {name : String} {ids : List String}
    (hraise : ∀ e, raises e q) :
    Triple (· = q) (send (deletePoints name ids))
      (fun _ q' => ∃ read, ids.mapM PointId.ofText = some read ∧
        Has name (Keyed.dropKeys Point.id (pointsOf q name) read) q q') raises :=
  send_rule (fun _ _ => deletePoints_ok) hraise

/-- Points are not found only where there is no collection. -/
theorem deletePoints_missing {q : Qdrant} {name : String} {ids : List String} {status : Nat}
    {detail : String} (hstatus : status ∈ [404])
    (h : deletePoints name ids q = .error (.answered status detail)) : q name = none := by
  obtain rfl := List.mem_singleton.mp hstatus
  cases hname : q name with
  | none => rfl
  | some collection =>
      rw [deletePoints, onCollection_some hname] at h
      cases hread : ids.mapM PointId.ofText with
      | none => simp [hread, badId, Except.map] at h
      | some read => simp [hread, Except.map] at h

/-- What is read is what the points grant. -/
theorem readAcl_leaves {store : CollectionStore} {q : Qdrant} (hraise : ∀ e, raises e q) :
    Triple (· = q) store.readAcl
      (fun acl q' => q' = q ∧ acl = parseAcl (pointsOf q store.backend.aclCollection)) raises := by
  refine answering_rule (scrollPoints store.backend.aclCollection) ?_ (by simp) ?_ hraise
  · refine (send_leaves (scrollPoints store.backend.aclCollection) q).bind fun points => ?_
    refine Triple.pure ?_
    intro s hscroll
    obtain ⟨collection, changed, hname, hact, rfl⟩ := onCollection_ok hscroll
    obtain ⟨rfl, rfl⟩ := Prod.mk.inj (Except.ok.inj hact)
    exact ⟨by simp [← hname], by simp [pointsOf, hname]⟩
  · intro status detail hstatus hscroll
    refine Triple.pure ?_
    rintro s rfl
    refine ⟨rfl, ?_⟩
    cases hname : s store.backend.aclCollection with
    | none => simp [pointsOf, hname, parseAcl]
    | some collection => simp [scrollPoints, onCollection_some hname, Except.map] at hscroll

/-! ### Writing the grants of a collection -/

section Grants

variable (rt : RagRuntime) (backend : RagBackend) (name : String) (roles : List RoleGrant)
  (before : List Point)

/-- The points that are written for the grants. -/
def Upserts (points : List Point) : Prop :=
  (roles.filterMap (upsertFor rt name (currentGrants backend name (parseAcl before)))).mapM
    NewPoint.read = some points

/-- The ids of the points that are deleted. -/
def Stale (ids : List PointId) : Prop :=
  (staleIds roles (currentGrants backend name (parseAcl before))).mapM PointId.ofText = some ids

/-- The points of the ACL collection while its grants are written. -/
inductive GrantStage : List Point → Prop where
  | unwritten : GrantStage before
  | upserted {points : List Point} (upserts : Upserts rt backend name roles before points) :
      GrantStage (Keyed.putAll Point.id before points)
  | dropped {points : List Point} {ids : List PointId}
      (upserts : Upserts rt backend name roles before points)
      (stale : Stale backend name roles before ids) :
      GrantStage (Keyed.dropKeys Point.id (Keyed.putAll Point.id before points) ids)

/-- Whether the operator holds a global grant. -/
def operatorHolds (acl : List AclPoint) : Bool :=
  acl.any fun point => point.role = backend.operatorRole && point.access = globalAccess

/-- The global grant of the operator. -/
def operatorPoint : Point where
  id := .uuid (rt.uuid5 aclNamespace (backend.operatorRole ++ "|" ++ globalCollection))
  payload := (aclPoint rt backend.operatorRole globalCollection globalAccess .null none).payload

/-- The points of the ACL collection when the grants are written. -/
def GrantsWritten (after : List Point) : Prop :=
  ∃ points ids, Upserts rt backend name roles before points ∧
    Stale backend name roles before ids ∧
    after =
      let dropped := Keyed.dropKeys Point.id (Keyed.putAll Point.id before points) ids
      if operatorHolds backend (parseAcl before) then dropped
      else Keyed.put Point.id dropped (operatorPoint rt backend)

end Grants

theorem unlessEmpty_rule {α : Type} {items : List α} {x : RagCall Unit} {q : Qdrant}
    {post : Unit → Qdrant → Prop} (hx : items ≠ [] → Triple (· = q) x post raises)
    (hnone : items = [] → post () q) : Triple (· = q) (unlessEmpty items x) post raises := by
  cases items with
  | nil => exact Triple.pure fun s hs => hs ▸ hnone rfl
  | cons first rest => exact hx (by simp)

variable {store : CollectionStore} {rt : RagRuntime} {name : String} {roles : List RoleGrant}

theorem applyGrants_leaves {q : Qdrant} {before : List Point}
    (hbefore : pointsOf q store.backend.aclCollection = before)
    (hraise : ∀ e q' points, GrantStage rt store.backend name roles before points →
      Has store.backend.aclCollection points q q' → raises e q') :
    Triple (· = q) (store.applyGrants rt name roles (parseAcl before))
      (fun _ q' => ∃ points ids, Upserts rt store.backend name roles before points ∧
        Stale store.backend name roles before ids ∧
        Has store.backend.aclCollection
          (Keyed.dropKeys Point.id (Keyed.putAll Point.id before points) ids) q q') raises := by
  obtain rfl := hbefore
  have hupserts : Triple (· = q)
      (unlessEmpty
        (roles.filterMap (upsertFor rt name (currentGrants store.backend name
          (parseAcl (pointsOf q store.backend.aclCollection)))))
        (send (upsertPoints store.backend.aclCollection
          (roles.filterMap (upsertFor rt name (currentGrants store.backend name
            (parseAcl (pointsOf q store.backend.aclCollection))))))))
      (fun _ q' => ∃ points,
        Upserts rt store.backend name roles (pointsOf q store.backend.aclCollection) points ∧
        Has store.backend.aclCollection
          (Keyed.putAll Point.id (pointsOf q store.backend.aclCollection) points) q q') raises := by
    refine unlessEmpty_rule ?_ ?_
    · intro _
      exact upsert_leaves fun e => hraise e q _ .unwritten Has.same
    · intro hnone
      exact ⟨[], by rw [Upserts, hnone]; rfl, Has.same⟩
  refine hupserts.bind fun _ => Triple.fix fun s hs => ?_
  obtain ⟨points, hpoints, hhas⟩ := hs
  refine unlessEmpty_rule ?_ ?_
  · intro _
    refine (delete_leaves fun e => hraise e s _ (.upserted hpoints) hhas).consequence
      (fun _ h => h) ?_ fun _ _ h => h
    rintro _ q' ⟨ids, hids, hhas'⟩
    rw [hhas.points] at hhas'
    exact ⟨points, ids, hpoints, hids, hhas.trans hhas'⟩
  · intro hnone
    refine ⟨points, [], hpoints, by rw [Stale, hnone]; rfl, ?_⟩
    simpa [Keyed.dropKeys] using hhas

theorem operatorPoint_read (rt : RagRuntime) (backend : RagBackend) :
    NewPoint.read (aclPoint rt backend.operatorRole globalCollection globalAccess .null none) =
      some (operatorPoint rt backend) := by
  simp [NewPoint.read, aclPoint, aclPointId, operatorPoint]

theorem ensureOperator_leaves {q : Qdrant} {acl : List AclPoint} (hraise : ∀ e, raises e q) :
    Triple (· = q) (store.ensureOperator rt acl)
      (fun _ q' => Has store.backend.aclCollection
        (if operatorHolds store.backend acl then pointsOf q store.backend.aclCollection
          else Keyed.put Point.id (pointsOf q store.backend.aclCollection)
            (operatorPoint rt store.backend)) q q') raises := by
  unfold CollectionStore.ensureOperator
  by_cases hholds : operatorHolds store.backend acl = true
  · rw [operatorHolds] at hholds
    simp only [hholds, operatorHolds, if_true]
    refine Triple.pure ?_
    rintro s rfl
    exact Has.same
  · have hnot := hholds
    rw [operatorHolds] at hnot
    simp only [hnot, hholds]
    refine Triple.bind (upsert_leaves hraise) fun _ => Triple.pure ?_
    rintro s ⟨read, hread, hhas⟩
    rw [List.mapM_cons, operatorPoint_read] at hread
    obtain rfl : read = [operatorPoint rt store.backend] := by simpa using hread.symm
    exact hhas

/-- The grants are read, changed and the operator's one is added, or something in between is left. -/
theorem writeGrants_leaves {q : Qdrant}
    (hraise : ∀ e q' points,
      GrantStage rt store.backend name roles (pointsOf q store.backend.aclCollection) points →
      Has store.backend.aclCollection points q q' → raises e q') :
    Triple (· = q)
      (do
        store.ensureAclCollection
        let acl ← store.readAcl
        store.applyGrants rt name roles acl
        let _ ← store.ensureOperator rt acl)
      (fun _ q' => ∃ after,
        GrantsWritten rt store.backend name roles (pointsOf q store.backend.aclCollection) after ∧
        Has store.backend.aclCollection after q q') raises := by
  refine Triple.bind (ensure_leaves fun e q' => hraise e q' _ .unwritten) fun _ => ?_
  refine Triple.fix fun ensured hensured => ?_
  refine Triple.bind (readAcl_leaves fun e => hraise e ensured _ .unwritten hensured) fun acl => ?_
  refine Triple.fix fun s hs => ?_
  obtain ⟨rfl, rfl⟩ := hs
  rw [hensured.points]
  refine Triple.bind (applyGrants_leaves hensured.points ?_) fun _ => Triple.fix fun written hw => ?_
  · intro e q' points hstage hhas
    exact hraise e q' points hstage (hensured.trans hhas)
  obtain ⟨points, ids, hpoints, hids, hhas⟩ := hw
  have hhas' := hensured.trans hhas
  refine Triple.bind
    (ensureOperator_leaves fun e => hraise e written _ (.dropped hpoints hids) hhas')
    fun _ => Triple.pure ?_
  intro after hafter
  rw [hhas'.points] at hafter
  exact ⟨_, ⟨points, ids, hpoints, hids, rfl⟩, hhas'.trans hafter⟩

end Papaia.Rag
