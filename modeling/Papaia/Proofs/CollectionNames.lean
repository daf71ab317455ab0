/-
Module: Papaia.Proofs.CollectionNames
Purpose: What creating and deleting a collection leave of its name in the system collections, when a
  call succeeds and when a request fails in the middle.
Trusted boundary: none
Main exports: Mine, OthersKept, EndsClean, StartsClean, Startable, purge_leaves, fill_leaves
-/
import Papaia.Proofs.Roles

namespace Papaia.Rag

open Keyed Remote

/-! ### What belongs to a name -/

/-- A point that grants some role access to the collection. -/
def GrantsName (name : String) (point : Point) : Prop :=
  ∃ grant, parseAclPoint point = some grant ∧ grant.collection = name ∧ grant.access ∈ accessLevels

/-- The points of the system collections that belong to a collection: its record and its grants. -/
def Mine (rt : RagRuntime) (backend : RagBackend) (name collection : String) (point : Point) :
    Prop :=
  (collection = backend.metaCollection ∧ point.id.text = metaPointId rt name) ∨
    (collection = backend.aclCollection ∧ GrantsName name point)

/-- Nothing of other names is changed; at most the operator's grant is new. -/
structure OthersKept (rt : RagRuntime) (backend : RagBackend) (name : String)
    (before after : Qdrant) : Prop where
  collections : ∀ other, other ≠ name → other ∉ backend.systemCollections →
    after other = before other
  kept : ∀ other ∈ backend.systemCollections, ∀ point ∈ pointsOf before other,
    ¬Mine rt backend name other point → point ∈ pointsOf after other
  added : ∀ other ∈ backend.systemCollections, ∀ point ∈ pointsOf after other,
    ¬Mine rt backend name other point → point ∈ pointsOf before other ∨
      (other = backend.aclCollection ∧ point = operatorPoint rt backend)

/-- Nothing of the name is left, and nothing of other names is changed. -/
structure EndsClean (rt : RagRuntime) (backend : RagBackend) (name : String)
    (before after : Qdrant) : Prop where
  gone : after name = none
  left : ∀ other ∈ backend.systemCollections, ∀ point ∈ pointsOf after other,
    ¬Mine rt backend name other point
  others : OthersKept rt backend name before after

section Names

variable {rt : RagRuntime} {backend : RagBackend} {name : String} {before q after : Qdrant}

theorem OthersKept.trans (one : OthersKept rt backend name before q)
    (two : OthersKept rt backend name q after) : OthersKept rt backend name before after := by
  refine ⟨?_, ?_, ?_⟩
  · intro other hname hsystem
    exact (two.collections other hname hsystem).trans (one.collections other hname hsystem)
  · intro other hother point hmem hmine
    exact two.kept other hother point (one.kept other hother point hmem hmine) hmine
  · intro other hother point hmem hmine
    rcases two.added other hother point hmem hmine with hq | hoperator
    · exact one.added other hother point hq hmine
    · exact .inr hoperator

/-- Only the collection of the name differs. -/
theorem OthersKept.of_beside (hname : name ∉ backend.systemCollections)
    (h : ∀ other, other ≠ name → q other = before other) :
    OthersKept rt backend name before q := by
  have hpoints : ∀ other ∈ backend.systemCollections, pointsOf q other = pointsOf before other := by
    intro other hother
    have hne : other ≠ name := fun heq => hname (heq ▸ hother)
    rw [pointsOf, pointsOf, h other hne]
  refine ⟨fun other hne _ => h other hne, ?_, ?_⟩
  · intro other hother point hmem _
    rwa [hpoints other hother]
  · intro other hother point hmem _
    rw [hpoints other hother] at hmem
    exact .inl hmem

/-- Only the points of one system collection differ, and among them only the name's own and the
operator's. -/
theorem OthersKept.of_has {changed : String} {points : List Point}
    (hchanged : changed ∈ backend.systemCollections) (hhas : Has changed points before q)
    (hkept : ∀ point ∈ pointsOf before changed, ¬Mine rt backend name changed point →
      point ∈ points)
    (hadded : ∀ point ∈ points, ¬Mine rt backend name changed point →
      point ∈ pointsOf before changed ∨
        (changed = backend.aclCollection ∧ point = operatorPoint rt backend)) :
    OthersKept rt backend name before q := by
  have hrest : ∀ other, other ≠ changed → pointsOf q other = pointsOf before other := by
    intro other hne
    rw [pointsOf, pointsOf, hhas.rest other hne]
  refine ⟨?_, ?_, ?_⟩
  · intro other _ hsystem
    exact hhas.rest other fun heq => hsystem (heq ▸ hchanged)
  · intro other hother point hmem hmine
    by_cases heq : other = changed
    · subst heq
      rw [hhas.points]
      exact hkept point hmem hmine
    · rwa [hrest other heq]
  · intro other hother point hmem hmine
    by_cases heq : other = changed
    · subst heq
      rw [hhas.points] at hmem
      exact hadded point hmem hmine
    · rw [hrest other heq] at hmem
      exact .inl hmem

theorem EndsClean.of_kept (one : OthersKept rt backend name before q)
    (two : EndsClean rt backend name q after) : EndsClean rt backend name before after :=
  ⟨two.gone, two.left, one.trans two.others⟩

theorem mine_of_grant {point : Point} {grant : AclPoint}
    (h : grantOf backend name point = some grant) :
    Mine rt backend name backend.aclCollection point := by
  obtain ⟨hparse, hgrants⟩ := grantOf_eq_some.mp h
  obtain ⟨hcollection, hlevel, -⟩ := grantsOn_iff.mp hgrants
  exact .inr ⟨rfl, grant, hparse, hcollection, hlevel⟩

theorem grantOf_none_of_not_mine {point : Point}
    (h : ¬Mine rt backend name backend.aclCollection point) : grantOf backend name point = none := by
  cases hgrant : grantOf backend name point with
  | none => rfl
  | some grant => exact absurd (mine_of_grant hgrant) h

end Names

/-! ### Removing what belongs to a name -/

section Purge

variable {store : CollectionStore} {rt : RagRuntime} {name : String} {q : Qdrant}

theorem metaPointId_read (rt : RagRuntime) (name : String) :
    PointId.ofText (metaPointId rt name) = some (.uuid (rt.uuid5 metaNamespace name)) := by
  simp [metaPointId]

/-- The record is deleted, also where there is no collection of records. -/
theorem deleteMeta_leaves :
    Triple (· = q)
      (answering [404] (pure ())
        (send (deletePoints store.backend.metaCollection [metaPointId rt name])))
      (fun _ q' => Has store.backend.metaCollection
        (dropKeys Point.id (pointsOf q store.backend.metaCollection)
          [.uuid (rt.uuid5 metaNamespace name)]) q q')
      fun _ _ => True := by
  refine answering_rule
    (deletePoints store.backend.metaCollection [metaPointId rt name]) ?_ (by simp) ?_ fun _ => trivial
  · refine (send_leaves _ q).consequence (fun _ h => h) ?_ fun _ _ h => h
    intro _ q' hdelete
    obtain ⟨read, hread, hhas⟩ := deletePoints_ok hdelete
    rw [List.mapM_cons, metaPointId_read] at hread
    obtain rfl : read = [.uuid (rt.uuid5 metaNamespace name)] := by simpa using hread.symm
    exact hhas
  · intro status detail hstatus hdelete
    refine Triple.pure ?_
    rintro s rfl
    have hnone := deletePoints_missing hstatus hdelete
    have hpoints : pointsOf s store.backend.metaCollection = [] := by simp [pointsOf, hnone]
    refine ⟨?_, fun _ _ => rfl⟩
    rw [hpoints]
    rfl

/-- What is left of the system collections: what does not belong to the name. -/
structure Purged (rt : RagRuntime) (backend : RagBackend) (name : String) (before after : Qdrant) :
    Prop where
  collections : ∀ other, other ∉ backend.systemCollections → after other = before other
  points : ∀ other ∈ backend.systemCollections, ∀ point,
    point ∈ pointsOf after other ↔
      point ∈ pointsOf before other ∧ ¬Mine rt backend name other point

/-- The grants on the name are deleted. -/
theorem deleteGrants_leaves :
    Triple (· = q)
      (do
        let acl ← store.readAcl
        let stale := (acl.filter fun point =>
          point.collection = name && point.access ∈ accessLevels).map AclPoint.id
        unlessEmpty stale (send (deletePoints store.backend.aclCollection stale)))
      (fun _ q' => ∃ ids, Has store.backend.aclCollection
          (dropKeys Point.id (pointsOf q store.backend.aclCollection) ids) q q' ∧
        ∀ point ∈ pointsOf q store.backend.aclCollection, point.id ∈ ids ↔ GrantsName name point)
      fun _ _ => True := by
  refine Triple.bind (readAcl_leaves fun _ => trivial) fun acl => Triple.fix fun s hread => ?_
  obtain ⟨rfl, rfl⟩ := hread
  have hstale : ∀ point ∈ pointsOf s store.backend.aclCollection,
      point.id.text ∈ ((parseAcl (pointsOf s store.backend.aclCollection)).filter fun point =>
        point.collection = name && point.access ∈ accessLevels).map AclPoint.id ↔
      GrantsName name point := by
    intro point hmem
    simp only [parseAcl, List.mem_map, List.mem_filter, List.mem_filterMap, Bool.and_eq_true,
      decide_eq_true_eq]
    constructor
    · rintro ⟨grant, ⟨⟨other, hother, hparse⟩, hcollection, hlevel⟩, hid⟩
      rw [parse_id hparse] at hid
      obtain rfl := (pointsOf_distinct _ _).eq hother hmem (PointId.text_injective hid)
      exact ⟨grant, hparse, hcollection, hlevel⟩
    · rintro ⟨grant, hparse, hcollection, hlevel⟩
      exact ⟨grant, ⟨⟨point, hmem, hparse⟩, hcollection, hlevel⟩, parse_id hparse⟩
  refine unlessEmpty_rule ?_ ?_
  · intro _
    refine (delete_leaves fun _ => trivial).consequence (fun _ h => h) ?_ fun _ _ h => h
    rintro _ q' ⟨read, hread, hhas⟩
    refine ⟨read, hhas, fun point hmem => ?_⟩
    rw [← hstale point hmem, Paired.mem_mapM hread]
    constructor
    · rintro ⟨text, htext, hof⟩
      rwa [PointId.text_of_ofText hof]
    · intro htext
      obtain ⟨id, -, hof⟩ := Paired.exists_of_mapM hread htext
      exact ⟨_, htext, by rw [hof, PointId.ofText_text hof]⟩
  · intro hnone
    refine ⟨[], ?_, fun point hmem => ?_⟩
    · simpa [dropKeys] using Has.same
    · rw [← hstale point hmem, hnone]
      simp

theorem purge_leaves :
    Triple (· = q) (store.purge rt name) (fun _ q' => Purged rt store.backend name q q')
      fun _ _ => True := by
  unfold CollectionStore.purge
  refine Triple.bind deleteMeta_leaves fun _ => Triple.fix fun s hs => ?_
  refine deleteGrants_leaves.consequence (fun _ h => h) ?_ fun _ _ h => h
  rintro _ q' ⟨ids, hhas, hids⟩
  have hacl : ∀ point, point ∈ pointsOf q' store.backend.aclCollection ↔
      point ∈ pointsOf s store.backend.aclCollection ∧ ¬GrantsName name point := by
    intro point
    rw [hhas.points, mem_dropKeys]
    exact and_congr_right fun hmem => not_congr (hids point hmem)
  have hmeta : ∀ point, point ∈ pointsOf s store.backend.metaCollection ↔
      point ∈ pointsOf q store.backend.metaCollection ∧ point.id.text ≠ metaPointId rt name := by
    intro point
    rw [hs.points, mem_dropKeys, List.mem_singleton]
    refine and_congr_right fun _ => not_congr ⟨fun h => by rw [h]; rfl, fun h => ?_⟩
    exact PointId.text_injective h
  refine ⟨?_, ?_⟩
  · intro other hother
    have hne : other ≠ store.backend.metaCollection ∧ other ≠ store.backend.aclCollection := by
      simpa [RagBackend.systemCollections] using hother
    rw [hhas.rest other hne.2, hs.rest other hne.1]
  · intro other hother point
    by_cases hsame : store.backend.metaCollection = store.backend.aclCollection
    · have hacl' : other = store.backend.aclCollection := by
        simpa [RagBackend.systemCollections, hsame] using hother
      subst hacl'
      rw [hacl, ← hsame, hmeta, and_assoc]
      simp [Mine, hsame]
    · rcases List.mem_pair.mp hother with rfl | rfl
      · have hrest : pointsOf q' store.backend.metaCollection =
            pointsOf s store.backend.metaCollection := by
          rw [pointsOf, pointsOf, hhas.rest _ hsame]
        rw [hrest, hmeta]
        simp [Mine, hsame]
      · have hrest : pointsOf s store.backend.aclCollection =
            pointsOf q store.backend.aclCollection := by
          rw [pointsOf, pointsOf, hs.rest _ (Ne.symm hsame)]
        rw [hacl, hrest]
        simp [Mine, Ne.symm hsame]

/-- What is purged after the collection is gone ends clean. -/
theorem Purged.endsClean {gone after : Qdrant} (hname : name ∉ store.backend.systemCollections)
    (hgone : gone name = none) (hrest : ∀ other, other ≠ name → gone other = q other)
    (h : Purged rt store.backend name gone after) : EndsClean rt store.backend name q after := by
  refine ⟨by rw [h.collections name hname, hgone], ?_, ?_⟩
  · intro other hother point hmem
    exact ((h.points other hother point).mp hmem).2
  · refine (OthersKept.of_beside hname hrest).trans ⟨?_, ?_, ?_⟩
    · exact fun other _ hsystem => h.collections other hsystem
    · exact fun other hother point hmem hmine => (h.points other hother point).mpr ⟨hmem, hmine⟩
    · exact fun other hother point hmem _ => .inl ((h.points other hother point).mp hmem).1

theorem deleteCollection_ok {q' : Qdrant} {a : Unit} (h : deleteCollection name q = .ok (a, q')) :
    q' name = none ∧ ∀ other, other ≠ name → q' other = q other := by
  unfold deleteCollection at h
  split at h
  next => cases h
  next =>
      cases h
      exact ⟨Function.update_self _ _ _, fun other hne => Function.update_of_ne hne _ _⟩

/-- The collection goes, and what belongs to it. -/
theorem clear_leaves (hname : name ∉ store.backend.systemCollections) :
    Triple (· = q) (store.clear rt name) (fun _ q' => EndsClean rt store.backend name q q')
      fun _ _ => True := by
  unfold CollectionStore.clear
  have hdeleted : Triple (· = q) (send (deleteCollection name))
      (fun _ s => s name = none ∧ ∀ other, other ≠ name → s other = q other) (fun _ _ => True) :=
    send_rule (fun _ _ => deleteCollection_ok) fun _ => trivial
  refine Triple.bind hdeleted fun _ => Triple.fix fun s hs => ?_
  refine purge_leaves.consequence (fun _ h => h) ?_ fun _ _ h => h
  exact fun _ q' h => h.endsClean hname hs.1 hs.2

/-- What `delete` leaves when it succeeds, whatever there was before. -/
theorem delete_leaves_clean :
    Triple (· = q) (store.delete rt name) (fun _ q' => EndsClean rt store.backend name q q')
      fun _ _ => True := by
  unfold CollectionStore.delete
  refine Triple.bind (requireUsable_leaves fun _ => trivial) fun _ => ?_
  refine Triple.bind (Triple.ofExcept fun _ _ _ => trivial) fun known => Triple.fix fun s hs => ?_
  obtain ⟨hknown, rfl⟩ := hs
  obtain ⟨rfl, -, hname⟩ := existingName_ok hknown
  have hdeleted : Triple (· = s) (answering [404] (pure ()) (send (deleteCollection known)))
      (fun _ s' => s' known = none ∧ ∀ other, other ≠ known → s' other = s other)
      (fun _ _ => True) := by
    refine answering_rule (deleteCollection known) ?_ (by simp) ?_ fun _ => trivial
    · exact (send_leaves _ s).consequence (fun _ h => h) (fun _ _ => deleteCollection_ok)
        fun _ _ h => h
    · intro status detail _ hdelete
      refine Triple.pure ?_
      rintro _ rfl
      refine ⟨?_, fun _ _ => rfl⟩
      unfold deleteCollection at hdelete
      split at hdelete
      next hnone => exact hnone
      next => cases hdelete
  refine Triple.bind hdeleted fun _ => Triple.fix fun s' hs => ?_
  refine purge_leaves.consequence (fun _ h => h) ?_ fun _ _ h => h
  exact fun _ q' h => h.endsClean hname hs.1 hs.2

end Purge

/-! ### Filling a new collection -/

section Fill

variable {store : CollectionStore} {rt : RagRuntime} {name : String} {new : NewCollection}
  {before q : Qdrant} {raises : RagError → Qdrant → Prop}

/-- The record of a collection. -/
def recordPoint (rt : RagRuntime) (name model : String) (size : Int) : Point where
  id := .uuid (rt.uuid5 metaNamespace name)
  payload := (metaPoint rt name model size).payload

/-- The points of the meta collection when the record is written. -/
def metaRecorded (rt : RagRuntime) (backend : RagBackend) (name : String) (new : NewCollection)
    (before : Qdrant) : List Point :=
  match new.model with
  | some model =>
      put Point.id (pointsOf before backend.metaCollection) (recordPoint rt name model new.size)
  | none => pointsOf before backend.metaCollection

/-- The points of the ACL collection when they are read. -/
def aclRead (rt : RagRuntime) (backend : RagBackend) (name : String) (new : NewCollection)
    (before : Qdrant) : List Point :=
  if backend.aclCollection = backend.metaCollection then metaRecorded rt backend name new before
  else pointsOf before backend.aclCollection

/-- The collection is there, and nothing else is changed. -/
def Beside (name : String) (before q : Qdrant) : Prop :=
  (q name).isSome ∧ ∀ other, other ≠ name → q other = before other

/-- The record is written too. -/
structure Recorded (rt : RagRuntime) (backend : RagBackend) (name : String) (new : NewCollection)
    (before q : Qdrant) : Prop where
  there : (q name).isSome
  rest : ∀ other, other ≠ name → other ≠ backend.metaCollection → q other = before other
  points : pointsOf q backend.metaCollection = metaRecorded rt backend name new before

theorem Recorded.acl (hname : name ∉ store.backend.systemCollections)
    (h : Recorded rt store.backend name new before q) :
    pointsOf q store.backend.aclCollection = aclRead rt store.backend name new before := by
  unfold aclRead
  split
  next hsame => rw [hsame, h.points]
  next hne =>
      have hother : store.backend.aclCollection ≠ name := fun heq =>
        hname (by simp [← heq, RagBackend.systemCollections])
      rw [pointsOf, pointsOf, h.rest _ hother hne]

theorem indexes_leaves (hraise : ∀ e q', Beside name before q' → raises e q') :
    Triple (Beside name before) (payloadIndexFields.forM fun field => send (createIndex name field))
      (fun _ => Beside name before) raises := by
  refine Triple.each fun field _ => Triple.fix fun s hs => ?_
  refine (createIndex_leaves fun e => hraise e s hs).consequence (fun _ h => h) ?_ fun _ _ h => h
  intro _ q' h
  exact ⟨h.2, fun other hne => (h.1.rest other hne).trans (hs.2 other hne)⟩

theorem writeMeta_leaves {model : String} {size : Int}
    (hraise : ∀ e q', Has store.backend.metaCollection
      (pointsOf q store.backend.metaCollection) q q' → raises e q') :
    Triple (· = q) (store.writeMeta rt name model size)
      (fun _ q' => Has store.backend.metaCollection
        (put Point.id (pointsOf q store.backend.metaCollection)
          (recordPoint rt name model size)) q q') raises := by
  unfold CollectionStore.writeMeta
  refine Triple.bind (ensure_leaves hraise) fun _ => Triple.fix fun s hs => ?_
  refine (upsert_leaves fun e => hraise e s hs).consequence (fun _ h => h) ?_ fun _ _ h => h
  rintro _ q' ⟨read, hread, hhas⟩
  have hrecord : (metaPoint rt name model size).read = some (recordPoint rt name model size) := by
    simp [NewPoint.read, metaPoint, metaPointId, recordPoint]
  rw [List.mapM_cons, hrecord] at hread
  obtain rfl : read = [recordPoint rt name model size] := by simpa using hread.symm
  rw [hs.points] at hhas
  exact hs.trans hhas

/-- The record is written when a model was given. -/
theorem record_leaves (hname : name ∉ store.backend.systemCollections)
    (hraise : ∀ e s q', Beside name before s → Has store.backend.metaCollection
      (pointsOf s store.backend.metaCollection) s q' → raises e q') :
    Triple (Beside name before) (store.recordModel rt name new)
      (fun _ => Recorded rt store.backend name new before) raises := by
  have hmeta : store.backend.metaCollection ≠ name := fun heq =>
    hname (by simp [← heq, RagBackend.systemCollections])
  have hpoints : ∀ s, Beside name before s → pointsOf s store.backend.metaCollection =
      pointsOf before store.backend.metaCollection := by
    intro s hs
    rw [pointsOf, pointsOf, hs.2 _ hmeta]
  unfold CollectionStore.recordModel
  cases hmodel : new.model with
  | none =>
      refine Triple.pure fun s hs => ⟨hs.1, fun other hne _ => hs.2 other hne, ?_⟩
      rw [hpoints s hs, metaRecorded, hmodel]
  | some model =>
      refine Triple.fix fun s hs => ?_
      refine (writeMeta_leaves fun e q' => hraise e s q' hs).consequence (fun _ h => h) ?_
        fun _ _ h => h
      intro _ q' hhas
      refine ⟨?_, ?_, ?_⟩
      · rw [hhas.rest name hmeta.symm]
        exact hs.1
      · exact fun other hne hother => (hhas.rest other hother).trans (hs.2 other hne)
      · rw [hhas.points, hpoints s hs, metaRecorded, hmodel]

/-- What `fill` leaves when it succeeds, and what it leaves when a request fails. -/
theorem fill_leaves (hname : name ∉ store.backend.systemCollections)
    (hbeside : ∀ e q', Beside name before q' → raises e q')
    (hrecording : ∀ e s q', Beside name before s → Has store.backend.metaCollection
      (pointsOf s store.backend.metaCollection) s q' → raises e q')
    (hstage : ∀ e s q' points, Recorded rt store.backend name new before s →
      GrantStage rt store.backend name new.roles (pointsOf s store.backend.aclCollection) points →
      Has store.backend.aclCollection points s q' → raises e q') :
    Triple (Beside name before) (store.fill rt name new)
      (fun _ q' => ∃ s after, Recorded rt store.backend name new before s ∧
        GrantsWritten rt store.backend name new.roles (pointsOf s store.backend.aclCollection)
          after ∧
        Has store.backend.aclCollection after s q') raises := by
  unfold CollectionStore.fill
  refine Triple.bind (indexes_leaves hbeside) fun _ => ?_
  refine Triple.bind (record_leaves hname hrecording) fun _ => Triple.fix fun s hs => ?_
  refine (writeGrants_leaves fun e q' points => hstage e s q' points hs).consequence
    (fun _ h => h) ?_ fun _ _ h => h
  rintro _ q' ⟨after, hwritten, hhas⟩
  exact ⟨s, after, hs, hwritten, hhas⟩

end Fill

/-! ### Creating a collection -/

section Create

variable {store : CollectionStore} {rt : RagRuntime} {name : String} {new : NewCollection}
  {before q s after : Qdrant}

/-- The collection is there with the record and the grants it was given, and nothing of other names is
changed. -/
structure StartsClean (rt : RagRuntime) (backend : RagBackend) (name : String)
    (new : NewCollection) (before after : Qdrant) : Prop where
  there : (after name).isSome
  record : ∀ point, (point ∈ pointsOf after backend.metaCollection ∧
      point.id.text = metaPointId rt name) ↔
    ∃ model, new.model = some model ∧ point = recordPoint rt name model new.size
  granted : ∀ role access,
    (∃ grant ∈ grants backend name (pointsOf after backend.aclCollection),
      grant.role = role ∧ grant.access = access) ↔ ⟨role, access⟩ ∈ new.roles
  others : OthersKept rt backend name before after

/-- What was left allows it: a record is left only where a new one replaces it, and the grants that are
left allow the list.  Where both system collections are one, no grant takes the id of the record. -/
structure Startable (rt : RagRuntime) (backend : RagBackend) (name : String)
    (new : NewCollection) (before : Qdrant) : Prop where
  unrecorded : new.model = none → ∀ point ∈ pointsOf before backend.metaCollection,
    point.id.text ≠ metaPointId rt name
  apart : new.model = none → backend.aclCollection = backend.metaCollection →
    metaPointId rt name ∉
      newIds rt backend name new.roles (pointsOf before backend.metaCollection) ++
        operatorIds rt backend (pointsOf before backend.metaCollection)
  settable : Settable rt backend name new.roles (aclRead rt backend name new before)

theorem recordPoint_parse (rt : RagRuntime) (name model : String) (size : Int) :
    parseAclPoint (recordPoint rt name model size) = none := by
  rfl

theorem metaCollection_mem (backend : RagBackend) :
    backend.metaCollection ∈ backend.systemCollections := by
  simp [RagBackend.systemCollections]

theorem aclCollection_mem (backend : RagBackend) :
    backend.aclCollection ∈ backend.systemCollections := by
  simp [RagBackend.systemCollections]

theorem checkNew_ok {size : Int} {model : Option String} {wanted : List RoleGrant}
    (h : store.checkNew rt name size model wanted = .ok new) :
    name ≠ "" ∧ name ∉ store.backend.systemCollections ∧ Normal store.backend new.roles := by
  unfold CollectionStore.checkNew at h
  simp only [bind, Except.bind] at h
  split at h
  next => cases h
  next known hname =>
      split at h
      next => cases h
      next =>
          split at h
          next => cases h
          next =>
              split at h
              next => cases h
              next roles hroles =>
                  cases h
                  unfold validateCollectionName at hname
                  split at hname
                  next => cases hname
                  next hvalid =>
                      split at hname
                      next => cases hname
                      next hsystem =>
                          refine ⟨?_, hsystem, normaliseGrants_normal hroles⟩
                          rintro rfl
                          exact hvalid (by decide)

theorem openNew_leaves {size : Int} {model : Option String} {wanted : List RoleGrant} :
    Triple (· = q) (store.openNew rt name size model wanted)
      (fun new q' => store.checkNew rt name size model wanted = .ok new ∧ Beside name q q')
      fun _ _ => True := by
  unfold CollectionStore.openNew
  refine Triple.bind (requireUsable_leaves fun _ => trivial) fun _ => ?_
  refine Triple.bind (Triple.ofExcept fun _ _ _ => trivial) fun checked => Triple.fix fun s hs => ?_
  obtain ⟨hchecked, rfl⟩ := hs
  refine Triple.bind (collectionExists_leaves fun _ => trivial) fun there =>
    Triple.fix fun s' hs => ?_
  obtain ⟨rfl, -⟩ := hs
  cases there with
  | true => exact Triple.throw fun _ _ => trivial
  | false =>
      have hcreated : Triple (· = s') (answering [409] (throw (.collectionExists name))
          (send (createCollection name checked.size))) (fun _ => Beside name s')
          (fun _ _ => True) := by
        refine answering_rule (createCollection name checked.size) ?_ (by simp) ?_ fun _ => trivial
        · refine (send_leaves _ s').consequence (fun _ h => h) ?_ fun _ _ h => h
          intro _ q' hcreate
          unfold createCollection at hcreate
          split at hcreate
          next => cases hcreate
          next =>
              cases hcreate
              exact ⟨by simp, fun other hne => Function.update_of_ne hne _ _⟩
        · exact fun _ _ _ _ => Triple.throw fun _ _ => trivial
      exact Triple.bind hcreated fun _ => Triple.pure fun q' hq => ⟨hchecked, hq⟩

/-- A record that is written is the name's own. -/
theorem OthersKept.of_recorded (hname : name ∉ store.backend.systemCollections)
    (h : Recorded rt store.backend name new before q) :
    OthersKept rt store.backend name before q := by
  have hrest : ∀ other ∈ store.backend.systemCollections, other ≠ store.backend.metaCollection →
      pointsOf q other = pointsOf before other := by
    intro other hother hne
    rw [pointsOf, pointsOf, h.rest other (fun heq => hname (heq ▸ hother)) hne]
  have hrecord : ∀ point, ¬Mine rt store.backend name store.backend.metaCollection point →
      (point ∈ pointsOf q store.backend.metaCollection ↔
        point ∈ pointsOf before store.backend.metaCollection) := by
    intro point hmine
    rw [h.points]
    unfold metaRecorded
    split
    next model _ =>
        have hid : point.id ≠ (recordPoint rt name model new.size).id := by
          intro heq
          exact hmine (.inl ⟨rfl, by rw [heq]; rfl⟩)
        have hne : point ≠ recordPoint rt name model new.size := fun heq => hid (by rw [heq])
        simp [mem_put, hid, hne]
    next => rfl
  refine ⟨?_, ?_, ?_⟩
  · intro other hne hsystem
    exact h.rest other hne fun heq => hsystem (heq ▸ metaCollection_mem _)
  · intro other hother point hmem hmine
    by_cases heq : other = store.backend.metaCollection
    · subst heq
      exact (hrecord point hmine).mpr hmem
    · rwa [hrest other hother heq]
  · intro other hother point hmem hmine
    by_cases heq : other = store.backend.metaCollection
    · subst heq
      exact .inl ((hrecord point hmine).mp hmem)
    · rw [hrest other hother heq] at hmem
      exact .inl hmem

/-- While the grants are written only the name's own points change. -/
theorem OthersKept.of_stage {roles : List RoleGrant} {points : List Point} (hname : name ≠ "")
    (hroles : Normal store.backend roles)
    (hsettable : Settable rt store.backend name roles (pointsOf s store.backend.aclCollection))
    (hstage : GrantStage rt store.backend name roles (pointsOf s store.backend.aclCollection) points)
    (hhas : Has store.backend.aclCollection points s q) :
    OthersKept rt store.backend name s q := by
  have hno : ∀ point, grantOf store.backend name point = none → ∀ grant,
      grantOf store.backend name point = some grant →
      Current store.backend name (pointsOf s store.backend.aclCollection) grant →
      (⟨grant.role, grant.access⟩ : RoleGrant) ∈ roles := by
    intro point hnone grant hof _
    rw [hnone] at hof
    cases hof
  have hkeeps : ∀ ups, Upserts rt store.backend name roles
      (pointsOf s store.backend.aclCollection) ups →
      ∀ point ∈ pointsOf s store.backend.aclCollection,
        grantOf store.backend name point = none → point ∈ putAll Point.id
          (pointsOf s store.backend.aclCollection) ups := by
    intro ups hups point hmem hnone
    refine mem_putAll.mpr (.inl ⟨hmem, ?_⟩)
    exact unwritten hname hroles (pointsOf_distinct _ _) hups hmem
      (hsettable.other_free hmem hnone).1 (hno point hnone)
  have hadds : ∀ ups, Upserts rt store.backend name roles
      (pointsOf s store.backend.aclCollection) ups →
      ∀ point ∈ putAll Point.id (pointsOf s store.backend.aclCollection) ups,
        grantOf store.backend name point = none →
        point ∈ pointsOf s store.backend.aclCollection := by
    intro ups hups point hmem hnone
    rcases mem_putAll.mp hmem with ⟨hbefore, -⟩ | hwrote
    · exact hbefore
    · obtain ⟨wanted, -, hwrites⟩ := writes_of_mem hname hroles hups hwrote.mem
      obtain ⟨grant, hof, -⟩ := hwrites.listed
      rw [hnone] at hof
      cases hof
  refine OthersKept.of_has (aclCollection_mem _) hhas ?_ ?_
  · intro point hmem hmine
    have hnone := grantOf_none_of_not_mine hmine
    cases hstage with
    | unwritten => exact hmem
    | upserted hups => exact hkeeps _ hups point hmem hnone
    | dropped hups hstale =>
        refine mem_dropKeys.mpr ⟨hkeeps _ hups point hmem hnone, ?_⟩
        exact undeleted (pointsOf_distinct _ _) hstale hmem (hno point hnone)
  · intro point hmem hmine
    have hnone := grantOf_none_of_not_mine hmine
    cases hstage with
    | unwritten => exact .inl hmem
    | upserted hups => exact .inl (hadds _ hups point hmem hnone)
    | dropped hups hstale => exact .inl (hadds _ hups point (mem_dropKeys.mp hmem).1 hnone)

/-- So do they when the grants are written. -/
theorem OthersKept.of_rolesSet {roles : List RoleGrant} {points : List Point}
    (hset : RolesSet rt store.backend name roles (pointsOf s store.backend.aclCollection) points)
    (hhas : Has store.backend.aclCollection points s q) :
    OthersKept rt store.backend name s q := by
  refine OthersKept.of_has (aclCollection_mem _) hhas ?_ ?_
  · intro point hmem hmine
    exact (hset.others point (grantOf_none_of_not_mine hmine)).mpr (.inl hmem)
  · intro point hmem hmine
    rcases (hset.others point (grantOf_none_of_not_mine hmine)).mp hmem with hbefore | hoperator
    · exact .inl hbefore
    · exact .inr ⟨rfl, hoperator.2⟩

theorem recordPoint_no_grant (rt : RagRuntime) (backend : RagBackend) (name model : String)
    (size : Int) : grantOf backend name (recordPoint rt name model size) = none := by
  simp [grantOf, recordPoint_parse]

/-- The record that is written is the one that was given. -/
theorem mem_metaRecorded (hstart : Startable rt store.backend name new before) (point : Point) :
    (point ∈ metaRecorded rt store.backend name new before ∧
        point.id.text = metaPointId rt name) ↔
      ∃ model, new.model = some model ∧ point = recordPoint rt name model new.size := by
  unfold metaRecorded
  cases hmodel : new.model with
  | none =>
      constructor
      · rintro ⟨hmem, hid⟩
        exact absurd hid (hstart.unrecorded hmodel point hmem)
      · rintro ⟨model, hnone, -⟩
        cases hnone
  | some model =>
      simp only [mem_put, Option.some.injEq, exists_eq_left']
      constructor
      · rintro ⟨⟨-, hne⟩ | heq, hid⟩
        · exact absurd (PointId.text_injective hid) hne
        · exact heq
      · rintro rfl
        exact ⟨.inr rfl, rfl⟩

/-- The id of the record is not taken for a grant where both kinds of points are in one collection. -/
theorem metaPointId_free (hsame : store.backend.aclCollection = store.backend.metaCollection)
    (hstart : Startable rt store.backend name new before) :
    metaPointId rt name ∉
        newIds rt store.backend name new.roles (metaRecorded rt store.backend name new before) ∧
      metaPointId rt name ∉
        operatorIds rt store.backend (metaRecorded rt store.backend name new before) := by
  cases hmodel : new.model with
  | none =>
      have hread : metaRecorded rt store.backend name new before =
          pointsOf before store.backend.metaCollection := by
        rw [metaRecorded, hmodel]
      have hapart := hstart.apart hmodel hsame
      rw [List.mem_append, not_or] at hapart
      rw [hread]
      exact hapart
  | some model =>
      have hmem : recordPoint rt name model new.size ∈ metaRecorded rt store.backend name new before :=
        ((mem_metaRecorded hstart _).mpr ⟨model, hmodel, rfl⟩).1
      have hsettable := hstart.settable
      rw [aclRead, if_pos hsame] at hsettable
      exact hsettable.other_free hmem (recordPoint_no_grant _ _ _ _ _)

/-- The record that is left when the grants are written is the one that was given. -/
theorem record_of_startable (hname : name ≠ "")
    (hroles : Normal store.backend new.roles) (hstart : Startable rt store.backend name new before)
    {points : List Point} (hs : Recorded rt store.backend name new before s)
    (hwritten : GrantsWritten rt store.backend name new.roles
      (pointsOf s store.backend.aclCollection) points)
    (hset : RolesSet rt store.backend name new.roles (pointsOf s store.backend.aclCollection) points)
    (hhas : Has store.backend.aclCollection points s q) (point : Point) :
    (point ∈ pointsOf q store.backend.metaCollection ∧ point.id.text = metaPointId rt name) ↔
      ∃ model, new.model = some model ∧ point = recordPoint rt name model new.size := by
  rw [← mem_metaRecorded hstart]
  refine and_congr_left fun hid => ?_
  by_cases hsame : store.backend.aclCollection = store.backend.metaCollection
  · have hread : pointsOf s store.backend.aclCollection =
        metaRecorded rt store.backend name new before := by rw [hsame, hs.points]
    obtain ⟨hnew, hoperator⟩ := metaPointId_free hsame hstart
    rw [hread] at hwritten hset
    rw [← hsame, hhas.points]
    constructor
    · intro hmem
      obtain ⟨ups, ids, hups, hstale, hafter⟩ := hwritten
      rcases (mem_written hafter).mp hmem with ⟨⟨hbefore, -⟩ | hwrote, -⟩ | ⟨hholds, rfl⟩
      · exact hbefore
      · obtain ⟨wanted, hwanted, hwrites⟩ := writes_of_mem hname hroles hups hwrote.mem
        cases hwrites with
        | changes grant current role differs id grants =>
            obtain ⟨other, hother, hof⟩ := mem_grants.mp current.mem
            have hrecord := (mem_metaRecorded hstart other).mp
              ⟨hother, by rw [← grantOf_id hof, ← id, hid]⟩
            obtain ⟨model, -, rfl⟩ := hrecord
            rw [recordPoint_no_grant] at hof
            cases hof
        | adds unheld id grants =>
            exact absurd (mem_newIds.mpr ⟨wanted, hwanted, unheld, by rw [← id, hid]⟩) hnew
      · exact absurd (mem_operatorIds.mpr ⟨hholds, hid⟩) hoperator
    · intro hmem
      obtain ⟨model, -, rfl⟩ := (mem_metaRecorded hstart point).mp ⟨hmem, hid⟩
      exact (hset.others _ (recordPoint_no_grant _ _ _ _ _)).mpr (.inl hmem)
  · have hrest : pointsOf q store.backend.metaCollection =
        metaRecorded rt store.backend name new before := by
      rw [← hs.points, pointsOf, pointsOf, hhas.rest _ (Ne.symm hsame)]
    rw [hrest]

/-- A collection that is created starts clean, where what was left allows it. -/
theorem startsClean (hname : name ≠ "") (hsystem : name ∉ store.backend.systemCollections)
    (hroles : Normal store.backend new.roles) (hstart : Startable rt store.backend name new before)
    {points : List Point} (hs : Recorded rt store.backend name new before s)
    (hwritten : GrantsWritten rt store.backend name new.roles
      (pointsOf s store.backend.aclCollection) points)
    (hhas : Has store.backend.aclCollection points s q) :
    StartsClean rt store.backend name new before q := by
  have hsettable := hstart.settable
  rw [← hs.acl hsystem] at hsettable
  have hset := (rolesSet_iff hname hroles (pointsOf_distinct _ _) hwritten).mpr hsettable
  refine ⟨?_, ?_, ?_, ?_⟩
  · rw [hhas.rest name fun heq => hsystem (heq ▸ aclCollection_mem _)]
    exact hs.there
  · exact record_of_startable hname hroles hstart hs hwritten hset hhas
  · rw [hhas.points]
    exact hset.exact
  · exact (OthersKept.of_recorded hsystem hs).trans (OthersKept.of_rolesSet hset hhas)

/-- What of the condition is needed where the system collections are two: a record that was left stays
when no model is given, and so does another point of a role. -/
structure Needed (rt : RagRuntime) (backend : RagBackend) (name : String) (new : NewCollection)
    (before : Qdrant) : Prop where
  unrecorded : new.model = none → ∀ point ∈ pointsOf before backend.metaCollection,
    point.id.text ≠ metaPointId rt name
  single : ∀ grant ∈ grants backend name (pointsOf before backend.aclCollection),
    ¬Current backend name (pointsOf before backend.aclCollection) grant →
    ⟨grant.role, grant.access⟩ ∈ new.roles ∨
      grant.id ∈ newIds rt backend name new.roles (pointsOf before backend.aclCollection) ++
        operatorIds rt backend (pointsOf before backend.aclCollection)

theorem needed_of_startsClean (hname : name ≠ "") (hsystem : name ∉ store.backend.systemCollections)
    (hroles : Normal store.backend new.roles)
    (hapart : store.backend.aclCollection ≠ store.backend.metaCollection)
    {points : List Point} (hs : Recorded rt store.backend name new before s)
    (hwritten : GrantsWritten rt store.backend name new.roles
      (pointsOf s store.backend.aclCollection) points)
    (hhas : Has store.backend.aclCollection points s q)
    (h : StartsClean rt store.backend name new before q) :
    Needed rt store.backend name new before := by
  refine ⟨?_, ?_⟩
  · intro hmodel point hmem hid
    have hrest : pointsOf q store.backend.metaCollection =
        pointsOf before store.backend.metaCollection := by
      rw [pointsOf, hhas.rest _ (Ne.symm hapart), ← pointsOf, hs.points, metaRecorded, hmodel]
    obtain ⟨given, hgiven, -⟩ := (h.record point).mp ⟨hrest ▸ hmem, hid⟩
    rw [hmodel] at hgiven
    cases hgiven
  · have hread : pointsOf s store.backend.aclCollection =
        pointsOf before store.backend.aclCollection := by
      rw [hs.acl hsystem, aclRead, if_neg hapart]
    rw [hread] at hwritten
    obtain ⟨ups, ids, hups, hstale, hafter⟩ := hwritten
    have hexact := h.granted
    rw [hhas.points] at hexact
    exact fun grant =>
      single_of_exact hname hroles (pointsOf_distinct _ _) hups hstale hafter hexact

/-- What `create` leaves when it succeeds. -/
theorem create_leaves {size : Int} {model : Option String} {wanted : List RoleGrant} :
    Triple (· = q) (store.create rt name size model wanted)
      (fun _ q' => ∃ new s points, store.checkNew rt name size model wanted = .ok new ∧
        Recorded rt store.backend name new q s ∧
        GrantsWritten rt store.backend name new.roles (pointsOf s store.backend.aclCollection)
          points ∧
        Has store.backend.aclCollection points s q')
      fun _ _ => True := by
  unfold CollectionStore.create
  refine Triple.bind openNew_leaves fun new => Triple.fix fun s hs => ?_
  obtain ⟨hnew, hbeside⟩ := hs
  have hfill : Triple (Beside name q) (store.fill rt name new)
      (fun _ q' => ∃ s points, Recorded rt store.backend name new q s ∧
        GrantsWritten rt store.backend name new.roles (pointsOf s store.backend.aclCollection)
          points ∧
        Has store.backend.aclCollection points s q') (fun _ _ => True) :=
    fill_leaves (checkNew_ok hnew).2.1 (fun _ _ _ => trivial) (fun _ _ _ _ _ => trivial)
      fun _ _ _ _ _ _ _ => trivial
  refine Triple.handle (hfill.consequence (fun _ h => h ▸ hbeside) ?_ fun _ _ h => h) fun e => ?_
  · rintro _ q' ⟨s, points, hs, hwritten, hhas⟩
    exact ⟨new, s, points, hnew, hs, hwritten, hhas⟩
  · exact Triple.bind Triple.anything fun _ => Triple.throw fun _ _ => trivial

/-- A request that fails while the collection is filled leaves the others as they are. -/
theorem fill_raises (hname : name ≠ "") (hsystem : name ∉ store.backend.systemCollections)
    (hroles : Normal store.backend new.roles)
    (hallowed : Settable rt store.backend name new.roles (aclRead rt store.backend name new before)) :
    Triple (Beside name before) (store.fill rt name new) (fun _ _ => True)
      fun _ q' => OthersKept rt store.backend name before q' := by
  have hbeside : ∀ s, Beside name before s → OthersKept rt store.backend name before s :=
    fun s hs => OthersKept.of_beside hsystem hs.2
  refine (fill_leaves hsystem (fun e q' => hbeside q') ?_ ?_).consequence (fun _ h => h)
    (fun _ _ _ => trivial) fun _ _ h => h
  · intro e s q' hs hhas
    refine (hbeside s hs).trans ?_
    exact OthersKept.of_has (metaCollection_mem _) hhas (fun point hmem _ => hmem)
      fun point hmem _ => .inl hmem
  · intro e s q' points hs hstage hhas
    have hsettable := hallowed
    rw [← hs.acl hsystem] at hsettable
    exact (OthersKept.of_recorded hsystem hs).trans
      (OthersKept.of_stage hname hroles hsettable hstage hhas)

end Create

/-! ### The life of a name -/

def leftRecord : Point :=
  recordPoint exampleRuntime "docs" "nomic-embed-text" 768

/-- The collection `docs` was deleted by another program, and its record is left. -/
def leftQdrant : Qdrant :=
  fun name =>
    if name = "_collection_meta" then
      some { vectorSize := 1, points := [leftRecord], distinct := by decide }
    else none

/-- An error of the server. -/
def serverError : Outage where
  error := .answered 500 "Service internal error"
  honest := by
    intro status detail h
    cases h
    decide

theorem example_settable :
    Settable exampleRuntime exampleStore.backend "docs" [⟨"editors", "rw"⟩] [] := by
  refine ⟨?_, by decide, ?_, ?_⟩
  · intro grant hgrant
    cases hgrant
  · intro point hmem
    cases hmem
  · intro point hmem
    cases hmem

end Papaia.Rag
