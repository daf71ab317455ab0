/-
Module: Papaia.Rag.Qdrant
Purpose: A Qdrant as far as the manager asks it: collections of points, and what each request answers
  and changes.
Trusted boundary: an upsert replaces the point with the same id and a delete removes the named ids; a
  text names a point only if it is a UUID; the pages of a scroll together are the points
Main exports: Uuid, PointId, Point, Collection, Qdrant, QdrantError, Outage, Request,
  upsertPoints, deletePoints, scrollPoints
-/
import Mathlib.Logic.Function.Basic
import Papaia.Data.Value
import Papaia.Lib.Keyed
import Papaia.Lib.Remote

namespace Papaia.Rag

/-! ### Points -/

/-- The text of a UUID as Qdrant writes it. -/
def isUuid (text : String) : Bool :=
  let parts := text.toList.splitOn '-'
  parts.map List.length == [8, 4, 4, 4, 12] &&
    parts.all fun part => part.all fun c => c.isDigit || ('a' ≤ c && c ≤ 'f')

structure Uuid where
  text : String
  valid : isUuid text = true
deriving DecidableEq, Repr

/-- The id of a point: a number or a UUID. -/
inductive PointId where
  | num (value : Nat)
  | uuid (value : Uuid)
deriving DecidableEq, Repr

namespace PointId

/-- `str(point["id"])`. -/
def text : PointId → String
  | .num value => toString value
  | .uuid value => value.text

/-- The id a text names in a request. -/
def ofText (text : String) : Option PointId :=
  if valid : isUuid text = true then some (.uuid ⟨text, valid⟩) else none

@[simp] theorem ofText_uuid (value : Uuid) : ofText value.text = some (.uuid value) := by
  simp [ofText, value.valid]

end PointId

/-- A point without its vector, which is a placeholder in the collections of the manager. -/
structure Point where
  id : PointId
  payload : Val

/-- A point of a request. -/
structure NewPoint where
  id : String
  payload : Val

def NewPoint.read (point : NewPoint) : Option Point :=
  (PointId.ofText point.id).map fun id => { id := id, payload := point.payload }

/-! ### Collections -/

structure Collection where
  vectorSize : Int
  indexes : List String := []
  points : List Point := []
  /-- An id names one point. -/
  distinct : Keyed.Distinct Point.id points

namespace Collection

def empty (vectorSize : Int) : Collection where
  vectorSize := vectorSize
  distinct := Keyed.distinct_nil

def upsert (collection : Collection) (points : List Point) : Collection :=
  { collection with
    points := Keyed.putAll Point.id collection.points points
    distinct := collection.distinct.putAll points }

def drop (collection : Collection) (ids : List PointId) : Collection :=
  { collection with
    points := Keyed.dropKeys Point.id collection.points ids
    distinct := collection.distinct.filter _ }

end Collection

/-- The collections there are. -/
abbrev Qdrant := String → Option Collection

/-! ### Requests -/

/-- `QdrantUnavailable`, or another `QdrantError` with its status. -/
inductive QdrantError where
  | unavailable (status : Nat) (detail : String)
  | answered (status : Nat) (detail : String)
deriving DecidableEq, Repr

/-- An error Qdrant may answer any request with.  The statuses that tell what there is are given when
it is so, and not otherwise. -/
structure Outage where
  error : QdrantError
  honest : ∀ status detail, error = .answered status detail → status ∉ [400, 404, 409]

/-- What a request answers, and what it leaves. -/
abbrev Request (α : Type) := Qdrant → Except QdrantError (α × Qdrant)

def missing (name : String) : QdrantError :=
  .answered 404 ("Not found: Collection `" ++ name ++ "` doesn't exist!")

/-- A request about a collection that has to be there. -/
def onCollection {α : Type} (name : String)
    (act : Collection → Except QdrantError (α × Collection)) : Request α :=
  fun q =>
    match q name with
    | none => .error (missing name)
    | some collection =>
        (act collection).map fun (a, changed) => (a, Function.update q name (some changed))

/-- `GET /collections/name`. -/
def readCollection (name : String) : Request Unit :=
  onCollection name fun collection => .ok ((), collection)

/-- `PUT /collections/name`. -/
def createCollection (name : String) (vectorSize : Int) : Request Unit :=
  fun q =>
    match q name with
    | some _ =>
        .error (.answered 409 ("Wrong input: Collection `" ++ name ++ "` already exists!"))
    | none => .ok ((), Function.update q name (some (.empty vectorSize)))

/-- `DELETE /collections/name`. -/
def deleteCollection (name : String) : Request Unit :=
  fun q =>
    match q name with
    | none => .error (missing name)
    | some _ => .ok ((), Function.update q name none)

/-- `PUT /collections/name/index`. -/
def createIndex (name field : String) : Request Unit :=
  onCollection name fun collection =>
    .ok ((), { collection with indexes := collection.indexes ++ [field] })

/-- The refusal of an id that is neither a number nor a UUID. -/
def badId : QdrantError :=
  .answered 400 "Format error in JSON body: value is not a valid point ID"

/-- `PUT /collections/name/points`. -/
def upsertPoints (name : String) (points : List NewPoint) : Request Unit :=
  onCollection name fun collection =>
    match points.mapM NewPoint.read with
    | none => .error badId
    | some points => .ok ((), collection.upsert points)

/-- `POST /collections/name/points/delete`. -/
def deletePoints (name : String) (ids : List String) : Request Unit :=
  onCollection name fun collection =>
    match ids.mapM PointId.ofText with
    | none => .error badId
    | some ids => .ok ((), collection.drop ids)

/-- `POST /collections/name/points/scroll`, from page to page. -/
def scrollPoints (name : String) : Request (List Point) :=
  onCollection name fun collection => .ok (collection.points, collection)

end Papaia.Rag
