/-
Module: Papaia.Rag.Collections
Purpose: The writes of the Collections page: creating a collection, deleting it and setting the roles
  that may use it, with the meta point and the grants that go with a collection.
Trusted boundary: the Unicode categories, `repr`, `uuid5`
Main exports: RagRuntime, CollectionStore, AclPoint, parseAcl, normaliseGrants, applyGrants,
  ensureOperator, CollectionStore.create, CollectionStore.delete, CollectionStore.setRoles
-/
import Papaia.Ingest.Transfers
import Papaia.Rag.Qdrant

namespace Papaia.Rag

open Text Ingest Remote

structure RagRuntime where
  unicode : UnicodeTable
  /-- `repr` of a text. -/
  repr : String → String
  /-- `uuid.uuid5`. -/
  uuid5 : Uuid → String → Uuid

/-- The names the services of the RAG system agree on. -/
structure RagBackend where
  metaCollection : String
  aclCollection : String
  operatorRole : String
  /-- `_first_set` takes the first name that is not empty, or a default. -/
  operatorSet : operatorRole ≠ ""

def RagBackend.systemCollections (backend : RagBackend) : List String :=
  [backend.metaCollection, backend.aclCollection]

inductive RagError where
  | invalidInput (message : String)
  | collectionExists (name : String)
  | collectionNotFound (name : String)
  | qdrant (error : QdrantError)
deriving DecidableEq, Repr

abbrev RagCall := Call Qdrant Outage RagError

def metaNamespace : Uuid :=
  ⟨"9e3a5c2f-8b7d-4f1e-a6b3-2d8c9e4f1a02", by decide⟩

def aclNamespace : Uuid :=
  ⟨"8c9f3b0e-4a5d-4d0a-9f1e-7d6c5b2a1f00", by decide⟩

def globalCollection : String := "*"

def globalAccess : String := "m"

def accessLevels : List String := ["r", "rw"]

def payloadIndexFields : List String := ["source", "ingest_job", "ingest_run", "acl_tags"]

def maxVectorSize : Int := 65536

def maxNameLength : Nat := 255

def metaPointId (rt : RagRuntime) (collection : String) : String :=
  (rt.uuid5 metaNamespace collection).text

def aclPointId (rt : RagRuntime) (role collection : String) : String :=
  (rt.uuid5 aclNamespace (role ++ "|" ++ collection)).text

/-! ### Validation -/

def hasControlCharacter (rt : RagRuntime) (value : String) : Bool :=
  value.toList.any rt.unicode.isControl

/-- `[A-Za-z0-9][A-Za-z0-9._-]{0,254}`. -/
def isCollectionName (name : String) : Bool :=
  let plain := fun c : Char => c.isUpper || c.isLower || c.isDigit
  match name.toList with
  | [] => false
  | first :: rest =>
      plain first && rest.length ≤ 254 &&
        rest.all fun c => plain c || c == '.' || c == '_' || c == '-'

def systemCollectionError (rt : RagRuntime) (name : String) : RagError :=
  .invalidInput (rt.repr name ++ " is a system collection.")

/-- `validate_collection_name`. -/
def validateCollectionName (rt : RagRuntime) (name : String) (system : List String) :
    Except RagError String :=
  if !isCollectionName name then
    .error (.invalidInput ("A collection name starts with a letter or digit and contains only " ++
      "letters, digits, '.', '_' and '-' (at most " ++ toString maxNameLength ++ " characters)."))
  else if name ∈ system then .error (systemCollectionError rt name)
  else .ok name

/-- `_existing_name`. -/
def existingName (rt : RagRuntime) (name : String) (system : List String) :
    Except RagError String :=
  if name = "" || maxNameLength < name.length || hasControlCharacter rt name then
    .error (.invalidInput "Not a valid collection name.")
  else if name ∈ system then .error (systemCollectionError rt name)
  else .ok name

/-- `validate_vector_size`. -/
def validateVectorSize (size : Int) : Except RagError Int :=
  if 1 ≤ size ∧ size ≤ maxVectorSize then .ok size
  else
    .error (.invalidInput ("The vector size must be between 1 and " ++ renderInt maxVectorSize ++
      "."))

/-- `validate_embedding_model`. -/
def validateEmbeddingModel (rt : RagRuntime) (model : Option String) :
    Except RagError (Option String) :=
  let value := strip (model.getD "")
  if value = "" then .ok none
  else if maxNameLength < value.length || hasControlCharacter rt value then
    .error (.invalidInput "Not a valid embedding model name.")
  else .ok (some value)

/-- `validate_role`. -/
def validateRole (rt : RagRuntime) (role : String) : Except RagError String :=
  let value := strip role
  if value = "" then .error (.invalidInput "A role name must not be empty.")
  else if maxNameLength < value.length then
    .error (.invalidInput ("A role name is at most " ++ toString maxNameLength ++ " characters."))
  else if value.toList.contains '|' || hasControlCharacter rt value then
    .error (.invalidInput (rt.repr value ++ " is not a valid role name."))
  else .ok value

structure RoleGrant where
  role : String
  access : String
deriving DecidableEq, Repr

/-- The grants of a request one after the other; `seen` are those that were taken. -/
def takeGrants (rt : RagRuntime) (operatorRole : String) (seen : List RoleGrant) :
    List RoleGrant → Except RagError (List RoleGrant)
  | [] => .ok seen
  | grant :: rest =>
      match validateRole rt grant.role with
      | .error e => .error e
      | .ok role =>
          if grant.access ∉ accessLevels then
            .error (.invalidInput ("The access level must be one of " ++
              joinWith ", " accessLevels ++ "."))
          else if role = operatorRole then
            .error (.invalidInput (rt.repr role ++ " always has access to every collection and " ++
              "is not listed per collection."))
          else if role ∈ seen.map RoleGrant.role then
            .error (.invalidInput ("The role " ++ rt.repr role ++ " is listed twice."))
          else takeGrants rt operatorRole (seen ++ [⟨role, grant.access⟩]) rest

/-- `normalise_grants`. -/
def normaliseGrants (rt : RagRuntime) (grants : List RoleGrant) (operatorRole : String) :
    Except RagError (List RoleGrant) :=
  (takeGrants rt operatorRole [] grants).map (·.insertionSort fun one two => one.role ≤ two.role)

/-! ### Grants as points -/

structure AclPoint where
  id : String
  role : String
  collection : String
  access : String
  docPolicy : Val

/-- One point of `_parse_acl`; none for a point that is skipped. -/
def parseAclPoint (point : Point) : Option AclPoint :=
  match point.payload with
  | .map payload =>
      match Mapping.getD payload "role", Mapping.getD payload "collection",
        Mapping.getD payload "access" with
      | .str role, .str collection, .str access =>
          if role = "" || collection = "" || access ∉ accessLevels ++ [globalAccess] then none
          else
            some
              { id := point.id.text
                role := role
                collection := collection
                access := access
                docPolicy := Mapping.getD payload "doc_policy" }
      | _, _, _ => none
  | _ => none

/-- `_parse_acl`. -/
def parseAcl (points : List Point) : List AclPoint :=
  points.filterMap parseAclPoint

/-- `_acl_point`. -/
def aclPoint (rt : RagRuntime) (role collection access : String) (docPolicy : Val)
    (pointId : Option String) : NewPoint where
  id :=
    match pointId with
    | some id => if id = "" then aclPointId rt role collection else id
    | none => aclPointId rt role collection
  payload :=
    .map [(.str "role", .str role), (.str "collection", .str collection),
      (.str "access", .str access), (.str "doc_policy", docPolicy)]

def metaPoint (rt : RagRuntime) (name model : String) (size : Int) : NewPoint where
  id := metaPointId rt name
  payload :=
    .map [(.str "collection", .str name), (.str "embedding_model", .str model),
      (.str "vector_dimension", .int size)]

/-- Whether a point grants a role other than the operator something on one collection. -/
def AclPoint.grantsOn (backend : RagBackend) (name : String) (point : AclPoint) : Bool :=
  point.collection = name && point.access ∈ accessLevels && point.role ≠ backend.operatorRole

/-- The point of each role, as the dict `current` holds them. -/
def currentGrants (backend : RagBackend) (name : String) (acl : List AclPoint) : List AclPoint :=
  Keyed.lastOfEach AclPoint.role (acl.filter (AclPoint.grantsOn backend name))

/-- The point that is written for a grant; none where the one that is there grants the same. -/
def upsertFor (rt : RagRuntime) (name : String) (current : List AclPoint) (grant : RoleGrant) :
    Option NewPoint :=
  match current.find? fun point => point.role = grant.role with
  | some existing =>
      if existing.access = grant.access then none
      else some (aclPoint rt grant.role name grant.access existing.docPolicy (some existing.id))
  | none => some (aclPoint rt grant.role name grant.access .null none)

/-- The ids of the roles that are not wanted any more. -/
def staleIds (desired : List RoleGrant) (current : List AclPoint) : List String :=
  (current.filter fun point => point.role ∉ desired.map RoleGrant.role).map AclPoint.id

/-! ### Calls -/

/-- `QdrantClient.request`. -/
def send {α : Type} (request : Request α) : RagCall α :=
  ask (fun outage => .qdrant outage.error) fun q => (request q).mapError .qdrant

/-- An answer with one of some statuses is taken for something else; other errors are raised. -/
def answering {α : Type} (statuses : List Nat) (instead : RagCall α) (x : RagCall α) : RagCall α :=
  tryCatch x fun
    | .qdrant (.answered status detail) =>
        if status ∈ statuses then instead else throw (.qdrant (.answered status detail))
    | e => throw e

/-- A request that is made only when there is something to ask for. -/
def unlessEmpty {α : Type} (items : List α) (x : RagCall Unit) : RagCall Unit :=
  if items.isEmpty then pure () else x

/-- `_exists`. -/
def collectionExists (name : String) : RagCall Bool :=
  answering [404] (pure false) do
    send (readCollection name)
    pure true

/-- `_ensure_system_collection`. -/
def ensureSystemCollection (name : String) (indexField : Option String) : RagCall Unit := do
  if ← collectionExists name then pure ()
  else
    answering [400, 409] (pure ()) (send (createCollection name 1))
    match indexField with
    | some field => send (createIndex name field)
    | none => pure ()

/-- The arguments of `create` when they are checked. -/
structure NewCollection where
  size : Int
  model : Option String
  roles : List RoleGrant
deriving DecidableEq, Repr

structure CollectionStore where
  backend : RagBackend
  blocked : Option String

namespace CollectionStore

variable (store : CollectionStore) (rt : RagRuntime)

/-- `_require_usable`. -/
def requireUsable : RagCall Unit :=
  match store.blocked with
  | some reason => if reason = "" then pure () else throw (.qdrant (.unavailable 0 reason))
  | none => pure ()

/-- `_ensure_acl_collection`. -/
def ensureAclCollection : RagCall Unit :=
  ensureSystemCollection store.backend.aclCollection (some "role")

/-- `_read_acl`. -/
def readAcl : RagCall (List AclPoint) :=
  answering [404] (pure []) do
    let points ← send (scrollPoints store.backend.aclCollection)
    pure (parseAcl points)

/-- `_write_meta`. -/
def writeMeta (name model : String) (size : Int) : RagCall Unit := do
  ensureSystemCollection store.backend.metaCollection none
  send (upsertPoints store.backend.metaCollection [metaPoint rt name model size])

/-- `_apply_grants`. -/
def applyGrants (name : String) (desired : List RoleGrant) (acl : List AclPoint) :
    RagCall Unit := do
  let current := currentGrants store.backend name acl
  let upserts := desired.filterMap (upsertFor rt name current)
  let stale := staleIds desired current
  unlessEmpty upserts (send (upsertPoints store.backend.aclCollection upserts))
  unlessEmpty stale (send (deletePoints store.backend.aclCollection stale))

/-- `_ensure_operator`. -/
def ensureOperator (acl : List AclPoint) : RagCall Bool := do
  let operator := store.backend.operatorRole
  if acl.any fun point => point.role = operator && point.access = globalAccess then pure false
  else
    send (upsertPoints store.backend.aclCollection
      [aclPoint rt operator globalCollection globalAccess .null none])
    pure true

/-- `_purge`. -/
def purge (name : String) : RagCall Unit := do
  answering [404] (pure ())
    (send (deletePoints store.backend.metaCollection [metaPointId rt name]))
  let acl ← store.readAcl
  let stale := (acl.filter fun point => point.collection = name && point.access ∈ accessLevels).map
    AclPoint.id
  unlessEmpty stale (send (deletePoints store.backend.aclCollection stale))

/-- The requests of `_discard`. -/
def clear (name : String) : RagCall Unit := do
  send (deleteCollection name)
  store.purge rt name

/-- `_discard`. -/
def discard (name : String) : RagCall Unit :=
  tryCatch (store.clear rt name) fun
    | .qdrant _ => pure ()
    | e => throw e

/-- The record of a new collection, when its model is known. -/
def recordModel (name : String) (new : NewCollection) : RagCall Unit :=
  match new.model with
  | some model => store.writeMeta rt name model new.size
  | none => pure ()

/-- What `create` does once the collection is there. -/
def fill (name : String) (new : NewCollection) : RagCall Unit := do
  payloadIndexFields.forM fun field => send (createIndex name field)
  store.recordModel rt name new
  store.ensureAclCollection
  let acl ← store.readAcl
  store.applyGrants rt name new.roles acl
  let _ ← store.ensureOperator rt acl

/-- What `create` makes of its arguments. -/
def checkNew (name : String) (vectorSize : Int) (embeddingModel : Option String)
    (grants : List RoleGrant) : Except RagError NewCollection := do
  let _ ← validateCollectionName rt name store.backend.systemCollections
  let size ← validateVectorSize vectorSize
  let model ← validateEmbeddingModel rt embeddingModel
  let roles ← normaliseGrants rt grants store.backend.operatorRole
  pure { size := size, model := model, roles := roles }

/-- `create` until the collection is there. -/
def openNew (name : String) (vectorSize : Int) (embeddingModel : Option String)
    (grants : List RoleGrant) : RagCall NewCollection := do
  store.requireUsable
  let new ← MonadExcept.ofExcept (store.checkNew rt name vectorSize embeddingModel grants)
  if ← collectionExists name then throw (.collectionExists name)
  else
    answering [409] (throw (.collectionExists name)) (send (createCollection name new.size))
    pure new

/-- `create`. -/
def create (name : String) (vectorSize : Int) (embeddingModel : Option String)
    (grants : List RoleGrant) : RagCall Unit := do
  let new ← store.openNew rt name vectorSize embeddingModel grants
  tryCatch (store.fill rt name new) fun e => do
    store.discard rt name
    throw e

/-- `delete`. -/
def delete (name : String) : RagCall Unit := do
  store.requireUsable
  let name ← MonadExcept.ofExcept (existingName rt name store.backend.systemCollections)
  answering [404] (pure ()) (send (deleteCollection name))
  store.purge rt name

/-- `set_roles`. -/
def setRoles (name : String) (grants : List RoleGrant) : RagCall Unit := do
  store.requireUsable
  let name ← MonadExcept.ofExcept (existingName rt name store.backend.systemCollections)
  let roles ← MonadExcept.ofExcept (normaliseGrants rt grants store.backend.operatorRole)
  if ← collectionExists name then
    store.ensureAclCollection
    let acl ← store.readAcl
    store.applyGrants rt name roles acl
    let _ ← store.ensureOperator rt acl
  else throw (.collectionNotFound name)

end CollectionStore

end Papaia.Rag
