/-
Module: Papaia.Vectordb.Service
Purpose: The changes an administrator makes to the connections: what each refuses, and the surgery
  it asks for.
Trusted boundary: the fingerprint of an entry, `str.lower`, the jobs that use a connection
Main exports: toEntry, Change, Change.mutate, Change.Valid
-/
import Papaia.Vectordb.IngestFile

namespace Papaia.Vectordb

open Text Ingest

/-- `DEFAULT_NAME`. -/
def defaultName : String :=
  "default"

/-- `INTEGRATED_URL`. -/
def integratedUrl : String :=
  "http://qdrant:6333"

/-- The key `to_entry` writes: an empty one is left out. -/
def writtenKey : Option String → Option String
  | some text => if text = "" then none else some text
  | none => none

/-- `to_entry`. -/
def toEntry (name url : String) (token : Option String) : Mapping :=
  match writtenKey token with
  | some text => [(.str "name", .str name), (.str "url", .str url), (.str "api_key", .str text)]
  | none => [(.str "name", .str name), (.str "url", .str url)]

/-- What a change is decided with besides the document. -/
structure ServiceContext where
  /-- `entry_etag`. -/
  etagOf : Mapping → String
  /-- `str.lower`. -/
  lowerOf : String → String
  /-- `jobs_using`: why the catalog of the jobs cannot be read, if it cannot. -/
  usageError : Option String
  jobsOf : String → List String

/-- `same_address`. -/
def ServiceContext.sameAddress (ctx : ServiceContext) (a b : String) : Bool :=
  let plain := fun text : String => ctx.lowerOf (String.ofList
    ((strip text).toList.reverse.dropWhile (· == '/')).reverse)
  plain a == plain b

/-- The four changes of the page. -/
inductive Change where
  | create (name url : String) (token : Option String)
  | edit (name url : String) (token : Option String) (clearKey : Bool) (etag : String)
      (confirmJobs : Bool)
  | delete (name etag : String)
  | resetDefault (token : String)

def unknownConnection {α : Type} (rt : Runtime) (name : String) : Except StoreError α :=
  .error (.unknown ("There is no connection named " ++ rt.repr (.str name) ++ "."))

def staleConnection {α : Type} (rt : Runtime) (name : String) : Except StoreError α :=
  .error (.stale ("The connection " ++ rt.repr (.str name) ++
    " was changed by somebody else. Reload and try again."))

/-- The address of an entry, empty when it is no text. -/
def addressOf (entry : Mapping) : String :=
  ((entry.get? "url").bind Val.str?).getD ""

/-- The stored key of an entry, when it is a text. -/
def storedKey (entry : Mapping) : Option String :=
  (entry.get? "api_key").bind Val.str?

/-- `has_key`. -/
def hasKey (entry : Mapping) : Bool :=
  (storedKey entry).getD "" ≠ ""

/-- The key an edited entry is written with: the new one, none, or the stored one as it is. -/
def keptToken (token : Option String) (clearKey : Bool) (entry : Mapping) : Option String :=
  if token.isSome then token else if clearKey || !hasKey entry then none else storedKey entry

/-- Why an edit that moves a connection to another address is refused. -/
def moveRefusal (ctx : ServiceContext) (name : String) (entry : Mapping) (token : Option String)
    (clearKey confirmJobs : Bool) : Option StoreError :=
  if hasKey entry && token.isNone && !clearKey then
    some (.invalid ("The stored api-key belongs to the old address and is never sent to a " ++
      "different one. Enter the api-key for the new address, or remove the stored key."))
  else if confirmJobs then none
  else
    match ctx.usageError with
    | some problem =>
        some (.inUse (problem ++ " Confirm to change the address anyway.") [])
    | none =>
        if (ctx.jobsOf name).isEmpty then none
        else some (.inUse ("The jobs " ++ joinWith ", " (ctx.jobsOf name) ++
          " write to this connection and would write to the new address. Confirm to change it.")
          (ctx.jobsOf name))

/-- The `mutate` of `update`. -/
def editSurgery (rt : Runtime) (ctx : ServiceContext) (name url : String) (token : Option String)
    (clearKey : Bool) (etag : String) (confirmJobs : Bool) (document : Mapping) :
    Except StoreError Surgery :=
  match findEntry document name with
  | none => unknownConnection rt name
  | some (index, entry) =>
      if ctx.etagOf entry ≠ etag then staleConnection rt name
      else
        let moved := !ctx.sameAddress (addressOf entry) url
        match (if moved then moveRefusal ctx name entry token clearKey confirmJobs else none) with
        | some refusal => .error refusal
        | none => .ok (.overwrite index (toEntry name url (keptToken token clearKey entry)))

/-- `delete` and its `mutate`. -/
def deleteSurgery (rt : Runtime) (ctx : ServiceContext) (name etag : String) (document : Mapping) :
    Except StoreError Surgery :=
  if name = defaultName then
    .error (.protectedDefault ("The default connection cannot be deleted. It can be edited, or reset to " ++
      "the integrated Qdrant."))
  else
    match ctx.usageError with
    | some problem =>
        .error (.inUse (problem ++ " The connection is not deleted while that cannot be checked.")
          [])
    | none =>
        if (ctx.jobsOf name).isEmpty then
          match findEntry document name with
          | none => unknownConnection rt name
          | some (_, entry) =>
              if ctx.etagOf entry ≠ etag then staleConnection rt name else .ok (.remove name)
        else
          .error (.inUse ("The jobs " ++ joinWith ", " (ctx.jobsOf name) ++
            " write to this connection. Change their target first.") (ctx.jobsOf name))

/-- The `mutate` of `create`. -/
def createSurgery (rt : Runtime) (name url : String) (token : Option String) (document : Mapping) :
    Except StoreError Surgery :=
  match findEntry document name with
  | some _ =>
      .error (.alreadyExists ("A connection named " ++ rt.repr (.str name) ++ " already exists."))
  | none => .ok (.append (toEntry name url token))

/-- The `mutate` of `_put_default` with `replace`. -/
def resetSurgery (token : String) (document : Mapping) : Except StoreError Surgery :=
  match findEntry document defaultName with
  | none => .ok (.append (toEntry defaultName integratedUrl (some token)))
  | some (index, _) => .ok (.overwrite index (toEntry defaultName integratedUrl (some token)))

/-- What a change asks for on a document. -/
def Change.mutate (rt : Runtime) (ctx : ServiceContext) :
    Change → Mapping → Except StoreError Surgery
  | .create name url token => createSurgery rt name url token
  | .edit name url token clearKey etag confirmJobs =>
      editSurgery rt ctx name url token clearKey etag confirmJobs
  | .delete name etag => deleteSurgery rt ctx name etag
  | .resetDefault token => resetSurgery token

/-- A token as `_encrypt` makes it. -/
def ValidToken (token : Option String) : Prop :=
  ∀ text, token = some text → startsWith text encPrefix = true

/-- What `_valid_name`, the validation of the address and `_encrypt` let through. -/
def Change.Valid : Change → Prop
  | .create name url token =>
      isSlug name = true ∧ httpScheme url = true ∧ ValidToken token
  | .edit _ url token _ _ _ => httpScheme url = true ∧ ValidToken token
  | .delete _ _ => True
  | .resetDefault token => ValidToken (some token)

end Papaia.Vectordb
