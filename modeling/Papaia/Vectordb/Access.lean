/-
Module: Papaia.Vectordb.Access
Purpose: The operations on the connections as they are asked for, the connection they resolve to with
  its key decrypted, and which address each stored key was given for.
Trusted boundary: the cipher, `urlsplit`, `str.lower`, the fingerprint of an entry; a file that was
  written parses to the document that was dumped
Main exports: AccessRuntime, Environment, Store, storedConnection, testConnection, Operation,
  serviceStep
-/
import Papaia.Vectordb.Service

namespace Papaia.Vectordb

open Text Ingest

/-! ### Keys and addresses -/

/-- The libraries of the service. -/
structure AccessRuntime extends Runtime where
  /-- `entry_etag`. -/
  etagOf : Mapping → String
  /-- `str.lower`. -/
  lowerOf : String → String
  /-- `urlsplit`: host name and network location, or none where it or the port is refused. -/
  urlsplit : String → Option (String × String)
  /-- Fernet under a secret; every encryption draws a number of its own. -/
  fernetEncrypt : String → String → Nat → String
  fernetDecrypt : String → String → Option String

/-- `rag_secrets`. -/
structure RagSecrets where
  connectionsSecret : String
  apiKey : String
deriving DecidableEq, Repr

/-- What an operation finds besides the file. -/
structure Environment where
  /-- `settings.qdrant_url`. -/
  qdrantUrl : String
  secrets : RagSecrets
  ragActive : Bool
  /-- The last seed failed less than a minute ago. -/
  seedFailed : Bool
  usageError : Option String
  jobsOf : String → List String
  /-- What the next encryption draws. -/
  nonce : Nat

def contextOf (rt : AccessRuntime) (env : Environment) : ServiceContext where
  etagOf := rt.etagOf
  lowerOf := rt.lowerOf
  usageError := env.usageError
  jobsOf := env.jobsOf

/-- An operation is refused by the store, or for want of a secret. -/
inductive ServiceError where
  | store (error : StoreError)
  | secretMissing (message : String)
deriving DecidableEq, Repr

def invalidConnection {α : Type} (message : String) : Except ServiceError α :=
  .error (.store (.invalid message))

/-- `_NO_CONNECTIONS_SECRET`. -/
def noConnectionsSecret : ServiceError :=
  .secretMissing ("QI_CONNECTIONS_SECRET is not set in ai/rag/.env, so no api-key can be stored or " ++
    "read. Connections without a key still work.")

/-- `_NO_API_KEY`. -/
def noApiKey : ServiceError :=
  .secretMissing
    "QDRANT_JWT_SECRET is not set in ai/rag/.env, so the manager has no api-key for Qdrant."

/-- `crypto.encrypt` with a secret. -/
def encrypt (rt : AccessRuntime) (env : Environment) (plaintext : String) : String :=
  encPrefix ++ rt.fernetEncrypt env.secrets.connectionsSecret plaintext env.nonce

/-- `crypto.decrypt`; none where it raises. -/
def decrypt (rt : AccessRuntime) (env : Environment) (stored : String) : Option String :=
  if !startsWith stored encPrefix then none
  else if env.secrets.connectionsSecret = "" then none
  else rt.fernetDecrypt env.secrets.connectionsSecret
    (String.ofList (stored.toList.drop encPrefix.length))

/-- The typed key: `(api_key or "").strip()`. -/
def typedKey (apiKey : Option String) : String :=
  strip (apiKey.getD "")

/-- `_encrypt`. -/
def encryptKey (rt : AccessRuntime) (env : Environment) (apiKey : Option String) :
    Except ServiceError (Option String) :=
  if typedKey apiKey = "" then .ok none
  else if env.secrets.connectionsSecret = "" then .error noConnectionsSecret
  else .ok (some (encrypt rt env (typedKey apiKey)))

/-- `validate_url`. -/
def validateUrl (rt : AccessRuntime) (value : String) : Except ServiceError String :=
  let url := strip value
  if url = "" then invalidConnection "The address is required."
  else if 2048 < url.length then invalidConnection "The address is at most 2048 characters."
  else if !httpScheme url then
    invalidConnection "The address must start with http:// or https://."
  else if url.toList.any fun c => isSpace c || c.toNat < 32 || c.toNat == 127 then
    invalidConnection "The address must not contain spaces or control characters."
  else
    match rt.urlsplit url with
    | none => invalidConnection "The address is not a valid URL."
    | some (hostname, netloc) =>
        if hostname = "" then invalidConnection "The address has no host."
        else if netloc.toList.contains '@' then
          invalidConnection
            "The address must not contain credentials. Use the api-key field."
        else .ok url

/-- `get_type`: Qdrant is the only type there is. -/
def checkType (rt : AccessRuntime) (typeId : String) : Except ServiceError Unit :=
  if typeId = "qdrant" then .ok ()
  else invalidConnection ("Unknown connection type " ++ rt.repr (.str typeId) ++
    " (known: qdrant).")

/-! ### Reading -/

/-- The entries, and for each the address that was given when its key was stored. -/
structure Store where
  document : Mapping
  structuralError : Option String
  given : List String

inductive KeyState where
  | ok
  | none
  | unreadable
deriving DecidableEq, Repr

/-- An entry of the store, or the stack's own settings while the store has no default. -/
inductive Origin where
  | file
  | env
deriving DecidableEq, Repr

structure Connection where
  name : String
  url : String
  apiKey : String
  keyState : KeyState
  source : Origin
  integrated : Bool
deriving DecidableEq, Repr

/-- `_read_key`. -/
def readKey (rt : AccessRuntime) (env : Environment) (token : Option String) :
    String × KeyState :=
  if token.getD "" = "" then ("", .none)
  else
    match decrypt rt env (token.getD "") with
    | some plain => (plain, .ok)
    | none => ("", .unreadable)

/-- `_reach`. -/
def reach (rt : AccessRuntime) (env : Environment) (address : String) : String :=
  if (contextOf rt env).sameAddress address integratedUrl then env.qdrantUrl else address

/-- `_stored`: the stored address and the connection; `resolve` gives the latter. -/
def storedConnection (rt : AccessRuntime) (env : Environment) (store : Store) (name : String) :
    Except ServiceError (String × Connection) :=
  match findEntry store.document name with
  | some (_, raw) =>
      match readConnection rt.toRuntime raw with
      | .error _ =>
          .error (.store (.unknown ("The connection " ++ rt.repr (.str name) ++
            " is not valid in connections.yaml.")))
      | .ok entry =>
          let (plain, keyState) := readKey rt env entry.apiKey
          .ok (entry.url,
            { name := entry.name
              url := reach rt env entry.url
              apiKey := plain
              keyState := keyState
              source := .file
              integrated := (contextOf rt env).sameAddress entry.url integratedUrl })
  | none =>
      if name = defaultName then
        .ok (env.qdrantUrl,
          { name := defaultName
            url := env.qdrantUrl
            apiKey := env.secrets.apiKey
            keyState := if env.secrets.apiKey = "" then .none else .ok
            source := .env
            integrated := true })
      else
        .error (.store (.unknown ("There is no connection named " ++ rt.repr (.str name) ++
          (match store.structuralError with
            | some problem => " (" ++ problem ++ ")"
            | none => "") ++ ".")))

/-- `test` up to the probe: the connection that is probed, or none where it answers without. -/
def testConnection (rt : AccessRuntime) (env : Environment) (store : Store)
    (name : Option String) (typeId : String) (url apiKey : Option String) :
    Except ServiceError (Option Connection) :=
  let typed := typedKey apiKey
  match name with
  | none => do
      checkType rt typeId
      let clean ← validateUrl rt (url.getD "")
      pure (some
        { name := "new", url := clean, apiKey := typed
          keyState := if typed = "" then .none else .ok, source := .file, integrated := false })
  | some name => do
      let (address, connection) ← storedConnection rt env store name
      let supplied := strip (url.getD "")
      if typed ≠ "" then
        let clean ← validateUrl rt (if supplied = "" then address else supplied)
        pure (some
          { name := name, url := reach rt env clean, apiKey := typed, keyState := .ok
            source := connection.source
            integrated := (contextOf rt env).sameAddress clean integratedUrl })
      else if supplied ≠ "" ∧ (contextOf rt env).sameAddress supplied address = false then
        invalidConnection ("Enter the api-key to test a different address. A stored key is only " ++
          "used for the address it was stored with.")
      else if connection.keyState = .unreadable then pure none
      else pure (some connection)

/-! ### Changing -/

/-- The operations that change the store. -/
inductive Operation where
  | ensureDefault
  | resetDefault
  | create (name typeId : String) (url apiKey : Option String)
  | update (name : String) (url apiKey : Option String) (clearKey : Bool) (etag : String)
      (confirmJobs : Bool)
  | delete (name etag : String)

/-- What is handed to `IngestFileRepository.update`: a change, or the seed of the default. -/
inductive Asked where
  | change (change : Change)
  | seed (token : String)

/-- What an operation asks for, or why it is refused before the file is read.  `ensure_default`
asks for nothing where it is skipped. -/
def Operation.asked (rt : AccessRuntime) (env : Environment) (document : Mapping)
    (structuralError : Option String) : Operation → Except ServiceError (Option Asked)
  | .ensureDefault =>
      if !env.ragActive || env.secrets.apiKey = "" || env.secrets.connectionsSecret = "" ||
          env.seedFailed || structuralError.isSome ||
          (findEntry document defaultName).isSome then .ok none
      else .ok (some (.seed (encrypt rt env env.secrets.apiKey)))
  | .resetDefault =>
      if env.secrets.connectionsSecret = "" then .error noConnectionsSecret
      else if env.secrets.apiKey = "" then .error noApiKey
      else .ok (some (.change (.resetDefault (encrypt rt env env.secrets.apiKey))))
  | .create name typeId url apiKey => do
      if !isSlug name then
        invalidConnection ("A connection name starts with a lowercase letter or digit and " ++
          "contains only lowercase letters, digits, '-' and '_' (at most 64 characters).")
      checkType rt typeId
      let clean ← validateUrl rt (url.getD "")
      let token ← encryptKey rt env apiKey
      pure (some (.change (.create name clean token)))
  | .update name url apiKey clearKey etag confirmJobs => do
      let clean ← validateUrl rt (url.getD "")
      let token ← encryptKey rt env apiKey
      if token.isSome && clearKey then
        invalidConnection "Enter a new api-key or remove the stored one, not both."
      pure (some (.change (.edit name clean token clearKey etag confirmJobs)))
  | .delete name etag => .ok (some (.change (.delete name etag)))

/-- The surgery on a document, none where the seed finds a default. -/
def Asked.mutate (rt : AccessRuntime) (env : Environment) :
    Asked → Mapping → Except StoreError (Option Surgery)
  | .change wanted, document => (wanted.mutate rt.toRuntime (contextOf rt env) document).map some
  | .seed token, document =>
      match findEntry document defaultName with
      | none => .ok (some (.append (toEntry defaultName integratedUrl (some token))))
      | some _ => .ok none

/-- `update` on a store that nobody else writes: the surgery that is made. -/
def writeOn (rt : Runtime) (mutate : Mapping → Except StoreError (Option Surgery))
    (store : Store) : Except StoreError (Option Surgery) :=
  match store.structuralError with
  | some problem => .error (.file ("connections.yaml cannot be changed: " ++ problem))
  | none =>
      match mutate store.document with
      | .error refusal => .error refusal
      | .ok none => .ok none
      | .ok (some surgery) =>
          let entries := connectionsOf store.document
          let fresh := freshIssues rt entries (surgery.apply entries)
          if fresh.isEmpty then .ok (some surgery)
          else .error (.invalid (joinWith "; " (fresh.map (FileIssue.text rt))))

/-- The address the key of a changed entry was given for: the one of a stored key that is kept, or
the one of the request. -/
def Asked.address (asked : Asked) (store : Store) : String :=
  match asked with
  | .change (.create _ url _) => url
  | .change (.edit name url token clearKey _ _) =>
      match findEntry store.document name with
      | some (index, entry) =>
          if token.isNone && !clearKey && hasKey entry then store.given.getD index "" else url
      | none => url
  | .change (.delete _ _) => ""
  | .change (.resetDefault _) | .seed _ => integratedUrl

/-- The store after a surgery. -/
def Store.after (store : Store) (surgery : Surgery) (address : String) : Store where
  document := store.document.put (.str "connections")
    (.list (surgery.apply (connectionsOf store.document)))
  structuralError := none
  given := (surgery.on Prod.fst (fun raw => (raw, address))
    ((connectionsOf store.document).zip store.given)).map Prod.snd

/-- One operation: a refused one leaves the store as it is. -/
def serviceStep (rt : AccessRuntime) (store : Store) (event : Environment × Operation) :
    Option Store :=
  match event.2.asked rt event.1 store.document store.structuralError with
  | .error _ | .ok none => some store
  | .ok (some asked) =>
      match writeOn rt.toRuntime (asked.mutate rt event.1) store with
      | .error _ | .ok none => some store
      | .ok (some surgery) => some (store.after surgery (asked.address store))

/-- The text of the address of an entry. -/
def urlText (raw : Val) : String :=
  match raw with
  | .map entry => (laxText (Mapping.getD entry "url")).getD ""
  | _ => ""

/-- The store as it is found: every key belongs to the address it stands with. -/
def openedStore (read : Mapping × Option String) : Store where
  document := read.1
  structuralError := read.2
  given := (connectionsOf read.1).map urlText

end Papaia.Vectordb
