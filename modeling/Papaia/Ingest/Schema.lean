/-
Module: Papaia.Ingest.Schema
Purpose: The ingester's job schema as the manager mirrors it: the nine sources, the sections of a
  job, and the reading of an authored mapping, with the coercions pydantic makes on the way.
Trusted boundary: Runtime (pydantic's number texts, APScheduler, the zone table, Python's repr)
Main exports: Runtime, SourceType, sourceModel, SourceSpec, JobSpec, readJobSpec
-/
import Papaia.Data.Value
import Papaia.Data.Text
import Papaia.Lib.Checked

namespace Papaia.Ingest

open Text

/-- What the code takes from the packages it is built on. -/
structure Runtime where
  /-- `str(value)` of a value that is no text. -/
  str : Val → String
  /-- `repr(value)`. -/
  repr : Val → String
  /-- The whole number pydantic reads from a text. -/
  intOfText : String → Option Int
  /-- The number pydantic reads from a text. -/
  floatOfText : String → Option PyFloat
  /-- Why `CronTrigger.from_crontab` refuses an expression. -/
  crontabError : String → Option String
  /-- Whether `ZoneInfo` knows a zone. -/
  knowsZone : String → Bool

/-! ### References to credentials -/

/-- `QI_SECRET_` followed by capital letters, digits and underscores, at least one of them. -/
def isSecretName (chars : List Char) : Bool :=
  "QI_SECRET_".toList.isPrefixOf chars &&
    let tail := chars.drop 10
    !tail.isEmpty && tail.all fun c => c.isUpper || c.isDigit || c == '_'

/-- The authored form of a reference to a credential. -/
def secretRef (name : String) : String :=
  "$\x7benv:" ++ name ++ "\x7d"

/-- The name inside a reference that stands alone in the text. -/
def referenceIn (text : String) : Option String :=
  let chars := text.toList
  let body := (chars.drop 6).dropLast
  if "$\x7benv:".toList.isPrefixOf chars && chars.getLast? == some '\x7d' && isSecretName body then
    some (String.ofList body)
  else none

/-- The credential name inside a `$\x7benv:NAME\x7d` reference, or none for anything else. -/
def secretName : Val → Option String
  | .str text => referenceIn (strip text)
  | _ => none

/-! ### What pydantic makes of a value -/

/-- The text of a value, as the lax readings see it: a text, or bytes that decode to one. -/
def laxText : Val → Option String
  | .str text => some text
  | .bytes raw => String.fromUTF8? ⟨raw.toArray⟩
  | _ => none

def readStr (v : Val) : Checked String :=
  match laxText v with
  | some text => .ok text
  | none => Checked.fault "string_type" "Input should be a valid string"

/-- A text of at least one character. -/
def readFilledStr (v : Val) : Checked String :=
  match readStr v with
  | .ok "" => Checked.fault "string_too_short" "String should have at least 1 character"
  | read => read

/-- A text that a pattern accepts. -/
def readPattern (accepts : String → Bool) (v : Val) : Checked String :=
  match readStr v with
  | .ok text =>
      if accepts text then .ok text
      else Checked.fault "string_pattern_mismatch" "String should match pattern"
  | read => read

def readInt (rt : Runtime) (v : Val) : Checked Int :=
  match v with
  | .int i => .ok i
  | .bool b => .ok (if b then 1 else 0)
  | .float (.finite q) =>
      if q.den = 1 then .ok q.num
      else Checked.fault "int_from_float"
        "Input should be a valid integer, got a number with a fractional part"
  | .float _ => Checked.fault "finite_number" "Input should be a finite number"
  | _ =>
      match laxText v with
      | none => Checked.fault "int_type" "Input should be a valid integer"
      | some text =>
          match rt.intOfText text with
          | some i => .ok i
          | none => Checked.fault "int_parsing"
              "Input should be a valid integer, unable to parse string as an integer"

/-- A whole number with a smallest value, and a largest one where there is one. -/
def readBounded (rt : Runtime) (low : Int) (high : Option Int) (v : Val) : Checked Int :=
  match readInt rt v with
  | .ok i =>
      if i < low then Checked.fault "greater_than_equal" "Input should be greater than or equal"
      else if high.any (· < i) then
        Checked.fault "less_than_equal" "Input should be less than or equal"
      else .ok i
  | read => read

def readFloat (rt : Runtime) (v : Val) : Checked PyFloat :=
  match v with
  | .int i => .ok (.finite i)
  | .bool b => .ok (.finite (if b then 1 else 0))
  | .float f => .ok f
  | _ =>
      match laxText v with
      | none => Checked.fault "float_type" "Input should be a valid number"
      | some text =>
          match rt.floatOfText text with
          | some f => .ok f
          | none => Checked.fault "float_parsing"
              "Input should be a valid number, unable to parse string as a number"

/-- A share between 0 and 1.  No bound accepts a `nan`. -/
def readRatio (rt : Runtime) (v : Val) : Checked PyFloat :=
  match readFloat rt v with
  | .ok (.finite q) =>
      if q < 0 then Checked.fault "greater_than_equal" "Input should be greater than or equal to 0"
      else if 1 < q then Checked.fault "less_than_equal" "Input should be less than or equal to 1"
      else .ok (.finite q)
  | .ok (.infinite false) =>
      Checked.fault "less_than_equal" "Input should be less than or equal to 1"
  | .ok _ => Checked.fault "greater_than_equal" "Input should be greater than or equal to 0"
  | read => read

/-- The words pydantic takes for true and for false. -/
def boolWord (text : String) : Option Bool :=
  if ["1", "on", "t", "true", "y", "yes"].contains (lower text) then some true
  else if ["0", "off", "f", "false", "n", "no"].contains (lower text) then some false
  else none

def readBool (v : Val) : Checked Bool :=
  match v with
  | .bool b => .ok b
  | .int i =>
      if i = 1 then .ok true
      else if i = 0 then .ok false
      else Checked.fault "bool_parsing" "Input should be a valid boolean, unable to interpret input"
  | .float (.finite q) =>
      if q = 1 then .ok true
      else if q = 0 then .ok false
      else Checked.fault "bool_type" "Input should be a valid boolean"
  | .str _ | .bytes _ =>
      match (laxText v).bind boolWord with
      | some b => .ok b
      | none => Checked.fault "bool_parsing"
          "Input should be a valid boolean, unable to interpret input"
  | _ => Checked.fault "bool_type" "Input should be a valid boolean"

/-- One of a few words, spelled exactly. -/
def readChoice {α : Type} (table : List (String × α)) (v : Val) : Checked α :=
  match v.str?.bind (List.lookup · table) with
  | some a => .ok a
  | none => Checked.fault "literal_error"
      ("Input should be one of " ++ joinWith ", " (table.map (·.1)))

def readStrList (v : Val) : Checked (List String) :=
  match v with
  | .list items => Checked.each readStr 0 items
  | .set items => Checked.each readStr 0 (items.map .scalar)
  | _ => Checked.fault "list_type" "Input should be a valid list"

/-- `T | None`. -/
def readNullable {α : Type} (read : Val → Checked α) (v : Val) : Checked (Option α) :=
  match v with
  | .null => .ok none
  | v => (Checked.of some).both (read v)

def readMapping (v : Val) : Checked Mapping :=
  match v with
  | .map entries => .ok entries
  | _ => Checked.fault "model_type" "Input should be a valid dictionary"

/-- A field of a model: the value under its key, or what an absent key stands for. -/
def field {α : Type} (m : Mapping) (key : String) (absent : Checked α) (read : Val → Checked α) :
    Checked α :=
  (match m.get? key with
    | some v => read v
    | none => absent).within key

/-- What an absent key means for a field without a default. -/
def missing {α : Type} : Checked α :=
  Checked.fault "missing" "Field required"

/-- `str(value)`. -/
def Runtime.text (rt : Runtime) (v : Val) : String :=
  v.str?.getD (rt.str v)

@[simp] theorem Runtime.text_str (rt : Runtime) (text : String) : rt.text (.str text) = text := rfl

/-- `str(value or default)`. -/
def Runtime.textOr (rt : Runtime) (default : String) (v : Val) : String :=
  if v.truthy then rt.text v else default

/-- `str` of a key. -/
def Runtime.keyText (rt : Runtime) : Scalar → String
  | .str text => text
  | key => rt.str (.scalar key)

/-- `extra="forbid"`: every key of the input is a key of the model. -/
def noExtras (rt : Runtime) (known : List String) : Mapping → Checked Unit
  | [] => .ok ()
  | (key, _) :: rest =>
      Checked.also (match key with
        | .str text =>
            if known.contains text then Checked.of ()
            else (Checked.fault "extra_forbidden" "Extra inputs are not permitted").within text
        | _ => (Checked.fault "invalid_key" "Keys should be strings").within (rt.keyText key))
        (noExtras rt known rest)

/-! ### Sources -/

/-- The nine kinds of source. -/
inductive SourceType where
  | localFolder
  | s3
  | webdav
  | sftp
  | smb
  | ftp
  | gdrive
  | azureblob
  | http
deriving DecidableEq, Repr

namespace SourceType

/-- `_SOURCE_MODELS`: the word of each kind, in the order of the table. -/
def table : List (String × SourceType) :=
  [("local", .localFolder), ("s3", .s3), ("webdav", .webdav), ("sftp", .sftp), ("smb", .smb),
    ("ftp", .ftp), ("gdrive", .gdrive), ("azureblob", .azureblob), ("http", .http)]

/-- The value of the `type` key. -/
def word : SourceType → String
  | .localFolder => "local"
  | .s3 => "s3"
  | .webdav => "webdav"
  | .sftp => "sftp"
  | .smb => "smb"
  | .ftp => "ftp"
  | .gdrive => "gdrive"
  | .azureblob => "azureblob"
  | .http => "http"

@[simp] theorem lookup_word (t : SourceType) : List.lookup t.word table = some t := by
  cases t <;> rfl

end SourceType

/-- What a key of a source holds. -/
inductive SourceShape where
  /-- `str = Field(min_length=1)` -/
  | required
  /-- `str = default` -/
  | text (default : String)
  /-- `SecretRef | None = None` -/
  | secret
  /-- `int = Field(default=default, ge=1, le=65535)` -/
  | port (default : Int)
  /-- `bool = default` -/
  | flag (default : Bool)
deriving DecidableEq, Repr

/-- The keys of each kind of source beyond `type`, `label` and `rclone_flags`, as authored: the
password of a remote account is the key `pass`. -/
def sourceModel : SourceType → List (String × SourceShape)
  | .localFolder => [("path", .required)]
  | .s3 =>
      [("bucket", .required), ("prefix", .text ""), ("provider", .text "AWS"),
        ("region", .text ""), ("endpoint", .text ""), ("access_key_id", .secret),
        ("secret_access_key", .secret)]
  | .webdav =>
      [("url", .required), ("vendor", .text "other"), ("user", .text ""), ("pass", .secret)]
  | .sftp =>
      [("host", .required), ("port", .port 22), ("user", .text ""), ("pass", .secret),
        ("key_file", .secret), ("path", .text "/")]
  | .smb =>
      [("host", .required), ("share", .required), ("user", .text ""), ("pass", .secret),
        ("path", .text "")]
  | .ftp =>
      [("host", .required), ("port", .port 21), ("user", .text ""), ("pass", .secret),
        ("path", .text ""), ("tls", .flag false)]
  | .gdrive =>
      [("service_account_json", .secret), ("token", .secret), ("root_folder_id", .text "")]
  | .azureblob =>
      [("account", .required), ("container", .required), ("key", .secret), ("sas_url", .secret),
        ("prefix", .text "")]
  | .http => [("url", .required)]

/-- A checked value of a source. -/
inductive SourceValue where
  | text (value : String)
  | secret (reference : Option String)
  | port (value : Int)
  | flag (value : Bool)
deriving DecidableEq, Repr

structure SourceSpec where
  type : SourceType
  label : String
  rcloneFlags : List String
  /-- The values of `sourceModel`, by authored key and in its order. -/
  values : List (String × SourceValue)
deriving DecidableEq, Repr

/-- `_check_secret`: a credential is referred to, never typed. -/
def checkSecret (v : Val) : Checked String :=
  match readStr v with
  | .ok text =>
      if (referenceIn (strip text)).isSome then .ok (strip text)
      else Checked.fault "value_error"
        ("Value error, choose a stored credential; a value typed here would end up in jobs.yaml " ++
          "(references look like $\x7benv:QI_SECRET_NAME\x7d)")
  | read => read

def SourceShape.read (rt : Runtime) : SourceShape → Val → Checked SourceValue
  | .required, v => (Checked.of SourceValue.text).both (readFilledStr v)
  | .text _, v => (Checked.of SourceValue.text).both (readStr v)
  | .secret, v => (Checked.of SourceValue.secret).both (readNullable checkSecret v)
  | .port _, v => (Checked.of SourceValue.port).both (readBounded rt 1 (some 65535) v)
  | .flag _, v => (Checked.of SourceValue.flag).both (readBool v)

/-- The value of a key that is absent. -/
def SourceShape.absent : SourceShape → Checked SourceValue
  | .required => missing
  | .text default => .ok (.text default)
  | .secret => .ok (.secret none)
  | .port default => .ok (.port default)
  | .flag default => .ok (.flag default)

/-- The values of a model, key by key. -/
def readValues (rt : Runtime) (m : Mapping) :
    List (String × SourceShape) → Checked (List (String × SourceValue))
  | [] => .ok []
  | (key, shape) :: rest =>
      ((Checked.of fun value values => (key, value) :: values).both
        (field m key shape.absent (shape.read rt))).both (readValues rt m rest)

/-- The union of the sources, told apart by `type`. -/
def readSource (rt : Runtime) (v : Val) : Checked SourceSpec :=
  match v with
  | .map m =>
      match Mapping.get? m "type" with
      | none => Checked.fault "union_tag_not_found"
          "Unable to extract tag using discriminator 'type'"
      | some tag =>
          match tag.str?.bind (List.lookup · SourceType.table) with
          | none => Checked.fault "union_tag_invalid"
              "Input tag found using 'type' does not match any of the expected tags"
          | some type =>
              Checked.within type.word
                ((((Checked.of (SourceSpec.mk type)).both
                  (field m "label" missing (readPattern isSlug))).both
                  (field m "rclone_flags" (.ok []) readStrList)).both
                  (readValues rt m (sourceModel type))
                  |>.also (noExtras rt
                    ("type" :: "label" :: "rclone_flags" :: (sourceModel type).map (·.1)) m))
  | _ => Checked.fault "model_attributes_type"
      "Input should be a valid dictionary or object to extract fields from"

/-- The keys of a source that hold references. -/
def secretKeys (type : SourceType) : List String :=
  (sourceModel type).filterMap fun entry => if entry.2 = .secret then some entry.1 else none

/-! ### A runtime for concrete documents -/

/-- The packages as they answer for plain values: whole numbers in ASCII digits, texts without
quotes, no cron expression, the zone UTC. -/
def plainRuntime : Runtime where
  str
    | .str text => text
    | .int i => renderInt i
    | .bool b => if b then "True" else "False"
    | _ => "None"
  repr
    | .str text => "'" ++ text ++ "'"
    | .int i => renderInt i
    | .bool b => if b then "True" else "False"
    | _ => "None"
  intOfText text := (readDecimal (strip text).toList).map Int.ofNat
  floatOfText text := (readDecimal (strip text).toList).map fun n => .finite n
  crontabError _ := none
  knowsZone name := name == "UTC"

end Papaia.Ingest
