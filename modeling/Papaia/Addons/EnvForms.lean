/-
Module: Papaia.Addons.EnvForms
Purpose: The form an add-on's configuration is edited in, from its .env.example, its manifest and the
  two environments, and the document of each field that the browser receives.
Trusted boundary: how Python renders a value as text and titles a key, its `Decimal`, and which
  characters `\w` matches; the manifest is what `yaml.safe_load` makes of it
Main exports: EnvField, fieldToDict, AddonDir, buildForm
-/
import Papaia.Addons.EnvFile
import Papaia.Data.Value

namespace Papaia.Addons

open Text

/-! ### Fields -/

inductive Marker where
  | none
  | changeMe
  | generate
  | replaceWith
deriving DecidableEq, Repr

/-- `VALUE_TYPES`. -/
inductive ValueType where
  | text
  | integer
  | decimal
  | url
deriving DecidableEq, Repr

structure EnvField where
  key : String
  label : String
  default : String
  required : Bool
  isSecret : Bool
  currentSet : Bool := false
  hint : String := ""
  autoHandled : Bool := false
  currentValue : Option String := none
  promptOnInstall : Bool := false
  valueType : ValueType := .text
  typeDeclared : Bool := false
  marker : Marker := .none
  autoGenerated : Bool := false
  exampleValue : String := ""
  prefill : String := ""
  placeholder : String := ""
  pattern : String := ""
  inputMode : String := ""
  step : String := ""
  minValue : Option String := none
  maxValue : Option String := none
deriving DecidableEq, Repr

/-- `html_input_type`. -/
def EnvField.htmlInputType (f : EnvField) : String :=
  if f.isSecret then "password"
  else
    match f.valueType with
    | .integer | .decimal => "number"
    | .url => "url"
    | .text => "text"

/-- What the browser receives of a field: every attribute of it, and the type of its input. -/
structure FieldDocument where
  field : EnvField
  htmlInputType : String
deriving DecidableEq, Repr

/-- `field_to_dict`. -/
def fieldToDict (f : EnvField) : FieldDocument :=
  { field := if f.isSecret then { f with currentValue := none } else f
    htmlInputType := f.htmlInputType }

/-! ### Markers, secrets and types -/

/-- What the forms take from Python and its library. -/
structure FormRuntime where
  /-- `str(value)`. -/
  str : Val → String
  /-- `text.title()`. -/
  title : String → String
  /-- Whether `\w` matches. -/
  isWord : Char → Bool
  /-- Whether `Decimal(text)` raises nothing. -/
  readsDecimal : String → Bool

/-- `^<start>\w+$`. -/
def isMarker (rt : FormRuntime) (start value : String) : Bool :=
  startsWith value start && value.length != start.length &&
    (value.toList.drop start.length).all rt.isWord

/-- `_classify_marker`. -/
def classifyMarker (rt : FormRuntime) (value : String) : Marker :=
  if value = "CHANGE_ME" then .changeMe
  else if isMarker rt "GENERATE_" value then .generate
  else if isMarker rt "REPLACE_WITH_" value then .replaceWith
  else .none

/-- A character as `re.IGNORECASE` compares it with an ASCII letter. -/
def ignoreCase (c : Char) : Char :=
  match c.toNat with
  | 0x130 | 0x131 => 'i'
  | 0x17f => 's'
  | 0x212a => 'k'
  | _ => c.toLower

/-- `_SECRET_RE.search(key)`. -/
def namesSecret (key : String) : Bool :=
  let name := String.ofList (key.toList.map ignoreCase)
  ["secret", "password", "token", "api_key", "credential"].any (contains name) ||
    ["passwd", "pass", "_key"].any (endsWith name)

/-- Whether a field is secret: the manifest says so, or the name or the marker does. -/
def isSecretField (prompt replaceSecrets : Mapping) (key : String) (marker : Marker) : Bool :=
  match prompt.get? "secret" with
  | some (.bool declared) => declared
  | _ => namesSecret key || (replaceSecrets.get? key).isSome ||
      marker = .generate || marker = .replaceWith

/-- `_infer_type`. -/
def inferType (rt : FormRuntime) (value : String) : ValueType :=
  let stripped := strip value
  if stripped ≠ "" ∧ stripped.toList.all isDigit then .integer
  else if startsWith stripped "http://" || startsWith stripped "https://" then .url
  else if rt.readsDecimal stripped && stripped.toList.contains '.' then .decimal
  else .text

/-- A name of `VALUE_TYPES`. -/
def valueTypeOf (name : String) : Option ValueType :=
  match name with
  | "text" => some .text
  | "integer" => some .integer
  | "decimal" => some .decimal
  | "url" => some .url
  | _ => none

/-- `_resolve_type`. -/
def resolveType (rt : FormRuntime) (prompt : Mapping) (exampleValue : String) : ValueType × Bool :=
  match prompt.get? "type" with
  | some (.str declared) =>
      match valueTypeOf (lower (strip declared)) with
      | some valueType => (valueType, true)
      | none => (inferType rt exampleValue, false)
  | _ => (inferType rt exampleValue, false)

/-- `_type_html_attrs`: step and input mode. -/
def typeHtmlAttrs (valueType : ValueType) (typeDeclared : Bool) : String × String :=
  if typeDeclared then
    match valueType with
    | .integer => ("1", "numeric")
    | .decimal => ("any", "decimal")
    | .url => ("", "url")
    | .text => ("", "")
  else ("", "")

/-- `_resolve_prefill`: prefill and placeholder. -/
def resolvePrefill (marker : Marker) (isSecret : Bool) (resolvedDefault : String) :
    String × String :=
  if isSecret then
    match marker with
    | .generate => ("", "generated automatically")
    | .replaceWith => ("", "enter after the Keycloak import")
    | _ => ("", "")
  else
    match marker with
    | .changeMe =>
        if resolvedDefault ≠ "" ∧ resolvedDefault ≠ "CHANGE_ME" then
          (resolvedDefault, resolvedDefault)
        else ("", "")
    | .generate => ("", "generated automatically")
    | .replaceWith => ("", "enter after the Keycloak import")
    | .none => (resolvedDefault, resolvedDefault)

/-! ### The manifest -/

/-- An add-on directory: its .env.example and what its papaia-app.yaml holds, where they exist. -/
structure AddonDir where
  envExample : Option String
  manifest : Option Val

/-- `value or {}`, when `get` can be called on it. -/
def orEmpty : Option Val → Option Mapping
  | none => some []
  | some value => if value.truthy then value.mapping? else some []

/-- `dict(value)` for what is no list; a list stands for the mapping of its items. -/
def asDict : Val → Option Mapping
  | .map entries => some entries
  | .list items => items.foldlM (fun dict item =>
      match item with
      | .scalar key => some (dict.put key (.map []))
      | _ => none) []
  | .set items => items.foldlM (fun dict item =>
      match item with
      | .str text =>
          match text.toList with
          | [key, value] => some (dict.put (.str key.toString) (.str value.toString))
          | _ => none
      | .bytes [key, value] => some (dict.put (.int key.toNat) (.int value.toNat))
      | _ => none) []
  | _ => none

/-- `env_replace_secrets` as a `dict`. -/
def replaceSecretsOf (manifest : Mapping) : Option Mapping :=
  match manifest.get? "env_replace_secrets" with
  | none => some []
  | some raw => if raw.truthy then asDict raw else some []

/-- `str(prompt.get(key) or "")`. -/
def textOf (rt : FormRuntime) (prompt : Mapping) (key : String) : String :=
  match prompt.get? key with
  | some value => if value.truthy then rt.str value else ""
  | none => ""

/-- The hint of a field: the prompt's, or the one of the secret to replace. -/
def hintOf (rt : FormRuntime) (prompt replaceSecrets : Mapping) (key : String) : Option String :=
  let hint := textOf rt prompt "hint"
  if hint ≠ "" then some hint
  else
    match replaceSecrets.get? key with
    | some secret => (orEmpty (some secret)).map fun secret => textOf rt secret "hint"
    | none => some hint

/-! ### The form -/

/-- The default of a field: the example, the prompt's, or a value of the core's environment. -/
def resolveDefault (rt : FormRuntime) (prompt : Mapping) (exampleValue : String)
    (coreEnv : Option Env) : String :=
  let default := match prompt.get? "default" with
    | some value => rt.str value
    | none => exampleValue
  match prompt.get? "default_from_core", coreEnv with
  | some coreKey, some core => (core.get? (rt.str coreKey)).getD default
  | _, _ => default

/-- Whether the bundle's environment sets a field to more than its marker. -/
def isCurrentSet (bundleEnv : Option Env) (key exampleValue : String) (marker : Marker) : Bool :=
  match bundleEnv.bind fun env => env.get? key with
  | some value => marker = .none || value != exampleValue
  | none => false

/-- One field of the form. -/
def fieldOf (rt : FormRuntime) (envPrompts replaceSecrets prompt : Mapping) (key exampleValue : String)
    (hint : String) (bundleEnv coreEnv : Option Env) (authProvider : String) : EnvField :=
  let resolvedDefault := resolveDefault rt prompt exampleValue coreEnv
  let marker := classifyMarker rt exampleValue
  let currentSet := isCurrentSet bundleEnv key exampleValue marker
  let isSecret := isSecretField prompt replaceSecrets key marker
  let (valueType, typeDeclared) := resolveType rt prompt exampleValue
  let (step, inputMode) := typeHtmlAttrs valueType typeDeclared
  let (prefill, placeholder) := resolvePrefill marker isSecret resolvedDefault
  { key
    label := match prompt.get? "label" with
      | some value => if value.truthy then rt.str value else rt.title (key.replace "_" " ")
      | none => rt.title (key.replace "_" " ")
    default := resolvedDefault
    required := marker = .changeMe && !currentSet
    isSecret
    currentSet
    hint
    autoHandled := (replaceSecrets.get? key).isSome && authProvider = "internal_keycloak"
    currentValue := if currentSet && !isSecret then bundleEnv.bind fun env => env.get? key else none
    promptOnInstall := marker ≠ .none || (envPrompts.get? key).isSome
    valueType
    typeDeclared
    marker
    autoGenerated := marker = .generate
    exampleValue
    prefill
    placeholder
    pattern := textOf rt prompt "pattern"
    inputMode
    step
    minValue := (prompt.get? "min").map rt.str
    maxValue := (prompt.get? "max").map rt.str }

/-- `build_form`; nothing when the manifest is not of a shape that it can read. -/
def buildForm (rt : FormRuntime) (dir : AddonDir) (bundleEnv coreEnv : Option Env)
    (authProvider : String) : Option (List EnvField) :=
  match dir.envExample with
  | none => some []
  | some _ => do
      let manifest ← orEmpty dir.manifest
      let replaceSecrets ← replaceSecretsOf manifest
      (readEnv dir.envExample).entries.mapM fun (key, exampleValue) => do
        let envPrompts ← orEmpty (manifest.get? "env_prompts")
        let prompt ← orEmpty (envPrompts.get? key)
        let hint ← hintOf rt prompt replaceSecrets key
        pure (fieldOf rt envPrompts replaceSecrets prompt key exampleValue hint bundleEnv coreEnv
          authProvider)

end Papaia.Addons
