/-
Module: Papaia.Addons.EnvValidate
Purpose: What the server accepts of the values an operator sends for an add-on's environment.
Trusted boundary: how Python reads integers, decimals and URLs, matches patterns and renders values
Main exports: ValueRuntime, coerceDeclared, coerceEnvValues, answersOf
-/
import Papaia.Addons.EnvForms
import Papaia.Data.Numerals

namespace Papaia.Addons

open Text

/-- What the checks take from Python and its library; none is an exception. -/
structure ValueRuntime where
  Decimal : Type
  /-- `int(text)`. -/
  int : String → Option Int
  /-- `Decimal(text)`. -/
  decimal : String → Option Decimal
  /-- `one < other`. -/
  decimalLt : Decimal → Decimal → Option Bool
  /-- `str(number)`. -/
  showDecimal : Decimal → String
  /-- `urlsplit(text)`: scheme and netloc. -/
  urlsplit : String → Option (String × String)
  /-- `re.fullmatch(pattern, text)`. -/
  fullmatch : String → String → Option Bool
  /-- `repr(text)`. -/
  repr : String → String

/-- The checks as Python makes them, with its own numbers. -/
abbrev ValueRuntime.ofPython (urlsplit : String → Option (String × String))
    (fullmatch : String → String → Option Bool) (repr : String → String)
    (showDecimal : Numerals.Decimal → String) : ValueRuntime where
  Decimal := Numerals.Decimal
  int := Numerals.readInteger
  decimal := Numerals.readDecimalNumber
  decimalLt := Numerals.Decimal.lt
  showDecimal := showDecimal
  urlsplit := urlsplit
  fullmatch := fullmatch
  repr := repr

/-- How a request ends that is not accepted: `EnvValidationError`, or another exception. -/
inductive EnvFailure where
  | invalid (field message : String)
  | uncaught
deriving DecidableEq, Repr

/-- An exception that nothing catches. -/
def orUncaught {α : Type} : Option α → Except EnvFailure α
  | some value => .ok value
  | none => .error .uncaught

/-- The bound of an integer field, when there is one: what is out of it is refused. -/
def checkBound {α : Type} (bound : Option String) (read : String → Option α)
    (exceeds : α → Option Bool) (key : String) (message : String → String) :
    Except EnvFailure Unit :=
  match bound with
  | none => .ok ()
  | some text => do
      let limit ← orUncaught (read text)
      if ← orUncaught (exceeds limit) then .error (.invalid key (message text))
      else .ok ()

/-- The integer branch of `_coerce_declared`. -/
def checkInteger (rt : ValueRuntime) (f : EnvField) (value : String) : Except EnvFailure Unit :=
  match rt.int value with
  | none => .error (.invalid f.key ("expected integer, got " ++ rt.repr value))
  | some number => do
      checkBound f.minValue rt.int (fun limit => some (number < limit)) f.key fun limit =>
        "value " ++ renderInt number ++ " is below minimum " ++ limit
      checkBound f.maxValue rt.int (fun limit => some (limit < number)) f.key fun limit =>
        "value " ++ renderInt number ++ " exceeds maximum " ++ limit

/-- The decimal branch, for a value with points for commas. -/
def checkDecimal (rt : ValueRuntime) (f : EnvField) (value normalised : String) :
    Except EnvFailure Unit :=
  match rt.decimal normalised with
  | none => .error (.invalid f.key ("expected decimal number, got " ++ rt.repr value))
  | some number => do
      checkBound f.minValue rt.decimal (rt.decimalLt number) f.key fun limit =>
        "value " ++ rt.showDecimal number ++ " is below minimum " ++ limit
      checkBound f.maxValue rt.decimal (fun limit => rt.decimalLt limit number) f.key fun limit =>
        "value " ++ rt.showDecimal number ++ " exceeds maximum " ++ limit

/-- The URL branch. -/
def checkUrl (rt : ValueRuntime) (f : EnvField) (value : String) : Except EnvFailure Unit := do
  let (scheme, netloc) ← orUncaught (rt.urlsplit value)
  if (scheme ≠ "http" ∧ scheme ≠ "https") ∨ netloc = "" then
    .error (.invalid f.key
      ("expected a URL with http or https scheme and a host, got " ++ rt.repr value))
  else .ok ()

/-- The pattern of a text field. -/
def checkPattern (rt : ValueRuntime) (f : EnvField) (value : String) : Except EnvFailure Unit :=
  if f.pattern = "" then .ok ()
  else do
    if ← orUncaught (rt.fullmatch f.pattern value) then .ok ()
    else .error (.invalid f.key
      ("value " ++ rt.repr value ++ " does not match required pattern " ++ rt.repr f.pattern))

/-- `value.replace(",", ".")`. -/
def commasToPoints (value : String) : String :=
  String.ofList (value.toList.map fun c => if c = ',' then '.' else c)

/-- `_coerce_declared`. -/
def coerceDeclared (rt : ValueRuntime) (f : EnvField) (value : String) : Except EnvFailure String :=
  if value = "" then
    if f.required then .error (.invalid f.key "required field must not be empty")
    else .ok value
  else
    match f.valueType with
    | .integer => do
        checkInteger rt f value
        pure value
    | .decimal => do
        let normalised := commasToPoints value
        checkDecimal rt f value normalised
        pure normalised
    | .url => do
        checkUrl rt f value
        pure value
    | .text => do
        checkPattern rt f value
        pure value

/-- The warning about a value that the inferred type does not fit. -/
def inferredWarning (rt : ValueRuntime) (f : EnvField) (key value : String) : List String :=
  if f.valueType = .integer ∧ value ≠ "" ∧ (rt.int value).isNone then
    ["[warn] " ++ key ++ ": expected integer (inferred), got " ++ rt.repr value ++
      " — written as-is"]
  else if f.valueType = .decimal ∧ value ≠ "" ∧ (rt.decimal value).isNone then
    ["[warn] " ++ key ++ ": expected decimal (inferred), got " ++ rt.repr value ++
      " — written as-is"]
  else []

/-- The value that one item leaves, with its warnings. -/
def coerceItem (rt : ValueRuntime) (fields : List EnvField) (key rawValue : String) :
    Except EnvFailure (String × List String) :=
  let value := strip rawValue
  if '\n' ∈ value.toList ∨ '\r' ∈ value.toList then
    .error (.invalid key "value must not contain newline or carriage-return characters")
  else
    -- of several fields with one key the index keeps the last
    match fields.reverse.find? fun f => f.key = key with
    | none => .ok (value, ["[warn] " ++ key ++ ": not in .env.example — written as-is"])
    | some f =>
        if f.typeDeclared then do
          let coerced ← coerceDeclared rt f value
          pure (coerced, [])
        else .ok (value, inferredWarning rt f key value)

/-- `coerce_env_values`: the accepted values and the warnings. -/
def coerceEnvValues (rt : ValueRuntime) (fields : List EnvField) (env : Env) :
    Except EnvFailure (Env × List String) :=
  env.entries.foldlM (fun (out, warnings) (key, rawValue) => do
    let (value, more) ← coerceItem rt fields key rawValue
    pure (out.set (key, value), warnings ++ more)) (Env.empty, [])

/-- What the requests take of the values they carry: `_validate_env`, unless there are none. -/
def answersOf (rt : ValueRuntime) (fields : List EnvField) (env : Env) : Except EnvFailure Env :=
  if env.entries.isEmpty then .ok Env.empty
  else (coerceEnvValues rt fields env).map Prod.fst

end Papaia.Addons
