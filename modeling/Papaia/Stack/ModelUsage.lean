/-
Module: Papaia.Stack.ModelUsage
Purpose: The usage report of the models page: how the days and the catalog of LiteLLM are read, added
  up per model and day, coloured, and how a fetch ends whatever the answers hold.
Trusted boundary: `str.casefold`, `urlparse`, `date.fromisoformat`, the reading of numbers from texts,
  `str` of what `json.loads` gives, the client's requests; the master key and the TLS settings are read,
  the client closes and the cache keeps a reading without an exception
Main exports: Json, Library, SetOrder, metricsFrom, parseUsage, parseCatalog, assignSlots, buildReport,
  Answers, fetch
-/
import Papaia.Data.PyText
import Papaia.Host.Numbers
import Papaia.Lib.Grouped
import Papaia.Lib.Sorted

namespace Papaia.Models

open Binary64 Grouped Sorted

/-- What `json.loads` gives. -/
inductive Json where
  | null
  | bool (value : Bool)
  | int (value : Int)
  | float (value : PyFloat)
  | str (chars : PyText)
  | arr (items : List Json)
  | obj (fields : List (PyText × Json))
deriving Repr

/-- A dict that was read from JSON. -/
abbrev Object := List (PyText × Json)

namespace Json

/-- `bool(value)`. -/
def truthy : Json → Bool
  | null => false
  | bool value => value
  | int value => value != 0
  | float (.finite value) => value != 0
  | float _ => true
  | str chars => !chars.isEmpty
  | arr items => !items.isEmpty
  | obj fields => !fields.isEmpty

/-- `isinstance(value, dict)`, with the fields. -/
def object? : Json → Option Object
  | obj fields => some fields
  | _ => none

/-- `isinstance(value, str)`, with the text. -/
def text? : Json → Option PyText
  | str chars => some chars
  | _ => none

/-- A text that is not empty. -/
def named? : Json → Option PyText
  | str (first :: rest) => some (first :: rest)
  | _ => none

end Json

/-- `fields.get(key)`. -/
def get (fields : Object) (key : String) : Json :=
  (fields.lookup (PyText.of key)).getD .null

/-- `fields.get(key)` where it is a dict, else `{}`. -/
def objectOf (fields : Object) (key : String) : Object :=
  (get fields key).object?.getD []

/-- The exceptions of Python that end a call. -/
inductive Raised where
  | keyError
  | typeError
  | valueError
  | attributeError
  | overflowError
  | other (name : String)
deriving DecidableEq, Repr

/-- The exceptions that `_fetch` turns into a problem. -/
def Raised.caught : Raised → Bool
  | .keyError | .typeError | .valueError | .attributeError => true
  | .overflowError | .other _ => false

/-- What the manager takes from Python's library. -/
structure Library where
  /-- `str.casefold`. -/
  casefold : PyText → PyText
  /-- `int(text)`, none where it raises `ValueError`. -/
  parseInt : PyText → Option Int
  /-- `float(text)`, none where it raises `ValueError`. -/
  parseFloat : PyText → Option PyFloat
  /-- `urlparse(text).hostname or ""`, none where it raises `ValueError`. -/
  hostname : PyText → Option PyText
  /-- `date.fromisoformat(str(value))` as the number of the day, none where it raises `ValueError`. -/
  day : Json → Option Int
  /-- `str(value)`; `json.loads` takes no number that it refuses. -/
  str : Json → PyText

/-- The orders in which one run of Python iterates over its sets of texts. -/
structure SetOrder where
  /-- `set(texts)`. -/
  setOf : List PyText → List PyText
  /-- `one | other`. -/
  union : List PyText → List PyText → List PyText
  nodup_setOf : ∀ texts, (setOf texts).Nodup
  mem_setOf : ∀ texts text, text ∈ setOf texts ↔ text ∈ texts
  nodup_union : ∀ one other, (union one other).Nodup
  mem_union : ∀ one other text, text ∈ union one other ↔ text ∈ one ∨ text ∈ other

/-! ### The window -/

/-- A run of whole UTC days, `start` and `end` both included. -/
structure Window where
  key : String
  start : Int
  last : Int
deriving DecidableEq, Repr

namespace Window

def length (window : Window) : Int :=
  window.last - window.start + 1

def dates (window : Window) : List Int :=
  (List.range window.length.toNat).map fun offset : Nat => window.start + offset

/-- `window.start <= day <= window.end`. -/
def Holds (window : Window) (day : Int) : Prop :=
  window.start ≤ day ∧ day ≤ window.last

instance (window : Window) (day : Int) : Decidable (window.Holds day) :=
  inferInstanceAs (Decidable (_ ∧ _))

end Window

/-! ### The numbers -/

/-- An exception of the numbers, by Python's name. -/
def Raised.ofNumber : Host.Raised → Raised
  | .overflow => .overflowError
  | .value => .valueError

/-- `int(value)`. -/
def toInt (lib : Library) : Json → Except Raised Int
  | .bool value => .ok (if value then 1 else 0)
  | .int value => .ok value
  | .float value => (Host.truncate value).mapError .ofNumber
  | .str chars =>
      match lib.parseInt chars with
      | some value => .ok value
      | none => .error .valueError
  | .null | .arr _ | .obj _ => .error .typeError

/-- `float(value)`. -/
def toFloat (lib : Library) : Json → Except Raised PyFloat
  | .bool value => .ok (.finite (if value then 1 else 0))
  | .int value => (Host.toFloat value).mapError .ofNumber
  | .float value => .ok value
  | .str chars =>
      match lib.parseFloat chars with
      | some value => .ok value
      | none => .error .valueError
  | .null | .arr _ | .obj _ => .error .typeError

/-- `except (TypeError, ValueError)`, with what is returned then. -/
def orElse {α : Type} (fallback : α) : Except Raised α → Except Raised α
  | .error .typeError | .error .valueError => .ok fallback
  | outcome => outcome

/-- `_int`. -/
def int (lib : Library) (value : Json) : Except Raised Int :=
  orElse 0 (toInt lib value)

/-- `_float`. -/
def float (lib : Library) (value : Json) : Except Raised PyFloat :=
  orElse (.finite 0) (toFloat lib value)

/-- `one + other` of two floats. -/
def plus : PyFloat → PyFloat → PyFloat
  | .finite one, .finite other => Host.ofExact (one + other)
  | .nan, _ => .nan
  | _, .nan => .nan
  | .infinite one, .infinite other => if one = other then .infinite one else .nan
  | .infinite one, .finite _ => .infinite one
  | .finite _, .infinite other => .infinite other

structure Metrics where
  promptTokens : Int
  completionTokens : Int
  spend : PyFloat
  requests : Int
  failed : Int
deriving DecidableEq, Repr

namespace Metrics

def tokens (metrics : Metrics) : Int :=
  metrics.promptTokens + metrics.completionTokens

/-- `Metrics.__add__`. -/
def add (one other : Metrics) : Metrics where
  promptTokens := one.promptTokens + other.promptTokens
  completionTokens := one.completionTokens + other.completionTokens
  spend := plus one.spend other.spend
  requests := one.requests + other.requests
  failed := one.failed + other.failed

/-- `ZERO`. -/
def zero : Metrics where
  promptTokens := 0
  completionTokens := 0
  spend := .finite 0
  requests := 0
  failed := 0

/-- `sum(metrics, ZERO)`. -/
def sum (metrics : List Metrics) : Metrics :=
  metrics.foldl add zero

end Metrics

def metricsFrom (lib : Library) (raw : Json) : Except Raised Metrics :=
  match raw.object? with
  | none => .ok .zero
  | some fields => do
      let promptTokens ← int lib (get fields "prompt_tokens")
      let completionTokens ← int lib (get fields "completion_tokens")
      let spend ← float lib (get fields "spend")
      let requests ← int lib (get fields "api_requests")
      let failed ← int lib (get fields "failed_requests")
      .ok { promptTokens, completionTokens, spend, requests, failed }

/-- The metrics of each model, day by day. -/
abbrev Usage := List (PyText × List (Int × Metrics))

/-- `days[day] = days.get(day, ZERO) + metrics` for the days of a name. -/
def addMetrics (name : PyText) (day : Int) (metrics : Metrics) (usage : Usage) : Usage :=
  change name [] (change day .zero fun before => before.add metrics) usage

/-- A step of the inner loop. -/
def addGroup (lib : Library) (day : Int) (usage : Usage) (group : PyText × Json) :
    Except Raised Usage :=
  if group.1.isEmpty then .ok usage
  else
    match group.2.object? with
    | none => .ok usage
    | some item =>
        (metricsFrom lib (get item "metrics")).map fun metrics =>
          addMetrics group.1 day metrics usage

/-- The `model_groups` of a day entry, where they are a dict. -/
def groupsOf (entry : Object) : Option Object :=
  (get entry "breakdown").object?.bind fun breakdown => (get breakdown "model_groups").object?

/-- A step of the outer loop. -/
def addEntry (lib : Library) (window : Window) (usage : Usage) (entry : Object) :
    Except Raised Usage :=
  match lib.day (get entry "date") with
  | none => .ok usage
  | some day =>
      if window.Holds day then
        match groupsOf entry with
        | none => .ok usage
        | some groups => groups.foldlM (addGroup lib day) usage
      else .ok usage

def parseUsage (lib : Library) (results : List Object) (window : Window) : Except Raised Usage :=
  results.foldlM (addEntry lib window) []

/-! ### The catalog -/

/-- A model LiteLLM serves, as users name it. -/
structure ModelEntry where
  name : PyText
  provider : PyText
  host : PyText
  mode : PyText
  inputPerMillion : Option PyFloat
  outputPerMillion : Option PyFloat
  deployments : Nat
deriving DecidableEq, Repr

/-- `round(value, 6)`. -/
def rounded : PyFloat → PyFloat
  | .finite value => Host.ofExact (roundHalfEven (value * 10 ^ 6) / 10 ^ 6)
  | other => other

/-- `_per_million`. -/
def perMillion (lib : Library) (value : Json) : Except Raised (Option PyFloat) :=
  match value with
  | .null => .ok none
  | value => orElse none ((toFloat lib value).map fun price =>
      some (rounded (Host.times price 1000000)))

/-- `model_id.split("/", 1)[0]` where there is a slash. -/
def prefixOf (modelId : PyText) : PyText :=
  let slash := Fin.ofNat 0x110000 '/'.toNat
  if modelId.contains slash then modelId.takeWhile (· != slash) else []

/-- The provider of a deployment: the one it names, or what its model's id starts with. -/
def providerOf (params : Object) : PyText :=
  (get params "custom_llm_provider").named?.getD
    (((get params "model").text?.map prefixOf).getD [])

/-- The host of a deployment's `api_base`. -/
def hostOf (lib : Library) (params : Object) : Except Raised PyText :=
  match (get params "api_base").text? with
  | none => .ok []
  | some base =>
      match lib.hostname base with
      | some host => .ok host
      | none => .error .valueError

/-- `_entry_of`. -/
def entryOf (lib : Library) (item : Object) : Except Raised (Option ModelEntry) :=
  match (get item "model_name").named? with
  | none => .ok none
  | some name => do
      let params := objectOf item "litellm_params"
      let info := objectOf item "model_info"
      let provider := providerOf params
      let host ← hostOf lib params
      let mode := (get info "mode").text?.getD []
      let inputPerMillion ← perMillion lib (get info "input_cost_per_token")
      let outputPerMillion ← perMillion lib (get info "output_cost_per_token")
      .ok (some { name, provider, host, mode, inputPerMillion, outputPerMillion, deployments := 1 })

/-- `text or other`. -/
def orText (text other : PyText) : PyText :=
  if text.isEmpty then other else text

/-- The entry of several deployments: the first's, with a gap filled by a later one. -/
def ModelEntry.filledBy (seen entry : ModelEntry) : ModelEntry where
  name := seen.name
  provider := orText seen.provider entry.provider
  host := orText seen.host entry.host
  mode := orText seen.mode entry.mode
  inputPerMillion := seen.inputPerMillion.or entry.inputPerMillion
  outputPerMillion := seen.outputPerMillion.or entry.outputPerMillion
  deployments := seen.deployments + 1

/-- `entries[name] = entry`. -/
def put (name : PyText) (entry : ModelEntry) (entries : List (PyText × ModelEntry)) :
    List (PyText × ModelEntry) :=
  change name entry (fun _ => entry) entries

/-- The loop's body of `parse_catalog`. -/
def addDeployment (entries : List (PyText × ModelEntry)) :
    Option ModelEntry → List (PyText × ModelEntry)
  | none => entries
  | some entry =>
      match entries.lookup entry.name with
      | none => put entry.name entry entries
      | some seen => put entry.name (seen.filledBy entry) entries

def parseCatalog (lib : Library) (items : List Object) : Except Raised (List ModelEntry) := do
  let entries ← items.foldlM (fun entries item => (entryOf lib item).map (addDeployment entries)) []
  .ok (sortBy (fun entry => lib.casefold entry.name) (entries.map Prod.snd))

/-! ### The report -/

/-- How many models get a colour of their own; the rest are drawn together as "Other". -/
def slots : Nat := 7

structure ModelUsage where
  name : PyText
  entry : Option ModelEntry
  daily : List Metrics
  totals : Metrics
  slot : Option Nat
deriving DecidableEq, Repr

structure UsageReport where
  window : Window
  days : List Int
  models : List ModelUsage
  totals : Metrics
  dailyTotals : List Metrics
  complete : Bool
deriving DecidableEq, Repr

/-- The key that puts the busiest first: `tokens.get(name, (0, 0))` with `reverse=True`. -/
def busyKey (tokens : PyText → Int × Int) (name : PyText) : (Lex (Int × Int))ᵒᵈ :=
  OrderDual.toDual (toLex (tokens name))

/-- A colour slot per model. -/
def assignSlots (lib : Library) (order : SetOrder) (names : List PyText)
    (tokens : List (PyText × Int × Int)) : List (PyText × Nat) :=
  let ordered := sortBy lib.casefold (order.setOf names)
  if ordered.length ≤ slots then ordered.zipIdx
  else
    let busiest := (sortBy (busyKey fun name => (tokens.lookup name).getD (0, 0)) ordered).take slots
    (sortBy lib.casefold busiest).zipIdx

/-- `usage.get(name, {})`. -/
def daysOf (usage : Usage) (name : PyText) : List (Int × Metrics) :=
  (usage.lookup name).getD []

/-- The names of a report, in the order of its models. -/
def namesOf (lib : Library) (order : SetOrder) (entries : List (PyText × ModelEntry)) (usage : Usage) :
    List PyText :=
  sortBy lib.casefold
    (order.union (order.setOf (entries.map Prod.fst)) (order.setOf (usage.map Prod.fst)))

def buildReport (lib : Library) (order : SetOrder) (window : Window) (catalog : List ModelEntry)
    (usage : Usage) (complete : Bool) : UsageReport :=
  let entries := catalog.foldl (fun entries entry => put entry.name entry entries) []
  let days := window.dates
  let names := namesOf lib order entries usage
  let summed := names.map fun name => (name, Metrics.sum ((daysOf usage name).map Prod.snd))
  let assigned := assignSlots lib order names
    (summed.map fun (name, totals) => (name, totals.tokens, totals.requests))
  let models := names.map fun name =>
    { name
      entry := entries.lookup name
      daily := days.map fun day => ((daysOf usage name).lookup day).getD .zero
      totals := (summed.lookup name).getD .zero
      slot := assigned.lookup name : ModelUsage }
  { window
    days
    models
    totals := Metrics.sum (models.map ModelUsage.totals)
    dailyTotals := (List.range days.length).map fun index =>
      -- every model has a place for each day, so the default is never taken
      Metrics.sum (models.map fun model => model.daily.getD index .zero)
    complete }

/-! ### Reading -/

/-- Why a reading is missing, as a msgid and its parameters. -/
structure Problem where
  msgid : String
  params : List (String × PyText)
deriving DecidableEq, Repr

def noKey : Problem where
  msgid :=
    "LITELLM_MASTER_KEY is not set in ai/litellm/.env, so the manager cannot read from LiteLLM."
  params := []

def unreadable : Problem where
  msgid := "LiteLLM sent an answer the manager could not read."
  params := []

structure Reading where
  window : Window
  fetchedAt : Int
  problem : Option Problem
  database : PyText
  report : Option UsageReport
deriving DecidableEq, Repr

/-- How a request of the client ends: with an answer, with a `LitellmError`, or with another
exception. -/
inductive Outcome (α : Type) where
  | answered (answer : α)
  | refused (problem : Problem)
  | raised (exception : Raised)

/-- What a fetch has to go by. -/
structure Answers where
  masterKey : PyText
  window : Window
  now : Int
  health : Outcome Object
  info : Outcome (List Object)
  daily : Outcome (List Object × Bool)

/-- LiteLLM's word for its database. -/
def databaseOf (lib : Library) : Outcome Object → PyText
  | .answered health => if (get health "db").truthy then lib.str (get health "db") else []
  | _ => []

/-- A reading without a report. -/
def Answers.failed (answers : Answers) (database : PyText) (problem : Problem) : Reading where
  window := answers.window
  fetchedAt := answers.now
  problem := some problem
  database := database
  report := none

/-- The report of two answers, the catalog read first. -/
def reportOf (lib : Library) (order : SetOrder) (window : Window) (items results : List Object)
    (complete : Bool) : Except Raised UsageReport := do
  let catalog ← parseCatalog lib items
  let usage ← parseUsage lib results window
  .ok (buildReport lib order window catalog usage complete)

/-- `_fetch`; `_store` keeps the reading and returns it. -/
def fetch (lib : Library) (order : SetOrder) (answers : Answers) : Except Raised Reading :=
  if answers.masterKey.isEmpty then .ok (answers.failed [] noKey)
  else
    let database := databaseOf lib answers.health
    match answers.info with
    | .refused problem => .ok (answers.failed database problem)
    | .raised exception => .error exception
    | .answered items =>
        match answers.daily with
        | .refused problem => .ok (answers.failed database problem)
        | .raised exception => .error exception
        | .answered (results, complete) =>
            match reportOf lib order answers.window items results complete with
            | .ok report =>
                .ok
                  { window := answers.window
                    fetchedAt := answers.now
                    problem := none
                    database
                    report := some report }
            | .error exception =>
                if exception.caught then .ok (answers.failed database unreadable)
                else .error exception

end Papaia.Models
