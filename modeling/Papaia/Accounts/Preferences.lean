/-
Module: Papaia.Accounts.Preferences
Purpose: `preferences.yaml`, the language each account chose: how the file is read through a cache of
  its last parse, and how a choice is put into the parsed document and written.
Trusted boundary: Library (the YAML library, Python's text of a number); the outcome of a write and
  the time and size of the file it leaves
Main exports: Preferences, Library, parse, storedLocale, setLocale, State, Event, step
-/
import Mathlib.Data.List.AList
import Papaia.Ingest.Schema

namespace Papaia.Accounts

/-! ### The document -/

structure AccountPreferences where
  locale : Option String := none
deriving DecidableEq, Repr

/-- `Preferences.users`, by subject. -/
abbrev Preferences := AList fun _ : String => AccountPreferences

/-- What an account chose, where the document has an entry for it. -/
def Preferences.chosen (prefs : Preferences) (subject : String) : Option String :=
  (prefs.lookup subject).bind AccountPreferences.locale

/-- How a reading fails: with the module's own error, or with one nobody expects. -/
inductive Failed where
  | preferences
  | uncaught
deriving DecidableEq, Repr

/-- What the module takes from the packages it is built on. -/
structure Library (Content : Type) where
  /-- `yaml.safe_load(path.read_bytes())`; an `OSError` and a `YAMLError` are the module's own. -/
  load : Content → Except Failed Val
  /-- The header with `yaml.safe_dump(..)`. -/
  dump : Val → Content
  /-- `str(value)` of a number. -/
  str : Val → String

variable {Content : Type} (lib : Library Content)

/-- A key of `users`: `coerce_numbers_to_str`. -/
def subjectOf : Scalar → Option String
  | .int i => some (lib.str (.int i))
  | .float f => some (lib.str (.float f))
  | key => Ingest.laxText (.scalar key)

/-- `AccountPreferences.model_validate`. -/
def accountOf : Val → Option AccountPreferences
  | .map entries =>
      match Mapping.get? entries "locale" with
      | none | some .null => some {}
      | some value => (Ingest.laxText value).map fun text => { locale := some text }
  | _ => none

/-- The accounts of `users`, of which the last one of a subject stays. -/
def usersOf : Mapping → Preferences → Option Preferences
  | [], users => some users
  | (key, value) :: rest, users =>
      match subjectOf lib key, accountOf value with
      | some subject, some account => usersOf rest (users.insert subject account)
      | _, _ => none

/-- `Preferences.model_validate`. -/
def validate : Val → Option Preferences
  | .null => some ∅
  | .map entries =>
      match Mapping.get? entries "users" with
      | none => some ∅
      | some (.map users) => usersOf lib users ∅
      | some _ => none
  | _ => none

/-- The parsed content of the file. -/
def parse (content : Content) : Except Failed Preferences :=
  match lib.load content with
  | .error failed => .error failed
  | .ok raw =>
      match validate lib raw with
      | some prefs => .ok prefs
      | none => .error .preferences

/-- `model_dump(exclude_none=True)` of one account. -/
def AccountPreferences.dump (account : AccountPreferences) : Mapping :=
  match account.locale with
  | some locale => [(.str "locale", .str locale)]
  | none => []

/-- The accounts in the order of their subjects. -/
def Preferences.sorted (prefs : Preferences) : List (Sigma fun _ : String => AccountPreferences) :=
  prefs.entries.mergeSort fun one other => decide (one.1 ≤ other.1)

/-- `model_dump(mode="json", exclude_none=True)`, its keys sorted. -/
def Preferences.document (prefs : Preferences) : Val :=
  .map [(.str "users", .map (prefs.sorted.map fun entry => (.str entry.1, .map entry.2.dump)))]

/-! ### Reading and writing -/

/-- `st_mtime_ns` and `st_size`. -/
abbrev Stamp := Nat × Nat

/-- What is in the place of the file. -/
inductive Disk (Content : Type) where
  | missing
  /-- A file that cannot even be asked for its time. -/
  | blocked
  | file (stamp : Stamp) (content : Content)
deriving DecidableEq, Repr

/-- The file, and what `_CACHE` holds for it. -/
structure State (Content : Type) where
  disk : Disk Content
  cache : Option (Stamp × Preferences) := none

/-- `_MAX_SUBJECT`. -/
def maxSubject : Nat := 512

/-- `valid_subject`. -/
def validSubject (subject : String) : Bool :=
  subject != "" && subject.length ≤ maxSubject &&
    subject.toList.all fun c => 0x1f < c.toNat && c.toNat != 0x7f

/-- The file is parsed, and a usable document cached under the file's time and size. -/
def readFile (s : State Content) (stamp : Stamp) (content : Content) :
    Except Failed Preferences × State Content :=
  match parse lib content with
  | .ok prefs => (.ok prefs, { s with cache := some (stamp, prefs) })
  | .error failed => (.error failed, s)

/-- `_read`: the document, and the cache it leaves. -/
def read (s : State Content) : Except Failed Preferences × State Content :=
  match s.disk with
  | .missing => (.ok ∅, s)
  | .blocked => (.error .preferences, s)
  | .file stamp content =>
      match s.cache with
      | some (known, prefs) => if known = stamp then (.ok prefs, s) else readFile lib s stamp content
      | none => readFile lib s stamp content

/-- `stored_locale`. -/
def storedLocale (s : State Content) (subject : String) :
    Except Failed (Option String) × State Content :=
  if validSubject subject then
    match read lib s with
    | (.ok prefs, s') => (.ok (prefs.chosen subject), s')
    | (.error .preferences, s') => (.ok none, s')
    | (.error .uncaught, s') => (.error .uncaught, s')
  else (.ok none, s)

/-- The document with an account's choice in it; an entry of nothing but defaults goes. -/
def Preferences.choose (prefs : Preferences) (subject : String) (locale : Option String) :
    Preferences :=
  match locale with
  | some locale => prefs.insert subject { locale := some locale }
  | none => prefs.erase subject

/-- The state once the parsed document is changed: for a file it is the one in the cache. -/
def State.changed (s : State Content) (prefs : Preferences) : State Content :=
  match s.disk with
  | .file stamp _ => { s with cache := some (stamp, prefs) }
  | _ => s

/-- `_save`, which forgets the cached document once the file is written. -/
def save (s : State Content) (prefs : Preferences) (written : Option Stamp) :
    Except Failed Unit × State Content :=
  match written with
  | some stamp => (.ok (), { disk := .file stamp (lib.dump prefs.document), cache := none })
  | none => (.error .preferences, s)

/-- `set_locale`; `written` is the stamp of the file its write leaves, none for an `OSError`. -/
def setLocale (s : State Content) (subject : String) (locale : Option String)
    (written : Option Stamp) : Except Failed Unit × State Content :=
  if validSubject subject then
    match read lib s with
    | (.error failed, s') => (.error failed, s')
    | (.ok prefs, s') =>
        if prefs.chosen subject = locale then (.ok (), s')
        else
          let changed := prefs.choose subject locale
          save lib (s'.changed changed) changed written
  else (.error .preferences, s)

/-! ### The run of a process -/

inductive Event (Content : Type) where
  | storedLocale (subject : String)
  | setLocale (subject : String) (locale : Option String) (written : Option Stamp)
  /-- The file is edited on the host. -/
  | edit (disk : Disk Content)

/-- The time and size of a file. -/
def Disk.stamp? : Disk Content → Option Stamp
  | .file stamp _ => some stamp
  | _ => none

/-- One call, or an edit that changes the file's time or size. -/
def step (s : State Content) : Event Content → Option (State Content)
  | .storedLocale subject => some (storedLocale lib s subject).2
  | .setLocale subject locale written => some (setLocale lib s subject locale written).2
  | .edit disk =>
      if s.disk.stamp? = none ∨ disk.stamp? ≠ s.disk.stamp? then some { s with disk := disk }
      else none

end Papaia.Accounts
