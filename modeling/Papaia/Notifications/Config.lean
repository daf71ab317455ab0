/-
Module: Papaia.Notifications.Config
Purpose: The recipients and the settings of the notifications, and the rules a recipient and a whole
  configuration are checked against.
Trusted boundary: `urlsplit` and `str.casefold`
Main exports: Kind, Recipient, EventSettings, NotificationsConfig, validateName, validateTarget,
  validateEvents, checkRecipient, checkConfig, CheckedConfig
-/
import Papaia.Notifications.Detect

namespace Papaia.Notifications

open Text

/-! ### What Python's library decides -/

/-- What `urlsplit` finds in a URL; `netloc` is the host with its port and login. -/
structure UrlParts where
  scheme : String
  netloc : String
  hostname : Option String
  username : Option String
  password : Option String
deriving DecidableEq, Repr

structure Library where
  /-- None where `urlsplit`, or the port it finds, raises a `ValueError`. -/
  urlsplit : String → Option UrlParts
  casefold : String → String

/-! ### The values -/

inductive Kind where
  | email
  | webhook
deriving DecidableEq, Repr

def maxRecipients : Nat := 50
def maxNameLength : Nat := 60
def maxUrlLength : Nat := 2048

/-- The events in the order of `CATALOGUE`. -/
def catalogue : List Event :=
  [.jobFailed, .backupOverdue, .serviceUnhealthy, .updateAvailable, .certExpiring]

structure Recipient where
  id : String
  name : String
  kind : Kind
  /-- The address of an email recipient, the URL of a webhook. -/
  target : String
  enabled : Bool := true
  events : List Event := []
deriving DecidableEq, Repr

/-- What applies to every recipient; the bounds are those of the fields. -/
structure EventSettings where
  checkIntervalMinutes : Int := 5
  debounceMinutes : Int := 30
  certLeadDays : Int := 14
  interval_bounds : 1 ≤ checkIntervalMinutes ∧ checkIntervalMinutes ≤ 60 := by decide
  debounce_bounds : 1 ≤ debounceMinutes ∧ debounceMinutes ≤ 1440 := by decide
  lead_bounds : 1 ≤ certLeadDays ∧ certLeadDays ≤ 90 := by decide
deriving DecidableEq, Repr

/-- `EventSettings()`. -/
def EventSettings.initial : EventSettings := {}

structure NotificationsConfig where
  version : Int := 1
  settings : EventSettings := EventSettings.initial
  recipients : List Recipient := []
deriving DecidableEq, Repr

/-! ### Rules for a value -/

/-- A `NotificationsError`, by its text. -/
abbrev Checked (α : Type) := Except String α

def validateName (value : String) : Checked String :=
  let name := joinWith " " (words value)
  if name = "" then .error "Enter a name."
  else if maxNameLength < name.length then
    .error ("The name is longer than " ++ toString maxNameLength ++ " characters.")
  else .ok name

/-- `any(ch.isspace() or ord(ch) < 32)`. -/
def hasBlank (url : String) : Bool :=
  url.toList.any fun c => isSpace c || c.toNat < 32

/-- What a stripped URL is refused for. -/
def urlProblem (lib : Library) (url : String) : Option String :=
  if url = "" then some "Enter the webhook URL."
  else if maxUrlLength < url.length ∨ hasBlank url = true then
    some "The webhook URL is too long or contains spaces."
  else
    match lib.urlsplit url with
    | none => some "The webhook URL is not valid."
    | some parts =>
        if parts.scheme ∉ ["http", "https"] then
          some "The webhook URL must start with http:// or https://."
        else if parts.hostname.getD "" = "" then some "The webhook URL has no host."
        else if parts.username.isSome || parts.password.isSome || parts.netloc.toList.contains '@' then
          some ("The webhook URL must not contain a login. Put a secret in the path or the query.")
        else none

def validateWebhookUrl (lib : Library) (value : String) : Checked String :=
  let url := strip value
  match urlProblem lib url with
  | some problem => .error problem
  | none => .ok url

/-- `[A-Za-z0-9._%+-]`. -/
def isLocalChar (c : Char) : Bool :=
  c.isAlphanum || "._%+-".toList.contains c

/-- `_RECIPIENT_RE` on a text with no line break at its end: the domain ends with its last dot and
the letters behind it. -/
def isPlainAddress (chars : List Char) : Bool :=
  let before := chars.takeWhile (· != '@')
  let domain := (chars.dropWhile (· != '@')).drop 1
  let top := (domain.reverse.takeWhile (· != '.')).reverse
  let host := ((domain.reverse.dropWhile (· != '.')).drop 1).reverse
  1 ≤ before.length && before.length ≤ 64 && before.all isLocalChar &&
    domain.contains '.' && 1 ≤ host.length && host.length ≤ 253 &&
    host.all (fun c => c.isAlphanum || c == '.' || c == '-') &&
    2 ≤ top.length && top.length ≤ 63 && top.all Char.isAlpha

/-- `validate_recipient`, whose own text nobody is shown here. -/
def validateRecipient (value : String) : Option String :=
  let address := strip value
  if address.length ≤ 254 ∧ isPlainAddress address.toList = true then some address else none

def validateTarget (lib : Library) (kind : Kind) (value : String) : Checked String :=
  match kind with
  | .email => (validateRecipient value).elim
      (.error "Enter an email address like name@example.org.") .ok
  | .webhook => validateWebhookUrl lib value

/-- Each event once, in the order of the catalogue. -/
def validateEvents (values : List Event) : List Event :=
  catalogue.filter fun event => values.contains event

/-! ### Rules for a recipient and for the configuration -/

/-- `[a-z0-9][a-z0-9-]{0,31}`. -/
def isIdentifier (chars : List Char) : Bool :=
  let small := fun (c : Char) => c.isLower || c.isDigit
  chars.length ≤ 32 && chars.head?.any small && chars.all fun c => small c || c == '-'

/-- `_ID_RE.match`: the `$` of the pattern also stands before a line break at the end. -/
def matchesId (id : String) : Bool :=
  isIdentifier id.toList ||
    id.toList.getLast? == some '\n' && isIdentifier id.toList.dropLast

/-- `Recipient._check`. -/
def checkRecipient (lib : Library) (r : Recipient) : Checked Recipient := do
  if matchesId r.id then pure () else
    .error "A recipient id is lowercase letters, digits and dashes."
  let name ← validateName r.name
  let target ← validateTarget lib r.kind r.target
  pure { r with name := name, target := target, events := validateEvents r.events }

/-- What only the whole configuration knows. -/
def configProblem (lib : Library) (recipients : List Recipient) : Option String :=
  if maxRecipients < recipients.length then
    some ("There can be at most " ++ toString maxRecipients ++ " recipients.")
  else if (recipients.map Recipient.id).Nodup then
    if (recipients.map fun r => lib.casefold r.name).Nodup then none
    else some "Two recipients have the same name."
  else some "Two recipients have the same id."

/-- `NotificationsConfig.model_validate` of values that have their types: the recipients first, then
the whole; the text is that of the first problem. -/
def checkConfig (lib : Library) (config : NotificationsConfig) : Checked NotificationsConfig := do
  let recipients ← config.recipients.mapM (checkRecipient lib)
  match configProblem lib recipients with
  | some problem => .error problem
  | none => pure { config with recipients := recipients }

/-- A configuration that stands as it is checked. -/
structure CheckedConfig (lib : Library) where
  config : NotificationsConfig
  stands : checkConfig lib config = .ok config

/-! ### What a configuration says -/

def NotificationsConfig.find (config : NotificationsConfig) (recipientId : String) :
    Option Recipient :=
  config.recipients.find? fun r => r.id = recipientId

/-- The recipients that are on and chose an event. -/
def NotificationsConfig.subscribedTo (config : NotificationsConfig) (event : Event) :
    List Recipient :=
  config.recipients.filter fun r => r.enabled && r.events.contains event

/-- `wanted`: whether a recipient that is on chose an event. -/
def NotificationsConfig.wants (config : NotificationsConfig) (event : Event) : Bool :=
  config.recipients.any fun r => r.enabled && r.events.contains event

end Papaia.Notifications
