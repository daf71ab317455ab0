/-
Module: Papaia.Mail.Settings
Purpose: What the core stored for the mail relay, and the rules for changing it: the checks of every
  field, and the rule for which server and login the stored password may be used.
Trusted boundary: `str.lower` outside ASCII, and the digest of the revision; the files are read at
  one moment, and no number has more digits than `int` takes
Main exports: MailSettings, loadMailSettings, MailInput, validateInput, storedSecretApplies
-/
import Papaia.Addons.EnvFile

namespace Papaia.Mail

open Text Addons

/-- What Python's library decides. -/
structure MailRuntime where
  lowerOf : String → String
  /-- The digest of the module's environment, the profile and the size of the password file. -/
  sha256 : Option String → Bool → Int → String

def profile : String := "smtp"

def securityModes : List String := ["starttls", "tls", "none"]

/-- `DEFAULT_PORTS`. -/
def defaultPort (security : String) : Int :=
  if security = "starttls" then 587 else if security = "tls" then 465 else 25

def keyHost : String := "SMTP_RELAY_UPSTREAM_HOST"
def keyPort : String := "SMTP_RELAY_UPSTREAM_PORT"
def keySecurity : String := "SMTP_RELAY_UPSTREAM_SECURITY"
def keyUser : String := "SMTP_RELAY_UPSTREAM_USER"
def keyFrom : String := "SMTP_RELAY_FROM_ADDRESS"
def keyFromName : String := "SMTP_RELAY_FROM_NAME"

def defaultFromName : String := "papAIa"
def maxPasswordLength : Nat := 512

/-! ### Validation -/

/-- A `MailError`, by its text. -/
abbrev Checked (α : Type) := Except String α

/-- `_HOST_RE`. -/
def isHostName (chars : List Char) : Bool :=
  chars.length ≤ 253 && chars.head?.any Char.isAlphanum && chars.getLast?.any Char.isAlphanum &&
    chars.all fun c => c.isAlphanum || c == '.' || c == '-'

def validateHost (value : String) : Checked String :=
  let host := strip value
  if isHostName host.toList then .ok host
  else .error ("'" ++ value ++ "' is not a valid mail server host name (letters, digits, dots and " ++
    "hyphens; no scheme, no port).")

def validatePort (value : Int) : Checked Int :=
  if 1 ≤ value ∧ value ≤ 65535 then .ok value
  else .error ("'" ++ renderInt value ++ "' is not a valid port (1-65535).")

/-- The names of the modes are ASCII, and no other letter becomes one of theirs in lower case. -/
def validateSecurity (value : String) : Checked String :=
  let mode := lower (strip value)
  if mode ∈ securityModes then .ok mode
  else .error ("'" ++ value ++ "' is not a valid connection security (" ++
    joinWith ", " securityModes ++ ").")

/-- `_CONTROL` and `_ENV_UNSAFE`. -/
def isEnvUnsafe (c : Char) : Bool :=
  c.toNat < 0x20 || c.toNat == 0x7f || "#$\"'\\`".toList.contains c

/-- `_env_safe`. -/
def envSafe (label value : String) : Checked String :=
  let text := strip value
  if text.toList.any isEnvUnsafe then
    .error (label ++ " may not contain control characters or any of # $ \" ' \\ ` (they would " ++
      "change meaning in the .env file).")
  else .ok text

def validateUser (value : String) : Checked String := do
  let user ← envSafe "The mail server login" value
  if user.length > 256 ∨ user.toList.contains ':' then
    .error "The mail server login may not contain ':' or exceed 256 characters."
  else .ok user

/-- A part of a domain name. -/
def isDomainLabel (chars : List Char) : Bool :=
  chars.length ≤ 63 && chars.head?.any Char.isAlphanum && chars.getLast?.any Char.isAlphanum &&
    chars.all fun c => c.isAlphanum || c == '-'

/-- `_ADDRESS_RE`. -/
def isAddress (chars : List Char) : Bool :=
  let before := chars.takeWhile (· != '@')
  let labels := ((chars.dropWhile (· != '@')).drop 1).splitOn '.'
  1 ≤ before.length && before.length ≤ 64 &&
    before.all (fun c => c.isAlphanum || "._%+-".toList.contains c) &&
    2 ≤ labels.length && labels.all isDomainLabel

def validateAddress (value : String) : Checked String := do
  let address ← envSafe "The sender address" value
  if isAddress address.toList then .ok address
  else .error ("'" ++ value ++ "' is not a valid sender address (expected name@example.org).")

def validateDisplayName (value : String) : Checked String := do
  let name ← envSafe "The sender name" value
  if name = "" ∨ name.length > 80 then .error "The sender name must have 1-80 characters."
  else .ok name

def validatePassword (value : String) : Checked String :=
  if value = "" ∨ value.length > maxPasswordLength then
    .error ("The mail server password must have 1-" ++ toString maxPasswordLength ++ " characters.")
  else if value.toList.any ['\r', '\n', '\x00'].contains then
    .error "The mail server password may not contain line breaks."
  else if value ≠ strip value then
    .error ("The mail server password may not start or end with a space: the relay could not " ++
      "send it unchanged.")
  else .ok value

/-! ### What the core stored -/

/-- The core's environment, the relay's own one, and the file of the password. -/
structure Stored where
  rootEnv : Option String
  moduleEnv : Option String
  password : Option String
deriving DecidableEq, Repr

/-- `read_password`. -/
def Stored.readPassword (stored : Stored) : String :=
  stored.password.getD ""

/-- `MailSettings`; it never carries the password. -/
structure MailSettings where
  profileOn : Bool
  host : String
  port : Option Int
  security : String
  user : String
  fromAddress : String
  fromName : String
  hasPassword : Bool
  revision : String
deriving DecidableEq, Repr

def MailSettings.effectivePort (settings : MailSettings) : Int :=
  settings.port.getD (defaultPort settings.security)

/-- `profiles_in`. -/
def profilesIn (env : Env) : List String :=
  ((((env.get? "COMPOSE_PROFILES").getD "").toList.splitOn ',').map fun part =>
    strip (String.ofList part)).filter (· ≠ "")

/-- A port that is digits; `none` when it is digits that `int` does not take. -/
def readPort (raw : String) : Option (Option Int) :=
  if raw ≠ "" ∧ raw.toList.all isDigit = true then
    (readDecimal raw.toList).map fun port => some (Int.ofNat port)
  else some none

/-- The settings that the relay's environment says; `none` when its port is not a number. -/
def settingsFrom (env : Env) (profileOn hasPassword : Bool) (revision : String) :
    Option MailSettings :=
  let value := fun (key : String) => strip ((env.get? key).getD "")
  let security := lower (value keySecurity)
  (readPort (value keyPort)).map fun port =>
    { profileOn
      host := value keyHost
      port
      security := if security ∈ securityModes then security else "starttls"
      user := value keyUser
      fromAddress := value keyFrom
      fromName := if value keyFromName = "" then defaultFromName else value keyFromName
      hasPassword
      revision }

/-- The profile, the password and the revision are not in it. -/
theorem settingsFrom_eq_map (env : Env) (profileOn hasPassword : Bool) (revision : String) :
    settingsFrom env profileOn hasPassword revision =
      (settingsFrom env true true "").map fun settings =>
        { settings with profileOn, hasPassword, revision } := by
  simp only [settingsFrom]
  cases readPort (strip ((env.get? keyPort).getD "")) with
  | none => rfl
  | some port => simp only [Option.map_some]

/-- `load_mail_settings`; `none` when it raises. -/
def loadMailSettings (rt : MailRuntime) (stored : Stored) : Option MailSettings :=
  let profileOn := decide (profile ∈ profilesIn (readEnv stored.rootEnv))
  settingsFrom (readEnv stored.moduleEnv) profileOn (stored.readPassword ≠ "")
    (rt.sha256 stored.moduleEnv profileOn
      ((stored.password.map fun text => Int.ofNat text.utf8ByteSize).getD (-1)))

/-! ### A request to change it -/

/-- `stored_secret_applies`. -/
def storedSecretApplies (rt : MailRuntime) (current : MailSettings) (host : String) (port : Int)
    (user : String) : Bool :=
  current.hasPassword && current.user ≠ "" && current.user = user &&
    rt.lowerOf current.host = rt.lowerOf host && current.effectivePort = port

/-- `MailInput`; without a password it keeps the stored one. -/
structure MailInput where
  host : String
  port : Int
  security : String
  user : String
  fromAddress : String
  fromName : String
  password : Option String
deriving DecidableEq, Repr

/-- What a request brings; the fields of `MailBody` but for the revision. -/
structure MailFields where
  host : String
  port : Option Int
  security : String
  user : Option String
  fromAddress : String
  fromName : Option String
  password : Option String
deriving DecidableEq, Repr

/-- A text that is there and not blank. -/
def given (text : Option String) : Option String :=
  text.filter fun value => strip value ≠ ""

/-- A password that is typed; an empty one is none. -/
def typedPassword (typed : Option String) : Checked (Option String) :=
  match typed.filter (· ≠ "") with
  | none => .ok none
  | some text => (validatePassword text).map some

/-- `validate_input`. -/
def validateInput (rt : MailRuntime) (current : MailSettings) (body : MailFields) :
    Checked MailInput := do
  let security ← validateSecurity body.security
  let host ← validateHost body.host
  let port ← (body.port.map validatePort).getD (.ok (defaultPort security))
  let user ← ((given body.user).map validateUser).getD (.ok "")
  let fromAddress ← validateAddress body.fromAddress
  let fromName ← validateDisplayName ((given body.fromName).getD defaultFromName)
  let password ← typedPassword body.password
  let data : MailInput := { host, port, security, user, fromAddress, fromName, password }
  if user ≠ "" then
    if security = "none" then
      .error ("The login would be sent unencrypted: use starttls or tls, or clear the login for " ++
        "a mail server that needs none.")
    else if password.isNone && !current.hasPassword then
      .error "A login needs its password: enter the password of the login."
    else if password.isNone && !storedSecretApplies rt current host port user then
      .error ("The stored password belongs to another mail server or login: enter the password " ++
        "again.")
    else .ok data
  else if password.isSome then
    .error "A password needs a login: enter the login, or clear the password."
  else .ok data

end Papaia.Mail
