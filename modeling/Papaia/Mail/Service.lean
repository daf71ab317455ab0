/-
Module: Papaia.Mail.Service
Purpose: The requests that change the mail relay and test its server, and the jobs they queue, one
  step at a time, with what is changed on the host in between.
Trusted boundary: the core's `setup` stores the values it is given, and keeps the stored password
  when none is given; a server without login may lose it
Main exports: SmtpSetup, setupSpec, Core, putMail, probeMail, State, Event, step
-/
import Papaia.Mail.Settings

namespace Papaia.Mail

/-! ### The core's setup -/

/-- `SmtpSetup`. -/
structure SmtpSetup where
  enable : Option Bool
  host : Option String
  port : Option Int
  security : Option String
  user : Option String
  noAuth : Bool
  sender : Option String
  senderName : Option String
  password : Option String
deriving DecidableEq, Repr

/-- `setup_spec`. -/
def setupSpec (data : MailInput) (relayOn : Bool) : SmtpSetup where
  enable := if relayOn then some true else none
  host := some data.host
  port := some data.port
  security := some data.security
  user := if data.user = "" then none else some data.user
  noAuth := data.user = ""
  sender := some data.fromAddress
  senderName := some data.fromName
  password := data.password

@[simp] theorem setupSpec_password (data : MailInput) (relayOn : Bool) :
    (setupSpec data relayOn).password = data.password := rfl

/-- The values of a specification are the ones that are stored. -/
structure Stores (spec : SmtpSetup) (settings : MailSettings) : Prop where
  host : ∀ host ∈ spec.host, settings.host = host
  port : ∀ port ∈ spec.port, settings.port = some port
  security : ∀ security ∈ spec.security, settings.security = security
  user : ∀ user ∈ spec.user, settings.user = user
  noAuth : spec.noAuth = true → settings.user = ""
  sender : ∀ sender ∈ spec.sender, settings.fromAddress = sender
  senderName : ∀ name ∈ spec.senderName, settings.fromName = name

instance (spec : SmtpSetup) (settings : MailSettings) : Decidable (Stores spec settings) :=
  decidable_of_iff
    ((∀ host ∈ spec.host, settings.host = host) ∧ (∀ port ∈ spec.port, settings.port = some port) ∧
      (∀ security ∈ spec.security, settings.security = security) ∧
      (∀ user ∈ spec.user, settings.user = user) ∧ (spec.noAuth = true → settings.user = "") ∧
      (∀ sender ∈ spec.sender, settings.fromAddress = sender) ∧
      ∀ name ∈ spec.senderName, settings.fromName = name)
    ⟨fun ⟨a, b, c, d, e, f, g⟩ => ⟨a, b, c, d, e, f, g⟩,
      fun ⟨a, b, c, d, e, f, g⟩ => ⟨a, b, c, d, e, f, g⟩⟩

/-- The core: what its `setup` makes of what is stored; `none` when it refuses the values, and then
nothing is written. -/
structure Core (rt : MailRuntime) where
  setup : Stored → SmtpSetup → Option Stored
  stores : ∀ before spec after, setup before spec = some after →
    ∃ settings, loadMailSettings rt after = some settings ∧ Stores spec settings
  keeps : ∀ before spec after, setup before spec = some after →
    after.readPassword = spec.password.getD before.readPassword ∨
      spec.noAuth = true ∧ after.readPassword = ""

/-! ### The requests -/

/-- An `HTTPException`. -/
structure Refusal where
  statusCode : Nat
  detail : String
deriving DecidableEq, Repr

/-- What a request finds in the workspace. -/
structure Workspace where
  supported : Bool
  managesModules : Bool
deriving DecidableEq, Repr

/-- `MailBody`. -/
structure MailBody where
  revision : String
  fields : MailFields
deriving DecidableEq, Repr

/-- The job of `apply_callback`: what it stores, and whether the relay was on. -/
structure Job where
  data : MailInput
  relayOn : Bool
deriving DecidableEq, Repr

def serverError : Refusal := ⟨500, "Internal Server Error"⟩

/-- `put_mail`, up to the question whether something else owns the stack. -/
def putMail (rt : MailRuntime) (stored : Stored) (workspace : Workspace) (body : MailBody) :
    Except Refusal Job :=
  if !workspace.supported then
    .error ⟨409, "This papAIa core has no mail relay (it comes with papAIa 1.6.0)."⟩
  else
    match loadMailSettings rt stored with
    | none => .error serverError
    | some current =>
        if body.revision ≠ current.revision then
          .error ⟨409, "The mail settings changed since this page was loaded. Reload and try again."⟩
        else if !current.profileOn && !workspace.managesModules then
          .error ⟨409, "This papAIa core can't store the settings with the relay off (it needs " ++
            "1.6.0). Switch the relay on with papaia-ctl, or upgrade the core."⟩
        else
          match validateInput rt current body.fields with
          | .error text => .error ⟨422, text⟩
          | .ok data => .ok ⟨data, current.profileOn⟩

structure ProbeBody where
  host : Option String
  port : Option Int
  security : Option String
  user : Option String
  password : Option String
deriving DecidableEq, Repr

/-- A connection test that was not refused; without a password of its own it takes the stored one. -/
structure Probe where
  host : String
  port : Int
  security : String
  login : String
  password : Option String
deriving DecidableEq, Repr

/-- `_probe_password`, up to the reading of the stored one. -/
def probePassword (rt : MailRuntime) (typed : Option String) (current : MailSettings) (host : String)
    (port : Int) (user : String) : Checked (Option String) :=
  match typed.filter (· ≠ "") with
  | some text =>
      if user = "" then
        .error "A password needs a login: enter the login, or clear the password."
      else (validatePassword text).map some
  | none =>
      if user = "" then .ok (some "")
      else if storedSecretApplies rt current host port user then .ok none
      else
        .error "There is no stored password for this mail server and login: enter the password."

/-- The login of a connection test; a blank one is none. -/
def probeLogin (current : MailSettings) : Option String → Checked String
  | none => .ok current.user
  | some user => if Text.strip user = "" then .ok "" else validateUser user

/-- The values of a connection test, from the form or from what is stored. -/
def probeFields (rt : MailRuntime) (current : MailSettings) (body : ProbeBody) : Checked Probe := do
  let host ← validateHost (body.host.getD current.host)
  let security ← validateSecurity (body.security.getD current.security)
  let port ← validatePort (body.port.getD
    (if security = current.security then current.effectivePort else defaultPort security))
  let login ← probeLogin current body.user
  if login ≠ "" ∧ security = "none" then
    .error "The login would be sent unencrypted: use starttls or tls."
  else
    let password ← probePassword rt body.password current host port login
    pure { host, port, security, login, password }

/-- `probe_mail`, up to the reading of the stored password. -/
def probeMail (rt : MailRuntime) (stored : Stored) (body : ProbeBody) : Except Refusal Probe :=
  match loadMailSettings rt stored with
  | none => .error serverError
  | some current => (probeFields rt current body).mapError (⟨422, ·⟩)

/-! ### The system -/

/-- What a password was stored with. -/
structure Entry where
  password : String
  host : String
  port : Int
  user : String
deriving DecidableEq, Repr

/-- A connection that was tested with the stored password. -/
structure Trial where
  host : String
  port : Int
  login : String
  password : String
deriving DecidableEq, Repr

/-- What is stored, the requests and jobs under way, the tests that were made, and for whom passwords
were stored. -/
structure State where
  stored : Stored
  checked : List Job
  queue : List Job
  probes : List Probe
  trials : List Trial
  entries : List Entry
deriving DecidableEq, Repr

/-- What happens next; a request asks whether the stack is busy after its checks, and a test reads
the password after its own. -/
inductive Event where
  | put (workspace : Workspace) (body : MailBody)
  | enqueue (i : Nat) (busy : Option Refusal)
  | cancel (i : Nat)
  | run
  | probe (body : ProbeBody)
  | test (i : Nat)
  | change (stored : Stored)
deriving DecidableEq, Repr

/-- The entry of a configuration that is stored with a password. -/
def Stored.entry (rt : MailRuntime) (stored : Stored) : Option Entry := do
  let settings ← loadMailSettings rt stored
  if settings.hasPassword then
    pure ⟨stored.readPassword, settings.host, settings.effectivePort, settings.user⟩
  else none

/-- The entry of a job that stores a password. -/
def Job.entry (job : Job) : Option Entry :=
  job.data.password.map fun password =>
    ⟨password, job.data.host, job.data.port, job.data.user⟩

variable {rt : MailRuntime} (core : Core rt)

/-- `_setup` of the job that is next. -/
def runStep (s : State) (job : Job) (rest : List Job) : State :=
  match core.setup s.stored (setupSpec job.data job.relayOn) with
  | none => { s with queue := rest }
  | some stored => { s with stored, queue := rest, entries := s.entries ++ job.entry.toList }

/-- The second half of `probe_mail`. -/
def testStep (s : State) (i : Nat) (probe : Probe) : State :=
  let probes := s.probes.eraseIdx i
  match probe.password with
  | some _ => { s with probes }
  | none =>
      if s.stored.readPassword = "" then { s with probes }
      else
        { s with
          probes
          trials := s.trials ++
            [⟨probe.host, probe.port, probe.login, s.stored.readPassword⟩] }

def step (s : State) : Event → Option State
  | .put workspace body =>
      match putMail rt s.stored workspace body with
      | .error _ => some s
      | .ok job => some { s with checked := s.checked ++ [job] }
  | .enqueue i busy => do
      let job ← s.checked[i]?
      let checked := s.checked.eraseIdx i
      if busy.isSome then pure { s with checked }
      else pure { s with checked, queue := s.queue ++ [job] }
  | .cancel i => some { s with queue := s.queue.eraseIdx i }
  | .run =>
      match s.queue with
      | [] => none
      | job :: rest => some (runStep core s job rest)
  | .probe body =>
      match probeMail rt s.stored body with
      | .error _ => some s
      | .ok probe => some { s with probes := s.probes ++ [probe] }
  | .test i => do
      let probe ← s.probes[i]?
      pure (testStep s i probe)
  | .change stored =>
      some { s with stored, entries := s.entries ++ (stored.entry rt).toList }

end Papaia.Mail
