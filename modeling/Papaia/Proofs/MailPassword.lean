/-
Module: Papaia.Proofs.MailPassword
Purpose: The stored mail password goes to the server and login it was stored with, in every run in
  which it still belongs to them when a job keeps it or a test reads it. The rule is checked when a
  request comes in; what is stored may be another password once its job runs.
Trusted boundary: none
Main exports: EnteredFor, Lawful, Kept, Foreseen, mailPassword_runs
-/
import Papaia.Lib.Paired
import Papaia.Mail.Service
import Papaia.Lib.Runs
import Papaia.Proofs.EnvRoundTrip

namespace Papaia.Mail

open Text Addons

/-! ### The law -/

/-- A password was stored with this server, up to case, and this login. -/
def EnteredFor (rt : MailRuntime) (entries : List Entry) (password host : String) (port : Int)
    (user : String) : Prop :=
  ∃ entry ∈ entries, entry.password = password ∧ rt.lowerOf entry.host = rt.lowerOf host ∧
    entry.port = port ∧ entry.user = user

instance (rt : MailRuntime) (entries : List Entry) (password host : String) (port : Int)
    (user : String) : Decidable (EnteredFor rt entries password host port user) :=
  inferInstanceAs (Decidable (∃ entry ∈ entries, _))

theorem EnteredFor.mono {rt : MailRuntime} {entries more : List Entry} {password host user : String}
    {port : Int} (h : EnteredFor rt entries password host port user) :
    EnteredFor rt (entries ++ more) password host port user := by
  obtain ⟨entry, hentry, hfields⟩ := h
  exact ⟨entry, List.mem_append_left more hentry, hfields⟩

theorem EnteredFor.added {rt : MailRuntime} {entries : List Entry} {added : Option Entry}
    {entry : Entry} (h : added = some entry) :
    EnteredFor rt (entries ++ added.toList) entry.password entry.host entry.port entry.user := by
  rw [h]
  exact ⟨entry, List.mem_append_right _ List.mem_cons_self, rfl, rfl, rfl, rfl⟩

/-- A server with a login is stored together with a password that was stored for them. -/
def Own (rt : MailRuntime) (stored : Stored) (entries : List Entry) : Prop :=
  ∀ settings, loadMailSettings rt stored = some settings → settings.user ≠ "" →
    stored.readPassword ≠ "" →
      EnteredFor rt entries stored.readPassword settings.host settings.effectivePort settings.user

instance (rt : MailRuntime) (stored : Stored) (entries : List Entry) :
    Decidable (Own rt stored entries) :=
  inferInstanceAs (Decidable (∀ settings ∈ loadMailSettings rt stored, _))

/-- What is stored and every connection that was tested with it: the password is used for the server
and the login it was stored with. -/
structure Lawful (rt : MailRuntime) (s : State) : Prop where
  stored : Own rt s.stored s.entries
  trials : ∀ trial ∈ s.trials,
    EnteredFor rt s.entries trial.password trial.host trial.port trial.login

/-- The stored password is for this server and login, if there is one. -/
def Kept (rt : MailRuntime) (stored : Stored) (host : String) (port : Int) (user : String) : Prop :=
  stored.readPassword = "" ∨
    ∃ current ∈ loadMailSettings rt stored, storedSecretApplies rt current host port user = true

instance (rt : MailRuntime) (stored : Stored) (host : String) (port : Int) (user : String) :
    Decidable (Kept rt stored host port user) :=
  inferInstanceAs (Decidable (_ ∨ _))

/-- A job that keeps the password, or a test that reads it, finds one that is for its server and
login. -/
def Foreseen (rt : MailRuntime) (s : State) : Event → Prop
  | .run => ∀ job ∈ s.queue.head?, job.data.password = none → job.data.user ≠ "" →
      Kept rt s.stored job.data.host job.data.port job.data.user
  | .test i => ∀ probe ∈ s.probes[i]?, probe.password = none →
      Kept rt s.stored probe.host probe.port probe.login
  | _ => True

instance (rt : MailRuntime) (s : State) (e : Event) : Decidable (Foreseen rt s e) := by
  cases e <;> unfold Foreseen <;> infer_instance

/-! ### One step -/

variable {rt : MailRuntime} {core : Core rt} {s s' : State}

/-- A password that still belongs to a server and login was stored for them. -/
theorem Own.enteredFor {entries : List Entry} {host user : String} {port : Int}
    (hown : Own rt s.stored entries) (hkept : Kept rt s.stored host port user)
    (hpassword : s.stored.readPassword ≠ "") :
    EnteredFor rt entries s.stored.readPassword host port user := by
  rcases hkept with hnone | ⟨current, hcurrent, happlies⟩
  · exact absurd hnone hpassword
  · simp only [storedSecretApplies, Bool.and_eq_true, decide_eq_true_eq, ne_eq] at happlies
    obtain ⟨⟨⟨⟨-, hsome⟩, huser⟩, hhost⟩, hport⟩ := happlies
    obtain ⟨entry, hentry, htext, hsame, hfor, hlogin⟩ := hown current hcurrent hsome hpassword
    exact ⟨entry, hentry, htext, hsame.trans hhost, hfor.trans hport, hlogin.trans huser⟩

/-- What the core stores for a job. -/
theorem settings_of_setup {job : Job} {stored : Stored}
    (h : core.setup s.stored (setupSpec job.data job.relayOn) = some stored)
    {settings : MailSettings} (hload : loadMailSettings rt stored = some settings) :
    settings.host = job.data.host ∧ settings.effectivePort = job.data.port ∧
      settings.user = job.data.user := by
  obtain ⟨found, hfound, hstores⟩ := core.stores _ _ _ h
  obtain rfl := Option.some.inj (hfound.symm.trans hload)
  refine ⟨hstores.host _ rfl, ?_, ?_⟩
  · unfold MailSettings.effectivePort
    rw [hstores.port _ rfl]
    rfl
  · by_cases hnone : job.data.user = ""
    · rw [hnone]
      exact hstores.noAuth (decide_eq_true hnone)
    · exact hstores.user _ (if_neg hnone)

theorem own_runStep {job : Job} {rest : List Job} (hown : Own rt s.stored s.entries)
    (hforeseen : job.data.password = none → job.data.user ≠ "" →
      Kept rt s.stored job.data.host job.data.port job.data.user) :
    Own rt (runStep core s job rest).stored (runStep core s job rest).entries := by
  unfold runStep
  split
  · exact hown
  · next stored hstored =>
      intro settings hload hlogin hpassword
      obtain ⟨hhost, hport, huser⟩ := settings_of_setup hstored hload
      rw [hhost, hport, huser]
      rw [huser] at hlogin
      rcases core.keeps _ _ _ hstored with hkept | ⟨hnone, -⟩
      · cases hgiven : job.data.password with
        | some password =>
            have hentry : job.entry =
                some ⟨password, job.data.host, job.data.port, job.data.user⟩ := by
              unfold Job.entry
              rw [hgiven]
              rfl
            have hread : stored.readPassword = password := by
              rw [hkept, setupSpec_password, hgiven]
              rfl
            rw [hread]
            exact EnteredFor.added hentry
        | none =>
            have hread : stored.readPassword = s.stored.readPassword := by
              rw [hkept, setupSpec_password, hgiven]
              rfl
            rw [hread] at hpassword ⊢
            exact (hown.enteredFor (hforeseen hgiven hlogin) hpassword).mono
      · exact absurd (of_decide_eq_true hnone) hlogin

theorem runStep_trials (job : Job) (rest : List Job) :
    (runStep core s job rest).trials = s.trials := by
  unfold runStep
  split
  · rfl
  · rfl

theorem runStep_entries (job : Job) (rest : List Job) :
    ∃ more, (runStep core s job rest).entries = s.entries ++ more := by
  unfold runStep
  split
  · exact ⟨[], (List.append_nil _).symm⟩
  · exact ⟨job.entry.toList, rfl⟩

/-- A configuration whose entry is known has its password entered for its server and login. -/
theorem own_of_entry {stored : Stored} {entries : List Entry}
    (h : ∀ entry ∈ stored.entry rt, entry ∈ entries) : Own rt stored entries := by
  intro settings hload _ hpassword
  have hhas : settings.hasPassword = true := by
    unfold loadMailSettings at hload
    obtain ⟨port, -, rfl⟩ := Option.map_eq_some_iff.1 hload
    exact decide_eq_true hpassword
  have hentry : stored.entry rt = some
      ⟨stored.readPassword, settings.host, settings.effectivePort, settings.user⟩ := by
    unfold Stored.entry
    rw [hload]
    exact if_pos hhas
  exact ⟨_, h _ hentry, rfl, rfl, rfl, rfl⟩

theorem Lawful.testStep {i : Nat} {probe : Probe} (h : Lawful rt s)
    (hforeseen : probe.password = none → Kept rt s.stored probe.host probe.port probe.login) :
    Lawful rt (testStep s i probe) := by
  unfold Mail.testStep
  split
  · exact ⟨h.stored, h.trials⟩
  · next hstored =>
      split
      · exact ⟨h.stored, h.trials⟩
      · next hpassword =>
          refine ⟨h.stored, ?_⟩
          intro trial htrial
          rcases List.mem_append.1 htrial with hold | hnew
          · exact h.trials trial hold
          · obtain rfl := List.mem_singleton.1 hnew
            exact h.stored.enteredFor (hforeseen hstored) hpassword

theorem lawful_step {e : Event} (h : Lawful rt s) (hforeseen : Foreseen rt s e)
    (hstep : step core s e = some s') : Lawful rt s' := by
  cases e with
  | put workspace body =>
      simp only [step] at hstep
      split at hstep
      all_goals
        obtain rfl := Option.some.inj hstep
        exact ⟨h.stored, h.trials⟩
  | enqueue i busy =>
      obtain ⟨job, -, hqueued⟩ := Option.bind_eq_some_iff.1 hstep
      split at hqueued
      all_goals
        obtain rfl := Option.some.inj hqueued
        exact ⟨h.stored, h.trials⟩
  | cancel i =>
      obtain rfl := Option.some.inj hstep
      exact ⟨h.stored, h.trials⟩
  | run =>
      simp only [step] at hstep
      split at hstep
      · cases hstep
      · next job rest hqueue =>
          obtain rfl := Option.some.inj hstep
          have hjob : job ∈ s.queue.head? := by
            rw [hqueue]
            rfl
          refine ⟨own_runStep h.stored (hforeseen job hjob), ?_⟩
          obtain ⟨more, hentries⟩ :
              ∃ more, (runStep core s job rest).entries = s.entries ++ more :=
            runStep_entries job rest
          rw [runStep_trials, hentries]
          exact fun trial htrial => (h.trials trial htrial).mono
  | probe body =>
      simp only [step] at hstep
      split at hstep
      all_goals
        obtain rfl := Option.some.inj hstep
        exact ⟨h.stored, h.trials⟩
  | test i =>
      obtain ⟨probe, hprobe, htested⟩ := Option.bind_eq_some_iff.1 hstep
      obtain rfl := Option.some.inj htested
      exact h.testStep (hforeseen probe hprobe)
  | change stored =>
      obtain rfl := Option.some.inj hstep
      refine ⟨own_of_entry ?_, fun trial htrial => (h.trials trial htrial).mono⟩
      exact fun entry hentry => List.mem_append_right _ (Option.mem_toList.2 hentry)

/-! ### Requests -/

/-- An input that keeps the password of a login is for the server and login it is stored with. -/
theorem applies_of_validateInput {current : MailSettings} {body : MailFields} {data : MailInput}
    (h : validateInput rt current body = .ok data) (hkeeps : data.password = none)
    (hlogin : data.user ≠ "") :
    storedSecretApplies rt current data.host data.port data.user = true := by
  unfold validateInput at h
  simp only [Paired.bind_eq_ok] at h
  obtain ⟨security, -, host, -, port, -, user, -, sender, -, name, -, password, -, hdata⟩ := h
  split at hdata
  · split at hdata
    · cases hdata
    · split at hdata
      · cases hdata
      · split at hdata
        · cases hdata
        · next happlies =>
            obtain rfl := Except.ok.inj hdata
            obtain rfl : password = none := hkeeps
            simpa using happlies
  · next hnone =>
      split at hdata
      · cases hdata
      · obtain rfl := Except.ok.inj hdata
        exact absurd hlogin hnone

/-- When a request is accepted, the password it keeps is for its server and login. -/
theorem kept_of_putMail {stored : Stored} {workspace : Workspace} {body : MailBody} {job : Job}
    (h : putMail rt stored workspace body = .ok job) (hkeeps : job.data.password = none)
    (hlogin : job.data.user ≠ "") : Kept rt stored job.data.host job.data.port job.data.user := by
  unfold putMail at h
  split at h
  · cases h
  · split at h
    · cases h
    · next current hcurrent =>
        split at h
        · cases h
        · split at h
          · cases h
          · split at h
            · cases h
            · next data hdata =>
                obtain rfl := Except.ok.inj h
                exact .inr ⟨current, hcurrent, applies_of_validateInput hdata hkeeps hlogin⟩

theorem applies_of_probePassword {typed : Option String} {current : MailSettings}
    {host user : String} {port : Int}
    (h : probePassword rt typed current host port user = .ok none) :
    storedSecretApplies rt current host port user = true := by
  unfold probePassword at h
  split at h
  · next text _ =>
      split at h
      · cases h
      · cases hchecked : validatePassword text with
        | error message =>
            rw [hchecked] at h
            cases h
        | ok password =>
            rw [hchecked] at h
            cases h
  · split at h
    · cases h
    · split at h
      · next happlies => exact happlies
      · cases h

/-- When a test is accepted, the password it reads is for its server and login. -/
theorem kept_of_probeMail {stored : Stored} {body : ProbeBody} {probe : Probe}
    (h : probeMail rt stored body = .ok probe) (hreads : probe.password = none) :
    Kept rt stored probe.host probe.port probe.login := by
  unfold probeMail at h
  split at h
  · cases h
  · next current hcurrent =>
      have hfields : probeFields rt current body = .ok probe := by
        cases hchecked : probeFields rt current body with
        | error text =>
            rw [hchecked] at h
            cases h
        | ok checked =>
            rw [hchecked] at h
            obtain rfl := Except.ok.inj h
            rfl
      unfold probeFields at hfields
      simp only [Paired.bind_eq_ok] at hfields
      obtain ⟨host, -, security, -, port, -, login, -, hpassword⟩ := hfields
      split at hpassword
      · cases hpassword
      · obtain ⟨password, hread, hprobe⟩ := Paired.bind_eq_ok.1 hpassword
        obtain rfl := Except.ok.inj hprobe
        obtain rfl : password = none := hreads
        exact .inr ⟨current, hcurrent, applies_of_probePassword hread⟩

/-! ### Runs -/

/-- Nothing is under way, and the stored password was stored with what is stored. -/
def start (rt : MailRuntime) (stored : Stored) : State where
  stored
  checked := []
  queue := []
  probes := []
  trials := []
  entries := (stored.entry rt).toList

theorem lawful_start (stored : Stored) : Lawful rt (start rt stored) := by
  have hown : Own rt stored (stored.entry rt).toList := by
    apply own_of_entry
    intro entry hentry
    exact Option.mem_toList.2 hentry
  constructor
  · simp only [start]
    exact hown
  · intro trial htrial
    exact absurd htrial List.not_mem_nil

/-- In every run in which the stored password still belongs to what keeps it, it goes to the server
and login it was stored with. -/
theorem mailPassword_runs (core : Core rt) (stored : Stored)
    (h : Runs.Reaches (step core) (Foreseen rt) (start rt stored) s) : Lawful rt s :=
  h.invariant (lawful_start stored) fun _ _ _ => lawful_step

/-! ### A password that is kept for its server, and one that is kept for another -/

def exampleRuntime : MailRuntime where
  lowerOf := lower
  sha256 := fun _ _ size => renderInt size

/-- The environment that the core's setup writes. -/
def moduleEnv (spec : SmtpSetup) : Env where
  entries :=
    [(keyHost, spec.host.getD ""), (keyPort, renderInt (spec.port.getD 0)),
      (keySecurity, spec.security.getD ""), (keyUser, spec.user.getD ""),
      (keyFrom, spec.sender.getD ""), (keyFromName, spec.senderName.getD "")]
  distinct := by
    have hkeys : [keyHost, keyPort, keySecurity, keyUser, keyFrom, keyFromName].Nodup := by decide
    exact hkeys

/-- What it leaves. -/
def written (before : Stored) (spec : SmtpSetup) : Stored :=
  { before with
    moduleEnv := some (renderEnv (moduleEnv spec))
    password := if spec.noAuth then none else spec.password.or before.password }

theorem readPassword_written {spec : SmtpSetup} (hlogin : spec.noAuth = false)
    (hkeeps : spec.password = none) (before : Stored) :
    (written before spec).readPassword = before.readPassword := by
  unfold written Stored.readPassword
  rw [hlogin, hkeeps]
  rfl

/-- An environment that can be read back, with the values of a specification. -/
def Storable (spec : SmtpSetup) (env : Env) : Prop :=
  (∀ entry ∈ env.entries, PlainKey entry.1 ∧ strip entry.2 = entry.2 ∧ Lines.Unbroken entry.2) ∧
    (settingsFrom env true true "").any (fun settings => decide (Stores spec settings)) = true

instance (spec : SmtpSetup) (env : Env) : Decidable (Storable spec env) :=
  inferInstanceAs (Decidable (_ ∧ _))

/-- What is stored is read back as the values. -/
theorem load_written {spec : SmtpSetup} (h : Storable spec (moduleEnv spec)) (before : Stored) :
    ∃ settings, loadMailSettings exampleRuntime (written before spec) = some settings ∧
      Stores spec settings := by
  obtain ⟨hreadable, hany⟩ := h
  obtain ⟨settings, hread, hdecided⟩ := (Option.any_eq_true _ _).1 hany
  have hstores := of_decide_eq_true hdecided
  have henv : readEnv (some (renderEnv (moduleEnv spec))) = moduleEnv spec := by
    rw [readEnv_some]
    apply parseEnvText_renderEnv
    · exact List.cons_ne_nil _ _
    · intro entry hentry
      obtain ⟨hkey, hstripped, hunbroken⟩ := hreadable entry hentry
      exact ⟨hkey, hstripped, hunbroken⟩
  have hother : ∀ profileOn hasPassword revision,
      Stores spec { settings with profileOn, hasPassword, revision } := fun _ _ _ =>
    ⟨hstores.host, hstores.port, hstores.security, hstores.user, hstores.noAuth, hstores.sender,
      hstores.senderName⟩
  have hmodule : (written before spec).moduleEnv = some (renderEnv (moduleEnv spec)) := rfl
  unfold loadMailSettings
  rw [hmodule, henv, settingsFrom_eq_map, hread]
  exact ⟨_, rfl, hother _ _ _⟩

/-- A core that refuses what it could not read back. -/
def exampleCore : Core exampleRuntime where
  setup := fun before spec => if Storable spec (moduleEnv spec) then some (written before spec) else none
  stores := by
    intro before spec after h
    split at h
    · next hstorable =>
        obtain rfl := Option.some.inj h
        exact load_written hstorable before
    · cases h
  keeps := by
    intro before spec after h
    split at h
    · obtain rfl := Option.some.inj h
      unfold written Stored.readPassword
      cases spec.noAuth with
      | true => exact .inr ⟨rfl, rfl⟩
      | false =>
          left
          cases spec.password with
          | some _ => rfl
          | none => rfl
    · cases h

theorem exampleCore_setup {spec : SmtpSetup} (h : Storable spec (moduleEnv spec))
    (before : Stored) :
    exampleCore.setup before spec = some (written before spec) := by
  unfold exampleCore
  exact if_pos h

/-- The relay of a server with a login. -/
def exampleStored : Stored where
  rootEnv := some "COMPOSE_PROFILES=smtp\n"
  moduleEnv := some "SMTP_RELAY_UPSTREAM_HOST=a\nSMTP_RELAY_UPSTREAM_USER=u\n"
  password := some "first"

/-- A form that is filled in for a server; without a password it keeps the stored one. -/
def putEvent (host : String) (password : Option String) : Event :=
  .put ⟨true, true⟩
    { revision := "5"
      fields :=
        { host, port := none, security := "starttls", user := some "u"
          fromAddress := "u@a.org", fromName := none, password } }

/-- The state a list of events leads to. -/
def afterEvents (events : List Event) : State :=
  (Runs.replay (step exampleCore) (start exampleRuntime exampleStored) events).getD
    (start exampleRuntime exampleStored)

/-- The server is spelled in another case, and the password kept. -/
def keptEvents : List Event :=
  [putEvent "A" none, .enqueue 0 none, .run]

/-- Two forms are sent, one that moves to another server and one that stays, and the first of their
jobs has run. -/
def movedMeanwhile : List Event :=
  [putEvent "b" (some "second"), putEvent "a" none, .enqueue 0 none, .enqueue 0 none, .run]

/-- The second job; it keeps the password. -/
def staying : Job where
  data :=
    { host := "a", port := 587, security := "starttls", user := "u", fromAddress := "u@a.org"
      fromName := defaultFromName, password := none }
  relayOn := true

theorem mailPassword_runs_kept : Lawful exampleRuntime (afterEvents keptEvents) := by
  have hkept : Runs.Permits (step exampleCore) (Foreseen exampleRuntime)
        (start exampleRuntime exampleStored) keptEvents ∧
      (Runs.replay (step exampleCore) (start exampleRuntime exampleStored)
        keptEvents).isSome = true := by
    decide +kernel
  exact mailPassword_runs exampleCore exampleStored
    (Runs.reaches_of_isSome _ hkept.1 hkept.2)

/-- The job that stays keeps the password of the other server. -/
theorem password_kept_for_other_server :
    ¬∀ (rt : MailRuntime) (core : Core rt) (stored : Stored) (s : State),
      Runs.Reaches (step core) (fun _ _ => True) (start rt stored) s → Lawful rt s := by
  intro h
  have hmoved : (Runs.replay (step exampleCore) (start exampleRuntime exampleStored)
        movedMeanwhile).isSome = true ∧
      (afterEvents movedMeanwhile).queue = [staying] ∧
      (afterEvents movedMeanwhile).stored.readPassword = "second" ∧
      ¬EnteredFor exampleRuntime ((afterEvents movedMeanwhile).entries ++ staying.entry.toList)
        "second" "a" 587 "u" := by
    decide +kernel
  obtain ⟨htaken, hqueue, hsecond, hnever⟩ := hmoved
  have hbefore : Runs.Reaches (step exampleCore) (fun _ _ => True)
      (start exampleRuntime exampleStored) (afterEvents movedMeanwhile) :=
    Runs.reaches_of_isSome _ (Runs.permits_all _ movedMeanwhile) htaken
  -- from here on only these facts about the state are needed
  obtain ⟨s, hstate⟩ : ∃ s, s = afterEvents movedMeanwhile := ⟨_, rfl⟩
  rw [← hstate] at hqueue hsecond hnever hbefore
  have hstep : step exampleCore s .run = some (runStep exampleCore s staying []) := by
    simp only [step, hqueue]
  have hown := (h _ exampleCore exampleStored _ (.next hbefore trivial hstep)).stored
  have hstorable : Storable (setupSpec staying.data staying.relayOn)
      (moduleEnv (setupSpec staying.data staying.relayOn)) := by
    decide
  have hsetup := exampleCore_setup hstorable s.stored
  unfold runStep at hown
  rw [hsetup] at hown
  obtain ⟨settings, hload, -⟩ := load_written hstorable s.stored
  obtain ⟨hhost, hport, huser⟩ := settings_of_setup hsetup hload
  have hkept : (written s.stored (setupSpec staying.data staying.relayOn)).readPassword =
      "second" := by
    rw [readPassword_written rfl rfl, hsecond]
  have hentered := hown settings hload (by rw [huser]; decide) (by rw [hkept]; decide)
  rw [hhost, hport, huser, hkept] at hentered
  exact hnever hentered

end Papaia.Mail
