/-
Module: Papaia.Proofs.Markers
Purpose: When a dated event is announced once: a notification is repeated when a reading that covers
  a certificate or a version does not show it and a later one does.
Trusted boundary: none
Main exports: noticedAll_markers, DatedReading.certificateLooks, DatedReading.coreLook,
  DatedReading.addonLook, datedNotices_nodup_iff
-/
import Papaia.Proofs.Notices
import Papaia.Notifications.Findings

namespace Papaia.Notifications

open Text Announce

variable {event : Event} {debounceMinutes : Int}

/-! ### The memory of a dated event as a marker -/

theorem fires_marker (hevent : event.isEdge = false) (now : Int) (seen : Option Seen)
    (marker : String) :
    fires event now debounceMinutes seen marker = true ↔ seen.map Seen.marker ≠ some marker := by
  cases seen with
  | none => simp [fires]
  | some seen => simp [fires, hevent]

theorem lookedAt_marker (hevent : event.isEdge = false) (now : Int) (seen : Option Seen)
    (look : Look String) :
    (lookedAt event now debounceMinutes seen look).map Seen.marker =
      remember (seen.map Seen.marker) look := by
  cases look with
  | unread => rfl
  | absent => cases seen <;> simp [lookedAt, dropped, hevent, remember]
  | present marker => rfl

/-- The notifications about a dated event are the announcements of its markers. -/
theorem noticedAll_markers (hevent : event.isEdge = false) (seen : Option Seen)
    (looks : List (Int × Look String)) :
    (noticedAll event debounceMinutes seen looks).map Prod.snd =
      announced (seen.map Seen.marker) (looks.map Prod.snd) := by
  induction looks generalizing seen with
  | nil => rfl
  | cons x rest ih =>
      obtain ⟨now, look⟩ := x
      rw [noticedAll, List.map_append, ih, lookedAt_marker hevent, List.map_cons]
      cases look with
      | unread => rfl
      | absent => rfl
      | present marker =>
          simp only [noticed, announced, remember]
          by_cases hfires : fires event now debounceMinutes seen marker = true
          · simp [hfires, (fires_marker hevent now seen marker).1 hfires]
          · have hsame : seen.map Seen.marker = some marker := by
              simpa [fires_marker hevent] using hfires
            simp [hfires, hsame]

/-! ### What a reading shows -/

/-- The expiry a reading of a node shows for the key of a certificate, within the lead time. -/
def HostHealth.expiry? (health : HostHealth) (leadDays : Int) (node key : String) :
    Option String :=
  ((health.certs.filter fun cert =>
    cert.expires leadDays && certScope node ++ cert.key == key).map HostCheck.marker).getLast?

/-- What a reading of a node says about the key of a certificate. -/
def HostHealth.certificateLook (leadDays : Int) (key node : String) (health : HostHealth) :
    Look String :=
  if health.available then
    match health.expiry? leadDays node key with
    | some marker => .present marker
    | none => if startsWith key (certScope node) then .absent else .unread
  else .unread

/-- What the readings of a pass say about the key of a certificate. -/
def DatedReading.certificateLooks (key : String) (r : DatedReading) : List (Look String) :=
  r.readings.map fun (node, health) => health.certificateLook r.leadDays key node

/-- What a pass says about the release of the core. -/
def DatedReading.coreLook (r : DatedReading) : Look String :=
  match r.updates with
  | none => .unread
  | some u =>
      match u.newer with
      | none => .unread
      | some [] => .absent
      | some (latest :: _) => .present latest

/-- The version of an add-on that the catalogs offer. -/
def UpdateReading.offered? (pyStr : Val → String) (u : UpdateReading) (name : String) :
    Option String :=
  let outdated := outdatedAddons pyStr u.registry fun name => u.installed.lookup name
  ((outdated.filter fun update => update.name == name).map AddonUpdate.available).getLast?

/-- What a pass says about the version of an add-on. -/
def DatedReading.addonLook (pyStr : Val → String) (name : String) (r : DatedReading) :
    Look String :=
  match r.updates with
  | none => .unread
  | some u =>
      match u.offered? pyStr name with
      | some version => .present version
      | none => .absent

theorem Finding.look_of_event_ne {f : Finding} (h : f.event ≠ event) (key : String) :
    f.look event key = .unread :=
  if_neg h

/-- What a finding of an event says, by the markers of its conditions of a key. -/
theorem Finding.look_eq {f : Finding} (h : f.event = event) (key : String) :
    f.look event key =
      match ((f.conditions.filter fun c => c.key == key).map Condition.marker).getLast? with
      | some marker => .present marker
      | none => if startsWith key f.scope then .absent else .unread := by
  rw [Finding.look, if_pos h, condition?_eq, List.getLast?_map]
  cases (f.conditions.filter fun c => c.key == key).getLast? <;> rfl

theorem markers_certConditions (certs : List HostCheck) (leadDays : Int) (node key : String) :
    ((certs.filterMap (certCondition? leadDays node)).filter fun c => c.key == key).map
        Condition.marker =
      (certs.filter fun cert => cert.expires leadDays && certScope node ++ cert.key == key).map
        HostCheck.marker := by
  induction certs with
  | nil => rfl
  | cons cert rest ih =>
      cases hcert : certCondition? leadDays node cert with
      | none =>
          have hexpires : cert.expires leadDays = false := by
            cases hdays : cert.daysLeft with
            | none => simp [HostCheck.expires, hdays]
            | some days =>
                simp only [certCondition?, hdays] at hcert
                split at hcert
                next hlead => simpa [HostCheck.expires, hdays] using hlead
                next => cases hcert
          simp [hcert, hexpires, ih]
      | some c =>
          obtain ⟨-, hkey, hmarker, hexpires⟩ := certCondition?_eq_some hcert
          by_cases hsame : certScope node ++ cert.key = key
          · simp [hcert, hkey, hsame, hexpires, hmarker, ih]
          · simp [hcert, hkey, hsame, hexpires, ih]

/-! ### The looks of a pass -/

theorem readLooks_append (key : String) (findings more : List Finding) :
    readLooks event key (findings ++ more) =
      readLooks event key findings ++ readLooks event key more := by
  simp [readLooks]

theorem readLooks_other {findings : List Finding} (h : ∀ f ∈ findings, f.event ≠ event)
    (key : String) : readLooks event key findings = [] := by
  rw [readLooks, List.filter_eq_nil_iff, List.forall_mem_map]
  intro f hf
  simp [Finding.look_of_event_ne (h f hf), Look.isRead]

theorem event_of_mem_certFindings {r : DatedReading} {f : Finding} (h : f ∈ r.certFindings) :
    f.event = .certExpiring := by
  obtain ⟨x, -, hf⟩ := List.mem_flatMap.1 h
  simp only [certificates] at hf
  split at hf
  · rw [List.mem_singleton.1 hf]
  · cases hf

theorem event_of_mem_coreUpdate {current : String} {newer : Option (List String)} {f : Finding}
    (h : f ∈ coreUpdate current newer) : f.event = .updateAvailable := by
  rcases newer with _ | (_ | ⟨latest, older⟩)
  · cases h
  · rw [List.mem_singleton.1 h]
  · rw [List.mem_singleton.1 h]

theorem event_of_mem_addonUpdates {pyStr : Val → String} {registry : List Catalog}
    {installed : List (String × InstalledAddon)} {f : Finding}
    (h : f ∈ addonUpdates pyStr registry installed) : f.event = .updateAvailable := by
  rw [addonUpdates] at h
  split at h
  · rw [List.mem_singleton.1 h]
  · rw [List.mem_singleton.1 h]

theorem event_of_mem_updates {pyStr : Val → String} {r : DatedReading} {f : Finding}
    (h : f ∈ (r.updates.map (·.findings pyStr)).getD []) : f.event = .updateAvailable := by
  cases hupdates : r.updates with
  | none => simp [hupdates] at h
  | some u =>
      rw [hupdates] at h
      rcases List.mem_append.1 h with h | h
      · exact event_of_mem_coreUpdate h
      · exact event_of_mem_addonUpdates h

theorem readLooks_certificates (health : HostHealth) (leadDays : Int) (node key : String) :
    readLooks .certExpiring key (certificates health leadDays node) =
      [health.certificateLook leadDays key node].filter Look.isRead := by
  cases havailable : health.available with
  | false => simp [certificates, havailable, HostHealth.certificateLook, readLooks, Look.isRead]
  | true =>
      simp only [certificates, havailable, if_true, readLooks, List.map_cons, List.map_nil,
        HostHealth.certificateLook, HostHealth.expiry?]
      rw [Finding.look_eq rfl, markers_certConditions]

theorem readLooks_certFindings (r : DatedReading) (key : String) :
    readLooks .certExpiring key r.certFindings = (r.certificateLooks key).filter Look.isRead := by
  rw [DatedReading.certFindings, DatedReading.certificateLooks]
  induction r.readings with
  | nil => rfl
  | cons x rest ih =>
      obtain ⟨node, health⟩ := x
      rw [List.flatMap_cons, readLooks_append, ih, readLooks_certificates, ← List.filter_append]
      rfl

theorem readLooks_coreUpdate (current : String) (newer : Option (List String)) :
    readLooks .updateAvailable "core" (coreUpdate current newer) =
      [match newer with
        | none => .unread
        | some [] => .absent
        | some (latest :: _) => .present latest].filter Look.isRead := by
  rcases newer with _ | (_ | ⟨latest, older⟩)
  · rfl
  · simp [readLooks, coreUpdate, Finding.look_eq, startsWith]
  · simp [readLooks, coreUpdate, Finding.look_eq]

theorem outdatedAddons_of_isEmpty {pyStr : Val → String} {registry : List Catalog}
    {installed : List (String × InstalledAddon)} (h : installed.isEmpty = true) :
    outdatedAddons pyStr registry (fun name => installed.lookup name) = [] := by
  obtain rfl := List.isEmpty_iff.1 h
  simp [outdatedAddons]

theorem addonUpdates_eq (pyStr : Val → String) (registry : List Catalog)
    (installed : List (String × InstalledAddon)) :
    ∃ f, addonUpdates pyStr registry installed = [f] ∧ f.event = .updateAvailable ∧
      f.scope = "addon:" ∧
      f.conditions = (outdatedAddons pyStr registry fun name => installed.lookup name).map
        addonCondition := by
  rw [addonUpdates]
  split
  next hempty => exact ⟨_, rfl, rfl, rfl, by simp [outdatedAddons_of_isEmpty hempty]⟩
  next => exact ⟨_, rfl, rfl, rfl, rfl⟩

theorem readLooks_addonUpdates (pyStr : Val → String) (u : UpdateReading) (name : String) :
    readLooks .updateAvailable ("addon:" ++ name) (addonUpdates pyStr u.registry u.installed) =
      [match u.offered? pyStr name with
        | some version => .present version
        | none => .absent].filter Look.isRead := by
  obtain ⟨f, hf, hevent, hscope, hconditions⟩ := addonUpdates_eq pyStr u.registry u.installed
  rw [hf, readLooks, List.map_singleton, Finding.look_eq hevent, hconditions, hscope,
    if_pos (startsWith_append ..), UpdateReading.offered?]
  congr 3
  simp only [List.filter_map, List.map_map]
  have hkeys : ((fun c : Condition => c.key == "addon:" ++ name) ∘ addonCondition) =
      fun update => update.name == name := by
    funext update
    simp [addonCondition, String.append_right_inj]
  rw [hkeys]
  rfl

/-- The looks of a pass that say anything about a key. -/
theorem readLooks_pass (pyStr : Val → String) (r : DatedReading) (key : String) :
    readLooks event key (r.pass pyStr).findings =
      readLooks event key r.others ++ (readLooks event key r.certFindings ++
        readLooks event key ((r.updates.map (·.findings pyStr)).getD [])) := by
  simp only [DatedReading.pass, readLooks_append, List.append_assoc]

theorem readLooks_others (hevent : event.isEdge = false) (r : DatedReading) (key : String) :
    readLooks event key r.others = [] := by
  apply readLooks_other
  rintro f hf rfl
  rw [r.edges f hf] at hevent
  cases hevent

theorem readLooks_pass_certificate (pyStr : Val → String) (r : DatedReading) (key : String) :
    readLooks .certExpiring key (r.pass pyStr).findings =
      (r.certificateLooks key).filter Look.isRead := by
  rw [readLooks_pass, readLooks_others rfl, readLooks_certFindings, readLooks_other,
    List.nil_append, List.append_nil]
  intro f hf
  rw [event_of_mem_updates hf]
  decide

theorem readLooks_pass_update (pyStr : Val → String) (r : DatedReading) (key : String) :
    readLooks .updateAvailable key (r.pass pyStr).findings =
      readLooks .updateAvailable key ((r.updates.map (·.findings pyStr)).getD []) := by
  have hcerts : readLooks .updateAvailable key r.certFindings = [] := by
    apply readLooks_other
    intro f hf
    rw [event_of_mem_certFindings hf]
    decide
  rw [readLooks_pass, readLooks_others rfl, hcerts, List.nil_append, List.nil_append]

theorem Finding.look_finds_of_keys {f : Finding} {key : String}
    (h : ∀ c ∈ f.conditions, c.key ≠ key) : (f.look event key).finds = false := by
  by_cases hevent : f.event = event
  · by_cases hscope : startsWith key f.scope = true <;>
      simp [Finding.look, hevent, condition?_eq_none_iff.2 h, hscope, Look.finds]
  · simp [Finding.look, hevent, Look.finds]

theorem Finding.look_unread_of_keys {f : Finding} {key : String}
    (h : ∀ c ∈ f.conditions, c.key ≠ key) (hscope : startsWith key f.scope = false) :
    f.look event key = .unread := by
  rw [Finding.look, condition?_eq_none_iff.2 h]
  simp [hscope]

theorem readLooks_singleton_unread {f : Finding} {key : String}
    (h : ∀ c ∈ f.conditions, c.key ≠ key) (hscope : startsWith key f.scope = false) :
    readLooks event key [f] = [] := by
  simp [readLooks, Finding.look_unread_of_keys h hscope, Look.isRead]

/-- The keys of the update findings. -/
theorem key_of_mem_coreUpdate {current : String} {newer : Option (List String)} {f : Finding}
    (h : f ∈ coreUpdate current newer) {c : Condition} (hc : c ∈ f.conditions) :
    c.key = "core" := by
  rcases newer with _ | (_ | ⟨latest, older⟩)
  · cases h
  · rw [List.mem_singleton.1 h] at hc
    cases hc
  · rw [List.mem_singleton.1 h] at hc
    rw [List.mem_singleton.1 hc]

theorem key_of_mem_addonUpdates {pyStr : Val → String} {registry : List Catalog}
    {installed : List (String × InstalledAddon)} {f : Finding}
    (h : f ∈ addonUpdates pyStr registry installed) {c : Condition} (hc : c ∈ f.conditions) :
    ∃ name, c.key = "addon:" ++ name := by
  obtain ⟨only, hf, -, -, hconditions⟩ := addonUpdates_eq pyStr registry installed
  rw [hf] at h
  rw [List.mem_singleton.1 h, hconditions] at hc
  obtain ⟨update, -, rfl⟩ := List.mem_map.1 hc
  exact ⟨update.name, rfl⟩

theorem core_ne_addon (name : String) : "core" ≠ "addon:" ++ name := by
  intro h
  have hchars := congrArg String.toList h
  simp at hchars

theorem readLooks_update_core (pyStr : Val → String) (r : DatedReading) :
    readLooks .updateAvailable "core" (r.pass pyStr).findings = [r.coreLook].filter Look.isRead := by
  rw [readLooks_pass_update, DatedReading.coreLook]
  cases hupdates : r.updates with
  | none => rfl
  | some u =>
      obtain ⟨f, hf, -, hscope, -⟩ := addonUpdates_eq pyStr u.registry u.installed
      have haddons : readLooks .updateAvailable "core"
          (addonUpdates pyStr u.registry u.installed) = [] := by
        rw [hf]
        apply readLooks_singleton_unread
        · intro c hc hkey
          obtain ⟨name, hname⟩ := key_of_mem_addonUpdates (hf ▸ List.mem_singleton_self f) hc
          exact core_ne_addon name (hkey.symm.trans hname)
        · rw [hscope]
          decide
      rw [Option.map_some, Option.getD_some, UpdateReading.findings, readLooks_append, haddons,
        List.append_nil]
      exact readLooks_coreUpdate u.current u.newer

theorem readLooks_coreUpdate_addon (current : String) (newer : Option (List String))
    (name : String) :
    readLooks .updateAvailable ("addon:" ++ name) (coreUpdate current newer) = [] := by
  rw [readLooks, List.filter_eq_nil_iff, List.forall_mem_map]
  intro f hf
  have hscope : f.scope = "core" := by
    rcases newer with _ | (_ | ⟨latest, older⟩)
    · cases hf
    · rw [List.mem_singleton.1 hf]
    · rw [List.mem_singleton.1 hf]
  rw [Finding.look_unread_of_keys]
  · simp [Look.isRead]
  · intro c hc hkey
    exact core_ne_addon name ((key_of_mem_coreUpdate hf hc).symm.trans hkey)
  · simp only [hscope, startsWith, String.toList_append]
    rfl

theorem readLooks_update_addon (pyStr : Val → String) (r : DatedReading) (name : String) :
    readLooks .updateAvailable ("addon:" ++ name) (r.pass pyStr).findings =
      [r.addonLook pyStr name].filter Look.isRead := by
  rw [readLooks_pass_update, DatedReading.addonLook]
  cases hupdates : r.updates with
  | none => rfl
  | some u =>
      rw [Option.map_some, Option.getD_some, UpdateReading.findings, readLooks_append,
        readLooks_coreUpdate_addon, List.nil_append]
      exact readLooks_addonUpdates pyStr u name

/-! ### Runs of passes -/

/-- The markers of the notifications about a dated event in a run that starts with an empty
memory. -/
def datedNotices (pyStr : Val → String) (debounceMinutes : Int) (event : Event) (key : String)
    (readings : List DatedReading) : List String :=
  (noticesAbout debounceMinutes event key (fun _ => none)
    (readings.map (DatedReading.pass pyStr))).map Prod.snd

theorem datedNotices_eq (pyStr : Val → String) (hevent : event.isEdge = false) (key : String)
    (readings : List DatedReading) :
    datedNotices pyStr debounceMinutes event key readings =
      announced none (readings.flatMap fun r => readLooks event key (r.pass pyStr).findings) := by
  rw [datedNotices, noticesAbout_eq, noticedAll_markers hevent, Option.map_none,
    ← announced_filter_isRead]
  congr 1
  induction readings with
  | nil => rfl
  | cons r rest ih =>
      rw [List.map_cons, List.flatMap_cons, List.map_append, List.filter_append, ih,
        List.flatMap_cons, Pass.looks, List.map_map]
      rfl

/-- What a run says about a key decides whether a marker of it is announced twice. -/
theorem datedNotices_nodup_of_looks {pyStr : Val → String} (hevent : event.isEdge = false)
    {key : String} {readings : List DatedReading} {looks : DatedReading → List (Look String)}
    (h : ∀ r, readLooks event key (r.pass pyStr).findings = (looks r).filter Look.isRead) :
    (datedNotices pyStr debounceMinutes event key readings).Nodup ↔
      ∀ marker, Steady marker (readings.flatMap looks) := by
  have hlooks : (readings.flatMap fun r => readLooks event key (r.pass pyStr).findings) =
      (readings.flatMap looks).filter Look.isRead := by
    rw [List.filter_flatMap]
    exact List.flatMap_congr fun r _ => h r
  rw [datedNotices_eq pyStr hevent, hlooks, announced_filter_isRead, announced_nodup_iff]

/-- A key no detector uses is never announced. -/
theorem datedNotices_eq_nil {pyStr : Val → String} (hevent : event.isEdge = false) {key : String}
    {readings : List DatedReading}
    (h : ∀ r : DatedReading, ∀ f ∈ (r.pass pyStr).findings, (f.look event key).finds = false) :
    datedNotices pyStr debounceMinutes event key readings = [] := by
  rw [datedNotices_eq pyStr hevent]
  apply announced_eq_nil
  intro look hlook
  obtain ⟨r, -, hread⟩ := List.mem_flatMap.1 hlook
  obtain ⟨f, hf, rfl⟩ := List.mem_map.1 (List.mem_of_mem_filter hread)
  exact h r f hf

theorem datedNotices_jobFailed (pyStr : Val → String) (key : String)
    (readings : List DatedReading) :
    datedNotices pyStr debounceMinutes .jobFailed key readings = [] := by
  apply datedNotices_eq_nil rfl
  intro r f hf
  have hother : f.event ≠ .jobFailed := by
    rcases List.mem_append.1 hf with hf | hf
    · rcases List.mem_append.1 hf with hf | hf
      · rintro hjob
        have hedge := r.edges f hf
        rw [hjob] at hedge
        cases hedge
      · rw [event_of_mem_certFindings hf]
        decide
    · rw [event_of_mem_updates hf]
      decide
  rw [Finding.look_of_event_ne hother]
  rfl

theorem datedNotices_update_other (pyStr : Val → String) {key : String} (hcore : key ≠ "core")
    (haddon : ∀ name, key ≠ "addon:" ++ name) (readings : List DatedReading) :
    datedNotices pyStr debounceMinutes .updateAvailable key readings = [] := by
  apply datedNotices_eq_nil rfl
  intro r f hf
  have hfinds : f.event = .updateAvailable → ∀ c ∈ f.conditions, c.key ≠ key := by
    intro hevent c hc hkey
    rcases List.mem_append.1 hf with hf | hf
    · rcases List.mem_append.1 hf with hf | hf
      · have hedge := r.edges f hf
        rw [hevent] at hedge
        cases hedge
      · rw [event_of_mem_certFindings hf] at hevent
        cases hevent
    · cases hupdates : r.updates with
      | none => simp [hupdates] at hf
      | some u =>
          rw [hupdates] at hf
          rcases List.mem_append.1 hf with hf | hf
          · exact hcore (hkey.symm.trans (key_of_mem_coreUpdate hf hc))
          · obtain ⟨name, hname⟩ := key_of_mem_addonUpdates hf hc
            exact haddon name (hkey.symm.trans hname)
  by_cases hevent : f.event = .updateAvailable
  · exact Finding.look_finds_of_keys (hfinds hevent)
  · rw [Finding.look_of_event_ne hevent]
    rfl

/-- No dated event is announced twice exactly when, between two looks that show a certificate with
one expiry, or one version of the core or of an add-on, every look that covers it shows the same. -/
theorem datedNotices_nodup_iff (pyStr : Val → String) (debounceMinutes : Int)
    (readings : List DatedReading) :
    (∀ event key, event.isEdge = false →
        (datedNotices pyStr debounceMinutes event key readings).Nodup) ↔
      (∀ key marker, Steady marker (readings.flatMap (DatedReading.certificateLooks key))) ∧
        (∀ marker, Steady marker (readings.map DatedReading.coreLook)) ∧
        ∀ name marker, Steady marker (readings.map (DatedReading.addonLook pyStr name)) := by
  have hcert : ∀ key, (datedNotices pyStr debounceMinutes .certExpiring key readings).Nodup ↔
      ∀ marker, Steady marker (readings.flatMap (DatedReading.certificateLooks key)) :=
    fun key => datedNotices_nodup_of_looks rfl fun r => readLooks_pass_certificate pyStr r key
  have hcore : (datedNotices pyStr debounceMinutes .updateAvailable "core" readings).Nodup ↔
      ∀ marker, Steady marker (readings.map DatedReading.coreLook) := by
    rw [List.map_eq_flatMap]
    exact datedNotices_nodup_of_looks rfl fun r => readLooks_update_core pyStr r
  have haddon : ∀ name,
      (datedNotices pyStr debounceMinutes .updateAvailable ("addon:" ++ name) readings).Nodup ↔
        ∀ marker, Steady marker (readings.map (DatedReading.addonLook pyStr name)) := by
    intro name
    rw [List.map_eq_flatMap]
    exact datedNotices_nodup_of_looks rfl fun r => readLooks_update_addon pyStr r name
  constructor
  · intro h
    refine ⟨?_, ?_, ?_⟩
    · exact fun key => (hcert key).1 (h .certExpiring key rfl)
    · exact hcore.1 (h .updateAvailable "core" rfl)
    · exact fun name => (haddon name).1 (h .updateAvailable ("addon:" ++ name) rfl)
  · rintro ⟨hcerts, hrelease, haddons⟩ event key hevent
    cases event with
    | backupOverdue => cases hevent
    | serviceUnhealthy => cases hevent
    | jobFailed =>
        rw [datedNotices_jobFailed]
        exact List.nodup_nil
    | certExpiring => exact (hcert key).2 (hcerts key)
    | updateAvailable =>
        by_cases hkeyCore : key = "core"
        · rw [hkeyCore]
          exact hcore.2 hrelease
        · by_cases hkeyAddon : ∃ name, key = "addon:" ++ name
          · obtain ⟨name, rfl⟩ := hkeyAddon
            exact (haddon name).2 (haddons name)
          · rw [datedNotices_update_other pyStr hkeyCore fun name heq => hkeyAddon ⟨name, heq⟩]
            exact List.nodup_nil

/-- A pass of a single host that reads one certificate, or cannot read it. -/
def certificateReading (hours : Int) (daysLeft : Option Int) : DatedReading where
  now := hours * 60 * Backup.minute
  readings := [("", {
    available := true
    certs := [{
      key := "certs/proxy.crt"
      label := "proxy.crt"
      daysLeft := daysLeft
      notAfter := if daysLeft.isSome then "2026-10-01" else "" }] })]
  leadDays := 14
  updates := none
  others := []

/-- A certificate that one pass cannot read is announced again by the next one. -/
theorem unread_certificate_announced_again :
    ¬∀ (pyStr : Val → String) (debounceMinutes : Int) (readings : List DatedReading) (event : Event)
      (key : String), event.isEdge = false →
      (datedNotices pyStr debounceMinutes event key readings).Nodup := by
  intro h
  have hnodup := h (fun _ => "") 30
    [certificateReading 0 (some 10), certificateReading 1 none, certificateReading 2 (some 10)]
    .certExpiring "certs/proxy.crt" rfl
  exact absurd hnodup (by decide)

end Papaia.Notifications
