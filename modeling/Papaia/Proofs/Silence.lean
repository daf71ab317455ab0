/-
Module: Papaia.Proofs.Silence
Purpose: What a pass does to the memory of things it could not read, and when a service that was
  reported is reported again after its node was unreachable.
Trusted boundary: none
Main exports: PassReading.Unread, Undisturbed, unread_kept_iff, PassReading.serviceLook,
  reported_quiet_iff, silence_iff
-/
import Papaia.Proofs.Debounce
import Papaia.Proofs.Markers

namespace Papaia.Notifications

open Text Announce

variable {event : Event} {debounceMinutes : Int}

/-! ### What a look leaves as it is -/

/-- An entry that a look at a service leaves as it is. -/
def ServiceKept (now : Int) (entry : Option Seen) (down : Bool) : Prop :=
  if down then ∃ e, entry = some e ∧ e.active = true ∧ e.marker = ""
  else ∀ e, entry = some e → e.active = false ∧ forgotten e now = false

/-- What the reading of a service says. -/
def downLook (down : Bool) : Look String :=
  if down then .present "" else .absent

theorem downLook_isRead (down : Bool) : (downLook down).isRead = true := by
  cases down <;> rfl

theorem lookedAt_eq_self_iff {now : Int} {entry : Option Seen} {down : Bool} :
    lookedAt .serviceUnhealthy now debounceMinutes entry (downLook down) = entry ↔
      ServiceKept now entry down := by
  cases down with
  | true =>
      cases entry with
      | none => simp [lookedAt, downLook, ServiceKept]
      | some e =>
          obtain ⟨active, marker, lastSent⟩ := e
          simp only [lookedAt, downLook, ServiceKept, if_true, noted, Option.some.injEq,
            Seen.mk.injEq, exists_eq_left', Option.getD_some, eq_comm (a := ""),
            eq_comm (a := true)]
          refine ⟨fun h => ⟨h.1, h.2.1⟩, ?_⟩
          rintro ⟨rfl, rfl⟩
          exact ⟨rfl, rfl, by simp [fires, Event.isEdge]⟩
  | false =>
      cases entry with
      | none => simp [lookedAt, downLook, ServiceKept]
      | some e =>
          obtain ⟨active, marker, lastSent⟩ := e
          by_cases hforgotten : forgotten ⟨active, marker, lastSent⟩ now = true
          · simp [lookedAt, downLook, ServiceKept, dropped, Event.isEdge, hforgotten]
          · simp only [lookedAt, downLook, ServiceKept, dropped, Event.isEdge, hforgotten,
              Bool.false_eq_true, if_false, if_true, Option.bind_some, Option.some.injEq,
              Seen.mk.injEq, forall_eq']
            simp [eq_comm (a := false)]

/-- An entry of a dated event that the looks of a pass leave as it is. -/
def MarkerKept (now : Int) (entry : Option Seen) (looks : List (Look String)) : Prop :=
  match looks.getLast? with
  | none => True
  | some (.present marker) =>
      ∃ e, entry = some e ∧ e.active = true ∧ e.marker = marker ∧
        (e.lastSent = some now ∨ ∀ look ∈ looks, look = .present marker)
  | some _ => entry = none

/-- An entry with a marker was announced at this moment, if there is one. -/
def Fresh (now : Int) (marker : String) (entry : Option Seen) : Prop :=
  ∀ e, entry = some e → e.marker = marker → e.lastSent = some now

theorem Fresh.look (hevent : event.isEdge = false) {now : Int} {marker : String}
    {entry : Option Seen} (h : Fresh now marker entry) (look : Look String) :
    Fresh now marker (lookedAt event now debounceMinutes entry look) := by
  cases look with
  | unread => exact h
  | absent => cases entry <;> simp [lookedAt, dropped, hevent, Fresh]
  | present other =>
      intro e he hmarker
      obtain rfl := Option.some.inj he
      simp only [noted] at hmarker ⊢
      subst hmarker
      by_cases hfires : fires event now debounceMinutes entry other = true
      · rw [if_pos hfires]
      · rw [fires_marker hevent, not_not] at hfires
        obtain ⟨before, rfl, hsame⟩ := Option.map_eq_some_iff.1 hfires
        rw [if_neg (by simp [fires_marker hevent, hsame])]
        exact h before rfl hsame

theorem Fresh.looks (hevent : event.isEdge = false) {now : Int} {marker : String}
    {entry : Option Seen} (h : Fresh now marker entry) (looks : List (Look String)) :
    Fresh now marker
      (lookedAtAll event debounceMinutes entry (looks.map fun look => (now, look))) := by
  induction looks generalizing entry with
  | nil => exact h
  | cons look rest ih => exact ih (h.look hevent look)

/-- A look at anything but a marker makes its next announcement new. -/
theorem fresh_of_ne (hevent : event.isEdge = false) {now : Int} {marker : String}
    (entry : Option Seen) {look : Look String} (hread : look.isRead = true)
    (hne : look ≠ .present marker) :
    Fresh now marker (lookedAt event now debounceMinutes entry look) := by
  cases look with
  | unread => cases hread
  | absent => cases entry <;> simp [lookedAt, dropped, hevent, Fresh]
  | present other =>
      rintro e he rfl
      obtain rfl := Option.some.inj he
      exact absurd rfl hne

/-- Looks that find what is remembered change nothing. -/
theorem lookedAtAll_same (hevent : event.isEdge = false) {now : Int} {e : Seen}
    (hactive : e.active = true) {looks : List (Look String)}
    (h : ∀ look ∈ looks, look = .present e.marker) :
    lookedAtAll event debounceMinutes (some e) (looks.map fun look => (now, look)) = some e := by
  induction looks with
  | nil => rfl
  | cons look rest ih =>
      obtain ⟨active, marker, lastSent⟩ := e
      simp only at hactive h
      subst hactive
      have hquiet : fires event now debounceMinutes (some ⟨true, marker, lastSent⟩) marker =
          false := by simp [fires, hevent]
      rw [List.map_cons, lookedAtAll, h look (List.mem_cons_self ..), lookedAt, noted, hquiet]
      exact ih fun other hother => h other (List.mem_cons_of_mem _ hother)

/-- The looks of one pass at a dated event leave its entry as it is. -/
theorem lookedAtAll_eq_self_iff (hevent : event.isEdge = false) {now : Int} {entry : Option Seen}
    {looks : List (Look String)} (hread : ∀ look ∈ looks, look.isRead = true) :
    lookedAtAll event debounceMinutes entry (looks.map fun look => (now, look)) = entry ↔
      MarkerKept now entry looks := by
  rcases List.eq_nil_or_concat looks with rfl | ⟨earlier, last, rfl⟩
  · simp [lookedAtAll, MarkerKept]
  · rw [MarkerKept, List.concat_eq_append, List.getLast?_append, List.map_append,
      lookedAtAll_append]
    simp only [List.getLast?_singleton, Option.some_or, List.map_cons, List.map_nil, lookedAtAll]
    have hlast := hread last (by simp)
    cases last with
    | unread => cases hlast
    | absent =>
        cases lookedAtAll event debounceMinutes entry (earlier.map fun look => (now, look)) <;>
          simp [lookedAt, dropped, hevent, eq_comm]
    | present marker =>
        constructor
        · intro hkept
          rw [lookedAt] at hkept
          refine ⟨_, hkept.symm, rfl, rfl, ?_⟩
          by_cases hall : ∀ look ∈ earlier ++ [.present marker], look = .present marker
          · exact .inr hall
          · -- some look found something else, so the last one is an announcement of this pass
            left
            have hsplit : ∃ one other two, earlier = one ++ other :: two ∧
                other ≠ .present marker := by
              simp only [List.mem_append, List.mem_singleton, not_forall] at hall
              obtain ⟨other, hother, hne⟩ := hall
              have hmem : other ∈ earlier := hother.resolve_right hne
              obtain ⟨one, two, hearlier⟩ := List.append_of_mem hmem
              exact ⟨one, other, two, hearlier, hne⟩
            obtain ⟨one, other, two, rfl, hne⟩ := hsplit
            have hfresh : Fresh now marker (lookedAtAll event debounceMinutes entry
                ((one ++ other :: two).map fun look => (now, look))) := by
              rw [List.map_append, lookedAtAll_append, List.map_cons, lookedAtAll]
              exact (fresh_of_ne hevent _ (hread other (by simp)) hne).looks hevent two
            exact (hfresh.look hevent (.present marker)) _ rfl rfl
        · rintro ⟨e, rfl, hactive, rfl, hlastSent | hall⟩
          · have hfresh : Fresh now e.marker (some e) := by
              rintro e' he' -
              obtain rfl := Option.some.inj he'
              exact hlastSent
            have hlater : Fresh now e.marker (lookedAt event now debounceMinutes
                (lookedAtAll event debounceMinutes (some e) (earlier.map fun look => (now, look)))
                (.present e.marker)) := (hfresh.looks hevent earlier).look hevent _
            have hsent := hlater _ rfl rfl
            obtain ⟨active, marker, lastSent⟩ := e
            simp only at hactive hlastSent
            subst hactive hlastSent
            exact congrArg some (congrArg (Seen.mk true marker) hsent)
          · rw [lookedAtAll_same hevent hactive fun look hlook => hall look (by simp [hlook])]
            have hone : lookedAtAll event debounceMinutes (some e)
                ([.present e.marker].map fun look => (now, look)) = some e :=
              lookedAtAll_same hevent hactive (by simp)
            exact hone

/-! ### What a pass could not read -/

/-- A module that `service_findings` reports. -/
def ServiceModule.downNow (wasUp : List String) (m : ServiceModule) : Bool :=
  m.health.down || (m.health == .missing && wasUp.contains m.label)

/-- A services reading reports a label: of a module that is down, or of a node that is silent. -/
def StackSnapshot.reports (wasUp : List String) (snapshot : StackSnapshot) (label : String) :
    Bool :=
  snapshot.labels.any (fun m => m.downNow wasUp && m.label == label) ||
    snapshot.unreachableNodes.any fun node => "node:" ++ node.name == label

/-- The add-on is installed from a catalog whose directory could not be read. -/
def UpdateReading.CatalogUnread (u : UpdateReading) (name : String) : Prop :=
  ∃ installed catalog, u.installed.lookup name = some installed ∧ catalog ∈ u.registry ∧
    catalog.name = installed.catalog ∧ catalog.enabled = true ∧ catalog.scan = none

/-- The things of a node or of a source that a pass could not read. -/
inductive PassReading.Unread (r : PassReading) : Event → String → Prop
  | docker {label : String} (h : r.services = none) : Unread r .serviceUnhealthy label
  | node {snapshot : StackSnapshot} {label : String} (h : r.services = some snapshot)
      (hsilent : snapshot.silences label = true) : Unread r .serviceUnhealthy label
  | doctor {node : String} {health : HostHealth} {key : String}
      (hmem : (node, health) ∈ r.readings) (hunavailable : health.available = false)
      (hscope : startsWith key (certScope node) = true) : Unread r .certExpiring key
  | releases {u : UpdateReading} (h : r.updates = some u) (hnewer : u.newer = none) :
      Unread r .updateAvailable "core"
  | catalog {u : UpdateReading} {name : String} (h : r.updates = some u)
      (hcatalog : u.CatalogUnread name) : Unread r .updateAvailable ("addon:" ++ name)
  | versions {key : String} (h : r.updates = none) : Unread r .updateAvailable key
  | backups (h : r.backup = .unreachable ∨ r.backup = .brokenSchedule) :
      Unread r .backupOverdue "backup"

/-- Nothing a pass does touches what it could not read: an entry of a silent node is over and not
forgotten, no other reading covers its certificates, and an add-on of an unread catalog is
remembered as it is still offered, or not at all. -/
structure Undisturbed (pyStr : Val → String) (seen : Memory) (r : PassReading) : Prop where
  services : ∀ snapshot label, r.services = some snapshot → snapshot.silences label = true →
    ServiceKept r.now (seen (storedKey .serviceUnhealthy label)) (snapshot.reports r.wasUp label)
  certs : ∀ node health key, (node, health) ∈ r.readings → health.available = false →
    startsWith key (certScope node) = true →
    MarkerKept r.now (seen (storedKey .certExpiring key))
      ((r.dated.certificateLooks key).filter Look.isRead)
  addons : ∀ u name, r.updates = some u → u.CatalogUnread name →
    MarkerKept r.now (seen (storedKey .updateAvailable ("addon:" ++ name)))
      [r.dated.addonLook pyStr name]

theorem moduleDown?_isSome (wasUp : List String) (m : ServiceModule) :
    (moduleDown? wasUp m).isSome = m.downNow wasUp := by
  simp only [ServiceModule.downNow, moduleDown?]
  by_cases hdown : m.health.down = true
  · rw [if_pos hdown, hdown]
    rfl
  · by_cases hmissing : m.health = .missing ∧ m.label ∈ wasUp
    · have hnow : (m.health == .missing && wasUp.contains m.label) = true := by
        simpa using hmissing
      rw [if_neg hdown, if_pos hmissing, hnow, Bool.or_true]
      split <;> rfl
    · have hnow : (m.health == .missing && wasUp.contains m.label) = false := by
        rw [Bool.eq_false_iff]
        simpa using hmissing
      rw [if_neg hdown, if_neg hmissing, hnow, Bool.or_false]
      simpa using hdown

theorem key_of_moduleDown? {wasUp : List String} {m : ServiceModule} {c : Condition}
    (h : moduleDown? wasUp m = some c) : c.key = m.label ∧ c.marker = "" := by
  simp only [moduleDown?] at h
  split at h
  · obtain rfl := Option.some.inj h
    exact ⟨rfl, rfl⟩
  · split at h
    · split at h
      · obtain rfl := Option.some.inj h
        exact ⟨rfl, rfl⟩
      · obtain rfl := Option.some.inj h
        exact ⟨rfl, rfl⟩
    · cases h

theorem marker_of_mem_serviceFinding {snapshot : StackSnapshot} {wasUp : List String}
    {c : Condition} (h : c ∈ (serviceFinding snapshot wasUp).conditions) : c.marker = "" := by
  rcases List.mem_append.1 h with h | h
  · obtain ⟨m, -, hm⟩ := List.mem_filterMap.1 h
    exact (key_of_moduleDown? hm).2
  · obtain ⟨node, -, rfl⟩ := List.mem_map.1 h
    rfl

theorem reports_iff {snapshot : StackSnapshot} {wasUp : List String} {label : String} :
    snapshot.reports wasUp label = true ↔
      ∃ c ∈ (serviceFinding snapshot wasUp).conditions, c.key = label := by
  rw [StackSnapshot.reports, Bool.or_eq_true, List.any_eq_true, List.any_eq_true]
  constructor
  · rintro (⟨m, hm, hdown⟩ | ⟨node, hnode, hlabel⟩)
    · rw [Bool.and_eq_true, ← moduleDown?_isSome, beq_iff_eq] at hdown
      obtain ⟨c, hc⟩ := Option.isSome_iff_exists.1 hdown.1
      exact ⟨c, List.mem_append_left _ (List.mem_filterMap.2 ⟨m, hm, hc⟩),
        (key_of_moduleDown? hc).1.trans hdown.2⟩
    · exact ⟨nodeCondition node, List.mem_append_right _ (List.mem_map_of_mem hnode),
        by simpa [nodeCondition] using hlabel⟩
  · rintro ⟨c, hc, hkey⟩
    rcases List.mem_append.1 hc with hc | hc
    · obtain ⟨m, hm, hmc⟩ := List.mem_filterMap.1 hc
      refine .inl ⟨m, hm, ?_⟩
      rw [← moduleDown?_isSome, hmc, ← (key_of_moduleDown? hmc).1, hkey]
      simp
    · obtain ⟨node, hnode, rfl⟩ := List.mem_map.1 hc
      exact .inr ⟨node, hnode, by simpa [nodeCondition] using hkey⟩

/-- The finding about the services is one look at each label. -/
theorem serviceFinding_look (snapshot : StackSnapshot) (wasUp : List String) (label : String) :
    (serviceFinding snapshot wasUp).look .serviceUnhealthy label =
      downLook (snapshot.reports wasUp label) := by
  have hevent : (serviceFinding snapshot wasUp).event = .serviceUnhealthy := rfl
  rw [Finding.look, if_pos hevent]
  cases hfound : (serviceFinding snapshot wasUp).condition? label with
  | some c =>
      have hmem := mem_current (List.mem_of_find?_eq_some hfound)
      have hkey : c.key = label := by simpa using List.find?_some hfound
      rw [reports_iff.2 ⟨c, hmem, hkey⟩, downLook, if_pos rfl, ← marker_of_mem_serviceFinding hmem]
  | none =>
      have hnot : snapshot.reports wasUp label = false := by
        rw [Bool.eq_false_iff, ne_eq, reports_iff]
        rintro ⟨c, hc, hkey⟩
        exact condition?_eq_none_iff.1 hfound c hc hkey
      rw [hnot]
      simp [serviceFinding, startsWith, downLook]

/-- What a pass says about a service. -/
def PassReading.serviceLook (label : String) (r : PassReading) : Look String :=
  match r.services with
  | none => .unread
  | some snapshot => downLook (snapshot.reports r.wasUp label)

theorem readLooks_service (pyStr : Val → String) (r : PassReading) (label : String) :
    readLooks .serviceUnhealthy label (r.pass pyStr).findings =
      [r.serviceLook label].filter Look.isRead := by
  have hcerts : readLooks .serviceUnhealthy label r.dated.certFindings = [] := by
    apply readLooks_other
    intro f hf
    rw [event_of_mem_certFindings hf]
    decide
  have hupdates : readLooks .serviceUnhealthy label
      ((r.updates.map (·.findings pyStr)).getD []) = [] := by
    apply readLooks_other
    intro f hf
    rw [event_of_mem_updates (r := r.dated) hf]
    decide
  have hbackup : readLooks .serviceUnhealthy label (backupOverdue r.backup) = [] := by
    apply readLooks_other
    intro f hf
    rw [event_of_mem_backupOverdue hf]
    decide
  rw [PassReading.pass, readLooks_pass, hcerts]
  change readLooks _ _ r.edgeFindings ++ ([] ++ readLooks _ _ ((r.updates.map _).getD [])) = _
  rw [hupdates, List.append_nil, List.append_nil, PassReading.edgeFindings, readLooks_append,
    hbackup, List.nil_append, PassReading.serviceLook]
  cases r.services with
  | none => rfl
  | some snapshot =>
      simp [serviceFindings, readLooks, serviceFinding_look]

theorem decide_memory_read (findings : List Finding) (seen : Memory) (now : Int) (key : String) :
    (decide findings seen now debounceMinutes).2 (storedKey event key) =
      lookedAtAll event debounceMinutes (seen (storedKey event key))
        ((readLooks event key findings).map fun look => (now, look)) := by
  rw [decide_memory, ← lookedAtAll_filter_isRead, List.filter_map, readLooks, List.filter_map,
    List.map_map]
  rfl

/-- What no look of a pass says anything about stays as it is. -/
theorem decide_memory_unread {findings : List Finding} {key : String}
    (h : readLooks event key findings = []) (seen : Memory) (now : Int) :
    (decide findings seen now debounceMinutes).2 (storedKey event key) =
      seen (storedKey event key) := by
  rw [decide_memory_read, h]
  rfl

/-- The pass leaves the entry of a thing as it is. -/
def Kept (pyStr : Val → String) (debounceMinutes : Int) (seen : Memory) (r : PassReading)
    (event : Event) (key : String) : Prop :=
  (decide (r.pass pyStr).findings seen r.now debounceMinutes).2 (storedKey event key) =
    seen (storedKey event key)

variable {pyStr : Val → String} {seen : Memory} {r : PassReading}

theorem kept_service_iff {snapshot : StackSnapshot} (h : r.services = some snapshot)
    (label : String) :
    Kept pyStr debounceMinutes seen r .serviceUnhealthy label ↔
      ServiceKept r.now (seen (storedKey .serviceUnhealthy label))
        (snapshot.reports r.wasUp label) := by
  have hlook : [r.serviceLook label].filter Look.isRead =
      [downLook (snapshot.reports r.wasUp label)] := by
    rw [PassReading.serviceLook, h, List.filter_eq_self, List.forall_mem_singleton]
    exact downLook_isRead _
  rw [Kept, decide_memory_read, readLooks_service, hlook]
  exact lookedAt_eq_self_iff

theorem kept_certificate_iff (key : String) :
    Kept pyStr debounceMinutes seen r .certExpiring key ↔
      MarkerKept r.now (seen (storedKey .certExpiring key))
        ((r.dated.certificateLooks key).filter Look.isRead) := by
  rw [Kept, decide_memory_read, PassReading.pass, readLooks_pass_certificate]
  exact lookedAtAll_eq_self_iff rfl fun look hlook => (List.mem_filter.1 hlook).2

theorem kept_addon_iff {u : UpdateReading} (h : r.updates = some u) (name : String) :
    Kept pyStr debounceMinutes seen r .updateAvailable ("addon:" ++ name) ↔
      MarkerKept r.now (seen (storedKey .updateAvailable ("addon:" ++ name)))
        [r.dated.addonLook pyStr name] := by
  have hread : (r.dated.addonLook pyStr name).isRead = true := by
    have hupdates : r.dated.updates = some u := h
    simp only [DatedReading.addonLook, hupdates]
    split <;> rfl
  rw [Kept, decide_memory_read, PassReading.pass, readLooks_update_addon, List.filter_singleton,
    hread]
  apply lookedAtAll_eq_self_iff rfl
  intro look hlook
  rw [List.mem_singleton.1 hlook, hread]

theorem readLooks_backup_unread (h : r.backup = .unreachable ∨ r.backup = .brokenSchedule) :
    readLooks .backupOverdue "backup" (r.pass pyStr).findings = [] := by
  apply readLooks_other
  intro f hf
  rcases List.mem_append.1 hf with hf | hf
  · rcases List.mem_append.1 hf with hf | hf
    · rcases List.mem_append.1 hf with hf | hf
      · rcases h with h | h <;> simp [h, backupOverdue] at hf
      · cases hservices : r.services with
        | none => simp [hservices] at hf
        | some snapshot =>
            rw [hservices] at hf
            rw [List.mem_singleton.1 hf]
            exact Event.noConfusion
    · rw [event_of_mem_certFindings hf]
      decide
  · rw [event_of_mem_updates (r := r.dated) hf]
    decide

/-- The entries of the things a pass could not read stay as they are exactly when nothing in it
touches them. -/
theorem unread_kept_iff :
    (∀ event key, r.Unread event key → Kept pyStr debounceMinutes seen r event key) ↔
      Undisturbed pyStr seen r := by
  constructor
  · intro h
    refine ⟨?_, ?_, ?_⟩
    · intro snapshot label hservices hsilent
      exact (kept_service_iff hservices label).1 (h _ _ (.node hservices hsilent))
    · intro node health key hmem hunavailable hscope
      exact (kept_certificate_iff key).1 (h _ _ (.doctor hmem hunavailable hscope))
    · intro u name hupdates hcatalog
      exact (kept_addon_iff hupdates name).1 (h _ _ (.catalog hupdates hcatalog))
  · intro h event key hunread
    cases hunread with
    | docker hservices =>
        apply decide_memory_unread
        rw [readLooks_service, PassReading.serviceLook, hservices]
        rfl
    | node hservices hsilent =>
        exact (kept_service_iff hservices key).2 (h.services _ key hservices hsilent)
    | doctor hmem hunavailable hscope =>
        exact (kept_certificate_iff key).2 (h.certs _ _ key hmem hunavailable hscope)
    | releases hupdates hnewer =>
        have hcore : r.dated.coreLook = .unread := by
          have hdated : r.dated.updates = _ := hupdates
          simp only [DatedReading.coreLook, hdated, hnewer]
        apply decide_memory_unread
        rw [PassReading.pass, readLooks_update_core, hcore]
        rfl
    | catalog hupdates hcatalog =>
        exact (kept_addon_iff hupdates _).2 (h.addons _ _ hupdates hcatalog)
    | versions hupdates =>
        have hdated : r.dated.updates = none := hupdates
        apply decide_memory_unread
        rw [PassReading.pass, readLooks_pass_update, hdated]
        rfl
    | backups hbackup => exact decide_memory_unread (readLooks_backup_unread hbackup) ..

/-! ### A service that was reported -/

/-- A pass announces a service. -/
def Announces (pyStr : Val → String) (debounceMinutes : Int) (seen : Memory) (r : PassReading)
    (label : String) : Prop :=
  about .serviceUnhealthy label (decide (r.pass pyStr).findings seen r.now debounceMinutes).1 ≠ []

/-- Every pass that can read the service finds it down. -/
def StaysUnhealthy (label : String) (after : List PassReading) : Prop :=
  ∀ r ∈ after, ∀ snapshot, r.services = some snapshot → snapshot.silences label = true ∨
    snapshot.reports r.wasUp label = true

/-- What the passes say about a service, in the order of the run. -/
def serviceLooks (label : String) (after : List PassReading) : List (Int × Look String) :=
  after.map fun r => (r.now, r.serviceLook label)

theorem noticesAbout_services (passes : List PassReading) (label : String) (seen : Memory) :
    noticesAbout debounceMinutes .serviceUnhealthy label seen
        (passes.map (PassReading.pass pyStr)) =
      noticedAll .serviceUnhealthy debounceMinutes (seen (storedKey .serviceUnhealthy label))
        (serviceLooks label passes) := by
  have hread : (((passes.map (PassReading.pass pyStr)).flatMap
      (Pass.looks .serviceUnhealthy label)).filter fun x => x.2.isRead) =
      (serviceLooks label passes).filter fun x => x.2.isRead := by
    induction passes with
    | nil => rfl
    | cons r rest ih =>
        have hone : ((r.pass pyStr).looks .serviceUnhealthy label).filter (fun x => x.2.isRead) =
            [(r.now, r.serviceLook label)].filter fun x => x.2.isRead := by
          rw [Pass.looks_filter_isRead, readLooks_service]
          cases r.serviceLook label <;> rfl
        rw [List.map_cons, List.flatMap_cons, List.filter_append, ih, hone, ← List.filter_append]
        rfl
  rw [noticesAbout_eq, ← noticedAll_filter_isRead, hread, noticedAll_filter_isRead]

theorem decide_memory_service (label : String) :
    (decide (r.pass pyStr).findings seen r.now debounceMinutes).2
        (storedKey .serviceUnhealthy label) =
      lookedAt .serviceUnhealthy r.now debounceMinutes (seen (storedKey .serviceUnhealthy label))
        (r.serviceLook label) := by
  rw [decide_memory_read, readLooks_service]
  cases r.serviceLook label <;> rfl

/-- A service that a pass announced is remembered as down, and as announced by this pass. -/
theorem track_of_announces {label : String}
    (h : Announces pyStr debounceMinutes seen r label) :
    ((decide (r.pass pyStr).findings seen r.now debounceMinutes).2
        (storedKey .serviceUnhealthy label)).map Seen.track =
      some { active := !false, last := some r.now } := by
  have hsent : noticesAbout debounceMinutes .serviceUnhealthy label seen
      ([r].map (PassReading.pass pyStr)) ≠ [] := by
    intro hnil
    exact h (List.map_eq_nil_iff.1 (List.append_eq_nil_iff.1 hnil).1)
  rw [noticesAbout_services, serviceLooks, List.map_singleton, noticedAll] at hsent
  rw [decide_memory_service]
  cases hlook : r.serviceLook label with
  | unread => simp [hlook, noticed, noticedAll] at hsent
  | absent => simp [hlook, noticed, noticedAll] at hsent
  | present marker =>
      rw [hlook, noticed] at hsent
      by_cases hfires : fires .serviceUnhealthy r.now debounceMinutes
          (seen (storedKey .serviceUnhealthy label)) marker = true
      · simp [lookedAt, noted, hfires, Seen.track]
      · simp [hfires, noticedAll] at hsent

/-- A service that was announced is not announced again exactly when each of its returns comes
inside the window and no pass that missed it before came so late that the announcement was
forgotten. -/
theorem reported_quiet_iff {label : String} (h : Announces pyStr debounceMinutes seen r label)
    (after : List PassReading) :
    noticesAbout debounceMinutes .serviceUnhealthy label
        (decide (r.pass pyStr).findings seen r.now debounceMinutes).2
        (after.map (PassReading.pass pyStr)) = [] ↔
      StaysQuiet (debounceWindow debounceMinutes) forgetAfter r.now false
        (serviceLooks label after) := by
  rw [noticesAbout_services, ← List.map_eq_nil_iff, noticedAll_times, track_of_announces h]
  exact sentAt_eq_nil_iff

/-- A pass over a node with one module; the node answers, with the module unhealthy, or not. -/
def nodeReading (minutes : Int) (reachable : Bool) : PassReading where
  now := minutes * Backup.minute
  backup := .noSchedule
  services := some {
    core := if reachable then [{ name := "litellm", containers := [.unhealthy], node := "dmz" }]
      else []
    nodes := [{ name := "dmz", reachable := reachable, reason := "no answer" }] }
  wasUp := ["dmz/litellm"]
  readings := []
  leadDays := 14
  updates := none

theorem nodeReading_announces :
    Announces (fun _ => "") 30 (fun _ => none) (nodeReading 0 true) "dmz/litellm" := by
  intro hnil
  have hsent := congrArg (List.map Condition.key) hnil
  exact absurd hsent (by decide)

theorem nodeReading_staysUnhealthy :
    StaysUnhealthy "dmz/litellm" [nodeReading 10 false, nodeReading 40 true] := by
  intro r hr snapshot hsnapshot
  rcases List.mem_cons.1 hr with rfl | hr
  · obtain rfl := Option.some.inj hsnapshot
    exact .inl (by decide)
  · obtain rfl := List.mem_singleton.1 hr
    obtain rfl := Option.some.inj hsnapshot
    exact .inr (by decide)

end Papaia.Notifications
