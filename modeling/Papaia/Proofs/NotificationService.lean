/-
Module: Papaia.Proofs.NotificationService
Purpose: What the background task of the notifications promises whenever the process stops: nothing
  is sent twice, and what a pass could remember is not reported again before it has ended.
Trusted boundary: none
Main exports: Orderly, orderly_step, Delivered, deliveries_are_single, Consistent, Held, Bound,
  Apart, notices_keep_apart
-/
import Papaia.Lib.Runs
import Papaia.Notifications.Service
import Papaia.Proofs.Debounce
import Papaia.Proofs.NotificationConfig

namespace Papaia.Notifications.Service

open Runs Announce

variable {lib : Library}

/-! ### Numbered notices -/

/-- The pass and the place in it. -/
def Notice.number (notice : Notice) : Nat × Nat :=
  (notice.pass, notice.index)

theorem noticesFrom_append (first : Nat) (passes more : List PassRecord) :
    noticesFrom first (passes ++ more) =
      noticesFrom first passes ++ noticesFrom (first + passes.length) more := by
  induction passes generalizing first with
  | nil => simp [noticesFrom]
  | cons record rest ih =>
      have hnext : first + 1 + rest.length = first + (record :: rest).length := by
        simp only [List.length_cons]
        omega
      rw [List.cons_append, noticesFrom, noticesFrom, ih, hnext, List.append_assoc]

theorem mem_numbered {pass : Nat} {new : List Condition} {notice : Notice} :
    notice ∈ numbered pass new ↔ notice.pass = pass ∧ new[notice.index]? = some notice.condition := by
  rw [numbered, List.mem_mapIdx]
  constructor
  · rintro ⟨index, hindex, rfl⟩
    exact ⟨rfl, List.getElem?_eq_getElem hindex⟩
  · rintro ⟨rfl, hcondition⟩
    obtain ⟨hindex, heq⟩ := List.getElem?_eq_some_iff.1 hcondition
    exact ⟨notice.index, hindex, by rw [heq]⟩

theorem numbers_numbered (pass : Nat) (new : List Condition) :
    ((numbered pass new).map Notice.number).Nodup := by
  have hrange : (numbered pass new).map Notice.number =
      (List.range new.length).map fun index => (pass, index) := by
    apply List.ext_getElem
    · simp [numbered]
    · intro n hone hother
      simp [numbered, Notice.number]
  rw [hrange]
  apply List.nodup_range.map
  intro one other h
  exact (Prod.mk.inj h).2

theorem pass_of_mem_noticesFrom {first : Nat} {passes : List PassRecord} {notice : Notice}
    (h : notice ∈ noticesFrom first passes) :
    first ≤ notice.pass ∧ ∃ record, passes[notice.pass - first]? = some record ∧
      record.new[notice.index]? = some notice.condition := by
  induction passes generalizing first with
  | nil => cases h
  | cons record rest ih =>
      rw [noticesFrom, List.mem_append] at h
      rcases h with h | h
      · obtain ⟨rfl, hcondition⟩ := mem_numbered.1 h
        exact ⟨Nat.le_refl _, record, by simp, hcondition⟩
      · obtain ⟨hpass, found, hfound, hcondition⟩ := ih h
        refine ⟨by omega, found, ?_, hcondition⟩
        have hsub : notice.pass - first = notice.pass - (first + 1) + 1 := by omega
        rwa [hsub, List.getElem?_cons_succ]

theorem numbers_noticesFrom (first : Nat) (passes : List PassRecord) :
    ((noticesFrom first passes).map Notice.number).Nodup := by
  induction passes generalizing first with
  | nil => exact List.nodup_nil
  | cons record rest ih =>
      rw [noticesFrom, List.map_append, List.nodup_append]
      refine ⟨numbers_numbered first record.new, ih (first + 1), ?_⟩
      intro one hone other hother heq
      obtain ⟨notice, hnotice, rfl⟩ := List.mem_map.1 hone
      obtain ⟨later, hlater, rfl⟩ := List.mem_map.1 hother
      have hfirst := (mem_numbered.1 hnotice).1
      have hsecond := (pass_of_mem_noticesFrom hlater).1
      have hpass : notice.pass = later.pass := congrArg Prod.fst heq
      omega

/-! ### Deliveries -/

/-- The recipients of a condition, each with it. -/
def addressees (entry : Notice × CheckedConfig lib) : List (Notice × Recipient) :=
  (entry.2.config.subscribedTo entry.1.condition.event).map fun r => (entry.1, r)

/-- Who is next. -/
def awaiting (sending : Option (Notice × List Recipient)) : List (Notice × Recipient) :=
  sending.elim [] fun left => left.2.map fun r => (left.1, r)

theorem awaiting_leftOf (notice : Notice) (recipients : List Recipient) :
    awaiting (leftOf notice recipients) = recipients.map fun r => (notice, r) := by
  cases recipients <;> rfl

/-- A report is sent to the recipients of the configuration it read, in turn. -/
def ReportTask.Keeps (task : ReportTask lib) : Prop :=
  match task.config with
  | none => task.sent = [] ∧ task.remaining = []
  | some config => task.sent ++ task.remaining = config.config.subscribedTo .jobFailed

/-- The last fetch of this process is the last check of the tags, and every other one lies before. -/
structure Spaced (s : State lib) : Prop where
  past : ∀ fetch ∈ s.fetches, fetch.process ≤ s.process
  latest : ∀ fetch ∈ s.fetches, fetch.process = s.process →
    ∃ last ∈ s.lastUpdateCheck, fetch.clock ≤ last
  apart : s.fetches.Pairwise fun one other =>
    one.process = other.process → updateInterval ≤ other.clock - one.clock

structure Orderly (s : State lib) : Prop where
  queued : (s.addressed.map Prod.fst ++ s.queue).Sublist s.decided
  sent : (s.delivered ++ awaiting s.sending).Sublist (s.addressed.flatMap addressees)
  tasks : ∀ task ∈ s.tasks, task.Keeps
  spaced : Spaced s

theorem due_other {event : Papaia.Notifications.Event} (h : event ≠ .updateAvailable) (clock : Int)
    (last : Option Int) : due event clock last = (true, last) :=
  if_pos h

/-- Release tags are looked for when the last check is long enough ago, and then that is the last
check. -/
theorem lookedFor_updates (config : NotificationsConfig) (clock : Int) (last : Option Int) :
    let looked := lookedFor config clock detectedEvents last
    if looked.1.contains .updateAvailable then
      looked.2 = some clock ∧ ∀ before ∈ last, updateInterval ≤ clock - before
    else looked.2 = last := by
  have hpair : ∀ events : List Papaia.Notifications.Event, .updateAvailable ∉ events →
      ∀ rest last, lookedFor config clock (events ++ rest) last =
        ((events.filter config.wants) ++ (lookedFor config clock rest last).1,
          (lookedFor config clock rest last).2) := by
    intro events hnot
    induction events with
    | nil => simp
    | cons event events ih =>
        intro rest last
        have hevent : event ≠ .updateAvailable := fun heq => hnot (heq ▸ List.mem_cons_self)
        have hrest : .updateAvailable ∉ events := fun hmem => hnot (List.mem_cons_of_mem _ hmem)
        by_cases hwants : config.wants event = true
        · simp [lookedFor, hwants, due_other hevent, ih hrest]
        · simp [lookedFor, hwants, ih hrest]
  have hdetected : detectedEvents =
      [.backupOverdue, .serviceUnhealthy, .certExpiring] ++ [.updateAvailable] := rfl
  have hnot : ∀ others : List Papaia.Notifications.Event,
      ((List.filter config.wants [.backupOverdue, .serviceUnhealthy, .certExpiring]) ++
        others).contains Papaia.Notifications.Event.updateAvailable =
          others.contains Papaia.Notifications.Event.updateAvailable := by
    intro others
    rw [Bool.eq_iff_iff, List.contains_iff_mem, List.contains_iff_mem, List.mem_append]
    simp
  have hthree : Papaia.Notifications.Event.updateAvailable ∉
      [Papaia.Notifications.Event.backupOverdue, .serviceUnhealthy, .certExpiring] := by decide
  rw [hdetected, hpair _ hthree]
  simp only [hnot]
  by_cases hwants : config.wants .updateAvailable = true
  · cases last with
    | none => simp [lookedFor, hwants, due]
    | some before =>
        by_cases hyoung : clock - before < updateInterval
        · simp [lookedFor, hwants, due, hyoung]
        · simp [lookedFor, hwants, due, hyoung, Int.not_lt.1 hyoung]
  · simp [lookedFor, hwants]

theorem Spaced.runOnce {s : State lib} (spaced : Spaced s) (config : NotificationsConfig)
    (now clock : Int) (answers : Papaia.Notifications.Event → Option (List Finding))
    (stored : Bool) : Spaced (runOnce s config now clock answers stored) := by
  have hlooked := lookedFor_updates config clock s.lastUpdateCheck
  simp only at hlooked
  by_cases hfetched : (lookedFor config clock detectedEvents s.lastUpdateCheck).1.contains
      .updateAvailable = true
  · rw [if_pos hfetched] at hlooked
    obtain ⟨hlast, hlate⟩ := hlooked
    have hearlier : ∀ fetch ∈ s.fetches, fetch.process = s.process →
        updateInterval ≤ clock - fetch.clock := by
      intro fetch hmem hprocess
      obtain ⟨last, hlastcheck, hle⟩ := spaced.latest fetch hmem hprocess
      have := hlate last hlastcheck
      omega
    constructor
    · intro fetch hmem
      simp only [Service.runOnce, hfetched, if_true, List.mem_append, List.mem_singleton] at hmem
      rcases hmem with hmem | rfl
      · exact spaced.past fetch hmem
      · exact Nat.le_refl _
    · intro fetch hmem hprocess
      simp only [Service.runOnce, hfetched, if_true, List.mem_append, List.mem_singleton] at hmem
      refine ⟨clock, hlast, ?_⟩
      rcases hmem with hmem | rfl
      · have := hearlier fetch hmem hprocess
        simp only [updateInterval] at this
        omega
      · exact Int.le_refl _
    · simp only [Service.runOnce, hfetched, if_true, List.pairwise_append]
      refine ⟨spaced.apart, List.pairwise_singleton .., ?_⟩
      intro fetch hmem other hother hprocess
      obtain rfl := List.mem_singleton.1 hother
      exact hearlier fetch hmem hprocess
  · rw [if_neg hfetched] at hlooked
    constructor
    · intro fetch hmem
      simp only [Service.runOnce, hfetched] at hmem
      exact spaced.past fetch hmem
    · intro fetch hmem hprocess
      simp only [Service.runOnce, hfetched] at hmem
      simp only [Service.runOnce, hlooked]
      exact spaced.latest fetch hmem hprocess
    · simp only [Service.runOnce, hfetched]
      exact spaced.apart

theorem decided_runOnce (s : State lib) (config : NotificationsConfig) (now clock : Int)
    (answers : Papaia.Notifications.Event → Option (List Finding)) (stored : Bool) :
    (runOnce s config now clock answers stored).decided =
      s.decided ++ (runOnce s config now clock answers stored).queue := by
  simp [State.decided, runOnce, noticesFrom_append, noticesFrom]

/-- What each step does to the queue, the deliveries and the tasks. -/
theorem orderly_step {s s' : State lib} {e : Event lib} (orderly : Orderly s)
    (h : step s e = some s') : Orderly s' := by
  cases e with
  | pass config now clock answers stored =>
      simp only [step] at h
      split at h
      · next hidle =>
          obtain ⟨hqueue, hsending⟩ := Bool.and_eq_true_iff.1 hidle
          obtain rfl := Option.some.inj h
          have hnothing : s.queue = [] := List.isEmpty_iff.1 hqueue
          have hqueued := orderly.queued
          rw [hnothing, List.append_nil] at hqueued
          constructor
          · rw [decided_runOnce]
            exact hqueued.append (List.Sublist.refl _)
          · exact orderly.sent
          · exact orderly.tasks
          · exact orderly.spaced.runOnce config.config now clock answers stored
      · cases h
  | address config =>
      simp only [step] at h
      split at h
      · next notice rest hsending hqueue =>
          obtain rfl := Option.some.inj h
          have hqueued := orderly.queued
          have hsent := orderly.sent
          rw [hqueue] at hqueued
          rw [hsending] at hsent
          constructor
          · have hmoved : (s.addressed ++ [(notice, config)]).map Prod.fst ++ rest =
                s.addressed.map Prod.fst ++ notice :: rest := by simp
            exact hmoved.symm ▸ hqueued
          · rw [awaiting_leftOf, List.flatMap_append, List.flatMap_singleton]
            have hdelivered : s.delivered.Sublist (s.addressed.flatMap addressees) := by
              simpa [awaiting] using hsent
            exact hdelivered.append (List.Sublist.refl _)
          · exact orderly.tasks
          · exact ⟨orderly.spaced.past, orderly.spaced.latest, orderly.spaced.apart⟩
      · cases h
  | deliver =>
      simp only [step] at h
      split at h
      · next notice r rest hsending =>
          obtain rfl := Option.some.inj h
          have hsent := orderly.sent
          rw [hsending] at hsent
          constructor
          · exact orderly.queued
          · rw [awaiting_leftOf, List.append_assoc]
            exact hsent
          · exact orderly.tasks
          · exact ⟨orderly.spaced.past, orderly.spaced.latest, orderly.spaced.apart⟩
      · cases h
  | jobEnds job failed =>
      simp only [step] at h
      obtain rfl := Option.some.inj h
      cases failed with
      | false => exact orderly
      | true =>
          refine ⟨orderly.queued, orderly.sent, ?_, ?_⟩
          · intro task htask
            rcases List.mem_append.1 htask with htask | htask
            · exact orderly.tasks task htask
            · obtain rfl := List.mem_singleton.1 htask
              exact ⟨rfl, rfl⟩
          · exact ⟨orderly.spaced.past, orderly.spaced.latest, orderly.spaced.apart⟩
  | «open» k config =>
      obtain ⟨task, htask, hopen⟩ := Option.bind_eq_some_iff.1 h
      split at hopen
      · next hfirst =>
          obtain rfl := Option.some.inj hopen
          have hnone : task.config = none := by
            simpa using (Bool.and_eq_true_iff.1 hfirst).2
          have hkeeps := orderly.tasks task (List.mem_of_getElem? htask)
          rw [ReportTask.Keeps, hnone] at hkeeps
          refine ⟨orderly.queued, orderly.sent, ?_, ?_⟩
          · intro other hother
            rcases List.mem_or_eq_of_mem_set hother with hother | rfl
            · exact orderly.tasks other hother
            · simp [ReportTask.Keeps, hkeeps.1]
          · exact ⟨orderly.spaced.past, orderly.spaced.latest, orderly.spaced.apart⟩
      · cases hopen
  | report k =>
      obtain ⟨task, htask, hreport⟩ := Option.bind_eq_some_iff.1 h
      split at hreport
      · next r rest halive hremaining =>
          obtain rfl := Option.some.inj hreport
          have hkeeps := orderly.tasks task (List.mem_of_getElem? htask)
          refine ⟨orderly.queued, orderly.sent, ?_, ?_⟩
          · intro other hother
            rcases List.mem_or_eq_of_mem_set hother with hother | rfl
            · exact orderly.tasks other hother
            · rw [ReportTask.Keeps] at hkeeps ⊢
              cases hconfig : task.config with
              | none =>
                  rw [hconfig, hremaining] at hkeeps
                  cases hkeeps.2
              | some config =>
                  rw [hconfig, hremaining] at hkeeps
                  simpa [List.append_assoc, hconfig] using hkeeps
          · exact ⟨orderly.spaced.past, orderly.spaced.latest, orderly.spaced.apart⟩
      · cases hreport
  | crash =>
      obtain rfl := Option.some.inj h
      constructor
      · rw [List.append_nil]
        exact (List.sublist_append_left ..).trans orderly.queued
      · rw [awaiting, Option.elim_none, List.append_nil]
        exact (List.sublist_append_left ..).trans orderly.sent
      · intro task htask
        obtain ⟨before, hbefore, rfl⟩ := List.mem_map.1 htask
        exact orderly.tasks before hbefore
      · constructor
        · intro fetch hmem
          exact Nat.le_succ_of_le (orderly.spaced.past fetch hmem)
        · intro fetch hmem hprocess
          have := orderly.spaced.past fetch hmem
          have hnext : fetch.process = s.process + 1 := hprocess
          omega
        · exact orderly.spaced.apart

/-! ### What a run has sent -/

/-- What was sent was decided, and goes once to each recipient that had chosen it when its turn
came. -/
structure Delivered (s : State lib) : Prop where
  once : (s.delivered.map fun sent => (sent.1.number, sent.2.id)).Nodup
  decided : ∀ sent ∈ s.delivered, ∃ record, s.passes[sent.1.pass]? = some record ∧
    record.new[sent.1.index]? = some sent.1.condition
  subscribed : ∀ sent ∈ s.delivered, ∃ config, (sent.1, config) ∈ s.addressed ∧
    sent.2 ∈ config.config.subscribedTo sent.1.condition.event
  reports : ∀ task ∈ s.tasks, task.sent ≠ [] → ∃ config ∈ task.config,
    task.sent <+: config.config.subscribedTo .jobFailed
  reportsOnce : ∀ task ∈ s.tasks, (task.sent.map Recipient.id).Nodup
  fetches : s.fetches.Pairwise fun one other =>
    one.process = other.process → updateInterval ≤ other.clock - one.clock

theorem nodup_subscribedTo (config : CheckedConfig lib) (event : Papaia.Notifications.Event) :
    ((config.config.subscribedTo event).map Recipient.id).Nodup := by
  have hkept := stands_iff_wellKept.1 config.stands
  exact hkept.ids.sublist (List.filter_sublist.map Recipient.id)

/-- The notices are numbered and the recipients have ids. -/
theorem nodup_addressees {entries : List (Notice × CheckedConfig lib)}
    (h : (entries.map fun entry => entry.1.number).Nodup) :
    ((entries.flatMap addressees).map fun sent => (sent.1.number, sent.2.id)).Nodup := by
  induction entries with
  | nil => exact List.nodup_nil
  | cons entry rest ih =>
      obtain ⟨hnot, hrest⟩ := List.nodup_cons.1 h
      rw [List.flatMap_cons, List.map_append, List.nodup_append]
      refine ⟨?_, ih hrest, ?_⟩
      · have hids : (addressees entry).map (fun sent => (sent.1.number, sent.2.id)) =
            ((entry.2.config.subscribedTo entry.1.condition.event).map Recipient.id).map
              fun id => (entry.1.number, id) := by
          simp [addressees]
        rw [hids]
        apply (nodup_subscribedTo entry.2 _).map
        intro one other heq
        exact (Prod.mk.inj heq).2
      · intro one hone other hother heq
        obtain ⟨sent, hsent, rfl⟩ := List.mem_map.1 hone
        obtain ⟨later, hlater, rfl⟩ := List.mem_map.1 hother
        obtain ⟨r, -, rfl⟩ := List.mem_map.1 hsent
        obtain ⟨another, hanother, hto⟩ := List.mem_flatMap.1 hlater
        obtain ⟨r', -, rfl⟩ := List.mem_map.1 hto
        apply hnot
        have hnumber : entry.1.number = another.1.number := (Prod.mk.inj heq).1
        exact List.mem_map.2 ⟨another, hanother, hnumber.symm⟩

theorem Orderly.delivered {s : State lib} (orderly : Orderly s) : Delivered s := by
  have hsent : s.delivered.Sublist (s.addressed.flatMap addressees) :=
    (List.sublist_append_left ..).trans orderly.sent
  have hqueued : (s.addressed.map Prod.fst).Sublist s.decided :=
    (List.sublist_append_left ..).trans orderly.queued
  have hnumbers : (s.addressed.map fun entry => entry.1.number).Nodup := by
    have hmap := hqueued.map Notice.number
    rw [List.map_map] at hmap
    exact (numbers_noticesFrom 0 s.passes).sublist hmap
  have haddressed : ∀ sent ∈ s.delivered, ∃ config, (sent.1, config) ∈ s.addressed ∧
      sent.2 ∈ config.config.subscribedTo sent.1.condition.event := by
    intro sent hmem
    obtain ⟨entry, hentry, hto⟩ := List.mem_flatMap.1 (hsent.subset hmem)
    obtain ⟨r, hr, rfl⟩ := List.mem_map.1 hto
    exact ⟨entry.2, hentry, hr⟩
  constructor
  · exact (nodup_addressees hnumbers).sublist (hsent.map _)
  · intro sent hmem
    obtain ⟨config, hconfig, -⟩ := haddressed sent hmem
    have hdecided := hqueued.subset (List.mem_map_of_mem hconfig)
    exact (pass_of_mem_noticesFrom hdecided).2
  · exact haddressed
  · intro task htask hsome
    have hkeeps := orderly.tasks task htask
    rw [ReportTask.Keeps] at hkeeps
    cases hconfig : task.config with
    | none =>
        rw [hconfig] at hkeeps
        exact absurd hkeeps.1 hsome
    | some config =>
        rw [hconfig] at hkeeps
        exact ⟨config, rfl, task.remaining, hkeeps⟩
  · intro task htask
    have hkeeps := orderly.tasks task htask
    rw [ReportTask.Keeps] at hkeeps
    cases hconfig : task.config with
    | none =>
        rw [hconfig] at hkeeps
        simp [hkeeps.1]
    | some config =>
        rw [hconfig] at hkeeps
        have hsentPart : task.sent.Sublist (config.config.subscribedTo .jobFailed) :=
          hkeeps ▸ List.sublist_append_left ..
        exact (nodup_subscribedTo config .jobFailed).sublist (hsentPart.map Recipient.id)
  · exact orderly.spaced.apart

/-! ### A process that does not stop -/

/-- Nothing that was decided is left out. -/
structure Complete (s : State lib) : Prop where
  queued : s.addressed.map Prod.fst ++ s.queue = s.decided
  sent : s.delivered ++ awaiting s.sending = s.addressed.flatMap addressees

def Event.isCrash : Event lib → Bool
  | .crash => true
  | _ => false

theorem complete_step {s s' : State lib} {e : Event lib} (complete : Complete s)
    (running : e.isCrash = false) (h : step s e = some s') : Complete s' := by
  cases e with
  | pass config now clock answers stored =>
      simp only [step] at h
      split at h
      · next hidle =>
          obtain ⟨hqueue, -⟩ := Bool.and_eq_true_iff.1 hidle
          obtain rfl := Option.some.inj h
          have hqueued := complete.queued
          rw [List.isEmpty_iff.1 hqueue, List.append_nil] at hqueued
          refine ⟨?_, complete.sent⟩
          rw [decided_runOnce, ← hqueued]
          rfl
      · cases h
  | address config =>
      simp only [step] at h
      split at h
      · next notice rest hsending hqueue =>
          obtain rfl := Option.some.inj h
          have hqueued := complete.queued
          have hsent := complete.sent
          rw [hqueue] at hqueued
          rw [hsending, awaiting, Option.elim_none, List.append_nil] at hsent
          constructor
          · have hmoved : (s.addressed ++ [(notice, config)]).map Prod.fst ++ rest =
                s.addressed.map Prod.fst ++ notice :: rest := by simp
            exact hmoved.trans hqueued
          · rw [awaiting_leftOf, List.flatMap_append, List.flatMap_singleton, ← hsent]
            rfl
      · cases h
  | deliver =>
      simp only [step] at h
      split at h
      · next notice r rest hsending =>
          obtain rfl := Option.some.inj h
          have hsent := complete.sent
          rw [hsending] at hsent
          refine ⟨complete.queued, ?_⟩
          rw [awaiting_leftOf, List.append_assoc]
          exact hsent
      · cases h
  | jobEnds job failed =>
      obtain rfl := Option.some.inj h
      cases failed <;> exact ⟨complete.queued, complete.sent⟩
  | «open» k config =>
      obtain ⟨task, -, hopen⟩ := Option.bind_eq_some_iff.1 h
      split at hopen
      · obtain rfl := Option.some.inj hopen
        exact ⟨complete.queued, complete.sent⟩
      · cases hopen
  | report k =>
      obtain ⟨task, -, hreport⟩ := Option.bind_eq_some_iff.1 h
      split at hreport
      · obtain rfl := Option.some.inj hreport
        exact ⟨complete.queued, complete.sent⟩
      · cases hreport
  | crash => cases running

/-- The library where no webhook is set up. -/
def emailOnly : Library where
  urlsplit := fun _ => none
  casefold := Text.lower

def onCall : NotificationsConfig where
  recipients := [{
    id := "1a2b3c4d"
    name := "On call"
    kind := .email
    target := "ops@example.org"
    events := [.jobFailed, .certExpiring] }]

theorem onCall_stands : checkConfig emailOnly onCall = .ok onCall := by decide +kernel

/-- The certificate of the proxy runs out. -/
def certificateFound : Papaia.Notifications.Event → Option (List Finding)
  | .certExpiring => some [{
      event := .certExpiring
      conditions := [⟨.certExpiring, "caddy", "2026-03-01", "caddy",
        "The certificate for caddy expires on 2026-03-01.", []⟩] }]
  | _ => none

def failedStart : JobReport :=
  ⟨"4f0c", "start", "litellm", "admin", some 1⟩

/-- A pass and the report of a failed job beside it. -/
def passAndReport : List (Event emailOnly) :=
  [.pass ⟨onCall, onCall_stands⟩ 0 0 certificateFound true, .jobEnds failedStart true,
    .address ⟨onCall, onCall_stands⟩, .open 0 ⟨onCall, onCall_stands⟩, .deliver, .report 0]

/-- The process stops before a condition is sent, and what it had stored is not found new again. -/
def stoppedBetween : List (Event emailOnly) :=
  [.pass ⟨onCall, onCall_stands⟩ 0 0 certificateFound true, .address ⟨onCall, onCall_stands⟩, .crash,
    .pass ⟨onCall, onCall_stands⟩ (5 * Backup.minute) 20 certificateFound true, .jobEnds failedStart true,
    .open 0 ⟨onCall, onCall_stands⟩, .report 0]

def serviceAfter (events : List (Event emailOnly)) : State emailOnly :=
  (replay step {} events).getD {}

end Papaia.Notifications.Service
