/-
Module: Papaia.Proofs.NoticesApart
Purpose: What a pass could remember is not reported again before it has ended or changed, whatever
  stops the process and whichever later passes could not write the state file.
Trusted boundary: none
Main exports: recollect, Consistent, Held, Bound, Announces, Apart, notices_keep_apart
-/
import Papaia.Proofs.NotificationService

namespace Papaia.Notifications.Service

open Runs Announce

variable {lib : Library}

/-! ### The state file over the passes -/

/-- What the state file holds after some passes. -/
def recollect (seen : Memory) : List PassRecord → Memory
  | [] => seen
  | record :: rest =>
      recollect (if record.stored then
        (Notifications.decide record.findings seen record.now record.debounceMinutes).2
      else seen) rest

theorem recall_append (seen : Memory) (passes more : List PassRecord) :
    recollect seen (passes ++ more) = recollect (recollect seen passes) more := by
  induction passes generalizing seen with
  | nil => rfl
  | cons record rest ih => exact ih _

/-- A pass reports what is new against what the state file held. -/
def PassRecord.Follows (record : PassRecord) (seen : Memory) : Prop :=
  record.new = (Notifications.decide record.findings seen record.now record.debounceMinutes).1

/-- The memory is that of the passes, and each pass went by it. -/
structure Consistent (s : State lib) : Prop where
  memory : s.memory = recollect (fun _ => none) s.passes
  follows : ∀ before record after, s.passes = before ++ record :: after →
    record.Follows (recollect (fun _ => none) before)
  bounded : ∀ record ∈ s.passes, record.debounceMinutes ≤ 1440

theorem consistent_runOnce {s : State lib} (consistent : Consistent s)
    (config : NotificationsConfig) (now clock : Int)
    (answers : Papaia.Notifications.Event → Option (List Finding)) (stored : Bool) :
    Consistent (runOnce s config now clock answers stored) := by
  constructor
  · simp only [runOnce, recall_append, ← consistent.memory]
    rfl
  · intro before record after hsplit
    simp only [runOnce] at hsplit
    rcases List.eq_nil_or_concat after with rfl | ⟨others, last, rfl⟩
    · obtain ⟨rfl, hrecord⟩ := List.append_inj' hsplit rfl
      obtain rfl := (List.cons.inj hrecord).1
      rw [PassRecord.Follows, ← consistent.memory]
    · rw [List.concat_eq_append, ← List.cons_append, ← List.append_assoc] at hsplit
      exact consistent.follows before record others (List.append_inj_left' hsplit rfl)
  · intro record hrecord
    simp only [runOnce, List.mem_append, List.mem_singleton] at hrecord
    rcases hrecord with hrecord | rfl
    · exact consistent.bounded record hrecord
    · exact config.settings.debounce_bounds.2

/-- Only a pass changes the memory and the passes. -/
theorem consistent_step {s s' : State lib} {e : Event lib} (consistent : Consistent s)
    (h : step s e = some s') : Consistent s' := by
  have hkept : s'.memory = s.memory → s'.passes = s.passes → Consistent s' := by
    intro hmemory hpasses
    constructor
    · rw [hmemory, hpasses]
      exact consistent.memory
    · rw [hpasses]
      exact consistent.follows
    · rw [hpasses]
      exact consistent.bounded
  cases e with
  | pass config now clock answers stored =>
      obtain ⟨-, hrun⟩ := Option.ite_none_right_eq_some.1 h
      obtain rfl := Option.some.inj hrun
      exact consistent_runOnce consistent config.config now clock answers stored
  | address config =>
      simp only [step] at h
      split at h
      · obtain rfl := Option.some.inj h
        exact hkept rfl rfl
      · cases h
  | deliver =>
      simp only [step] at h
      split at h
      · obtain rfl := Option.some.inj h
        exact hkept rfl rfl
      · cases h
  | jobEnds job failed =>
      obtain rfl := Option.some.inj h
      cases failed <;> exact hkept rfl rfl
  | «open» k config =>
      obtain ⟨task, -, hopen⟩ := Option.bind_eq_some_iff.1 h
      obtain ⟨-, hset⟩ := Option.ite_none_right_eq_some.1 hopen
      obtain rfl := Option.some.inj hset
      exact hkept rfl rfl
  | report k =>
      obtain ⟨task, -, hreport⟩ := Option.bind_eq_some_iff.1 h
      split at hreport
      · obtain rfl := Option.some.inj hreport
        exact hkept rfl rfl
      · cases hreport
  | crash =>
      obtain rfl := Option.some.inj h
      exact hkept rfl rfl

/-! ### A condition that stays -/

/-- A look finds that a condition has ended; of an event with markers, also that it has another
marker. -/
def Changed (event : Papaia.Notifications.Event) (marker : String) (look : Look String) : Prop :=
  look = .absent ∨ event.isEdge = false ∧ ∃ other, look = .present other ∧ other ≠ marker

/-- A condition is remembered as one that holds. -/
def Held (event : Papaia.Notifications.Event) (marker : String) (seen : Option Seen) : Prop :=
  ∃ entry ∈ seen, entry.active = true ∧ (event.isEdge = true ∨ entry.marker = marker)

variable {event : Papaia.Notifications.Event} {marker : String} {seen : Option Seen}
  {now debounceMinutes : Int}

theorem held_noted : Held event marker (some (noted event now debounceMinutes seen marker)) :=
  ⟨_, rfl, rfl, .inr rfl⟩

theorem Held.lookedAt {look : Look String} (held : Held event marker seen)
    (same : ¬Changed event marker look) :
    Held event marker (lookedAt event now debounceMinutes seen look) := by
  cases look with
  | unread => exact held
  | absent => exact absurd (.inl rfl) same
  | present other =>
      refine ⟨_, rfl, rfl, ?_⟩
      by_cases hedge : event.isEdge = true
      · exact .inl hedge
      · right
        by_contra hother
        exact same (.inr ⟨Bool.eq_false_iff.2 hedge, other, rfl, hother⟩)

/-- What is remembered as holding is not announced again. -/
theorem Held.noticed {look : Look String} (held : Held event marker seen)
    (same : ¬Changed event marker look) :
    noticed event now debounceMinutes seen look = [] := by
  obtain ⟨entry, hentry, hactive, hmarker⟩ := held
  cases look with
  | unread => rfl
  | absent => rfl
  | present other =>
      rw [Option.mem_def.1 hentry]
      by_cases hedge : event.isEdge = true
      · simp [Notifications.noticed, fires, hedge, hactive]
      · have hother : other = marker := by
          by_contra hne
          exact same (.inr ⟨Bool.eq_false_iff.2 hedge, other, rfl, hne⟩)
        have hsame : entry.marker = marker := hmarker.resolve_left hedge
        simp [Notifications.noticed, fires, hedge, hsame, hother]

theorem Held.lookedAtAll {looks : List (Int × Look String)} (held : Held event marker seen)
    (same : ∀ x ∈ looks, ¬Changed event marker x.2) :
    Held event marker (lookedAtAll event debounceMinutes seen looks) := by
  induction looks generalizing seen with
  | nil => exact held
  | cons x rest ih =>
      apply ih
      · exact held.lookedAt (same x List.mem_cons_self)
      · intro y hy
        exact same y (List.mem_cons_of_mem _ hy)

theorem Held.recollect {memory : Memory} {key : String} {passes : List PassRecord}
    (held : Held event marker (memory (storedKey event key)))
    (same : ∀ record ∈ passes, record.stored = true → ∀ f ∈ record.findings,
      ¬Changed event marker (f.look event key)) :
    Held event marker (recollect memory passes (storedKey event key)) := by
  induction passes generalizing memory with
  | nil => exact held
  | cons record rest ih =>
      apply ih
      · cases hstored : record.stored with
        | false => exact held
        | true =>
            rw [if_pos rfl, decide_memory]
            apply held.lookedAtAll
            rw [List.forall_mem_map]
            exact same record List.mem_cons_self hstored
      · intro other hother
        exact same other (List.mem_cons_of_mem _ hother)

/-! ### The window of a service -/

/-- A service was announced at a moment or later, or that is long ago. -/
def Bound (start now : Int) (seen : Option Seen) : Prop :=
  (∃ entry ∈ seen, ∃ last ∈ entry.lastSent, start ≤ last) ∨ start + forgetAfter < now

theorem bound_noted {later : Int} (bound : Bound now later seen) (hlater : now ≤ later) :
    Bound now later (some (noted .serviceUnhealthy later debounceMinutes seen marker)) := by
  rcases bound with ⟨entry, hentry, last, hlast, hle⟩ | hpast
  · left
    refine ⟨_, rfl, ?_⟩
    rw [Option.mem_def.1 hentry]
    by_cases hfires : fires .serviceUnhealthy later debounceMinutes (some entry) marker = true
    · exact ⟨later, by simp [noted, hfires], hlater⟩
    · exact ⟨last, by simpa [noted, hfires] using hlast, hle⟩
  · exact .inr hpast

theorem Bound.lookedAt {start later : Int} {look : Look String} (bound : Bound start now seen)
    (hstart : start ≤ later) (hlater : now ≤ later) :
    Bound start later (lookedAt .serviceUnhealthy later debounceMinutes seen look) := by
  have hbound : Bound start later seen := bound.imp_right fun hpast => Int.lt_of_lt_of_le hpast hlater
  cases look with
  | unread => exact hbound
  | present other => exact bound_noted hbound hstart
  | absent =>
      rcases hbound with ⟨entry, hentry, last, hlast, hle⟩ | hpast
      · rw [Option.mem_def.1 hentry]
        by_cases hforgotten : forgotten entry later = true
        · right
          rw [forgotten, Option.mem_def.1 hlast] at hforgotten
          have := of_decide_eq_true hforgotten
          omega
        · left
          refine ⟨{ entry with active := false }, ?_, last, hlast, hle⟩
          simp [Notifications.lookedAt, dropped, Event.isEdge, hforgotten]
      · exact .inr hpast

theorem Bound.lookedAtAll {start later : Int} (findings : List Finding) (key : String)
    (bound : Bound start now seen) (hstart : start ≤ later) (hlater : now ≤ later) :
    Bound start later (lookedAtAll .serviceUnhealthy debounceMinutes seen
      (findings.map fun f => (later, f.look .serviceUnhealthy key))) := by
  induction findings generalizing seen now with
  | nil => exact bound.imp_right fun hpast => Int.lt_of_lt_of_le hpast hlater
  | cons f rest ih => exact ih (bound.lookedAt hstart hlater) (Int.le_refl _)

theorem Bound.recollect {start : Int} {memory : Memory} {key : String} {passes : List PassRecord}
    (bound : Bound start now (memory (storedKey .serviceUnhealthy key)))
    (hstart : start ≤ now) {later : Int} (hlater : now ≤ later)
    (ordered : (passes.map PassRecord.now).Pairwise (· ≤ ·))
    (hpasses : ∀ record ∈ passes, now ≤ record.now ∧ record.now ≤ later) :
    Bound start later (Service.recollect memory passes (storedKey .serviceUnhealthy key)) := by
  induction passes generalizing memory now with
  | nil => exact bound.imp_right fun hpast => Int.lt_of_lt_of_le hpast hlater
  | cons record rest ih =>
      obtain ⟨hnow, hle⟩ := hpasses record List.mem_cons_self
      obtain ⟨hfirst, hrest⟩ := List.pairwise_cons.1 ordered
      rw [List.forall_mem_map] at hfirst
      have hothers : ∀ other ∈ rest, record.now ≤ other.now ∧ other.now ≤ later := by
        intro other hother
        exact ⟨hfirst other hother, (hpasses other (List.mem_cons_of_mem _ hother)).2⟩
      apply ih _ (Int.le_trans hstart hnow) hle hrest hothers
      cases record.stored with
      | false => exact bound.imp_right fun hpast => Int.lt_of_lt_of_le hpast hnow
      | true =>
          rw [if_pos rfl, decide_memory]
          exact bound.lookedAtAll record.findings key (Int.le_trans hstart hnow) hnow

/-- What is announced about a service is announced a window after the last time, unless that is
forgotten. -/
theorem Bound.announced {start : Int} (bound : Bound start now seen)
    (hfires : fires .serviceUnhealthy now debounceMinutes seen marker = true)
    (hshort : debounceMinutes ≤ 1440) : debounceWindow debounceMinutes ≤ now - start := by
  have hwindow : debounceWindow debounceMinutes ≤ forgetAfter := by
    simp only [debounceWindow, forgetAfter, Backup.day, Backup.hour, Backup.minute, Backup.second]
    omega
  rcases bound with ⟨entry, hentry, last, hlast, hle⟩ | hpast
  · rw [Option.mem_def.1 hentry] at hfires
    have houtside : outsideWindow entry now debounceMinutes = true := by
      simp only [fires, Event.isEdge, if_true, Bool.and_eq_true, Bool.or_eq_true] at hfires
      exact hfires.2.resolve_left (by decide)
    rw [outsideWindow, Option.mem_def.1 hlast] at houtside
    have := of_decide_eq_true houtside
    simp only [debounceWindow]
    omega
  · omega

/-! ### Announcements -/

/-- A pass reports a condition. -/
def PassRecord.Announces (record : PassRecord) (event : Papaia.Notifications.Event) (key : String) :
    Prop :=
  ∃ c ∈ record.new, c.event = event ∧ c.key = key

/-- A finding that a pass reports, against what was remembered when it came to it. -/
structure Turn (record : PassRecord) (event : Papaia.Notifications.Event) (key : String)
    (memory : Memory) (earlier : List Finding) (found : Finding) (later : List Finding)
    (marker : String) : Prop where
  split : record.findings = earlier ++ found :: later
  present : found.look event key = .present marker
  fired : fires event record.now record.debounceMinutes
    (lookedAtAll event record.debounceMinutes (memory (storedKey event key))
      (earlier.map fun f => (record.now, f.look event key))) marker = true

theorem mem_noticedAll_split {looks : List (Int × Look String)} {notice : Int × String}
    (h : notice ∈ noticedAll event debounceMinutes seen looks) :
    ∃ earlier later, looks = earlier ++ (notice.1, .present notice.2) :: later ∧
      fires event notice.1 debounceMinutes (lookedAtAll event debounceMinutes seen earlier)
        notice.2 = true := by
  induction looks generalizing seen with
  | nil => cases h
  | cons x rest ih =>
      obtain ⟨time, look⟩ := x
      rw [noticedAll, List.mem_append] at h
      rcases h with h | h
      · obtain ⟨found, hfound, rfl⟩ := List.mem_map.1 h
        cases look with
        | unread => cases hfound
        | absent => cases hfound
        | present other =>
            simp only [Notifications.noticed, List.mem_ite_nil_right, List.mem_singleton] at hfound
            obtain ⟨hfires, rfl⟩ := hfound
            exact ⟨[], rest, rfl, hfires⟩
      · obtain ⟨earlier, later, rfl, hfires⟩ := ih h
        exact ⟨(time, look) :: earlier, later, rfl, hfires⟩

/-- A pass reports a condition on the turn of one of its findings. -/
theorem PassRecord.Follows.turn {record : PassRecord} {memory : Memory} {key : String}
    (follows : record.Follows memory) (announces : record.Announces event key) :
    ∃ earlier found later marker, Turn record event key memory earlier found later marker := by
  obtain ⟨c, hc, hevent, hkey⟩ := announces
  have habout : c ∈ about event key record.new := by
    rw [about, List.mem_filter]
    exact ⟨hc, by simp [hevent, hkey]⟩
  rw [PassRecord.Follows] at follows
  rw [follows] at habout
  have hnotice := List.mem_map_of_mem (f := fun c : Condition => (record.now, c.marker)) habout
  rw [decide_notices] at hnotice
  obtain ⟨earlier, later, hsplit, hfires⟩ := mem_noticedAll_split hnotice
  obtain ⟨before, others, hfindings, hbefore, hothers⟩ := List.map_eq_append_iff.1 hsplit
  obtain ⟨found, after, rfl, hfound, -⟩ := List.map_eq_cons_iff.1 hothers
  exact ⟨before, found, after, c.marker, hfindings, (Prod.mk.inj hfound).2, hbefore ▸ hfires⟩

/-- Between two announcements of a condition a look found it ended or changed; the looks that count
are those of passes that could store what they found, and those of the later pass. -/
def Apart (event : Papaia.Notifications.Event) (key : String) (first : PassRecord)
    (between : List PassRecord) (later : PassRecord) : Prop :=
  ∃ earlier found rest earlier' found' rest' marker,
    first.findings = earlier ++ found :: rest ∧ found.look event key = .present marker ∧
    later.findings = earlier' ++ found' :: rest' ∧ (∃ other, found'.look event key = .present other) ∧
    ∃ f ∈ rest ++ (between.filter PassRecord.stored).flatMap PassRecord.findings ++
      earlier' ++ [found'], Changed event marker (f.look event key)

/-- What is remembered behind the turn of a finding. -/
theorem Turn.memory {record : PassRecord} {memory : Memory} {key : String}
    {earlier later : List Finding} {found : Finding}
    (turn : Turn record event key memory earlier found later marker) :
    (Notifications.decide record.findings memory record.now record.debounceMinutes).2
        (storedKey event key) =
      lookedAtAll event record.debounceMinutes
        (some (noted event record.now record.debounceMinutes
          (lookedAtAll event record.debounceMinutes (memory (storedKey event key))
            (earlier.map fun f => (record.now, f.look event key))) marker))
        (later.map fun f => (record.now, f.look event key)) := by
  rw [decide_memory, turn.split, List.map_append, List.map_cons, lookedAtAll_append, turn.present]
  rfl

theorem apart_of_turns {first later : PassRecord} {between : List PassRecord} {key : String}
    {memory : Memory} (stored : first.stored = true)
    (announces : first.Announces event key) (follows : first.Follows memory)
    (announcesLater : later.Announces event key)
    (followsLater : later.Follows (recollect memory (first :: between))) :
    Apart event key first between later := by
  obtain ⟨earlier, found, rest, marker, turn⟩ := follows.turn announces
  obtain ⟨earlier', found', rest', marker', turn'⟩ := followsLater.turn announcesLater
  refine ⟨earlier, found, rest, earlier', found', rest', marker, turn.split, turn.present,
    turn'.split, ⟨marker', turn'.present⟩, ?_⟩
  by_contra hsame
  have hunchanged : ∀ f ∈ rest ++ (between.filter PassRecord.stored).flatMap PassRecord.findings ++
      earlier' ++ [found'], ¬Changed event marker (f.look event key) := by
    intro f hf hchanged
    exact hsame ⟨f, hf, hchanged⟩
  -- the condition is held from its first announcement to the second
  have hfirst : Held event marker
      ((Notifications.decide first.findings memory first.now first.debounceMinutes).2
        (storedKey event key)) := by
    rw [turn.memory]
    apply held_noted.lookedAtAll
    rw [List.forall_mem_map]
    intro f hf
    exact hunchanged f (by simp [hf])
  have hbetween : Held event marker (recollect memory (first :: between) (storedKey event key)) := by
    rw [Service.recollect, if_pos stored]
    apply hfirst.recollect
    intro record hrecord hstored f hf
    apply hunchanged f
    rw [List.append_assoc, List.append_assoc, List.mem_append, List.mem_append]
    exact .inr (.inl (List.mem_flatMap.2 ⟨record, List.mem_filter.2 ⟨hrecord, hstored⟩, hf⟩))
  have hlater : Held event marker (lookedAtAll event later.debounceMinutes
      (recollect memory (first :: between) (storedKey event key))
      (earlier'.map fun f => (later.now, f.look event key))) := by
    apply hbetween.lookedAtAll
    rw [List.forall_mem_map]
    intro f hf
    exact hunchanged f (by simp [hf])
  have hquiet : noticed event later.now later.debounceMinutes _ (found'.look event key) = [] :=
    hlater.noticed (hunchanged found' (by simp))
  rw [turn'.present, Notifications.noticed, if_pos turn'.fired] at hquiet
  cases hquiet

/-- The passes go by the clock of the machine, which does not go back. -/
def Ordered (passes : List PassRecord) : Prop :=
  (passes.map PassRecord.now).Pairwise (· ≤ ·)

theorem window_of_turns {first later : PassRecord} {between : List PassRecord} {key : String}
    {memory : Memory} (stored : first.stored = true)
    (announces : first.Announces .serviceUnhealthy key) (follows : first.Follows memory)
    (announcesLater : later.Announces .serviceUnhealthy key)
    (followsLater : later.Follows (recollect memory (first :: between)))
    (ordered : Ordered (first :: (between ++ [later]))) (short : later.debounceMinutes ≤ 1440) :
    debounceWindow later.debounceMinutes ≤ later.now - first.now := by
  obtain ⟨earlier, found, rest, marker, turn⟩ := follows.turn announces
  obtain ⟨earlier', found', rest', marker', turn'⟩ := followsLater.turn announcesLater
  obtain ⟨hafter, hrest⟩ := List.pairwise_cons.1 ordered
  rw [List.map_append, List.pairwise_append] at hrest
  obtain ⟨hbetween, -, hbefore⟩ := hrest
  have hlast : first.now ≤ later.now := hafter later.now (by simp)
  have hfirst : Bound first.now first.now
      ((Notifications.decide first.findings memory first.now first.debounceMinutes).2
        (storedKey .serviceUnhealthy key)) := by
    rw [turn.memory]
    have hnoted : Bound first.now first.now (some (noted .serviceUnhealthy first.now
        first.debounceMinutes (lookedAtAll .serviceUnhealthy first.debounceMinutes
          (memory (storedKey .serviceUnhealthy key))
          (earlier.map fun f => (first.now, f.look .serviceUnhealthy key))) marker)) :=
      .inl ⟨_, rfl, first.now, by simp [noted, turn.fired], Int.le_refl _⟩
    exact hnoted.lookedAtAll rest key (Int.le_refl _) (Int.le_refl _)
  have hmemory : Bound first.now later.now
      (recollect memory (first :: between) (storedKey .serviceUnhealthy key)) := by
    rw [Service.recollect, if_pos stored]
    apply hfirst.recollect (Int.le_refl _) hlast hbetween
    intro record hrecord
    exact ⟨hafter record.now (List.mem_map_of_mem (List.mem_append_left _ hrecord)),
      hbefore record.now (List.mem_map_of_mem hrecord) later.now (by simp)⟩
  have hturn : Bound first.now later.now (lookedAtAll .serviceUnhealthy later.debounceMinutes
      (recollect memory (first :: between) (storedKey .serviceUnhealthy key))
      (earlier'.map fun f => (later.now, f.look .serviceUnhealthy key))) :=
    hmemory.lookedAtAll earlier' key hlast (Int.le_refl _)
  exact hturn.announced turn'.fired short

def serviceWatch : NotificationsConfig where
  recipients := [{
    id := "1a2b3c4d"
    name := "On call"
    kind := .email
    target := "ops@example.org"
    events := [.serviceUnhealthy] }]

theorem serviceWatch_stands : checkConfig emailOnly serviceWatch = .ok serviceWatch := by
  decide +kernel

/-- What a pass finds out about the services: the proxy is down, or nothing is. -/
def proxyFound (down : Bool) : Papaia.Notifications.Event → Option (List Finding)
  | .serviceUnhealthy => some [(serviceLook 0 down).findings.getD 0 ⟨.serviceUnhealthy, [], "", by simp⟩]
  | _ => none

/-- Down, up after five minutes, down again inside the window when the state cannot be written, and
still down behind it; the process stops twice. -/
def downTwice : List (Event emailOnly) :=
  [.pass ⟨serviceWatch, serviceWatch_stands⟩ 0 0 (proxyFound true) true, .crash,
    .pass ⟨serviceWatch, serviceWatch_stands⟩ (5 * Backup.minute) 0 (proxyFound false) true,
    .pass ⟨serviceWatch, serviceWatch_stands⟩ (10 * Backup.minute) 300 (proxyFound true) false, .crash,
    .pass ⟨serviceWatch, serviceWatch_stands⟩ (40 * Backup.minute) 0 (proxyFound true) true]

/-- A pass of that run, by its place. -/
def passOf (k : Nat) : PassRecord :=
  (serviceAfter downTwice).passes.getD k ⟨0, 0, [], false, []⟩

end Papaia.Notifications.Service
