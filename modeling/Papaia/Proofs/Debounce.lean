/-
Module: Papaia.Proofs.Debounce
Purpose: When the outage of a service is announced: notifications keep their distance, and an outage
  that lasts is announced unless it began inside the window of the last notification.
Trusted boundary: none
Main exports: Seen.track, noticedAll_times, OutagesAnnounced, BeginsDue, outagesAnnounced_iff,
  beginsDue_iff_first
-/
import Papaia.Proofs.Notices

namespace Papaia.Notifications

open Announce

/-! ### The memory of a service as an edge -/

/-- The debounce setting as a span of time. -/
def debounceWindow (debounceMinutes : Int) : Int :=
  debounceMinutes * Backup.minute

def Seen.track (seen : Seen) : Track where
  active := seen.active
  last := seen.lastSent

variable {debounceMinutes : Int}

theorem fires_serviceUnhealthy (now : Int) (seen : Option Seen) (marker : String) :
    fires .serviceUnhealthy now debounceMinutes seen marker =
      opens (debounceWindow debounceMinutes) now (seen.map Seen.track) := by
  cases seen with
  | none => rfl
  | some seen =>
      cases hlast : seen.lastSent with
      | none => simp [fires, opens, outside, outsideWindow, Event.isEdge, Seen.track, hlast]
      | some last =>
          simp only [fires, opens, outside, outsideWindow, Event.isEdge, Seen.track, hlast,
            Option.map_some, Option.all_some]
          rfl

theorem forgotten_eq_stale (seen : Seen) (now : Int) :
    forgotten seen now = stale forgetAfter seen.lastSent now := by
  cases hlast : seen.lastSent with
  | none => simp [forgotten, stale, hlast]
  | some last => simp [forgotten, stale, hlast]

/-- A look at a service moves its entry as it moves an edge. -/
theorem lookedAt_serviceUnhealthy (now : Int) (seen : Option Seen) (look : Look String) :
    (lookedAt .serviceUnhealthy now debounceMinutes seen look).map Seen.track =
      track (debounceWindow debounceMinutes) forgetAfter (seen.map Seen.track) now look := by
  cases look with
  | unread => rfl
  | absent =>
      cases seen with
      | none => rfl
      | some seen =>
          by_cases hforgotten : forgotten seen now = true
          · have hstale : stale forgetAfter seen.lastSent now = true := by
              rwa [← forgotten_eq_stale]
            simp [lookedAt, dropped, Event.isEdge, hforgotten, track, hstale, Seen.track]
          · have hstale : stale forgetAfter seen.lastSent now = false := by
              rw [← forgotten_eq_stale]
              simpa using hforgotten
            simp [lookedAt, dropped, Event.isEdge, hforgotten, track, hstale, Seen.track]
  | present marker =>
      have hfires : fires .serviceUnhealthy now debounceMinutes seen marker = _ :=
        fires_serviceUnhealthy now seen marker
      simp only [lookedAt, Option.map_some, track, Seen.track, noted, hfires]
      cases seen <;> rfl

/-- The notifications about a service are sent when its edge is announced. -/
theorem noticedAll_times (seen : Option Seen) (looks : List (Int × Look String)) :
    (noticedAll .serviceUnhealthy debounceMinutes seen looks).map Prod.fst =
      sentAt (debounceWindow debounceMinutes) forgetAfter (seen.map Seen.track) looks := by
  induction looks generalizing seen with
  | nil => rfl
  | cons x rest ih =>
      obtain ⟨now, look⟩ := x
      rw [noticedAll, List.map_append, ih, lookedAt_serviceUnhealthy, sentAt]
      congr 1
      cases look with
      | unread => rfl
      | absent => rfl
      | present marker =>
          simp only [noticed, Look.finds, Bool.true_and, ← fires_serviceUnhealthy now seen marker]
          split <;> rfl

theorem lookedAtAll_track (seen : Option Seen) (looks : List (Int × Look String)) :
    (lookedAtAll .serviceUnhealthy debounceMinutes seen looks).map Seen.track =
      trackAll (debounceWindow debounceMinutes) forgetAfter (seen.map Seen.track) looks := by
  induction looks generalizing seen with
  | nil => rfl
  | cons x rest ih => rw [lookedAtAll, ih, lookedAt_serviceUnhealthy]; rfl

/-! ### Outages over a run of passes -/

/-- The notifications about a service in a run that starts with an empty memory. -/
def outageNotices (debounceMinutes : Int) (key : String) (passes : List Pass) :
    List (Int × String) :=
  noticesAbout debounceMinutes .serviceUnhealthy key (fun _ => none) passes

/-- A pass reports a service as down. -/
def Pass.Reports (key : String) (pass : Pass) : Prop :=
  ∃ f ∈ pass.findings, f.event = .serviceUnhealthy ∧ ∃ c ∈ f.conditions, c.key = key

/-- A longest stretch of passes that all report a service. -/
structure Stretch (key : String) (before stretch after : List Pass) : Prop where
  reported : ∀ pass ∈ stretch, pass.Reports key
  started : ∀ pass ∈ before.getLast?, ¬pass.Reports key
  ended : ∀ pass ∈ after.head?, ¬pass.Reports key

/-- A moment at least a window after every notification about a service so far. -/
def Due (debounceMinutes : Int) (key : String) (before : List Pass) (now : Int) : Prop :=
  ∀ sent ∈ outageNotices debounceMinutes key before, debounceWindow debounceMinutes ≤ now - sent.1

/-- Two notifications about a service are a window apart, and a stretch that is down when the
window is over is announced. -/
structure OutagesAnnounced (debounceMinutes : Int) (passes : List Pass) : Prop where
  spaced : ∀ key, (outageNotices debounceMinutes key passes).Pairwise fun one other =>
    debounceWindow debounceMinutes ≤ other.1 - one.1
  lasting : ∀ key before stretch after, passes = before ++ stretch ++ after →
    Stretch key before stretch after →
    (∃ pass ∈ stretch, Due debounceMinutes key before pass.now) →
    noticesAbout debounceMinutes .serviceUnhealthy key
      (memoryAfter debounceMinutes (fun _ => none) before) stretch ≠ []

/-- A stretch begins an outage at a moment that is due: a look reports the service where the last
look at it, if there was one, did not. -/
def BeginsDue (debounceMinutes : Int) (key : String) (before stretch : List Pass) : Prop :=
  ∃ skipped now marker rest,
    stretch.flatMap (Pass.looks .serviceUnhealthy key) = skipped ++ (now, .present marker) :: rest ∧
    lostAfter true ((before.flatMap (Pass.looks .serviceUnhealthy key) ++ skipped).map Prod.snd) =
      true ∧
    Due debounceMinutes key before now

/-- The passes come one after the other. -/
def Increasing (passes : List Pass) : Prop :=
  passes.Pairwise fun one other => one.now < other.now

theorem time_of_mem_looks {event : Event} {key : String} {pass : Pass} {x : Int × Look String}
    (h : x ∈ pass.looks event key) : x.1 = pass.now := by
  obtain ⟨f, -, rfl⟩ := List.mem_map.1 h
  rfl

theorem Increasing.looks {passes : List Pass} (h : Increasing passes) (event : Event)
    (key : String) : Ascending (passes.flatMap (Pass.looks event key)) := by
  rw [Ascending, List.pairwise_flatMap]
  refine ⟨?_, ?_⟩
  · intro pass _
    apply List.pairwise_of_forall_mem_list
    intro one hone other hother
    rw [time_of_mem_looks hone, time_of_mem_looks hother]
  · apply h.imp
    intro pass later hnow one hone other hother
    rw [time_of_mem_looks hone, time_of_mem_looks hother]
    exact Int.le_of_lt hnow

theorem outageNotices_times (key : String) (passes : List Pass) :
    (outageNotices debounceMinutes key passes).map Prod.fst =
      sentAt (debounceWindow debounceMinutes) forgetAfter none
        (passes.flatMap (Pass.looks .serviceUnhealthy key)) := by
  rw [outageNotices, noticesAbout_eq, noticedAll_times, Option.map_none]

theorem due_iff {key : String} {before : List Pass} {now : Int} :
    Due debounceMinutes key before now ↔
      ∀ one ∈ sentAt (debounceWindow debounceMinutes) forgetAfter none
        (before.flatMap (Pass.looks .serviceUnhealthy key)),
        debounceWindow debounceMinutes ≤ now - one := by
  rw [← outageNotices_times, List.forall_mem_map]
  exact Iff.rfl

/-- A stretch is announced exactly when it begins an outage at a moment that is due. -/
theorem stretch_announced_iff (hwindow : debounceWindow debounceMinutes ≤ forgetAfter)
    {key : String} {before stretch : List Pass} (h : Increasing (before ++ stretch)) :
    noticesAbout debounceMinutes .serviceUnhealthy key
        (memoryAfter debounceMinutes (fun _ => none) before) stretch ≠ [] ↔
      BeginsDue debounceMinutes key before stretch := by
  have hascending := h.looks .serviceUnhealthy key
  rw [List.flatMap_append] at hascending
  have hmemory : (lookedAtAll .serviceUnhealthy debounceMinutes none
      (before.flatMap (Pass.looks .serviceUnhealthy key))).map Seen.track = _ :=
    lookedAtAll_track none (before.flatMap (Pass.looks .serviceUnhealthy key))
  have hquiet : ∀ sent : List (Int × String), sent ≠ [] ↔ sent.map Prod.fst ≠ [] := by
    intro sent
    simp
  rw [noticesAbout_eq, memoryAfter_eq, hquiet, noticedAll_times, hmemory, Option.map_none,
    sentAt_ne_nil_iff hwindow hascending]
  simp only [BeginsDue, due_iff]

/-- Notifications about a service are always a window apart; a lasting outage is announced exactly
when every stretch with a pass that is due begins an outage at a moment that is due. -/
theorem outagesAnnounced_iff (hwindow : debounceWindow debounceMinutes ≤ forgetAfter)
    {passes : List Pass} (h : Increasing passes) :
    OutagesAnnounced debounceMinutes passes ↔
      ∀ key before stretch after, passes = before ++ stretch ++ after →
        Stretch key before stretch after →
        (∃ pass ∈ stretch, Due debounceMinutes key before pass.now) →
        BeginsDue debounceMinutes key before stretch := by
  have hlasting : ∀ key before stretch after, passes = before ++ stretch ++ after →
      (noticesAbout debounceMinutes .serviceUnhealthy key
          (memoryAfter debounceMinutes (fun _ => none) before) stretch ≠ [] ↔
        BeginsDue debounceMinutes key before stretch) := by
    rintro key before stretch after rfl
    exact stretch_announced_iff hwindow (List.pairwise_append.1 h).1
  constructor
  · intro hannounced key before stretch after hsplit hstretch hdue
    rw [← hlasting key before stretch after hsplit]
    exact hannounced.lasting key before stretch after hsplit hstretch hdue
  · intro hbegins
    refine ⟨?_, ?_⟩
    · intro key
      have hspaced := sentAt_pairwise hwindow (h.looks .serviceUnhealthy key)
      rw [← outageNotices_times, List.pairwise_map] at hspaced
      exact hspaced
    · intro key before stretch after hsplit hstretch hdue
      rw [hlasting key before stretch after hsplit]
      exact hbegins key before stretch after hsplit hstretch hdue

/-- A pass some minutes after the start, and whether it reports the service of the example. -/
def serviceLook (minutes : Int) (down : Bool) : Pass where
  now := minutes * Backup.minute
  findings := [{
    event := .serviceUnhealthy
    conditions :=
      if down then [⟨.serviceUnhealthy, "caddy", "unhealthy", "caddy", "Service caddy is unhealthy.",
        []⟩]
      else []
    ofEvent := by cases down <;> simp }]

/-- Down, up after five minutes, down again after ten, and still down when the window is over. -/
def fallInsideWindow : List Pass :=
  [serviceLook 0 true, serviceLook 5 false] ++ [serviceLook 10 true, serviceLook 40 true]

theorem outagesAnnounced_iff_fallInsideWindow :
    OutagesAnnounced 30 fallInsideWindow ↔
      ∀ key before stretch after, fallInsideWindow = before ++ stretch ++ after →
        Stretch key before stretch after →
        (∃ pass ∈ stretch, Due 30 key before pass.now) → BeginsDue 30 key before stretch :=
  outagesAnnounced_iff (by decide) (by unfold Increasing; decide)

/-- The outage of the example is never announced. -/
theorem lasting_outage_not_announced :
    ¬∀ debounceMinutes passes, debounceWindow debounceMinutes ≤ forgetAfter → Increasing passes →
      OutagesAnnounced debounceMinutes passes := by
  intro h
  have hannounced := h 30 fallInsideWindow (by decide) (by unfold Increasing; decide)
  refine hannounced.lasting "caddy" [serviceLook 0 true, serviceLook 5 false]
    [serviceLook 10 true, serviceLook 40 true] [] rfl ⟨?_, ?_, by simp⟩ ?_ (by rfl)
  · intro pass hpass
    rcases List.mem_cons.1 hpass with rfl | hpass
    · exact ⟨_, List.mem_singleton_self _, rfl, _, List.mem_singleton_self _, rfl⟩
    · rw [List.mem_singleton.1 hpass]
      exact ⟨_, List.mem_singleton_self _, rfl, _, List.mem_singleton_self _, rfl⟩
  · intro pass hpass
    obtain rfl : serviceLook 5 false = pass := by simpa using hpass
    simp [Pass.Reports, serviceLook]
  · refine ⟨serviceLook 40 true, by simp, ?_⟩
    unfold Due
    decide

/-! ### Passes with one finding about all services -/

/-- A pass as `service_findings` makes it: one finding that is complete for every service. -/
def Pass.Whole (pass : Pass) : Prop :=
  ∃ f, pass.findings.filter (fun f => f.event == .serviceUnhealthy) = [f] ∧ f.scope = ""

/-- A whole pass is one look at a service. -/
theorem Pass.Whole.looks {pass : Pass} (h : pass.Whole) (key : String) :
    ∃ skipped look rest,
      pass.looks .serviceUnhealthy key = skipped ++ (pass.now, look) :: rest ∧
      (∀ x ∈ skipped, x.2 = .unread) ∧ (∀ x ∈ rest, x.2 = .unread) ∧
      ((∃ marker, look = .present marker) ∧ pass.Reports key ∨
        look = .absent ∧ ¬pass.Reports key) := by
  obtain ⟨f, hfilter, hscope⟩ := h
  obtain ⟨one, two, hsplit, hone, hf, htwo⟩ := List.filter_eq_cons_iff.1 hfilter
  have hunread : ∀ other : Finding, (other.event == .serviceUnhealthy) ≠ true →
      other.look .serviceUnhealthy key = .unread := by
    intro other hother
    exact if_neg (by simpa using hother)
  have hevent : f.event = .serviceUnhealthy := by simpa using hf
  have htwo' := List.filter_eq_nil_iff.1 htwo
  refine ⟨one.map fun other => (pass.now, other.look .serviceUnhealthy key),
    f.look .serviceUnhealthy key,
    two.map fun other => (pass.now, other.look .serviceUnhealthy key), ?_, ?_, ?_, ?_⟩
  · simp [Pass.looks, hsplit]
  · rw [List.forall_mem_map]
    exact fun other hother => hunread other (hone other hother)
  · rw [List.forall_mem_map]
    exact fun other hother => hunread other (htwo' other hother)
  · cases hfound : f.condition? key with
    | some c =>
        have hkey : c.key = key := by simpa using List.find?_some hfound
        have hmem := mem_current (List.mem_of_find?_eq_some hfound)
        refine .inl ⟨⟨c.marker, by simp [Finding.look, hevent, hfound]⟩, f, ?_, hevent, c, hmem,
          hkey⟩
        rw [hsplit]
        simp
    | none =>
        refine .inr ⟨by simp [Finding.look, hevent, hfound, hscope, Text.startsWith], ?_⟩
        rintro ⟨other, hother, hservice, c, hc, hkey⟩
        have hsame : other = f := by
          have hmem : other ∈ pass.findings.filter fun f => f.event == .serviceUnhealthy :=
            List.mem_filter.2 ⟨hother, by simp [hservice]⟩
          rw [hfilter] at hmem
          exact List.mem_singleton.1 hmem
        subst hsame
        exact condition?_eq_none_iff.1 hfound c hc hkey

/-- What the looks of a whole pass leave of a service being lost. -/
theorem Pass.Whole.lostAfter_looks {pass : Pass} (h : pass.Whole) {key : String} (lost : Bool) :
    lostAfter lost ((pass.looks .serviceUnhealthy key).map Prod.snd) = false ↔
      pass.Reports key := by
  obtain ⟨skipped, look, rest, hlooks, hskipped, hrest, hlook⟩ := h.looks key
  have hquiet : ∀ look ∈ rest.map Prod.snd, look = .unread := by
    rw [List.forall_mem_map]
    exact hrest
  rw [hlooks, List.map_append, lostAfter_append, List.map_cons]
  rcases hlook with ⟨⟨marker, rfl⟩, hreports⟩ | ⟨rfl, hreports⟩
  · simp [lostAfter, lostAfter_of_unread hquiet, hreports]
  · simp [lostAfter, lostAfter_of_unread hquiet, hreports]

theorem absent_notMem_looks {pass : Pass} (h : pass.Whole) {key : String}
    (hreports : pass.Reports key) :
    .absent ∉ (pass.looks .serviceUnhealthy key).map Prod.snd := by
  obtain ⟨skipped, look, rest, hlooks, hskipped, hrest, hlook⟩ := h.looks key
  rw [hlooks, List.map_append, List.map_cons, List.mem_append, List.mem_cons]
  rintro (hmem | hsame | hmem)
  · obtain ⟨x, hx, habsent⟩ := List.mem_map.1 hmem
    simp [hskipped x hx] at habsent
  · rcases hlook with ⟨⟨marker, rfl⟩, -⟩ | ⟨-, hnot⟩
    · cases hsame
    · exact hnot hreports
  · obtain ⟨x, hx, habsent⟩ := List.mem_map.1 hmem
    simp [hrest x hx] at habsent

/-- With one finding for all services a stretch begins an outage at its first pass. -/
theorem beginsDue_iff_first {key : String} {before stretch after : List Pass}
    (hwhole : ∀ pass ∈ before ++ stretch, pass.Whole)
    (hstretch : Stretch key before stretch after) :
    BeginsDue debounceMinutes key before stretch ↔
      ∃ first ∈ stretch.head?, Due debounceMinutes key before first.now := by
  have hlost : lostAfter true
      ((before.flatMap (Pass.looks .serviceUnhealthy key)).map Prod.snd) = true := by
    rcases List.eq_nil_or_concat before with rfl | ⟨earlier, last, rfl⟩
    · rfl
    · have hlast : last.Whole := hwhole last (by simp)
      have hnot := hstretch.started last (by simp)
      rw [← hlast.lostAfter_looks (lostAfter true
        ((earlier.flatMap (Pass.looks .serviceUnhealthy key)).map Prod.snd))] at hnot
      simpa [lostAfter_append] using hnot
  cases stretch with
  | nil =>
      simp [BeginsDue]
  | cons first others =>
      have hfirst : first.Whole := hwhole first (by simp)
      have hreports := hstretch.reported first (List.mem_cons_self ..)
      simp only [List.head?_cons, Option.mem_def, Option.some.injEq, exists_eq_left']
      constructor
      · rintro ⟨skipped, now, marker, rest, hsplit, hbegins, hdue⟩
        have hother : ∀ more, skipped = first.looks .serviceUnhealthy key ++ more →
            .absent ∉ more.map Prod.snd → False := by
          rintro more rfl hmore
          rw [List.map_append, lostAfter_append, hlost, List.map_append, lostAfter_append,
            (hfirst.lostAfter_looks true).2 hreports, lostAfter_of_not_absent hmore] at hbegins
          exact Bool.false_ne_true hbegins
        rw [List.flatMap_cons, eq_comm, List.append_eq_append_iff] at hsplit
        rcases hsplit with ⟨head, hhead, htail⟩ | ⟨more, hmore, hothers⟩
        · cases head with
          | nil => exact (hother [] (by simpa using hhead.symm) (by simp)).elim
          | cons x head =>
              obtain ⟨rfl, -⟩ := List.cons.inj htail
              have hnow := time_of_mem_looks (hhead ▸ List.mem_append_right _
                (List.mem_cons_self ..) : _ ∈ first.looks .serviceUnhealthy key)
              exact hnow ▸ hdue
        · refine (hother more hmore ?_).elim
          intro habsent
          obtain ⟨x, hx, hxabsent⟩ := List.mem_map.1 habsent
          have hmem : x ∈ others.flatMap (Pass.looks .serviceUnhealthy key) := by
            rw [hothers]
            exact List.mem_append_left _ hx
          obtain ⟨pass, hpass, hlook⟩ := List.mem_flatMap.1 hmem
          exact absent_notMem_looks (hwhole pass (by simp [hpass]))
            (hstretch.reported pass (List.mem_cons_of_mem _ hpass))
            (List.mem_map.2 ⟨x, hlook, hxabsent⟩)
      · intro hdue
        obtain ⟨skipped, look, rest, hlooks, hskipped, -, hlook⟩ := hfirst.looks key
        rcases hlook with ⟨⟨marker, rfl⟩, -⟩ | ⟨-, hnot⟩
        · refine ⟨skipped, first.now, marker,
            rest ++ others.flatMap (Pass.looks .serviceUnhealthy key), ?_, ?_, hdue⟩
          · simp [List.flatMap_cons, hlooks]
          · rw [List.map_append, lostAfter_append, hlost, lostAfter_of_unread]
            rw [List.forall_mem_map]
            exact hskipped
        · exact absurd hreports hnot

end Papaia.Notifications
