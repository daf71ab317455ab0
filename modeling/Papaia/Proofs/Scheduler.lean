/-
Module: Papaia.Proofs.Scheduler
Purpose: When the scheduler starts a backup only while it is wanted.  `fire` looks at the schedule,
  at Docker and at the queue before its awaits and not again after them, so nobody else may change
  what it has seen; the number of tries of a due run is bounded in every order of steps.
Trusted boundary: none
Main exports: AtMostAsStrict, Wanted, NothingStale, Bounded, Promise, Undisturbed, bounded_reached,
  scheduler_starts_wanted
-/
import Papaia.Backup.Scheduler
import Papaia.Lib.Runs

namespace Papaia.Backup

open Runs

/-! ### The promise and its condition -/

/-- A backup with the first retention deletes no more than one with the second. -/
def AtMostAsStrict (passed planned : Option Int) : Prop :=
  ∀ days, passed = some days → ∃ other, planned = some other ∧ other ≤ days

/-- A backup that goes into the queue now is wanted by the stored schedule, and nothing is in its
way. -/
structure Wanted (env : Surroundings) (s : State) (now : Int) (backup : Started) : Prop where
  schedule : ∃ stored, s.stored = some stored ∧ stored.enabled = true ∧
    AtMostAsStrict backup.job.retentionDays (env.plan stored s.catalogue now).days
  idle : activeJob s.jobs = none
  current : backup.attempt.era = s.era

/-- What is planned belongs to the stored schedule. -/
structure NothingStale (s : State) : Prop where
  scheduled : s.scheduled = active s.stored
  retry : ∀ planned, s.retry = some planned → planned.attempt.era = s.era
  catchup : ∀ planned, s.catchup = some planned → planned.attempt.era = s.era

/-- How many backups a due run has caused. -/
def State.backupsOf (s : State) (due : Nat) : Nat :=
  s.started.countP fun backup => backup.attempt.due = due

/-- No due run has had too many tries or more than one backup. -/
def Bounded (s : State) : Prop :=
  ∀ due, s.fired.count due ≤ maxAttempts ∧ s.backupsOf due ≤ 1

/-- What the scheduler promises in a state: the backup of its next step is wanted, nothing stale is
planned, and no due run has got too much. -/
structure Promise (env : Surroundings) (s : State) : Prop where
  wanted : ∀ e s' backup, step env s e = some s' → s'.started = s.started ++ [backup] →
    ∃ slot now, e = .resume slot now ∧ s'.jobs = s.jobs ++ [backup.job] ∧ Wanted env s now backup
  fresh : NothingStale s
  bounded : Bounded s

/-- The time of the newest successful restore point. -/
def newestTime (calendar : Calendar) (points : List RestorePoint) : Option Int :=
  (newestSuccessful calendar points).bind (restorePointTime calendar)

/-- The newest success of one catalogue is not lost in another one. -/
def KeepsNewest (calendar : Calendar) (before after : List RestorePoint) : Prop :=
  ∀ taken, newestTime calendar before = some taken →
    ∃ later, newestTime calendar after = some later ∧ taken ≤ later

/-- Whether a call has looked at the queue and has not ended. -/
def Phase.pastQueue : Phase → Bool
  | .submitted | .docker _ _ => false
  | .reading _ _ | .read _ _ _ => true

/-- The call of a job has looked at the queue. -/
def State.PastQueue (s : State) (slot : Slot) : Prop :=
  ∃ flight, s.running slot = some flight ∧ flight.phase.pastQueue = true

/-- Nobody changes what a call has looked at: the schedule while a call is under way, the queue
after the call has looked at it, and the newest success of the catalogue after the call has read
it. -/
def Undisturbed (env : Surroundings) (s : State) : Event → Prop
  | .save new => new = s.stored ∨ ∀ slot, s.running slot = none
  | .otherJob _ => ∀ slot, ¬ s.PastQueue slot
  | .rewrite catalogue => ∀ slot attempt current backupDir points,
      s.running slot = some ⟨attempt, .read current backupDir points⟩ →
        KeepsNewest env.calendar points catalogue
  | .resume slot _ => ∀ other, other ≠ slot → ¬ s.PastQueue other
  | _ => True

/-! ### The tries of a due run -/

/-- The weight of a call of `fire`; the flag says whether the try has begun. -/
def flightWeight (f : Attempt → Bool → Nat) (flight : Option Flight) : Nat :=
  flight.elim 0 fun flight => f flight.attempt (flight.phase ≠ .submitted)

def plannedWeight (f : Attempt → Bool → Nat) (planned : Option Planned) : Nat :=
  planned.elim 0 fun planned => f planned.attempt false

/-- The weight of the tries that are planned or under way. -/
def weigh (f : Attempt → Bool → Nat) (s : State) : Nat :=
  plannedWeight f s.retry + plannedWeight f s.catchup +
    (flightWeight f (s.running .schedule) + flightWeight f (s.running .retry) +
      flightWeight f (s.running .catchup))

theorem weigh_become (f : Attempt → Bool → Nat) (s : State) (slot : Slot)
    (flight : Option Flight) :
    weigh f (s.become slot flight) + flightWeight f (s.running slot) =
      weigh f s + flightWeight f flight := by
  cases slot <;> simp [weigh, State.become] <;> omega

@[simp] theorem become_fired (s : State) (slot : Slot) (flight : Option Flight) :
    (s.become slot flight).fired = s.fired := rfl

@[simp] theorem become_started (s : State) (slot : Slot) (flight : Option Flight) :
    (s.become slot flight).started = s.started := rfl

@[simp] theorem become_nextDue (s : State) (slot : Slot) (flight : Option Flight) :
    (s.become slot flight).nextDue = s.nextDue := rfl

/-- What a skip changes: the audit log and the planned retry. -/
theorem skip_eq (s : State) (attempt : Attempt) (reason : String) (backupDir : Option String)
    (now : Int) :
    ∃ audit retry, s.skip attempt reason backupDir now = { s with audit := audit, retry := retry } ∧
      (maxAttempts ≤ attempt.number ∧ retry = s.retry ∨
        ∃ planned, retry = some planned ∧ planned.attempt.due = attempt.due ∧
          planned.attempt.era = attempt.era ∧ planned.attempt.number = attempt.number + 1) := by
  unfold State.skip
  split
  · rename_i hlast
    exact ⟨_, _, rfl, .inl ⟨hlast, rfl⟩⟩
  · exact ⟨_, _, rfl, .inr ⟨_, rfl, rfl, rfl, rfl⟩⟩

@[simp] theorem skip_fired (s : State) (attempt : Attempt) (reason : String)
    (backupDir : Option String) (now : Int) :
    (s.skip attempt reason backupDir now).fired = s.fired := by
  obtain ⟨_, _, hskip, _⟩ := skip_eq s attempt reason backupDir now
  rw [hskip]

@[simp] theorem skip_started (s : State) (attempt : Attempt) (reason : String)
    (backupDir : Option String) (now : Int) :
    (s.skip attempt reason backupDir now).started = s.started := by
  obtain ⟨_, _, hskip, _⟩ := skip_eq s attempt reason backupDir now
  rw [hskip]

@[simp] theorem skip_nextDue (s : State) (attempt : Attempt) (reason : String)
    (backupDir : Option String) (now : Int) :
    (s.skip attempt reason backupDir now).nextDue = s.nextDue := by
  obtain ⟨_, _, hskip, _⟩ := skip_eq s attempt reason backupDir now
  rw [hskip]

@[simp] theorem skip_running (s : State) (attempt : Attempt) (reason : String)
    (backupDir : Option String) (now : Int) :
    (s.skip attempt reason backupDir now).running = s.running := by
  obtain ⟨_, _, hskip, _⟩ := skip_eq s attempt reason backupDir now
  rw [hskip]

/-- A weight that the next try does not exceed. -/
def Falls (f : Attempt → Bool → Nat) : Prop :=
  ∀ a b : Attempt, b.due = a.due → b.number = a.number + 1 → f b false ≤ f a true

/-- A call that ends with a skip hands on no more than it had. -/
theorem weigh_skip_become_le {f : Attempt → Bool → Nat} (falls : Falls f) {s : State} {slot : Slot}
    {attempt : Attempt} {phase : Phase} (h : s.running slot = some ⟨attempt, phase⟩)
    (reason : String) (backupDir : Option String) (now : Int) :
    weigh f ((s.skip attempt reason backupDir now).become slot none) +
      f attempt (phase ≠ .submitted) ≤ weigh f s + f attempt true := by
  have hbecome := weigh_become f (s.skip attempt reason backupDir now) slot none
  have hskip : weigh f (s.skip attempt reason backupDir now) ≤ weigh f s + f attempt true := by
    obtain ⟨audit, retry, heq, hretry⟩ := skip_eq s attempt reason backupDir now
    rw [heq]
    rcases hretry with ⟨_, rfl⟩ | ⟨planned, rfl, hdue, _, hnumber⟩
    · exact Nat.le_add_right _ _
    · have := falls attempt planned.attempt hdue hnumber
      simp only [weigh, plannedWeight, Option.elim]
      omega
  rw [skip_running, h] at hbecome
  simp only [flightWeight, Option.elim] at hbecome
  omega

/-- What a call weighs when it begins: as a try that has begun, or nothing any more. -/
theorem weigh_begins_le {f : Attempt → Bool → Nat} (falls : Falls f) {s : State} {slot : Slot}
    {attempt : Attempt} (h : s.running slot = some ⟨attempt, .submitted⟩)
    (backupDir : Option String) (reachable : Bool) (now : Int) :
    weigh f (s.begins slot attempt backupDir reachable now) + f attempt false ≤
      weigh f s + f attempt true := by
  have hbegun : ∀ flight, weigh f (State.become { s with fired := s.fired ++ [attempt.due] } slot
      flight) + f attempt false = weigh f s + flightWeight f flight := fun flight => by
    have hbecome := weigh_become f { s with fired := s.fired ++ [attempt.due] } slot flight
    rw [h] at hbecome
    exact hbecome
  unfold State.begins
  dsimp only
  split
  · have hweight := hbegun none
    simp only [flightWeight, Option.elim] at hweight
    omega
  · split
    · exact weigh_skip_become_le falls (s := { s with fired := s.fired ++ [attempt.due] }) h _ _ _
    · rename_i current _ _ dir _
      exact Nat.le_of_eq (hbegun (some ⟨attempt, .docker current dir⟩))

theorem begins_counts (s : State) (slot : Slot) (attempt : Attempt) (backupDir : Option String)
    (reachable : Bool) (now : Int) :
    (s.begins slot attempt backupDir reachable now).fired = s.fired ++ [attempt.due] ∧
      (s.begins slot attempt backupDir reachable now).started = s.started ∧
      (s.begins slot attempt backupDir reachable now).nextDue = s.nextDue := by
  unfold State.begins
  split
  · exact ⟨rfl, rfl, rfl⟩
  · split <;> simp

/-- Docker's answer gives a call no more than it had. -/
theorem weigh_afterDocker_le {f : Attempt → Bool → Nat} (falls : Falls f) {s : State} {slot : Slot}
    {attempt : Attempt} {current : BackupSchedule} {backupDir : String}
    (h : s.running slot = some ⟨attempt, .docker current backupDir⟩)
    (blocking : Option BlockingRunner) (now : Int) :
    weigh f (s.afterDocker slot attempt current backupDir blocking now) ≤ weigh f s := by
  have hskip := fun reason => weigh_skip_become_le falls h reason backupDir now
  unfold State.afterDocker
  split
  · exact Nat.le_of_add_le_add_right (hskip _)
  · split
    · exact Nat.le_of_add_le_add_right (hskip _)
    · have hbecome := weigh_become f s slot (some ⟨attempt, .reading current backupDir⟩)
      rw [h] at hbecome
      exact Nat.le_of_add_le_add_right (Nat.le_of_eq hbecome)

theorem afterDocker_counts (s : State) (slot : Slot) (attempt : Attempt) (current : BackupSchedule)
    (backupDir : String) (blocking : Option BlockingRunner) (now : Int) :
    (s.afterDocker slot attempt current backupDir blocking now).fired = s.fired ∧
      (s.afterDocker slot attempt current backupDir blocking now).started = s.started ∧
      (s.afterDocker slot attempt current backupDir blocking now).nextDue = s.nextDue := by
  unfold State.afterDocker
  split
  · simp
  · split <;> simp

theorem weigh_enqueue (f : Attempt → Bool → Nat) {s : State} {slot : Slot} {attempt : Attempt}
    {current : BackupSchedule} {backupDir : String} {points : List RestorePoint}
    (h : s.running slot = some ⟨attempt, .read current backupDir points⟩) (job : Job) :
    weigh f (s.enqueue slot attempt job) + f attempt true = weigh f s := by
  have hbecome := weigh_become f
    { s with jobs := s.jobs ++ [job], started := s.started ++ [⟨attempt, job⟩] } slot none
  rw [h] at hbecome
  exact hbecome

/-- A task takes over what was planned, or it is lost. -/
theorem weigh_submit_le (f : Attempt → Bool → Nat) (s : State) (slot : Slot) (planned : Planned)
    (now : Int) : weigh f (s.submit slot planned now) ≤ weigh f s + f planned.attempt false := by
  unfold State.submit
  split
  · exact Nat.le_add_right _ _
  · have hbecome := weigh_become f s slot (some ⟨planned.attempt, .submitted⟩)
    exact Nat.le_trans (Nat.le_add_right _ _) (Nat.le_of_eq hbecome)

theorem submit_counts (s : State) (slot : Slot) (planned : Planned) (now : Int) :
    (s.submit slot planned now).fired = s.fired ∧ (s.submit slot planned now).started = s.started ∧
      (s.submit slot planned now).nextDue = s.nextDue := by
  unfold State.submit
  split <;> exact ⟨rfl, rfl, rfl⟩

/-! ### The account of a due run -/

/-- The tries a due run has left, of what carries it. -/
def left (due : Nat) (attempt : Attempt) (begun : Bool) : Nat :=
  if attempt.due = due then maxAttempts + (if begun then 0 else 1) - attempt.number else 0

/-- Whether a due run is carried. -/
def carried (due : Nat) (attempt : Attempt) (_ : Bool) : Nat :=
  if attempt.due = due then 1 else 0

theorem left_falls (due : Nat) : Falls (left due) := by
  intro a b hdue hnumber
  simp only [left, hdue, hnumber]
  split <;> simp

theorem carried_falls (due : Nat) : Falls (carried due) := by
  intro a b hdue _
  simp [carried, hdue]

/-- A try that begins is one less. -/
theorem left_begins (due : Nat) (attempt : Attempt) :
    left due attempt true + [attempt.due].count due = left due attempt false := by
  have := attempt.within
  by_cases h : attempt.due = due
  · simp [left, h]
    omega
  · simp [left, h]

/-- The account of a due run: the tries it had and has left, its backups and what may still make
one; and a run that has not come due has none of these. -/
structure Account (s : State) (due : Nat) : Prop where
  tries : s.fired.count due + weigh (left due) s ≤ maxAttempts
  backups : s.backupsOf due + weigh (carried due) s ≤ 1
  unknown : s.nextDue ≤ due →
    s.fired.count due + weigh (left due) s = 0 ∧ s.backupsOf due + weigh (carried due) s = 0

/-- A step that adds to neither sum keeps the account. -/
theorem Account.of_le {s t : State} {due : Nat} (h : Account s due)
    (tries : t.fired.count due + weigh (left due) t ≤ s.fired.count due + weigh (left due) s)
    (backups : t.backupsOf due + weigh (carried due) t ≤ s.backupsOf due + weigh (carried due) s)
    (next : t.nextDue = s.nextDue) : Account t due where
  tries := Nat.le_trans tries h.tries
  backups := Nat.le_trans backups h.backups
  unknown hdue := by
    obtain ⟨htries, hbackups⟩ := h.unknown (next ▸ hdue)
    omega

/-- A step that changes nothing of the scheduler keeps the account. -/
theorem Account.same {s t : State} {due : Nat} (h : Account s due) (fired : t.fired = s.fired)
    (started : t.started = s.started) (next : t.nextDue = s.nextDue)
    (weight : ∀ f, Falls f → weigh f t ≤ weigh f s) : Account t due := by
  refine h.of_le ?_ ?_ next
  · rw [fired]
    exact Nat.add_le_add_left (weight _ (left_falls due)) _
  · rw [State.backupsOf, started]
    exact Nat.add_le_add_left (weight _ (carried_falls due)) _

theorem weigh_fresh_schedule (f : Attempt → Bool → Nat) {s : State}
    (h : s.running .schedule = none) (next : Nat) (attempt : Attempt) :
    weigh f (State.become { s with nextDue := next } .schedule (some ⟨attempt, .submitted⟩)) =
      weigh f s + f attempt false := by
  have hbecome :=
    weigh_become f { s with nextDue := next } .schedule (some ⟨attempt, .submitted⟩)
  rw [h] at hbecome
  exact hbecome

/-- A run that comes due opens its account, and no other account changes. -/
theorem account_fresh {s : State} {due : Nat} (h : Account s due)
    (hidle : s.running .schedule = none) (first : Attempt) (hdue : first.due = s.nextDue)
    (hnumber : first.number = 1) :
    Account (State.become { s with nextDue := s.nextDue + 1 } .schedule
      (some ⟨first, .submitted⟩)) due := by
  have htries := weigh_fresh_schedule (left due) hidle (s.nextDue + 1) first
  have hcarried := weigh_fresh_schedule (carried due) hidle (s.nextDue + 1) first
  obtain ⟨hkeptTries, hkeptBackups, hunknown⟩ := h
  by_cases hown : s.nextDue = due
  · obtain ⟨hnoTries, hnoBackups⟩ := hunknown (Nat.le_of_eq hown)
    have hleft : left due first false = maxAttempts := by simp [left, hdue, hown, hnumber]
    have hone : carried due first false = 1 := by simp [carried, hdue, hown]
    refine ⟨?_, ?_, fun hle => ?_⟩
    · simp only [become_fired]
      omega
    · simp only [State.backupsOf, become_started] at hnoBackups ⊢
      omega
    · simp only [become_nextDue] at hle
      omega
  · have hleft : left due first false = 0 := by simp [left, hdue, hown]
    have hone : carried due first false = 0 := by simp [carried, hdue, hown]
    refine ⟨?_, ?_, fun hle => ?_⟩
    · simp only [become_fired]
      omega
    · simp only [State.backupsOf, become_started] at hkeptBackups ⊢
      omega
    · simp only [become_nextDue] at hle
      have hnone := hunknown (by omega)
      simp only [State.backupsOf, become_started, become_fired] at hnone ⊢
      omega

/-- Every step keeps every account. -/
theorem account_step {env : Surroundings} {s s' : State} {e : Event} {due : Nat}
    (h : Account s due) (taken : step env s e = some s') : Account s' due := by
  cases e with
  | save new =>
      obtain rfl := Option.some.inj taken
      refine h.same rfl rfl rfl fun f _ => ?_
      simp only [weigh, State.apply, plannedWeight, Option.elim]
      omega
  | otherJob job | work succeeds | rewrite points =>
      obtain rfl := Option.some.inj taken
      exact h.same rfl rfl rfl fun f _ => Nat.le_refl _
  | comesDue slot now =>
      cases slot with
      | schedule =>
          simp only [step] at taken
          split at taken
          · cases taken
          · rename_i hidle
            obtain rfl := Option.some.inj taken
            simp only [Bool.or_eq_true, not_or, Bool.not_eq_true, Option.isSome_eq_false_iff,
              Option.isNone_iff_eq_none] at hidle
            exact account_fresh h hidle.2 _ rfl rfl
      | retry =>
          simp only [step] at taken
          split at taken
          · cases taken
          · rename_i planned hplanned
            split at taken
            · cases taken
            · obtain rfl := Option.some.inj taken
              obtain ⟨hfired, hstarted, hnext⟩ :=
                submit_counts { s with retry := none } .retry planned now
              refine h.same hfired hstarted hnext fun f _ => ?_
              refine Nat.le_trans (weigh_submit_le f _ _ _ _) ?_
              simp only [weigh, plannedWeight, hplanned, Option.elim]
              omega
      | catchup =>
          simp only [step] at taken
          split at taken
          · cases taken
          · rename_i planned hplanned
            split at taken
            · cases taken
            · obtain rfl := Option.some.inj taken
              obtain ⟨hfired, hstarted, hnext⟩ :=
                submit_counts { s with catchup := none } .catchup planned now
              refine h.same hfired hstarted hnext fun f _ => ?_
              refine Nat.le_trans (weigh_submit_le f _ _ _ _) ?_
              simp only [weigh, plannedWeight, hplanned, Option.elim]
              omega
  | begins slot backupDir reachable now =>
      simp only [step] at taken
      split at taken
      · rename_i attempt hrunning
        obtain rfl := Option.some.inj taken
        obtain ⟨hfired, hstarted, hnext⟩ := begins_counts s slot attempt backupDir reachable now
        refine h.of_le ?_ ?_ hnext
        · have hweight := weigh_begins_le (left_falls due) hrunning backupDir reachable now
          have hone := left_begins due attempt
          rw [hfired, List.count_append]
          omega
        · have hweight := weigh_begins_le (carried_falls due) hrunning backupDir reachable now
          rw [State.backupsOf, hstarted]
          exact Nat.add_le_add_left (Nat.le_of_add_le_add_right hweight) _
      · cases taken
  | answered slot restore upgrade now =>
      simp only [step] at taken
      split at taken
      · rename_i attempt current backupDir hrunning
        obtain rfl := Option.some.inj taken
        obtain ⟨hfired, hstarted, hnext⟩ := afterDocker_counts s slot attempt current backupDir
          (blockingRunner restore upgrade) now
        exact h.same hfired hstarted hnext fun f falls => weigh_afterDocker_le falls hrunning _ _
      · cases taken
  | load slot =>
      simp only [step] at taken
      split at taken
      · rename_i attempt current backupDir hrunning
        obtain rfl := Option.some.inj taken
        refine h.same rfl rfl rfl fun f _ => ?_
        have hbecome := weigh_become f s slot
          (some ⟨attempt, .read current backupDir s.catalogue⟩)
        rw [hrunning] at hbecome
        exact Nat.le_of_add_le_add_right (Nat.le_of_eq hbecome)
      · cases taken
  | resume slot now =>
      simp only [step] at taken
      split at taken
      · rename_i attempt current backupDir points hrunning
        obtain rfl := Option.some.inj taken
        refine h.of_le ?_ ?_ rfl
        · have hweight := weigh_enqueue (left due) hrunning
            (scheduledBackup env current backupDir points now)
          exact Nat.add_le_add_left (Nat.le_trans (Nat.le_add_right _ _) (Nat.le_of_eq hweight)) _
        · have hweight := weigh_enqueue (carried due) hrunning
            (scheduledBackup env current backupDir points now)
          simp only [carried] at hweight
          simp only [State.backupsOf, State.enqueue, become_started, List.countP_append,
            List.countP_singleton, decide_eq_true_eq] at hweight ⊢
          omega
      · cases taken

theorem account_start (env : Surroundings) (stored : Option BackupSchedule) (jobs : List Job)
    (points : List RestorePoint) (now : Int) (due : Nat) :
    Account (startScheduler env stored jobs points now) due := by
  refine ⟨?_, ?_, fun hle => ?_⟩
  all_goals
    unfold startScheduler at *
    dsimp only at *
    split
  all_goals simp [weigh, plannedWeight, flightWeight, left, carried, State.backupsOf]
  · split <;> omega
  · split <;> omega
  · omega

/-- Every due run keeps its account. -/
def Accounted (s : State) : Prop :=
  ∀ due, Account s due

/-- However the steps follow one another, a due run has at most `MAX_ATTEMPTS` tries and one
backup. -/
theorem bounded_reached (env : Surroundings) (stored : Option BackupSchedule) (jobs : List Job)
    (points : List RestorePoint) (now : Int) {s : State}
    (reached : Reaches (step env) (fun _ _ => True) (startScheduler env stored jobs points now) s) :
    Bounded s := by
  have haccounts : Accounted s := by
    refine reached.invariant ?_ ?_
    · exact account_start env stored jobs points now
    · exact fun s e s' h _ taken due => account_step (h due) taken
  exact fun due => ⟨Nat.le_trans (Nat.le_add_right _ _) (haccounts due).tries,
    Nat.le_trans (Nat.le_add_right _ _) (haccounts due).backups⟩

/-! ### What a call has seen -/

/-- What a call has seen still holds. -/
def Phase.Holds (env : Surroundings) (s : State) : Phase → Prop
  | .submitted => True
  | .docker current _ => active s.stored = some current
  | .reading current _ => active s.stored = some current ∧ activeJob s.jobs = none
  | .read current _ points =>
      active s.stored = some current ∧ activeJob s.jobs = none ∧
        KeepsNewest env.calendar points s.catalogue

/-- Nothing stale is planned, and every call under way belongs to the stored schedule and has seen
what still holds. -/
structure Standing (env : Surroundings) (s : State) : Prop where
  fresh : NothingStale s
  flights : ∀ slot flight, s.running slot = some flight →
    flight.attempt.era = s.era ∧ flight.phase.Holds env s

theorem keepsNewest_refl (calendar : Calendar) (points : List RestorePoint) :
    KeepsNewest calendar points points :=
  fun taken h => ⟨taken, h, Int.le_refl _⟩

/-- A retention that is planned from a catalogue whose newest success is not lost since is no
stricter than one that is planned now. -/
theorem atMostAsStrict_of_keepsNewest {env : Surroundings} {points catalogue : List RestorePoint}
    (h : KeepsNewest env.calendar points catalogue) (schedule : BackupSchedule) (now : Int) :
    AtMostAsStrict (env.plan schedule points now).days (env.plan schedule catalogue now).days := by
  intro days hpassed
  unfold Surroundings.plan planRetention at hpassed
  split at hpassed
  · cases hpassed
  · rename_i wanted hwanted
    split at hpassed
    · cases hpassed
    · rename_i taken htaken
      split at hpassed
      · cases hpassed
      · rename_i hrecent
        obtain rfl := Option.some.inj hpassed
        obtain ⟨other, hother, hle⟩ := h taken htaken
        refine ⟨wanted, ?_, Int.le_refl _⟩
        unfold newestTime at hother
        unfold Surroundings.plan planRetention
        rw [hwanted]
        dsimp only
        rw [hother]
        dsimp only
        rw [if_neg (by omega)]

theorem active_eq_some {stored : Option BackupSchedule} {current : BackupSchedule}
    (h : active stored = some current) : stored = some current ∧ current.enabled = true :=
  Option.filter_eq_some_iff.1 h

/-- A step of the worker makes no job active that was not. -/
theorem activeJob_work {jobs : List Job} (h : activeJob jobs = none) (succeeds : Bool) :
    activeJob (work succeeds jobs) = none := by
  have hdone : ∀ job ∈ jobs, job.status ≠ .queued ∧ job.status ≠ .running := fun job hmem => by
    have := List.find?_eq_none.1 h job hmem
    simpa [Job.isActive] using this
  have hstill : ∀ source target, source = .queued ∨ source = .running →
      moveFirst source target jobs = jobs := by
    intro source target hsource
    clear h
    induction jobs with
    | nil => rfl
    | cons job rest ih =>
        obtain ⟨hqueued, hrunning⟩ := hdone job List.mem_cons_self
        have hother : job.status ≠ source := by
          rcases hsource with rfl | rfl <;> assumption
        rw [moveFirst, if_neg hother, ih fun other hmem => hdone other (List.mem_cons_of_mem _ hmem)]
  unfold work
  split
  · rw [hstill _ _ (.inr rfl)]
    exact h
  · rw [hstill _ _ (.inl rfl)]
    exact h

theorem NothingStale.same {s t : State} (h : NothingStale s) (stored : t.stored = s.stored)
    (era : t.era = s.era) (scheduled : t.scheduled = s.scheduled) (retry : t.retry = s.retry)
    (catchup : t.catchup = s.catchup) : NothingStale t where
  scheduled := by rw [scheduled, stored, h.scheduled]
  retry := by rw [retry, era]; exact h.retry
  catchup := by rw [catchup, era]; exact h.catchup

/-- A call that has not looked at the queue has seen the schedule only. -/
theorem holds_of_not_pastQueue {env : Surroundings} {s t : State} {phase : Phase}
    (h : phase.Holds env s) (hearly : phase.pastQueue = false) (hstored : t.stored = s.stored) :
    phase.Holds env t := by
  cases phase with
  | submitted => trivial
  | docker current backupDir => exact (congrArg active hstored).trans h
  | reading | read => cases hearly

theorem standing_start (env : Surroundings) (stored : Option BackupSchedule) (jobs : List Job)
    (points : List RestorePoint) (now : Int) :
    Standing env (startScheduler env stored jobs points now) where
  fresh :=
    { scheduled := rfl
      retry := fun planned h => by cases h
      catchup := fun planned h => by
        simp only [startScheduler, Option.ite_none_right_eq_some, Option.some.injEq] at h
        rw [← h.2]
        rfl }
  flights slot flight h := by cases h

/-- A task that belongs to the stored schedule and has seen what holds may be put on. -/
theorem Standing.become {env : Surroundings} {s : State} (h : Standing env s) (slot : Slot)
    {flight : Option Flight}
    (hflight : ∀ one, flight = some one → one.attempt.era = s.era ∧ one.phase.Holds env s) :
    Standing env (s.become slot flight) where
  fresh := h.fresh.same rfl rfl rfl rfl rfl
  flights other one hone := by
    by_cases hsame : other = slot
    · subst hsame
      simp only [State.become, Function.update_self] at hone
      exact hflight one hone
    · simp only [State.become, Function.update_of_ne hsame] at hone
      exact h.flights other one hone

/-- A retry of the stored schedule may be planned. -/
theorem Standing.skip {env : Surroundings} {s : State} (h : Standing env s) {attempt : Attempt}
    (hera : attempt.era = s.era) (reason : String) (backupDir : Option String) (now : Int) :
    Standing env (s.skip attempt reason backupDir now) := by
  obtain ⟨audit, retry, hskip, hretry⟩ := skip_eq s attempt reason backupDir now
  rw [hskip]
  refine ⟨⟨h.fresh.scheduled, fun planned hplanned => ?_, h.fresh.catchup⟩, h.flights⟩
  rcases hretry with ⟨_, rfl⟩ | ⟨next, rfl, _, hnext, _⟩
  · exact h.fresh.retry planned hplanned
  · obtain rfl := Option.some.inj hplanned
    exact hnext.trans hera

theorem Standing.submit {env : Surroundings} {s : State} (h : Standing env s) (slot : Slot)
    {planned : Planned} (hera : planned.attempt.era = s.era) (now : Int) :
    Standing env (s.submit slot planned now) := by
  unfold State.submit
  split
  · exact h
  · refine h.become slot fun one hone => ?_
    obtain rfl := Option.some.inj hone
    exact ⟨hera, trivial⟩

/-- An undisturbed step keeps what the calls have seen. -/
theorem standing_step {env : Surroundings} {s s' : State} {e : Event} (h : Standing env s)
    (ok : Undisturbed env s e) (taken : step env s e = some s') : Standing env s' := by
  have hnone : ∀ one : Flight, none = some one → one.attempt.era = s.era ∧ one.phase.Holds env s :=
    fun one hone => by cases hone
  cases e with
  | save new =>
      obtain rfl := Option.some.inj taken
      refine ⟨⟨rfl, fun planned hplanned => (by cases hplanned),
        fun planned hplanned => (by cases hplanned)⟩, fun slot flight hflight => ?_⟩
      rcases ok with rfl | hidle
      · obtain ⟨hera, hholds⟩ := h.flights slot flight hflight
        exact ⟨by simpa [State.apply] using hera, hholds⟩
      · cases (hidle slot).symm.trans hflight
  | otherJob job =>
      obtain rfl := Option.some.inj taken
      refine ⟨h.fresh.same rfl rfl rfl rfl rfl, fun slot flight hflight => ?_⟩
      obtain ⟨hera, hholds⟩ := h.flights slot flight hflight
      have hearly : flight.phase.pastQueue = false := by
        simpa using fun hpast => ok slot ⟨flight, hflight, hpast⟩
      exact ⟨hera, holds_of_not_pastQueue hholds hearly rfl⟩
  | work succeeds =>
      obtain rfl := Option.some.inj taken
      refine ⟨h.fresh.same rfl rfl rfl rfl rfl, fun slot flight hflight => ?_⟩
      obtain ⟨hera, hholds⟩ := h.flights slot flight hflight
      refine ⟨hera, ?_⟩
      cases hphase : flight.phase with
      | submitted => trivial
      | docker current backupDir =>
          rw [hphase] at hholds
          exact hholds
      | reading current backupDir =>
          rw [hphase] at hholds
          exact ⟨hholds.1, activeJob_work hholds.2 succeeds⟩
      | read current backupDir points =>
          rw [hphase] at hholds
          exact ⟨hholds.1, activeJob_work hholds.2.1 succeeds, hholds.2.2⟩
  | rewrite catalogue =>
      obtain rfl := Option.some.inj taken
      refine ⟨h.fresh.same rfl rfl rfl rfl rfl, fun slot flight hflight => ?_⟩
      obtain ⟨hera, hholds⟩ := h.flights slot flight hflight
      refine ⟨hera, ?_⟩
      obtain ⟨attempt, phase⟩ := flight
      cases phase with
      | submitted => trivial
      | docker current backupDir | reading current backupDir => exact hholds
      | read current backupDir points =>
          exact ⟨hholds.1, hholds.2.1, ok slot attempt current backupDir points hflight⟩
  | comesDue slot now =>
      cases slot with
      | schedule =>
          simp only [step] at taken
          split at taken
          · cases taken
          · obtain rfl := Option.some.inj taken
            refine Standing.become (s := { s with nextDue := s.nextDue + 1 }) 
              ⟨h.fresh.same rfl rfl rfl rfl rfl, h.flights⟩ .schedule fun one hone => ?_
            obtain rfl := Option.some.inj hone
            exact ⟨rfl, trivial⟩
      | retry =>
          simp only [step] at taken
          split at taken
          · cases taken
          · rename_i planned hplanned
            split at taken
            · cases taken
            · obtain rfl := Option.some.inj taken
              have hrest : Standing env { s with retry := none } :=
                ⟨⟨h.fresh.scheduled, fun _ hother => (by cases hother), h.fresh.catchup⟩, h.flights⟩
              exact hrest.submit .retry (h.fresh.retry planned hplanned) now
      | catchup =>
          simp only [step] at taken
          split at taken
          · cases taken
          · rename_i planned hplanned
            split at taken
            · cases taken
            · obtain rfl := Option.some.inj taken
              have hrest : Standing env { s with catchup := none } :=
                ⟨⟨h.fresh.scheduled, h.fresh.retry, fun _ hother => (by cases hother)⟩, h.flights⟩
              exact hrest.submit .catchup (h.fresh.catchup planned hplanned) now
  | begins slot backupDir reachable now =>
      simp only [step] at taken
      split at taken
      · rename_i attempt hrunning
        obtain rfl := Option.some.inj taken
        have hera := (h.flights slot _ hrunning).1
        have hbegun : Standing env { s with fired := s.fired ++ [attempt.due] } :=
          ⟨h.fresh.same rfl rfl rfl rfl rfl, h.flights⟩
        unfold State.begins
        dsimp only
        split
        · exact hbegun.become slot hnone
        · rename_i current hactive
          split
          · exact (hbegun.skip hera _ _ _).become slot fun one hone => by cases hone
          · refine hbegun.become slot fun one hone => ?_
            obtain rfl := Option.some.inj hone
            exact ⟨hera, hactive⟩
      · cases taken
  | answered slot restore upgrade now =>
      simp only [step] at taken
      split at taken
      · rename_i attempt current backupDir hrunning
        obtain rfl := Option.some.inj taken
        obtain ⟨hera, hactive⟩ := h.flights slot _ hrunning
        unfold State.afterDocker
        split
        · exact (h.skip hera _ _ _).become slot fun one hone => by cases hone
        · split
          · exact (h.skip hera _ _ _).become slot fun one hone => by cases hone
          · rename_i hidle
            refine h.become slot fun one hone => ?_
            obtain rfl := Option.some.inj hone
            exact ⟨hera, hactive, hidle⟩
      · cases taken
  | load slot =>
      simp only [step] at taken
      split at taken
      · rename_i attempt current backupDir hrunning
        obtain rfl := Option.some.inj taken
        obtain ⟨hera, hactive, hidle⟩ := h.flights slot _ hrunning
        refine h.become slot fun one hone => ?_
        obtain rfl := Option.some.inj hone
        exact ⟨hera, hactive, hidle, keepsNewest_refl _ _⟩
      · cases taken
  | resume slot now =>
      simp only [step] at taken
      split at taken
      · rename_i attempt current backupDir points hrunning
        obtain rfl := Option.some.inj taken
        refine ⟨h.fresh.same rfl rfl rfl rfl rfl, fun other flight hflight => ?_⟩
        by_cases hsame : other = slot
        · subst hsame
          simp [State.enqueue, State.become] at hflight
        · simp only [State.enqueue, State.become, Function.update_of_ne hsame] at hflight
          obtain ⟨hera, hholds⟩ := h.flights other flight hflight
          have hearly : flight.phase.pastQueue = false := by
            simpa using fun hpast => ok other hsame ⟨flight, hflight, hpast⟩
          exact ⟨hera, holds_of_not_pastQueue hholds hearly rfl⟩
      · cases taken

/-! ### The backups -/

/-- Only a call that goes on with the catalogue starts a backup. -/
theorem started_of_step {env : Surroundings} {s s' : State} {e : Event} {backup : Started}
    (taken : step env s e = some s') (h : s'.started = s.started ++ [backup]) :
    ∃ slot now current backupDir points, e = .resume slot now ∧
      s.running slot = some ⟨backup.attempt, .read current backupDir points⟩ ∧
      backup.job = scheduledBackup env current backupDir points now ∧
      s'.jobs = s.jobs ++ [backup.job] := by
  have hmore : s'.started ≠ s.started := by simp [h]
  cases e with
  | save | otherJob | work | rewrite =>
      obtain rfl := Option.some.inj taken
      exact absurd rfl hmore
  | comesDue slot now =>
      cases slot <;> simp only [step] at taken
      · split at taken
        · cases taken
        · obtain rfl := Option.some.inj taken
          exact absurd rfl hmore
      all_goals
        split at taken
        · cases taken
        · split at taken
          · cases taken
          · obtain rfl := Option.some.inj taken
            exact absurd (submit_counts _ _ _ _).2.1 hmore
  | begins slot backupDir reachable now =>
      simp only [step] at taken
      split at taken
      · obtain rfl := Option.some.inj taken
        exact absurd (begins_counts _ _ _ _ _ _).2.1 hmore
      · cases taken
  | answered slot restore upgrade now =>
      simp only [step] at taken
      split at taken
      · obtain rfl := Option.some.inj taken
        exact absurd (afterDocker_counts _ _ _ _ _ _ _).2.1 hmore
      · cases taken
  | load slot =>
      simp only [step] at taken
      split at taken
      · obtain rfl := Option.some.inj taken
        exact absurd rfl hmore
      · cases taken
  | resume slot now =>
      simp only [step] at taken
      split at taken
      · rename_i attempt current backupDir points hrunning
        obtain rfl := Option.some.inj taken
        obtain rfl : ⟨attempt, scheduledBackup env current backupDir points now⟩ = backup := by
          simpa [State.enqueue] using h
        exact ⟨slot, now, current, backupDir, points, rfl, hrunning, rfl, rfl⟩
      · cases taken

/-- Where the calls have seen what still holds, the backup of a step is wanted. -/
theorem wanted_of_standing {env : Surroundings} {s s' : State} {e : Event} {backup : Started}
    (h : Standing env s) (taken : step env s e = some s')
    (hstarted : s'.started = s.started ++ [backup]) :
    ∃ slot now, e = .resume slot now ∧ s'.jobs = s.jobs ++ [backup.job] ∧
      Wanted env s now backup := by
  obtain ⟨slot, now, current, backupDir, points, rfl, hrunning, hjob, hjobs⟩ :=
    started_of_step taken hstarted
  obtain ⟨hera, hactive, hidle, hnewest⟩ := h.flights slot _ hrunning
  obtain ⟨hstored, henabled⟩ := active_eq_some hactive
  refine ⟨slot, now, rfl, hjobs, ⟨current, hstored, henabled, ?_⟩, hidle, hera⟩
  rw [hjob]
  exact atMostAsStrict_of_keepsNewest hnewest current now

/-- In every run in which nobody changes what a call of `fire` has looked at, a backup is started
only while it is wanted and nothing is in its way, nothing of a replaced schedule is planned, and no
due run has more than its tries and one backup. -/
theorem scheduler_starts_wanted (env : Surroundings) (stored : Option BackupSchedule)
    (jobs : List Job) (points : List RestorePoint) (now : Int) (s : State)
    (reached : Reaches (step env) (Undisturbed env) (startScheduler env stored jobs points now) s) :
    Promise env s := by
  have hstanding : Standing env s :=
    reached.invariant (standing_start env stored jobs points now)
      fun s e s' h ok taken => standing_step h ok taken
  exact ⟨fun e s' backup taken h => wanted_of_standing hstanding taken h, hstanding.fresh,
    bounded_reached env stored jobs points now (reached.mono fun _ _ _ => trivial)⟩

/-! ### A nightly backup, and one that was removed -/

/-- Every night at three, kept for a week. -/
def nightly : BackupSchedule :=
  { timezone := "UTC", retentionDays := some 7 }

/-- The backup of the first of July 2026. -/
def julyPoint : RestorePoint :=
  { id := "2026-07-01_03-00-00", createdAt := "2026-07-01T03:00:00Z", result := "ok" }

/-- Three o'clock on the second of July 2026. -/
def julyNight : Int :=
  20636 * day + 3 * hour

def nightlySurroundings : Surroundings where
  calendar :=
    { fromIso := fun text =>
        if text = "2026-07-01T03:00:00+00:00" then some (20635 * day + 3 * hour) else none }
  cadence _ _ := ⟨day, day⟩

/-- The manager in the evening before. -/
def nightlyStart : State :=
  startScheduler nightlySurroundings (some nightly) [] [julyPoint] (julyNight - 6 * hour)

/-- The run comes due and looks at everything. -/
def nightlyRun : List Event :=
  [.comesDue .schedule julyNight, .begins .schedule (some "/backup") true julyNight,
    .answered .schedule (.ok none) (.ok none) julyNight, .load .schedule]

/-- The schedule is removed while the run waits for Docker. -/
def removedRun : List Event :=
  [.comesDue .schedule julyNight, .begins .schedule (some "/backup") true julyNight, .save none,
    .answered .schedule (.ok none) (.ok none) julyNight, .load .schedule]

/-- The state a list of events leads to. -/
def afterEvents (events : List Event) : State :=
  (replay (step nightlySurroundings) nightlyStart events).getD nightlyStart

/-- A schedule that is removed while its run waits for Docker starts one more backup. -/
theorem removed_schedule_starts_backup :
    ¬ ∀ (env : Surroundings) (stored : Option BackupSchedule) (jobs : List Job)
      (points : List RestorePoint) (now : Int) (s : State),
      Reaches (step env) (fun _ _ => True) (startScheduler env stored jobs points now) s →
        Promise env s := by
  intro h
  have hreached : Reaches (step nightlySurroundings) (fun _ _ => True) nightlyStart
      (afterEvents removedRun) := reaches_of_replay (permits_all _ removedRun) rfl
  obtain ⟨_, _, _, _, ⟨stored, hstored, _⟩, _, _⟩ :=
    (h nightlySurroundings _ _ _ _ _ hreached).wanted (.resume .schedule julyNight) _
      ⟨⟨1, 0, 1, by decide⟩, scheduledBackup nightlySurroundings nightly "/backup" [julyPoint]
        julyNight⟩ rfl rfl
  cases hstored

theorem nightlyRun_undisturbed :
    Permits (step nightlySurroundings) (Undisturbed nightlySurroundings) nightlyStart nightlyRun :=
  .cons trivial rfl (.cons trivial rfl (.cons trivial rfl (.cons trivial rfl trivial)))

/-- Left to itself, the nightly run keeps the promise. -/
theorem nightly_run_is_wanted : Promise nightlySurroundings (afterEvents nightlyRun) :=
  scheduler_starts_wanted nightlySurroundings (some nightly) [] [julyPoint] (julyNight - 6 * hour) _
    (reaches_of_replay nightlyRun_undisturbed rfl)

end Papaia.Backup
