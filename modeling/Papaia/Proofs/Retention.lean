/-
Module: Papaia.Proofs.Retention
Purpose: The retention of a validated schedule keeps the newest good restore point: the floor of the
  validation, the overdue limit and the strict cutoff of the prune fit together, over any run of
  backups with any outcomes.
Trusted boundary: none
Main exports: newestSuccessful_eq_some, buildSchedule_ok, retention_keeps_newest,
  retention_never_prunes_last_good
-/
import Papaia.Backup.Schedule

namespace Papaia.Backup

variable {calendar : Calendar}

/-! ### The newest good restore point -/

/-- The catalogue holds a successful, unscoped, dated restore point. -/
def HasGood (calendar : Calendar) (points : List RestorePoint) : Prop :=
  ∃ point ∈ points, point.isGood = true ∧ ∃ taken, restorePointTime calendar point = some taken

theorem mem_datedGood {points : List RestorePoint} {taken : Int} {point : RestorePoint} :
    (taken, point) ∈ datedGood calendar points ↔
      point ∈ points ∧ point.isGood = true ∧ restorePointTime calendar point = some taken := by
  simp only [datedGood, List.mem_filterMap, List.mem_filter, Option.map_eq_some_iff]
  constructor
  · rintro ⟨other, ⟨hmem, hgood⟩, time, htime, hpair⟩
    obtain ⟨rfl, rfl⟩ := Prod.mk.inj hpair
    exact ⟨hmem, hgood, htime⟩
  · rintro ⟨hmem, hgood, htime⟩
    exact ⟨point, ⟨hmem, hgood⟩, taken, htime, rfl⟩

theorem foldl_later_mem (first : Int × RestorePoint) (rest : List (Int × RestorePoint)) :
    rest.foldl later first ∈ first :: rest := by
  induction rest generalizing first with
  | nil => exact List.mem_singleton_self first
  | cons next rest ih =>
      have hmem := ih (later first next)
      rw [List.foldl_cons]
      rcases List.mem_cons.1 hmem with heq | hrest
      · rw [heq]
        unfold later
        split
        · exact List.mem_cons_of_mem _ List.mem_cons_self
        · exact List.mem_cons_self
      · exact List.mem_cons_of_mem _ (List.mem_cons_of_mem _ hrest)

theorem le_foldl_later (first : Int × RestorePoint) (rest : List (Int × RestorePoint)) :
    ∀ entry ∈ first :: rest, entry.1 ≤ (rest.foldl later first).1 := by
  induction rest generalizing first with
  | nil => simp
  | cons next rest ih =>
      have hlater : first.1 ≤ (later first next).1 ∧ next.1 ≤ (later first next).1 := by
        unfold later
        split <;> omega
      intro entry hentry
      rw [List.foldl_cons]
      have hbest := ih (later first next) _ List.mem_cons_self
      rcases List.mem_cons.1 hentry with rfl | hrest
      · exact Int.le_trans hlater.1 hbest
      · rcases List.mem_cons.1 hrest with rfl | hrest
        · exact Int.le_trans hlater.2 hbest
        · exact ih (later first next) entry (List.mem_cons_of_mem _ hrest)

/-- What `newest_successful` returns is a good restore point of the catalogue with a time, and no
good one is later. -/
theorem newestSuccessful_eq_some {points : List RestorePoint} {newest : RestorePoint}
    (h : newestSuccessful calendar points = some newest) :
    newest ∈ points ∧ newest.isGood = true ∧
      ∃ taken, restorePointTime calendar newest = some taken ∧
        ∀ point ∈ points, point.isGood = true → ∀ time,
          restorePointTime calendar point = some time → time ≤ taken := by
  unfold newestSuccessful at h
  cases hdated : datedGood calendar points with
  | nil => rw [hdated] at h; cases h
  | cons first rest =>
      rw [hdated] at h
      have hmem := foldl_later_mem first rest
      have hlatest := le_foldl_later first rest
      rw [← hdated] at hmem hlatest
      obtain ⟨hpoint, hgood, htime⟩ := mem_datedGood.1 (show (_, _) ∈ _ from hmem)
      obtain rfl := Option.some.inj h
      exact ⟨hpoint, hgood, _, htime, fun point hpoint hgood time htime =>
        hlatest (time, point) (mem_datedGood.2 ⟨hpoint, hgood, htime⟩)⟩

theorem exists_newestSuccessful {points : List RestorePoint} (h : HasGood calendar points) :
    ∃ newest, newestSuccessful calendar points = some newest := by
  obtain ⟨point, hmem, hgood, taken, htime⟩ := h
  have hdated := mem_datedGood.2 ⟨hmem, hgood, htime⟩
  unfold newestSuccessful
  cases hcase : datedGood calendar points with
  | nil => rw [hcase] at hdated; cases hdated
  | cons first rest => exact ⟨_, rfl⟩

theorem mem_newestFirst {points : List RestorePoint} {point : RestorePoint} :
    point ∈ newestFirst points ↔ point ∈ points := by
  simp [newestFirst]

/-! ### What the validation and the plan promise -/

/-- A validated schedule keeps restore points for at least twice its longest gap. -/
theorem buildSchedule_ok {build : String → String → Except String Trigger} {moment : Int}
    {schedule fields : BackupSchedule} {cadence : Cadence} {days : Int}
    (h : buildSchedule build moment fields = .ok schedule)
    (hcadence : cadenceOf build moment fields.cron fields.timezone = .ok cadence)
    (hdays : schedule.retentionDays = some days) :
    schedule = fields ∧ 2 * cadence.longest ≤ days * day := by
  unfold buildSchedule at h
  split at h
  · cases h
  · rw [hcadence] at h
    dsimp only at h
    split at h
    · cases h
    · rename_i hcheck
      obtain rfl := Except.ok.inj h
      refine ⟨rfl, ?_⟩
      unfold checkCadence at hcheck
      rw [hdays] at hcheck
      dsimp only at hcheck
      split at hcheck
      · cases hcheck
      · split at hcheck
        · cases hcheck
        · rename_i hfloor
          unfold minRetentionDays at hfloor
          simp only [day, hour, minute, second] at hfloor ⊢
          omega

/-- The overdue limit and half a gap make up at most two gaps, whichever way a half microsecond is
rounded. -/
theorem age_after_delay {cadence : Cadence} {age delay : Int} (hage : age ≤ overdueAfter cadence)
    (hdelay : 2 * delay ≤ cadence.longest) : age + delay ≤ 2 * cadence.longest := by
  unfold overdueAfter divideAndRound at hage
  split at hage
  · rename_i hup
    simp only [Bool.or_eq_true, Bool.and_eq_true, decide_eq_true_eq] at hup
    omega
  · omega

/-- A plan that prunes found a good restore point that is not overdue. -/
theorem planRetention_days {cadence : Cadence} {schedule : BackupSchedule}
    {points : List RestorePoint} {now days : Int}
    (h : (planRetention calendar cadence schedule points now).days = some days) :
    schedule.retentionDays = some days ∧
      ∃ newest taken, newestSuccessful calendar points = some newest ∧
        restorePointTime calendar newest = some taken ∧ now - taken ≤ overdueAfter cadence := by
  unfold planRetention at h
  cases hdays : schedule.retentionDays with
  | none => rw [hdays] at h; cases h
  | some configured =>
      rw [hdays] at h
      dsimp only at h
      cases htaken : (newestSuccessful calendar points).bind (restorePointTime calendar) with
      | none => rw [htaken] at h; cases h
      | some taken =>
          rw [htaken] at h
          dsimp only at h
          obtain ⟨newest, hnewest, htime⟩ := Option.bind_eq_some_iff.1 htaken
          split at h
          · cases h
          · exact ⟨h, newest, taken, hnewest, htime, by omega⟩

/-! ### Runs -/

/-- One scheduled backup: when it plans the retention, when it prunes, and the restore point it
leaves, whatever its outcome. -/
structure ScheduledRun where
  planned : Int
  pruned : Int
  point : RestorePoint

/-- The prune comes at most half the longest gap after the plan. -/
def ScheduledRun.InTime (cadence : Cadence) (run : ScheduledRun) : Prop :=
  run.planned ≤ run.pruned ∧ 2 * (run.pruned - run.planned) ≤ cadence.longest

/-- What a run deletes from the catalogue. -/
def pruned (calendar : Calendar) (cadence : Cadence) (schedule : BackupSchedule)
    (catalogue : List RestorePoint) (run : ScheduledRun) : List RestorePoint :=
  match (planRetention calendar cadence schedule (newestFirst catalogue) run.planned).days with
  | none => []
  | some days => catalogue.filter (expired calendar (run.pruned - days * day))

/-- The catalogue after a run. -/
def afterRun (calendar : Calendar) (cadence : Cadence) (schedule : BackupSchedule)
    (catalogue : List RestorePoint) (run : ScheduledRun) : List RestorePoint :=
  (match (planRetention calendar cadence schedule (newestFirst catalogue) run.planned).days with
    | none => catalogue
    | some days => catalogue.filter fun point =>
        !expired calendar (run.pruned - days * day) point) ++ [run.point]

/-- The catalogues that runs in time lead to. -/
inductive Reached (calendar : Calendar) (cadence : Cadence) (schedule : BackupSchedule)
    (start : List RestorePoint) : List RestorePoint → Prop where
  | start : Reached calendar cadence schedule start start
  | run {catalogue : List RestorePoint} (run : ScheduledRun)
      (before : Reached calendar cadence schedule start catalogue) (inTime : run.InTime cadence) :
      Reached calendar cadence schedule start (afterRun calendar cadence schedule catalogue run)

section Validated

variable {build : String → String → Except String Trigger} {moment : Int}
  {schedule : BackupSchedule} {cadence : Cadence}

/-- The newest good restore point does not expire in a run. -/
theorem newest_not_expired (hvalid : buildSchedule build moment schedule = .ok schedule)
    (hcadence : cadenceOf build moment schedule.cron schedule.timezone = .ok cadence)
    {points : List RestorePoint} {run : ScheduledRun} (htime : run.InTime cadence) {days : Int}
    (hdays : (planRetention calendar cadence schedule points run.planned).days = some days)
    {newest : RestorePoint} (hnewest : newestSuccessful calendar points = some newest) :
    expired calendar (run.pruned - days * day) newest = false := by
  obtain ⟨hconfigured, other, taken, hother, htaken, hage⟩ := planRetention_days hdays
  obtain rfl := Option.some.inj (hnewest.symm.trans hother)
  obtain ⟨_, hfloor⟩ := buildSchedule_ok hvalid hcadence hconfigured
  have hdelay := age_after_delay hage htime.2
  simp only [expired, htaken, Option.any_some, decide_eq_false_iff_not]
  omega

/-- One run keeps the newest good restore point of the catalogue. -/
theorem retention_keeps_newest (hvalid : buildSchedule build moment schedule = .ok schedule)
    (hcadence : cadenceOf build moment schedule.cron schedule.timezone = .ok cadence)
    {catalogue : List RestorePoint} {run : ScheduledRun} (htime : run.InTime cadence)
    {newest : RestorePoint}
    (hnewest : newestSuccessful calendar (newestFirst catalogue) = some newest) :
    newest ∉ pruned calendar cadence schedule catalogue run ∧
      newest ∈ afterRun calendar cadence schedule catalogue run := by
  have hmem := mem_newestFirst.1 (newestSuccessful_eq_some hnewest).1
  unfold pruned afterRun
  cases hdays : (planRetention calendar cadence schedule (newestFirst catalogue) run.planned).days with
  | none => exact ⟨List.not_mem_nil, List.mem_append_left _ hmem⟩
  | some days =>
      have hkept := newest_not_expired hvalid hcadence htime hdays hnewest
      exact ⟨by simp [hkept], by simp [hmem, hkept]⟩

/-- Every run of backups keeps a good restore point in the catalogue, and none of them deletes the
newest one. -/
theorem retention_never_prunes_last_good
    (calendar : Calendar) (build : String → String → Except String Trigger) (moment : Int)
    (schedule : BackupSchedule) (cadence : Cadence)
    (hvalid : buildSchedule build moment schedule = .ok schedule)
    (hcadence : cadenceOf build moment schedule.cron schedule.timezone = .ok cadence)
    (start catalogue : List RestorePoint) (hgood : HasGood calendar start)
    (hreached : Reached calendar cadence schedule start catalogue) :
    HasGood calendar catalogue ∧
      ∀ run : ScheduledRun, run.InTime cadence →
        ∀ newest, newestSuccessful calendar (newestFirst catalogue) = some newest →
          newest ∉ pruned calendar cadence schedule catalogue run := by
  refine ⟨?_, fun run htime newest hnewest =>
    (retention_keeps_newest hvalid hcadence htime hnewest).1⟩
  induction hreached with
  | start => exact hgood
  | run run before htime ih =>
      obtain ⟨point, hmem, hpoint⟩ := ih
      obtain ⟨newest, hnewest⟩ :=
        exists_newestSuccessful ⟨point, mem_newestFirst.2 hmem, hpoint⟩
      obtain ⟨_, hnewestGood, taken, htaken, _⟩ := newestSuccessful_eq_some hnewest
      exact ⟨newest, (retention_keeps_newest hvalid hcadence htime hnewest).2, hnewestGood, taken,
        htaken⟩

end Validated

/-! ### A yearly backup -/

/-- Every New Year at three, kept for two years. -/
def yearlySchedule : BackupSchedule :=
  { cron := "0 3 1 1 *", timezone := "UTC", retentionDays := some 730 }

/-- A backup of New Year 2026. -/
def newYearPoint : RestorePoint :=
  { id := "2026-01-01_03-00-00", createdAt := "2026-01-01T03:05:00Z", result := "ok" }

def newYearCalendar : Calendar where
  fromIso text :=
    if text = "2026-01-01T03:05:00+00:00" then some (20454 * day + 3 * hour + 5 * minute) else none

/-- A failed run a year later leaves the backup of 2026 alone. -/
theorem yearly_backup_survives_failed_run :
    HasGood newYearCalendar
        (afterRun newYearCalendar ⟨365 * day, 365 * day⟩ yearlySchedule [newYearPoint]
          ⟨20819 * day, 20820 * day, { id := "2027-01-01_03-00-00", result := "failed" }⟩) ∧
      ∀ run : ScheduledRun, run.InTime ⟨365 * day, 365 * day⟩ →
        ∀ newest, newestSuccessful newYearCalendar (newestFirst
          (afterRun newYearCalendar ⟨365 * day, 365 * day⟩ yearlySchedule [newYearPoint]
            ⟨20819 * day, 20820 * day, { id := "2027-01-01_03-00-00", result := "failed" }⟩)) =
              some newest →
          newest ∉ pruned newYearCalendar ⟨365 * day, 365 * day⟩ yearlySchedule
            (afterRun newYearCalendar ⟨365 * day, 365 * day⟩ yearlySchedule [newYearPoint]
              ⟨20819 * day, 20820 * day, { id := "2027-01-01_03-00-00", result := "failed" }⟩) run :=
  retention_never_prunes_last_good newYearCalendar (fun _ _ => .ok yearlyTrigger) (20090 * day)
    yearlySchedule ⟨365 * day, 365 * day⟩ (by decide) (by decide) [newYearPoint] _
    ⟨newYearPoint, by decide, by decide, _, rfl⟩
    (.run _ .start ⟨by decide, by decide⟩)

end Papaia.Backup
