/-
Module: Papaia.Backup.Schedule
Purpose: The arithmetic on a backup schedule: the gaps between its runs, the checks a schedule has
  to pass, and when its retention may be applied.  Instants and spans are counted in microseconds.
Trusted boundary: the trigger of an expression (`parse_fields`, `zone` and APScheduler's trigger)
Main exports: Run, Trigger, sample, Cadence, analyseCadence, minRetentionDays, BackupSchedule,
  buildSchedule, overdueAfter, RetentionPlan, planRetention
-/
import Papaia.Backup.RestorePoint

namespace Papaia.Backup

open Text

/-- `MIN_INTERVAL`. -/
def minInterval : Int := hour

/-- `_CADENCE_HORIZON`. -/
def cadenceHorizon : Int := 800 * day

/-- `_CADENCE_SAMPLES`. -/
def cadenceSamples : Nat := 2000

def plural (count : Int) (one many : String) : String :=
  Text.renderInt count ++ " " ++ if count = 1 then one else many

/-- `humanize`: two units, rounded down. -/
def humanize (span : Int) : String :=
  let seconds := max 0 (span.tdiv second)
  let days := seconds / 86400
  let hours := seconds % 86400 / 3600
  let minutes := seconds % 86400 % 3600 / 60
  if days ≠ 0 then
    if days ≥ 7 || hours = 0 then plural days "day" "days"
    else plural days "day" "days" ++ " " ++ plural hours "hour" "hours"
  else if hours ≠ 0 then
    if minutes = 0 then plural hours "hour" "hours"
    else plural hours "hour" "hours" ++ " " ++ plural minutes "minute" "minutes"
  else if minutes ≠ 0 then plural minutes "minute" "minutes"
  else "under a minute"

/-! ### The gaps between runs -/

/-- A run: the instant it happens at, and what a clock on the wall of the zone shows then. -/
structure Run where
  utc : Int
  wall : Int
deriving DecidableEq, Repr

/-- `get_next_fire_time(previous, now)`. -/
abbrev Trigger := Option Run → Int → Option Run

/-- `_after`: a moment just past a run. -/
def after (run : Run) : Int :=
  run.utc + second

/-- The loop of `analyse_cadence`: at most `count` runs, none behind the horizon. -/
def sampleFrom (trigger : Trigger) (horizon : Int) : Nat → Option Run → Int → List Run
  | 0, _, _ => []
  | count + 1, previous, current =>
      match trigger previous current with
      | none => []
      | some upcoming =>
          if upcoming.utc > horizon then []
          else upcoming :: sampleFrom trigger horizon count (some upcoming) (after upcoming)

/-- The runs that are looked at from a moment. -/
def sample (trigger : Trigger) (moment : Int) : List Run :=
  sampleFrom trigger (moment + cadenceHorizon) cadenceSamples none moment

/-- Consecutive runs. -/
def gaps (runs : List Run) : List (Run × Run) :=
  runs.zip runs.tail

def elapsed (gap : Run × Run) : Int :=
  gap.2.utc - gap.1.utc

def wallClock (gap : Run × Run) : Int :=
  gap.2.wall - gap.1.wall

/-- The smaller reading of a gap. -/
def smaller (gap : Run × Run) : Int :=
  min (wallClock gap) (elapsed gap)

structure Cadence where
  shortest : Int
  longest : Int
deriving DecidableEq, Repr

/-- `analyse_cadence` once the trigger is built. -/
def analyseCadence (trigger : Trigger) (moment : Int) : Except String Cadence :=
  match gaps (sample trigger moment) with
  | [] => .error "This expression runs less than twice in two years."
  | first :: rest =>
      .ok { shortest := (rest.map elapsed).foldl min (elapsed first)
            longest := (rest.map smaller).foldl max (smaller first) }

/-- `min_retention_days`.  Spans of that size keep their ceiling in a division of floats. -/
def minRetentionDays (cadence : Cadence) : Int :=
  max 1 (-(-(2 * cadence.longest) / day))

/-- The runs of `0 3 1 1 *` in UTC, from 2024 to 2031. -/
def yearlyRuns : List Run :=
  [19723, 20089, 20454, 20819, 21184, 21550, 21915, 22280].map fun days =>
    { utc := days * day + 3 * hour, wall := days * day + 3 * hour }

def yearlyTrigger : Trigger :=
  fun _ now => yearlyRuns.find? fun run => now ≤ run.utc

/-! ### The schedule -/

inductive RunOnStartup where
  | never
  | ifMissed
deriving DecidableEq, Repr

structure BackupSchedule where
  enabled : Bool := true
  cron : String := "0 3 * * *"
  timezone : String
  retentionDays : Option Int := none
  misfireGraceSeconds : Int := 3600
  runOnStartup : RunOnStartup := .ifMissed
deriving DecidableEq, Repr

/-- `_check_cadence`. -/
def checkCadence (cadence : Cadence) (retentionDays : Option Int) : Except String Unit :=
  if cadence.shortest < minInterval then
    .error ("Backups may not run more often than once an hour; this schedule has runs " ++
      humanize cadence.shortest ++ " apart.")
  else
    match retentionDays with
    | none => .ok ()
    | some days =>
        if days < minRetentionDays cadence then
          .error ("The retention must be at least " ++ renderInt (minRetentionDays cadence) ++
            " days for this schedule: twice the longest gap between two runs, so that at least " ++
            "two restore points are kept.")
        else .ok ()

/-- The bounds of the number fields. -/
def checkBounds (schedule : BackupSchedule) : Except String Unit :=
  match schedule.retentionDays with
  | some days =>
      if days < 1 then .error "retention_days: Input should be greater than or equal to 1"
      else if days > 3650 then .error "retention_days: Input should be less than or equal to 3650"
      else checkGrace
  | none => checkGrace
where
  checkGrace : Except String Unit :=
    if schedule.misfireGraceSeconds < 60 then
      .error "misfire_grace_seconds: Input should be greater than or equal to 60"
    else if schedule.misfireGraceSeconds > 86400 then
      .error "misfire_grace_seconds: Input should be less than or equal to 86400"
    else .ok ()

/-- `cadence_of`: the analysis at the moment the process first asks for it.  `build` makes the
trigger of an expression in a zone, or says why there is none. -/
def cadenceOf (build : String → String → Except String Trigger) (moment : Int)
    (cron timezone : String) : Except String Cadence :=
  match build cron timezone with
  | .error problem => .error problem
  | .ok trigger => analyseCadence trigger moment

/-- `build_schedule`: the validation of a schedule whose cadence is analysed at a moment. -/
def buildSchedule (build : String → String → Except String Trigger) (moment : Int)
    (fields : BackupSchedule) : Except String BackupSchedule :=
  match checkBounds fields with
  | .error problem => .error problem
  | .ok () =>
      match cadenceOf build moment fields.cron fields.timezone with
      | .error problem => .error problem
      | .ok cadence =>
          match checkCadence cadence fields.retentionDays with
          | .error problem => .error problem
          | .ok () => .ok fields

/-! ### Overdue backups and the retention -/

/-- A division that rounds to the nearest whole number, and a half to the even one: `timedelta`
times a float. -/
def divideAndRound (a b : Int) : Int :=
  if 2 * (a % b) > b || (2 * (a % b) = b && a / b % 2 = 1) then a / b + 1 else a / b

/-- `overdue_after`: one and a half times the longest gap. -/
def overdueAfter (cadence : Cadence) : Int :=
  divideAndRound (3 * cadence.longest) 2

/-- `catchup_due`. -/
def catchupDue (calendar : Calendar) (cadence : Cadence) (points : List RestorePoint) (now : Int) :
    Bool :=
  match (newestSuccessful calendar points).bind (restorePointTime calendar) with
  | none => true
  | some taken => now - taken > overdueAfter cadence

/-- What a run does about the retention. -/
structure RetentionPlan where
  days : Option Int
  skipped : Option String := none
deriving DecidableEq, Repr

/-- `plan_retention`. -/
def planRetention (calendar : Calendar) (cadence : Cadence) (schedule : BackupSchedule)
    (points : List RestorePoint) (now : Int) : RetentionPlan :=
  match schedule.retentionDays with
  | none => { days := none }
  | some days =>
      match (newestSuccessful calendar points).bind (restorePointTime calendar) with
      | none => { days := none, skipped := some "there is no successful restore point yet" }
      | some taken =>
          if now - taken > overdueAfter cadence then
            { days := none
              skipped := some ("the newest successful restore point is " ++
                humanize (now - taken) ++ " old (more than " ++
                humanize (overdueAfter cadence) ++ ")") }
          else { days := some days }

end Papaia.Backup
