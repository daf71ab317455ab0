/-
Module: Papaia.Backup.Cron
Purpose: The cron expression of a backup schedule: its five fields, the weekdays in APScheduler's
  names, and the presets of the editor it is compiled from and read back to.
Trusted boundary: CronPackage (`repr` in the messages, APScheduler's reading of one field)
Main exports: Raised, CronFields, CronPackage, weekdayNumber, partDays, normaliseWeekdays,
  parseFields, Preset, compilePreset, readPreset
-/
import Mathlib.Data.List.Dedup
import Papaia.Ingest.Schedules

namespace Papaia.Backup

open Text

/-- What a function of the module raises: its own `ScheduleError`, or a plain `ValueError` that the
callers do not expect. -/
inductive Raised where
  | schedule (message : String)
  | value
deriving DecidableEq, Repr

/-- A validated expression, in the form APScheduler's trigger takes. -/
structure CronFields where
  minute : String
  hour : String
  day : String
  month : String
  dayOfWeek : String
deriving DecidableEq, Repr

/-- `CronFields.expression`. -/
def CronFields.expression (fields : CronFields) : String :=
  joinWith " " [fields.minute, fields.hour, fields.day, fields.month, fields.dayOfWeek]

/-- The fields of a trigger. -/
inductive CronUnit where
  | minute
  | hour
  | day
  | month
  | dayOfWeek
deriving DecidableEq, Repr

/-- What the module takes from the packages it is built on. -/
structure CronPackage where
  /-- `repr(text)`. -/
  repr : String → String
  /-- The values a field of `CronTrigger` fires at, or why it is refused. -/
  reads : CronUnit → String → Except String (List Nat)

variable (pkg : CronPackage)

/-! ### Weekdays -/

/-- `WEEKDAYS`. -/
def weekdayNames : List String :=
  ["mon", "tue", "wed", "thu", "fri", "sat", "sun"]

/-- `_WEEKDAY_NUMBER`: standard cron counts from Sunday. -/
def weekdayNumbers : List (String × Nat) :=
  [("sun", 0), ("mon", 1), ("tue", 2), ("wed", 3), ("thu", 4), ("fri", 5), ("sat", 6)]

/-- `text.isdigit()`. -/
def isDigits (chars : List Char) : Bool :=
  !chars.isEmpty && chars.all isDigit

/-- The most digits `int` reads. -/
def maxDigits : Nat := 4300

/-- `int(text)` of digits; none where it raises. -/
def readNumeral (chars : List Char) : Option Nat :=
  if maxDigits < chars.length then none else readDecimal chars

/-- `_weekday_number`. -/
def weekdayNumber (token : List Char) : Except Raised Nat :=
  let unknown := Raised.schedule ("Unknown weekday " ++ pkg.repr (String.ofList token) ++
    ". Use mon-sun or the numbers 0-7 (0 and 7 are Sunday).")
  match weekdayNumbers.lookup (lower (String.ofList token)) with
  | some number => .ok number
  | none =>
      if isDigits token then
        match readNumeral token with
        | none => .error .value
        | some number => if number ≤ 7 then .ok number else .error unknown
      else .error unknown

/-- The step of a part of the weekday field; one without a slash counts in ones. -/
def partStep (part : List Char) : Except Raised Nat :=
  let refused := Raised.schedule ("The step in " ++ pkg.repr (String.ofList part) ++
    " must be a whole number of at least 1.")
  let step := part.drop ((part.takeWhile (· ≠ '/')).length + 1)
  if !part.contains '/' then .ok 1
  else if !isDigits step then .error refused
  else
    match readNumeral step with
    | none => .error .value
    | some number => if number < 1 then .error refused else .ok number

/-- The first and the last day of a part of the weekday field. -/
def partBounds (part : List Char) : Except Raised (Nat × Nat) :=
  let body := part.takeWhile (· ≠ '/')
  if body = ['*'] then .ok (0, 6)
  else if body.contains '-' then
    let first := body.takeWhile (· ≠ '-')
    match weekdayNumber pkg first with
    | .error raised => .error raised
    | .ok low =>
        match weekdayNumber pkg (body.drop (first.length + 1)) with
        | .error raised => .error raised
        | .ok last =>
            -- Sunday ends a range as the seventh day.
            let high := if last = 0 ∧ 0 < low then 7 else last
            if high < low then
              .error (.schedule ("The weekday range " ++ pkg.repr (String.ofList body) ++
                " runs backwards."))
            else .ok (low, high)
  else if part.contains '/' then
    .error (.schedule (pkg.repr (String.ofList part) ++
      ": a step needs '*' or a range in front of it."))
  else (weekdayNumber pkg body).map fun number => (number, number)

/-- The days a part of the weekday field chooses. -/
def partDays (part : List Char) : Except Raised (List Nat) :=
  match partStep pkg part with
  | .error raised => .error raised
  | .ok step =>
      (partBounds pkg part).map fun (low, high) =>
        (List.range' low ((high - low) / step + 1) step).map (· % 7)

/-- The days the parts of the weekday field choose, in order. -/
def chosenDays : List (List Char) → Except Raised (List Nat)
  | [] => .ok []
  | part :: rest =>
      match partDays pkg part with
      | .error raised => .error raised
      | .ok days => (chosenDays rest).map (days ++ ·)

/-- The names of some days, in the order of the week. -/
def namesOf (days : List Nat) : List String :=
  weekdayNames.filter fun name => (weekdayNumbers.lookup name).any days.contains

/-- `_normalise_weekdays`. -/
def normaliseWeekdays (field : String) : Except Raised String :=
  if field = "*" then .ok "*"
  else
    (chosenDays pkg (field.toList.splitOn ',')).map fun chosen =>
      if chosen.dedup.length = 7 then "*" else joinWith "," (namesOf chosen)

/-! ### Fields -/

/-- `^[0-9*/,\-]+$`. -/
def isPlainField (text : String) : Bool :=
  !text.toList.isEmpty &&
    text.toList.all fun c => c.isDigit || c == '*' || c == '/' || c == ',' || c == '-'

/-- The first of the four plain fields that has something else in it. -/
def plainFault (parts : List (String × String)) : Option Raised :=
  (parts.find? fun part => !isPlainField part.2).map fun part =>
    .schedule ("The " ++ part.1 ++ " field " ++ pkg.repr part.2 ++
      " may only contain digits, '*', ',', '-' and '/'.")

/-- The error of `_trigger` for a field that is refused. -/
def fieldFault : Except String (List Nat) → Option Raised
  | .ok _ => none
  | .error problem => some (.schedule ("Invalid cron expression: " ++ problem))

/-- `_trigger`: why APScheduler refuses the fields, which it reads in this order. -/
def triggerFault (fields : CronFields) : Option Raised :=
  ([(.month, fields.month), (.day, fields.day), (.dayOfWeek, fields.dayOfWeek),
      (.hour, fields.hour), (.minute, fields.minute)] : List (CronUnit × String)).findSome?
    fun entry => fieldFault (pkg.reads entry.1 entry.2)

/-- `parse_fields`. -/
def parseFields (expression : String) : Except Raised CronFields :=
  match words expression with
  | [minute, hour, day, month, weekday] =>
      match plainFault pkg [("minute", minute), ("hour", hour), ("day of the month", day),
          ("month", month)] with
      | some raised => .error raised
      | none =>
          match normaliseWeekdays pkg weekday with
          | .error raised => .error raised
          | .ok dayOfWeek =>
              let fields : CronFields := ⟨minute, hour, day, month, dayOfWeek⟩
              if day ≠ "*" ∧ dayOfWeek ≠ "*" then
                .error (.schedule ("Restrict either the day of the month or the day of the week, " ++
                  "not both: cron runs on either, which is rarely what is meant."))
              else
                match triggerFault pkg fields with
                | some raised => .error raised
                | none => .ok fields
  | _ =>
      .error (.schedule
        "A cron expression has five fields: minute hour day-of-month month day-of-week.")

/-! ### Presets -/

inductive PresetMode where
  | daily
  | weekly
  | hourly
  | custom
deriving DecidableEq, Repr

/-- `PresetMode`: the word of each kind. -/
def PresetMode.word : PresetMode → String
  | .daily => "daily"
  | .weekly => "weekly"
  | .hourly => "hourly"
  | .custom => "custom"

structure Preset where
  mode : PresetMode
  time : String := "03:00"
  weekdays : List String := []
  everyHours : Nat := 6
  cron : String := ""
deriving DecidableEq, Repr

/-- `HOURLY_CHOICES`. -/
def hourlyChoices : List Nat := [1, 2, 3, 4, 6, 8, 12]

/-- `_clock`, whose pattern is that of the ingest schedules. -/
def clock (value : String) : Except Raised (Nat × Nat) :=
  match Ingest.clock value with
  | .ok parts => .ok parts
  | .error message => .error (.schedule message)

/-- The weekday field of the weekly preset. -/
def weeklyField (weekdays : List String) : Except Raised String :=
  let picked := weekdays.map lower
  let unknown := picked.filter fun day => !weekdayNames.contains day
  match unknown.mergeSort fun a b => decide (a ≤ b) with
  | first :: _ => .error (.schedule ("Unknown weekday " ++ pkg.repr first ++ "."))
  | [] =>
      let names := weekdayNames.filter picked.contains
      if names.isEmpty then .error (.schedule "Pick at least one day of the week.")
      else if names.length = 7 then .ok "*"
      else .ok (joinWith "," names)

/-- `compile_preset`. -/
def compilePreset (mode time : String) (weekdays : List String) (everyHours : Nat)
    (cron : String) : Except Raised String :=
  if mode = "custom" then .ok (joinWith " " (words cron))
  else
    match clock time with
    | .error raised => .error raised
    | .ok (hour, minute) =>
        if mode = "daily" then .ok (joinWith " " [renderInt minute, renderInt hour, "*", "*", "*"])
        else if mode = "weekly" then
          (weeklyField pkg weekdays).map fun days =>
            joinWith " " [renderInt minute, renderInt hour, "*", "*", days]
        else if mode = "hourly" then
          if everyHours ∈ hourlyChoices then
            .ok (joinWith " " [renderInt minute,
              if everyHours = 1 then "*" else "*/" ++ renderInt everyHours, "*", "*", "*"])
          else
            .error (.schedule ("Every N hours takes one of " ++
              joinWith ", " (hourlyChoices.map fun n => renderInt n) ++ "."))
        else .error (.schedule ("Unknown schedule type " ++ pkg.repr mode ++ "."))

/-- `compile_preset` of what a preset holds. -/
def Preset.compile (preset : Preset) : Except Raised String :=
  compilePreset pkg preset.mode.word preset.time preset.weekdays preset.everyHours preset.cron

/-- The step of an hour field `*/N`, where it is one the editor offers. -/
def hourStep (hour : String) : Except Raised (Option Nat) :=
  match hour.toList with
  | '*' :: '/' :: digits =>
      if digits.isEmpty || !digits.all fun c => (decimalOf c).isSome then .ok none
      else
        match readNumeral digits with
        | none => .error .value
        | some step => .ok (if step ∈ hourlyChoices then some step else none)
  | _ => .ok none

/-- `int` where the code has no handler for its error. -/
def wholeNumber (text : String) : Except Raised Nat :=
  match readNumeral text.toList with
  | some number => .ok number
  | none => .error .value

/-- The preset of fields the code has accepted. -/
def presetOf (fields : CronFields) : Except Raised Preset := do
  let custom : Preset := { mode := .custom, cron := fields.expression }
  let plain := fields.day = "*" ∧ fields.month = "*"
  if plain ∧ isDigits fields.minute.toList ∧ isDigits fields.hour.toList then
    let hour ← wholeNumber fields.hour
    let minute ← wholeNumber fields.minute
    let time := Ingest.twoDigits hour ++ ":" ++ Ingest.twoDigits minute
    if fields.dayOfWeek = "*" then pure { mode := .daily, time := time }
    else pure { mode := .weekly, time := time, weekdays := Ingest.commaParts fields.dayOfWeek }
  else if plain ∧ isDigits fields.minute.toList ∧ fields.dayOfWeek = "*" then
    let minute ← wholeNumber fields.minute
    let time := "00:" ++ Ingest.twoDigits minute
    if fields.hour = "*" then pure { mode := .hourly, time := time, everyHours := 1 }
    else
      match ← hourStep fields.hour with
      | some step => pure { mode := .hourly, time := time, everyHours := step }
      | none => pure custom
  else pure custom

/-- `read_preset`. -/
def readPreset (expression : String) : Except Raised Preset :=
  match parseFields pkg expression with
  | .error (.schedule _) => .ok { mode := .custom, cron := expression }
  | .error .value => .error .value
  | .ok fields => presetOf fields

/-! ### A package for concrete expressions -/

/-- The smallest value of a field. -/
def CronUnit.low : CronUnit → Nat
  | .day | .month => 1
  | _ => 0

/-- The largest value of a field. -/
def CronUnit.high : CronUnit → Nat
  | .minute => 59
  | .hour => 23
  | .day => 31
  | .month => 12
  | .dayOfWeek => 6

/-- The values of a field from the smallest one on, in steps. -/
def CronUnit.every (unit : CronUnit) (step : Nat) : List Nat :=
  List.range' unit.low ((unit.high - unit.low) / step + 1) step

/-- The package as it answers for stars, steps, single numbers and lists of weekdays. -/
def plainPackage : CronPackage where
  repr text := "'" ++ text ++ "'"
  reads unit text :=
    if text = "*" then .ok (unit.every 1)
    else
      match text.toList with
      | '*' :: '/' :: digits =>
          match readNumeral digits with
          | some step =>
              if 0 < step ∧ step ≤ unit.high - unit.low then .ok (unit.every step)
              else .error "the step value is higher than the total range of the expression"
          | none => .error "Unrecognized expression"
      | chars =>
          match readNumeral chars with
          | some number =>
              if unit.low ≤ number ∧ number ≤ unit.high then .ok [number]
              else .error "the value is out of range"
          | none =>
              match (Ingest.commaParts text).mapM fun name => weekdayNames.idxOf? name with
              | some days =>
                  if unit = .dayOfWeek ∧ isDigits chars = false then .ok days
                  else .error "Unrecognized expression"
              | none => .error "Unrecognized expression"

end Papaia.Backup
