/-
Module: Papaia.Ingest.Schedules
Purpose: The schedule of an ingest job: the builder's plan, the `cron` or `every` it stands for, the
  `schedule:` block that holds it, and the plan a stored block opens as.
Trusted boundary: Runtime (`repr` in the messages)
Main exports: PlanMode, Plan, Compiled, normaliseCron, compilePlan, scheduleBlock, readPlan
-/
import Papaia.Ingest.JobSpec

namespace Papaia.Ingest

open Text

/-! ### The builder -/

inductive PlanMode where
  | manual
  | interval
  | hourly
  | daily
  | weekly
  | monthly
  | cron
deriving DecidableEq, Repr

/-- `MODES`. -/
def PlanMode.table : List (String × PlanMode) :=
  [("manual", .manual), ("interval", .interval), ("hourly", .hourly), ("daily", .daily),
    ("weekly", .weekly), ("monthly", .monthly), ("cron", .cron)]

/-- What the builder holds. -/
structure Plan where
  mode : PlanMode := .manual
  everyN : Int := 15
  everyUnit : String := "m"
  time : String := "03:00"
  minute : Int := 0
  weekdays : List String := []
  dayOfMonth : Int := 1
  cron : String := ""
  timezone : Option String := none
  jitterSeconds : Int := 30
  misfireGraceSeconds : Int := 300
  runOnStartup : String := "if_missed"
  /-- Keys of the stored block that are carried over untouched. -/
  extra : Mapping := []
deriving Repr

/-- The two keys of `schedule:` that say when. -/
structure Compiled where
  cron : Option String := none
  every : Option String := none
deriving DecidableEq, Repr

/-! ### Reading numbers the way the ingester does -/

/-- `INGEST_WEEKDAYS`: the index is the number `from_crontab` gives the day. -/
def ingestWeekdays : List String :=
  ["mon", "tue", "wed", "thu", "fri", "sat", "sun"]

/-- `_day_name`: a name, or a number from 0 (Monday) to 6. -/
def dayName (token : String) : Option String :=
  if ingestWeekdays.contains (lower token) then some (lower token)
  else (readDecimal token.toList).bind (ingestWeekdays[·]?)

/-- The days of one chunk of a weekday field; none when it is no plain day or range. -/
def chunkDays (chunk : String) : Option (List String) :=
  if chunk.toList.contains '-' && !chunk.toList.contains '/' then
    let first := chunk.toList.takeWhile (· ≠ '-')
    let last := chunk.toList.drop (first.length + 1)
    match dayName (String.ofList first), dayName (String.ofList last) with
    | some low, some high =>
        let low := ingestWeekdays.idxOf low
        let high := ingestWeekdays.idxOf high
        if high < low then none else some ((ingestWeekdays.drop low).take (high + 1 - low))
    | _, _ => none
  else (dayName chunk).map fun day => [day]

/-- `text.split(",")`. -/
def commaParts (text : String) : List String :=
  (text.toList.splitOn ',').map String.ofList

/-- `normalise_cron`: the weekday field in names, when that can be done exactly. -/
def normaliseCron (expression : String) : String :=
  match words expression with
  | [minute, hour, dom, month, dow] =>
      match (commaParts dow).mapM chunkDays with
      | some names =>
          let ordered := ingestWeekdays.filter fun day => names.flatten.contains day
          joinWith " " [minute, hour, dom, month, joinWith "," ordered]
      | none => joinWith " " [minute, hour, dom, month, dow]
  | parts => joinWith " " parts

/-! ### Builder choices and the stored block -/

/-- `_TIME`: one or two digits up to 23, a colon, two digits up to 59. -/
def clockParts (chars : List Char) : Option (Nat × Nat) :=
  let minutes := fun tens ones =>
    match "012345".toList.contains tens, decimalOf tens, decimalOf ones with
    | true, some tens, some ones => some (10 * tens + ones)
    | _, _, _ => none
  match chars with
  | [hour, ':', tens, ones] =>
      (decimalOf hour).bind fun hour => (minutes tens ones).map fun minute => (hour, minute)
  | [first, second, ':', tens, ones] =>
      let hour :=
        if first = '0' || first = '1' then
          (decimalOf second).map ((if first = '1' then 10 else 0) + ·)
        else if first = '2' && "0123".toList.contains second then
          (decimalOf second).map (20 + ·)
        else none
      hour.bind fun hour => (minutes tens ones).map fun minute => (hour, minute)
  | _ => none

/-- `_clock`. -/
def clock (value : String) : Except String (Nat × Nat) :=
  match clockParts (strip value).toList with
  | some parts => .ok parts
  | none => .error "The time must look like 03:00."

/-- `compile_plan`: what a plan stands for, or why it cannot run. -/
def compilePlan (rt : Runtime) (plan : Plan) : Except String Compiled :=
  match plan.mode with
  | .manual => .ok {}
  | .interval =>
      if !(["s", "m", "h", "d"].contains plan.everyUnit) then
        .error "The interval unit is seconds, minutes, hours or days."
      else if plan.everyN < 1 then .error "An interval has to be at least 1."
      else .ok { every := some (renderInt plan.everyN ++ plan.everyUnit) }
  | .hourly =>
      if plan.minute < 0 || 59 < plan.minute then .error "The minute is between 0 and 59."
      else .ok { cron := some (renderInt plan.minute ++ " * * * *") }
  | .cron =>
      let expression := normaliseCron plan.cron
      if expression = "" then .error "Enter a cron expression."
      else .ok { cron := some expression }
  | .daily =>
      (clock plan.time).map fun (hour, minute) =>
        { cron := some (renderInt minute ++ " " ++ renderInt hour ++ " * * *") }
  | .weekly =>
      match clock plan.time with
      | .error problem => .error problem
      | .ok (hour, minute) =>
          let picked := plan.weekdays.map lower
          let unknown := picked.filter fun day => !ingestWeekdays.contains day
          match unknown.mergeSort fun a b => decide (a ≤ b) with
          | first :: _ => .error ("Unknown weekday " ++ rt.repr (.str first) ++ ".")
          | [] =>
              let names := ingestWeekdays.filter picked.contains
              if names.isEmpty then .error "Pick at least one day of the week."
              else
                .ok { cron := some (renderInt minute ++ " " ++ renderInt hour ++ " * * " ++
                  if names.length = 7 then "*" else joinWith "," names) }
  | .monthly =>
      match clock plan.time with
      | .error problem => .error problem
      | .ok (hour, minute) =>
          if plan.dayOfMonth < 1 || 31 < plan.dayOfMonth then
            .error "The day of the month is between 1 and 31."
          else
            .ok { cron := some (renderInt minute ++ " " ++ renderInt hour ++ " " ++
              renderInt plan.dayOfMonth ++ " * *") }

/-- `block[key] = value` where there is a value. -/
def putSome (block : Mapping) (key : String) (value : Option Val) : Mapping :=
  match value with
  | some value => block.put (.str key) value
  | none => block

/-- `schedule_block` with `full`: every detail is spelled out, but a plan without a cron expression
or an interval writes neither. -/
def scheduleBlock (rt : Runtime) (plan : Plan) : Except String Mapping :=
  (compilePlan rt plan).map fun compiled =>
    let block := putSome plan.extra "cron" (compiled.cron.map .str)
    let block := putSome block "every" (compiled.every.map .str)
    let block := putSome block "timezone" (plan.timezone.map .str)
    let block := block.put (.str "run_on_startup") (.str plan.runOnStartup)
    let block := block.put (.str "jitter_seconds") (.int plan.jitterSeconds)
    block.put (.str "misfire_grace_seconds") (.int plan.misfireGraceSeconds)

/-- `_text`: a text that is not blank, without the white space around it. -/
def filledText : Val → Option String
  | .str text => if isBlank text then none else some (strip text)
  | _ => none

/-- `_int`. -/
def wholeNumber (default : Int) : Val → Int
  | .int i => i
  | _ => default

/-- `_MODELLED`. -/
def modelledScheduleKeys : List String :=
  ["cron", "every", "timezone", "jitter_seconds", "misfire_grace_seconds", "run_on_startup"]

/-- A number of one or two digits, with a zero in front of one: `%02d`. -/
def twoDigits (n : Nat) : String :=
  if n < 10 then "0" ++ renderInt n else renderInt n

/-- The plan of a cron expression of five fields, with the details the block has besides. -/
def readCron (common : Plan) (cron minute hour dom month dow : String) : Plan :=
  let asCron := { common with mode := .cron, cron := cron }
  match readDecimal minute.toList with
  | none => asCron
  | some m =>
      if month ≠ "*" || 59 < m then asCron
      else if hour = "*" && dom = "*" && dow = "*" then { common with mode := .hourly, minute := m }
      else
        match readDecimal hour.toList with
        | none => asCron
        | some h =>
            if 23 < h then asCron
            else
              let time := twoDigits h ++ ":" ++ twoDigits m
              if dom = "*" && dow = "*" then { common with mode := .daily, time := time }
              else
                match dom == "*", (commaParts dow).mapM dayName with
                | true, some days =>
                    { common with
                      mode := .weekly, time := time
                      weekdays := ingestWeekdays.filter days.contains }
                | _, _ =>
                    match readDecimal dom.toList with
                    | some d =>
                        if dow = "*" && 1 ≤ d && d ≤ 31 then
                          { common with mode := .monthly, time := time, dayOfMonth := d }
                        else asCron
                    | none => asCron

/-- `read_plan`: the builder's state for a stored block. -/
def readPlan (rt : Runtime) (block : Mapping) : Plan :=
  let common : Plan :=
    { timezone := filledText (block.getD "timezone")
      jitterSeconds := wholeNumber 30 (block.getD "jitter_seconds")
      misfireGraceSeconds := wholeNumber 300 (block.getD "misfire_grace_seconds")
      runOnStartup := rt.textOr "if_missed" (block.getD "run_on_startup")
      extra := block.filter fun entry => !modelledScheduleKeys.any fun key => entry.1 = .str key }
  match filledText (block.getD "every"), filledText (block.getD "cron") with
  | some every, _ =>
      match everyParts every with
      | some (number, unit) =>
          { common with mode := .interval, everyN := number, everyUnit := String.singleton unit }
      | none => { common with mode := .cron, cron := every }
  | none, some cron =>
      match words cron with
      | [minute, hour, dom, month, dow] => readCron common cron minute hour dom month dow
      | _ => { common with mode := .cron, cron := cron }
  | none, none => { common with mode := .manual }

end Papaia.Ingest
