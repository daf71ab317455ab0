/-
Module: Papaia.Proofs.Presets
Purpose: A preset and the expression it is compiled to are inverse to each other: what is compiled
  is read back to a preset of the same expression, and what is read from an accepted expression
  compiles to one that fires at the same times.
Trusted boundary: Documented (stars, steps and numbers in a field of APScheduler's trigger)
Main exports: Documented, SameTimes, presets_invert
-/
import Papaia.Proofs.CronFields
import Papaia.Proofs.Schedules

namespace Papaia.Backup

open Text

variable (pkg : CronPackage)

/-- What APScheduler documents about a field: a star is every value, a star with a step counts from
the smallest value, and a number in range is that value. -/
structure Documented (pkg : CronPackage) : Prop where
  star : ∀ unit, pkg.reads unit "*" = .ok (unit.every 1)
  stepped : ∀ (unit : CronUnit) (digits : List Char) (step : Nat), readNumeral digits = some step →
    0 < step → step ≤ unit.high - unit.low →
      pkg.reads unit (String.ofList ('*' :: '/' :: digits)) = .ok (unit.every step)
  number : ∀ (unit : CronUnit) (digits : List Char) (number : Nat),
    readNumeral digits = some number → unit.low ≤ number → number ≤ unit.high →
      pkg.reads unit (String.ofList digits) = .ok [number]
  numberRefused : ∀ (unit : CronUnit) (digits : List Char) (values : List Nat),
    isDigits digits = true → pkg.reads unit (String.ofList digits) = .ok values →
      ∃ number, readNumeral digits = some number ∧ unit.low ≤ number ∧ number ≤ unit.high
  stepRefused : ∀ (unit : CronUnit) (digits : List Char) (values : List Nat),
    isDigits digits = true →
    pkg.reads unit (String.ofList ('*' :: '/' :: digits)) = .ok values →
      ∃ step, readNumeral digits = some step ∧ 0 < step

/-- The text of a field. -/
def CronFields.field (fields : CronFields) : CronUnit → String
  | .minute => fields.minute
  | .hour => fields.hour
  | .day => fields.day
  | .month => fields.month
  | .dayOfWeek => fields.dayOfWeek

/-- Two expressions whose fields are read as the same minutes, hours, days, months and weekdays. -/
def SameTimes (pkg : CronPackage) (fields fields' : CronFields) : Prop :=
  ∀ unit, pkg.reads unit (fields.field unit) = pkg.reads unit (fields'.field unit)

/-! ### Numbers -/

theorem readNumeral_renderInt {n : Nat} (h : n < 100) : readNumeral (renderInt n).toList = some n := by
  have hshort : ¬ maxDigits < (renderInt n).toList.length := by
    rw [toList_renderInt, Nat.not_lt]
    have hlength : (Nat.toDigits 10 n).length ≤ 2 :=
      (Nat.length_toDigits_le_iff (by decide) (by decide)).2 h
    exact hlength.trans (by decide)
  rw [readNumeral, if_neg hshort, readDecimal_renderInt]

theorem ascii_renderInt {n : Nat} : ∀ c ∈ (renderInt n).toList, c.isDigit = true := by
  rw [toList_renderInt]
  exact fun c hc => Nat.isDigit_of_mem_toDigits (by decide) (by decide) hc

theorem isDigits_renderInt {n : Nat} : isDigits (renderInt n).toList = true :=
  (isDigits_of_readDecimal (readDecimal_renderInt n)).1

theorem isPlainField_renderInt {n : Nat} : isPlainField (renderInt n) = true := by
  rw [isPlainField, Bool.and_eq_true, List.all_eq_true]
  refine ⟨by simpa using toList_ne_nil (renderInt_ne_empty n), ?_⟩
  intro c hc
  rw [ascii_renderInt c hc]
  rfl

theorem isWord_of_isPlainField {text : String} (h : isPlainField text = true) : IsWord text := by
  rw [isPlainField, Bool.and_eq_true, List.all_eq_true] at h
  constructor
  · rintro rfl
    exact absurd h.1 (by decide)
  · intro c hc
    have hplain := h.2 c hc
    simp only [Bool.or_eq_true, beq_iff_eq] at hplain
    rcases hplain with (((hdigit | rfl) | rfl) | rfl) | rfl
    · have hrange : 48 ≤ c.toNat ∧ c.toNat ≤ 57 := by
        simpa [Char.isDigit, Char.le_def, UInt32.le_iff_toNat_le] using hdigit
      simp [isSpace]
      omega
    all_goals decide

/-! ### Presets of some fields -/

theorem clock_spelled {hour minute : Nat} (hhour : hour ≤ 23) (hminute : minute ≤ 59) :
    clock (Ingest.twoDigits hour ++ ":" ++ Ingest.twoDigits minute) = .ok (hour, minute) := by
  rw [clock, Ingest.clock_twoDigits hhour hminute]

theorem clock_midnight {minute : Nat} (hminute : minute ≤ 59) :
    clock ("00:" ++ Ingest.twoDigits minute) = .ok (0, minute) := by
  have hzero : "00:" ++ Ingest.twoDigits minute =
      Ingest.twoDigits 0 ++ ":" ++ Ingest.twoDigits minute := by
    have htext : Ingest.twoDigits 0 ++ ":" = "00:" := by decide
    rw [htext]
  rw [hzero, clock_spelled (by decide) hminute]

/-- The names in a weekday field are the preset's days again. -/
theorem weeklyField_spelled {days : List Nat} (hlt : ∀ day ∈ days, day < 7) (hfilled : days ≠ [])
    (hstar : spelled days ≠ "*") :
    weeklyField pkg (Ingest.commaParts (spelled days)) = .ok (spelled days) := by
  have hseven : ¬ days.dedup.length = 7 := fun h => hstar (if_pos h)
  have hspelled : spelled days = joinWith "," (namesOf days) := if_neg hseven
  have hnames : ∀ name ∈ namesOf days, name ∈ weekdayNames := fun name h => (mem_namesOf.1 h).1
  have hsome : namesOf days ≠ [] := namesOf_ne_nil hlt hfilled
  have hparts : Ingest.commaParts (spelled days) = namesOf days := by
    rw [Ingest.commaParts, hspelled, splitOn_names hsome hnames, List.map_map]
    simp
  have hlower : (namesOf days).map lower = namesOf days := by
    have hall : ∀ name ∈ weekdayNames, lower name = name := by decide
    conv_rhs => rw [← List.map_id (namesOf days)]
    apply List.map_congr_left
    exact fun name hname => hall name (hnames name hname)
  have hunknown : ((namesOf days).filter fun day => !weekdayNames.contains day) = [] := by
    rw [List.filter_eq_nil_iff]
    intro name hname
    simpa using hnames name hname
  have hfilter : weekdayNames.filter (namesOf days).contains = namesOf days := by
    conv_rhs => rw [namesOf]
    apply List.filter_congr
    intro name hname
    rw [Bool.eq_iff_iff, List.contains_iff_mem, namesOf, List.mem_filter]
    exact and_iff_right hname
  have hlength : ¬ (namesOf days).length = 7 := by
    intro h
    apply hseven
    rw [dedup_length_eq_seven hlt]
    have hall : weekdayNames.filter (fun name => (weekdayNumbers.lookup name).any days.contains) =
        weekdayNames := by
      apply List.filter_eq_self.2
      have hsub := List.filter_sublist
        (p := fun name => (weekdayNumbers.lookup name).any days.contains) (l := weekdayNames)
      exact List.filter_eq_self.1 (hsub.eq_of_length h)
    intro day hday
    obtain ⟨name, hname, hlookup⟩ := exists_name hday
    have := List.filter_eq_self.1 hall name hname
    simpa [hlookup] using this
  have hempty : (namesOf days).isEmpty = false := by simpa using hsome
  rw [weeklyField, hparts, hlower, hunknown]
  simp only [List.mergeSort_nil, hfilter, hempty, Bool.false_eq_true, if_false, if_neg hlength,
    hspelled]

/-- The expression of a minute, an hour field and a weekday field. -/
def plainFields (minute hour dayOfWeek : String) : CronFields :=
  { minute := minute, hour := hour, day := "*", month := "*", dayOfWeek := dayOfWeek }

theorem wholeNumber_of_readNumeral {text : String} {n : Nat}
    (h : readNumeral text.toList = some n) : wholeNumber text = .ok n := by
  rw [wholeNumber, h]

/-- Fields with one minute and one hour open as the daily or the weekly preset. -/
theorem presetOf_clock {minute hour : String} {m h : Nat} {days : List Nat}
    (hminute : isDigits minute.toList = true) (hhour : isDigits hour.toList = true)
    (hm : readNumeral minute.toList = some m) (hh : readNumeral hour.toList = some h)
    (hm59 : m ≤ 59) (hh23 : h ≤ 23) (hlt : ∀ day ∈ days, day < 7) (hfilled : days ≠ []) :
    ∃ preset, presetOf (plainFields minute hour (spelled days)) = .ok preset ∧
      preset.compile pkg =
        .ok (plainFields (renderInt m) (renderInt h) (spelled days)).expression := by
  have hminuteRead := wholeNumber_of_readNumeral hm
  have hhourRead := wholeNumber_of_readNumeral hh
  by_cases hstar : spelled days = "*"
  · refine ⟨{ mode := .daily, time := Ingest.twoDigits h ++ ":" ++ Ingest.twoDigits m }, ?_, ?_⟩
    · simp [presetOf, plainFields, hminute, hhour, hminuteRead, hhourRead, hstar, Bind.bind,
        Except.bind, Pure.pure, Except.pure]
    · simp [Preset.compile, PresetMode.word, compilePreset, clock_spelled hh23 hm59, plainFields,
        CronFields.expression, hstar]
  · refine ⟨{ mode := .weekly, time := Ingest.twoDigits h ++ ":" ++ Ingest.twoDigits m,
              weekdays := Ingest.commaParts (spelled days) }, ?_, ?_⟩
    · simp [presetOf, plainFields, hminute, hhour, hminuteRead, hhourRead, hstar, Bind.bind,
        Except.bind, Pure.pure, Except.pure]
    · simp [Preset.compile, PresetMode.word, compilePreset, clock_spelled hh23 hm59, plainFields,
        CronFields.expression, weeklyField_spelled pkg hlt hfilled hstar, Except.map]

/-- The hour field of the hourly preset. -/
def hourlyField (step : Nat) : String :=
  if step = 1 then "*" else "*/" ++ renderInt step

/-- Fields with one minute and an hour field the editor knows open as the hourly preset. -/
theorem presetOf_hourly {minute hour : String} {m step : Nat}
    (hminute : isDigits minute.toList = true) (hm : readNumeral minute.toList = some m)
    (hm59 : m ≤ 59) (hstep : step ∈ hourlyChoices) (hdigits : isDigits hour.toList = false)
    (hhour : hour = "*" ∧ step = 1 ∨ hour ≠ "*" ∧ hourStep hour = .ok (some step)) :
    ∃ preset, presetOf (plainFields minute hour "*") = .ok preset ∧
      preset.compile pkg = .ok (plainFields (renderInt m) (hourlyField step) "*").expression := by
  have hminuteRead := wholeNumber_of_readNumeral hm
  refine ⟨{ mode := .hourly, time := "00:" ++ Ingest.twoDigits m, everyHours := step }, ?_, ?_⟩
  · rcases hhour with ⟨rfl, rfl⟩ | ⟨hstar, hread⟩
    · have hnoDigits : isDigits ['*'] = false := by decide
      simp [presetOf, plainFields, hminute, hnoDigits, hminuteRead, Bind.bind, Except.bind,
        Pure.pure, Except.pure]
    · simp [presetOf, plainFields, hminute, hdigits, hminuteRead, hstar, hread, Bind.bind,
        Except.bind, Pure.pure, Except.pure]
  · simp [Preset.compile, PresetMode.word, compilePreset, clock_midnight hm59, plainFields,
      CronFields.expression, hourlyField, hstep]

/-! ### Expressions the presets compile to -/

theorem isPlainField_star : isPlainField "*" = true := by decide

theorem isPlainField_hourlyField {step : Nat} : isPlainField (hourlyField step) = true := by
  unfold hourlyField
  split
  next => decide
  next =>
    rw [isPlainField, Bool.and_eq_true, List.all_eq_true, String.toList_append]
    refine ⟨by simp, ?_⟩
    intro c hc
    rcases List.mem_append.1 hc with hstar | hdigit
    · have hall : ("*/".toList.all fun c => c.isDigit || c == '*' || c == '/' || c == ',' ||
        c == '-') = true := by decide
      exact List.all_eq_true.1 hall c hstar
    · rw [ascii_renderInt c hdigit]
      rfl

theorem isWord_plainFields {minute hour : String} {days : List Nat}
    (hminute : isPlainField minute = true) (hhour : isPlainField hour = true)
    (hlt : ∀ day ∈ days, day < 7) (hfilled : days ≠ []) :
    ∀ part ∈ [minute, hour, "*", "*", spelled days], IsWord part := by
  have hempty := (namedDays_spelled hlt hfilled).2
  simp only [List.forall_mem_cons]
  exact ⟨isWord_of_isPlainField hminute, isWord_of_isPlainField hhour,
    isWord_of_isPlainField isPlainField_star, isWord_of_isPlainField isPlainField_star,
    isWord_spelled hempty, fun _ h => absurd h List.not_mem_nil⟩

/-- The expression of plain fields is read to them, unless APScheduler refuses one. -/
theorem parseFields_plain {minute hour : String} {days : List Nat}
    (hminute : isPlainField minute = true) (hhour : isPlainField hour = true)
    (hlt : ∀ day ∈ days, day < 7) (hfilled : days ≠ []) :
    parseFields pkg (plainFields minute hour (spelled days)).expression =
      (triggerFault pkg (plainFields minute hour (spelled days))).elim
        (.ok (plainFields minute hour (spelled days))) .error := by
  have hfault : plainFault pkg [("minute", minute), ("hour", hour), ("day of the month", "*"),
      ("month", "*")] = none := by
    simp [plainFault, hminute, hhour, isPlainField_star]
  have hexpression : (plainFields minute hour (spelled days)).expression =
      joinWith " " [minute, hour, "*", "*", spelled days] := rfl
  unfold parseFields
  rw [hexpression, words_joinWith (isWord_plainFields hminute hhour hlt hfilled)]
  simp only [hfault, normaliseWeekdays_spelled pkg hlt hfilled]
  rw [if_neg (fun h => h.1 rfl)]
  unfold plainFields
  split
  next raised htrigger => rw [htrigger, Option.elim_some]
  next htrigger => rw [htrigger, Option.elim_none]

/-- A custom preset of some words compiles to them. -/
theorem compile_custom {parts : List String} (h : ∀ part ∈ parts, IsWord part) :
    ({ mode := .custom, cron := joinWith " " parts } : Preset).compile pkg =
      .ok (joinWith " " parts) := by
  simp [Preset.compile, PresetMode.word, compilePreset, words_joinWith h]

/-- The expression of plain fields opens as their preset or, where APScheduler refuses one of them,
as it is. -/
theorem readPreset_plain {minute hour : String} {days : List Nat} {preset : Preset}
    (hminute : isPlainField minute = true) (hhour : isPlainField hour = true)
    (hlt : ∀ day ∈ days, day < 7) (hfilled : days ≠ [])
    (hpreset : presetOf (plainFields minute hour (spelled days)) = .ok preset)
    (hcompiled : preset.compile pkg = .ok (plainFields minute hour (spelled days)).expression) :
    ∃ opened, readPreset pkg (plainFields minute hour (spelled days)).expression = .ok opened ∧
      opened.compile pkg = .ok (plainFields minute hour (spelled days)).expression := by
  have hparsed := parseFields_plain pkg hminute hhour hlt hfilled
  cases htrigger : triggerFault pkg (plainFields minute hour (spelled days)) with
  | none =>
      rw [htrigger, Option.elim_none] at hparsed
      exact ⟨preset, by simp only [readPreset, hparsed, hpreset], hcompiled⟩
  | some raised =>
      rw [htrigger, Option.elim_some] at hparsed
      cases raised with
      | value => exact absurd htrigger (triggerFault_ne_value pkg _)
      | schedule message =>
          refine ⟨{ mode := .custom, cron := (plainFields minute hour (spelled days)).expression },
            by simp only [readPreset, hparsed], ?_⟩
          exact compile_custom pkg (isWord_plainFields hminute hhour hlt hfilled)

/-! ### Compiled presets are read back -/

theorem spelled_week : spelled (List.range 7) = "*" := by decide

theorem week_lt : ∀ day ∈ List.range 7, day < 7 := fun _ h => List.mem_range.1 h

/-- The number of a name. -/
def numberOf (name : String) : Nat :=
  (weekdayNumbers.lookup name).getD 0

theorem numberOf_inj : ∀ name ∈ weekdayNames, ∀ other ∈ weekdayNames,
    numberOf name = numberOf other → name = other := by decide

/-- The names of the numbers of some names. -/
theorem namesOf_numbers (p : String → Bool) :
    namesOf ((weekdayNames.filter p).map numberOf) = weekdayNames.filter p := by
  apply List.filter_congr
  intro name hname
  have hlookup : weekdayNumbers.lookup name = some (numberOf name) := by
    have hall : ∀ name ∈ weekdayNames, weekdayNumbers.lookup name = some (numberOf name) := by
      decide
    exact hall name hname
  rw [hlookup, Option.any_some, Bool.eq_iff_iff, List.contains_iff_mem, List.mem_map]
  constructor
  · rintro ⟨other, hother, hsame⟩
    rw [List.mem_filter] at hother
    rw [← numberOf_inj other hother.1 name hname hsame]
    exact hother.2
  · exact fun hp => ⟨name, List.mem_filter.2 ⟨hname, hp⟩, rfl⟩

theorem dedup_numbers (p : String → Bool) :
    ((weekdayNames.filter p).map numberOf).dedup.length = (weekdayNames.filter p).length := by
  have hnodup : ((weekdayNames.filter p).map numberOf).Nodup := by
    apply List.Nodup.map_on
    · intro name hname other hother
      exact numberOf_inj name (List.mem_filter.1 hname).1 other (List.mem_filter.1 hother).1
    · have hweek : weekdayNames.Nodup := by decide
      exact hweek.filter p
  rw [hnodup.dedup, List.length_map]

/-- The weekday field of the weekly preset is the spelling of some days. -/
theorem weeklyField_eq_ok {weekdays : List String} {field : String}
    (h : weeklyField pkg weekdays = .ok field) :
    ∃ days : List Nat, (∀ day ∈ days, day < 7) ∧ days ≠ [] ∧ field = spelled days := by
  unfold weeklyField at h
  dsimp only at h
  split at h
  next => cases h
  next =>
    split at h
    next => cases h
    next hfilled =>
      split at h
      next =>
        obtain rfl := Except.ok.inj h
        exact ⟨List.range 7, week_lt, by decide, spelled_week.symm⟩
      next hlength =>
        obtain rfl := Except.ok.inj h
        generalize hpicked : (weekdays.map lower).contains = picked at hfilled hlength ⊢
        refine ⟨(weekdayNames.filter picked).map numberOf, ?_, by simpa using hfilled, ?_⟩
        · have hsmall : ∀ name ∈ weekdayNames, numberOf name < 7 := by decide
          intro day hday
          obtain ⟨name, hname, rfl⟩ := List.mem_map.1 hday
          exact hsmall name (List.mem_filter.1 hname).1
        · rw [spelled, dedup_numbers, if_neg hlength, namesOf_numbers]

theorem hourStep_hourlyField {step : Nat} (h : step ∈ hourlyChoices) (hone : step ≠ 1) :
    hourlyField step ≠ "*" ∧ hourStep (hourlyField step) = .ok (some step) := by
  have hall : ∀ step ∈ hourlyChoices, step ≠ 1 →
      hourlyField step ≠ "*" ∧ hourStep (hourlyField step) = .ok (some step) := by decide
  exact hall step h hone

theorem isDigits_hourlyField {step : Nat} (h : step ∈ hourlyChoices) :
    isDigits (hourlyField step).toList = false := by
  have hall : ∀ step ∈ hourlyChoices, isDigits (hourlyField step).toList = false := by
    decide
  exact hall step h

/-- What a preset is compiled to is read back to a preset of the same expression. -/
theorem readPreset_compilePreset {mode time : String} {weekdays : List String} {everyHours : Nat}
    {cron expression : String} (hmode : mode ≠ "custom")
    (h : compilePreset pkg mode time weekdays everyHours cron = .ok expression) :
    ∃ opened, readPreset pkg expression = .ok opened ∧ opened.compile pkg = .ok expression := by
  unfold compilePreset at h
  rw [if_neg hmode] at h
  split at h
  next => cases h
  next hour minute hclock =>
    obtain ⟨hhour, hminute⟩ : hour ≤ 23 ∧ minute ≤ 59 := by
      unfold clock at hclock
      split at hclock
      next parts hparts =>
        obtain rfl := Except.ok.inj hclock
        exact Ingest.clock_le hparts
      next => cases hclock
    have hatClock : ∀ {days : List Nat}, (∀ day ∈ days, day < 7) → days ≠ [] →
        ∃ opened, readPreset pkg
            (plainFields (renderInt minute) (renderInt hour) (spelled days)).expression =
              .ok opened ∧ opened.compile pkg =
            .ok (plainFields (renderInt minute) (renderInt hour) (spelled days)).expression := by
      intro days hlt hfilled
      obtain ⟨preset, hpreset, hcompiled⟩ := presetOf_clock pkg isDigits_renderInt
        isDigits_renderInt (readNumeral_renderInt (n := minute) (by omega))
        (readNumeral_renderInt (n := hour) (by omega)) hminute hhour hlt hfilled
      exact readPreset_plain pkg isPlainField_renderInt isPlainField_renderInt hlt hfilled hpreset
        hcompiled
    split at h
    next =>
      obtain rfl := Except.ok.inj h
      have hdaily := hatClock week_lt (by decide)
      rw [spelled_week] at hdaily
      exact hdaily
    next =>
      split at h
      next =>
        cases hfield : weeklyField pkg weekdays with
        | error => simp [hfield, Except.map] at h
        | ok field =>
            rw [hfield] at h
            obtain rfl := Except.ok.inj h
            obtain ⟨days, hlt, hfilled, rfl⟩ := weeklyField_eq_ok pkg hfield
            exact hatClock hlt hfilled
      next =>
        split at h
        next =>
          split at h
          next hstep =>
            obtain rfl := Except.ok.inj h
            have hopen : hourlyField everyHours = "*" ∧ everyHours = 1 ∨
                hourlyField everyHours ≠ "*" ∧
                  hourStep (hourlyField everyHours) = .ok (some everyHours) := by
              by_cases hone : everyHours = 1
              · exact .inl ⟨if_pos hone, hone⟩
              · exact .inr (hourStep_hourlyField hstep hone)
            obtain ⟨preset, hpreset, hcompiled⟩ := presetOf_hourly pkg isDigits_renderInt
              (readNumeral_renderInt (n := minute) (by omega)) hminute hstep
              (isDigits_hourlyField hstep) hopen
            rw [← spelled_week] at hpreset hcompiled
            have hread := readPreset_plain pkg isPlainField_renderInt isPlainField_hourlyField
              week_lt (by decide) hpreset hcompiled
            rw [spelled_week] at hread
            exact hread
          next => cases h
        next => cases h

/-! ### Accepted expressions -/

theorem triggerFault_eq_none_iff {fields : CronFields} :
    triggerFault pkg fields = none ↔
      ∀ unit, ∃ values, pkg.reads unit (fields.field unit) = .ok values := by
  have hone : ∀ entry : CronUnit × String, fieldFault (pkg.reads entry.1 entry.2) = none ↔
      ∃ values, pkg.reads entry.1 entry.2 = .ok values := by
    intro entry
    cases pkg.reads entry.1 entry.2 <;> simp [fieldFault]
  rw [triggerFault, List.findSome?_eq_none_iff]
  simp only [hone, List.forall_mem_cons]
  constructor
  · rintro ⟨hmonth, hday, hdayOfWeek, hhour, hminute, -⟩ unit
    cases unit with
    | minute => exact hminute
    | hour => exact hhour
    | day => exact hday
    | month => exact hmonth
    | dayOfWeek => exact hdayOfWeek
  · intro hall
    exact ⟨hall .month, hall .day, hall .dayOfWeek, hall .hour, hall .minute,
      fun _ h => absurd h List.not_mem_nil⟩

theorem SameTimes.accepted {fields fields' : CronFields} (h : SameTimes pkg fields fields')
    (hfields : triggerFault pkg fields = none) : triggerFault pkg fields' = none := by
  rw [triggerFault_eq_none_iff] at hfields ⊢
  intro unit
  rw [← h unit]
  exact hfields unit

variable {pkg}

/-- A number in a field, spelled anew, is read the same. -/
theorem Documented.respelled (doc : Documented pkg) {unit : CronUnit} {text : String}
    {values : List Nat} (hdigits : isDigits text.toList = true) (hhigh : unit.high < 100)
    (h : pkg.reads unit text = .ok values) :
    ∃ number : Nat, readNumeral text.toList = some number ∧ number ≤ unit.high ∧
      pkg.reads unit text = pkg.reads unit (renderInt number) := by
  have hread := h
  rw [← String.ofList_toList (s := text)] at hread
  obtain ⟨number, hnumber, hlow, hle⟩ := doc.numberRefused unit text.toList values hdigits hread
  refine ⟨number, hnumber, hle, ?_⟩
  have hfirst := doc.number unit text.toList number hnumber hlow hle
  have hsecond := doc.number unit (renderInt number).toList number
    (readNumeral_renderInt (by omega)) hlow hle
  rw [String.ofList_toList] at hfirst hsecond
  rw [hfirst, hsecond]

/-- The text of an hour field with a step. -/
theorem hourStep_eq_ok {hour : String} {step : Nat} (h : hourStep hour = .ok (some step)) :
    ∃ digits, hour = String.ofList ('*' :: '/' :: digits) ∧ readNumeral digits = some step ∧
      step ∈ hourlyChoices := by
  unfold hourStep at h
  split at h
  next digits htext =>
    split at h
    next => cases h
    next =>
      split at h
      next => cases h
      next found hfound =>
        have hsome := Except.ok.inj h
        split at hsome
        next hmem =>
          obtain rfl := Option.some.inj hsome
          exact ⟨digits, by rw [← htext, String.ofList_toList], hfound, hmem⟩
        next => cases hsome
  next => cases h

theorem hourStep_eq_error {hour : String} {raised : Raised} (h : hourStep hour = .error raised) :
    ∃ digits, hour = String.ofList ('*' :: '/' :: digits) ∧ isDigits digits = true ∧
      readNumeral digits = none := by
  unfold hourStep at h
  split at h
  next digits htext =>
    split at h
    next => cases h
    next hdecimal =>
      split at h
      next hnone =>
        refine ⟨digits, by rw [← htext, String.ofList_toList], ?_, hnone⟩
        simp only [Bool.or_eq_true, not_or, Bool.not_eq_true, Bool.not_eq_false',
          List.all_eq_true] at hdecimal
        rw [isDigits, hdecimal.1, Bool.not_false, Bool.true_and, List.all_eq_true]
        intro c hc
        rw [isDigit, hdecimal.2 c hc, Bool.true_or]
      next => cases h
  next => cases h

/-- The hour field of the hourly preset is read like the one it comes from. -/
theorem Documented.hourly (doc : Documented pkg) {digits : List Char} {step : Nat}
    (hread : readNumeral digits = some step) (hstep : step ∈ hourlyChoices) :
    pkg.reads .hour (String.ofList ('*' :: '/' :: digits)) =
      pkg.reads .hour (hourlyField step) := by
  have hrange : ∀ step ∈ hourlyChoices,
      0 < step ∧ step ≤ CronUnit.hour.high - CronUnit.hour.low ∧ step < 100 := by decide
  obtain ⟨hpos, hle, hsmall⟩ := hrange step hstep
  rw [doc.stepped .hour digits step hread hpos hle]
  unfold hourlyField
  split
  next hone => rw [doc.star, hone]
  next =>
    have htext : "*/" ++ renderInt step = String.ofList ('*' :: '/' :: (renderInt step).toList) := by
      rw [← String.toList_inj, String.toList_append]
      exact (String.toList_ofList (l := '*' :: '/' :: (renderInt step).toList)).symm
    rw [htext, doc.stepped .hour _ step (readNumeral_renderInt hsmall) hpos hle]

/-- What is read from an accepted expression compiles to one that fires at the same times. -/
theorem compilePreset_readPreset (doc : Documented pkg) {expression : String} {fields : CronFields}
    (h : parseFields pkg expression = .ok fields) :
    ∃ preset compiled fields', readPreset pkg expression = .ok preset ∧
      preset.compile pkg = .ok compiled ∧ parseFields pkg compiled = .ok fields' ∧
        SameTimes pkg fields fields' := by
  obtain ⟨weekday, hwords, hplain, hnormal, hdays, htrigger⟩ := parseFields_eq_ok pkg h
  obtain ⟨days, hlt, hfilled, hspelled⟩ := spelled_of_normaliseWeekdays pkg hnormal
  have haccepted := (triggerFault_eq_none_iff pkg).1 htrigger
  have hopen : readPreset pkg expression = presetOf fields := by simp only [readPreset, h]
  have hcustom : presetOf fields = .ok { mode := .custom, cron := fields.expression } →
      ∃ preset compiled fields', readPreset pkg expression = .ok preset ∧
        preset.compile pkg = .ok compiled ∧ parseFields pkg compiled = .ok fields' ∧
          SameTimes pkg fields fields' := by
    intro hpreset
    exact ⟨_, _, fields, hopen.trans hpreset, compile_custom pkg (isWord_of_parseFields pkg h),
      parseFields_expression pkg h, fun _ => rfl⟩
  -- A preset of plain fields compiles to fields that are read like the ones it was made of.
  have hrespelled : ∀ {minute hour : String} {preset : Preset}, isPlainField minute = true →
      isPlainField hour = true → presetOf fields = .ok preset →
      preset.compile pkg = .ok (plainFields minute hour (spelled days)).expression →
      SameTimes pkg fields (plainFields minute hour (spelled days)) →
      ∃ preset compiled fields', readPreset pkg expression = .ok preset ∧
        preset.compile pkg = .ok compiled ∧ parseFields pkg compiled = .ok fields' ∧
          SameTimes pkg fields fields' := by
    intro minute hour preset hminute hhour hpreset hcompiled hsame
    have hparsed := parseFields_plain pkg hminute hhour hlt hfilled
    rw [hsame.accepted pkg htrigger] at hparsed
    exact ⟨preset, _, _, hopen.trans hpreset, hcompiled, hparsed, hsame⟩
  by_cases hstars : fields.day = "*" ∧ fields.month = "*"
  · obtain ⟨minute, hour, day, month, dayOfWeek⟩ := fields
    obtain ⟨rfl, rfl⟩ : day = "*" ∧ month = "*" := hstars
    obtain rfl : dayOfWeek = spelled days := hspelled
    by_cases hminute : isDigits minute.toList = true
    · obtain ⟨minuteValues, hminuteRead⟩ := haccepted .minute
      obtain ⟨hourValues, hhourRead⟩ := haccepted .hour
      obtain ⟨m, hm, hm59, hminuteSame⟩ := doc.respelled hminute (by decide) hminuteRead
      by_cases hhour : isDigits hour.toList = true
      · obtain ⟨h₁, hh, hh23, hhourSame⟩ := doc.respelled hhour (by decide) hhourRead
        obtain ⟨preset, hpreset, hcompiled⟩ :=
          presetOf_clock pkg hminute hhour hm hh hm59 hh23 hlt hfilled
        refine hrespelled isPlainField_renderInt isPlainField_renderInt hpreset hcompiled ?_
        intro unit
        cases unit with
        | minute => exact hminuteSame
        | hour => exact hhourSame
        | _ => rfl
      · have hnoHour : isDigits hour.toList = false := by simpa using hhour
        by_cases hweek : spelled days = "*"
        · -- The hour field is a star, a step the editor offers, or something else.
          have hhourly : ∀ {step : Nat}, step ∈ hourlyChoices →
              (hour = "*" ∧ step = 1 ∨ hour ≠ "*" ∧ hourStep hour = .ok (some step)) →
              pkg.reads .hour hour = pkg.reads .hour (hourlyField step) →
              ∃ preset compiled fields', readPreset pkg expression = .ok preset ∧
                preset.compile pkg = .ok compiled ∧ parseFields pkg compiled = .ok fields' ∧
                  SameTimes pkg ⟨minute, hour, "*", "*", spelled days⟩ fields' := by
            intro step hstep hform hsame
            obtain ⟨preset, hpreset, hcompiled⟩ :=
              presetOf_hourly pkg hminute hm hm59 hstep hnoHour hform
            rw [← hweek] at hpreset hcompiled
            refine hrespelled isPlainField_renderInt isPlainField_hourlyField hpreset hcompiled ?_
            intro unit
            cases unit with
            | minute => exact hminuteSame
            | hour => exact hsame
            | _ => rfl
          by_cases hstar : hour = "*"
          · apply hhourly (show 1 ∈ hourlyChoices by decide) (.inl ⟨hstar, rfl⟩)
            rw [hstar]
            rfl
          · cases hread : hourStep hour with
            | error raised =>
                obtain ⟨digits, rfl, hdigits, hnone⟩ := hourStep_eq_error hread
                obtain ⟨step, hstep, -⟩ := doc.stepRefused .hour digits hourValues hdigits hhourRead
                rw [hstep] at hnone
                cases hnone
            | ok found =>
                cases found with
                | none =>
                    apply hcustom
                    simp [presetOf, hminute, hnoHour, hweek, hstar, hread, Bind.bind, Except.bind,
                      wholeNumber_of_readNumeral hm, Pure.pure, Except.pure]
                | some step =>
                    obtain ⟨digits, htext, hstep, hmem⟩ := hourStep_eq_ok hread
                    apply hhourly hmem (.inr ⟨hstar, hread⟩)
                    rw [htext]
                    exact doc.hourly hstep hmem
        · apply hcustom
          simp [presetOf, hminute, hhour, hweek, Pure.pure, Except.pure]
    · apply hcustom
      simp [presetOf, hminute, Pure.pure, Except.pure]
  · apply hcustom
    simp [presetOf, hstars, Pure.pure, Except.pure]

theorem readNumeral_ne_star {digits : List Char} {n : Nat} (h : readNumeral digits = some n) :
    ∀ c ∈ digits, c ≠ '*' := by
  have hdigits := (isDigits_of_readDecimal (readDecimal_of_readNumeral h)).1
  rw [isDigits, Bool.and_eq_true, List.all_eq_true] at hdigits
  rintro c hc rfl
  exact absurd (hdigits.2 '*' hc) (by decide)

theorem documented_plainPackage : Documented plainPackage := by
  have hlist : ∀ chars : List Char, chars ≠ ['*'] → ¬ String.ofList chars = "*" := by
    intro chars hne htext
    apply hne
    rw [← String.toList_ofList (l := chars), htext]
    rfl
  constructor
  case star => exact fun unit => rfl
  case stepped =>
    intro unit digits step hread hpos hle
    simp only [plainPackage]
    rw [if_neg (hlist _ (by simp)), String.toList_ofList]
    simp [hread, hpos, hle]
  case number =>
    intro unit digits number hread hlow hhigh
    have hstar := readNumeral_ne_star hread
    simp only [plainPackage]
    rw [if_neg (hlist _ (by rintro rfl; exact hstar '*' (by simp) rfl)), String.toList_ofList]
    split
    next => exact absurd rfl (hstar '*' (by simp))
    next => simp [hread, hlow, hhigh]
  case numberRefused =>
    intro unit digits values hdigits h
    simp only [plainPackage] at h
    have hstar : ∀ c ∈ digits, c ≠ '*' := by
      rw [isDigits, Bool.and_eq_true, List.all_eq_true] at hdigits
      rintro c hc rfl
      exact absurd (hdigits.2 '*' hc) (by decide)
    rw [if_neg (hlist _ (by rintro rfl; exact hstar '*' (by simp) rfl)), String.toList_ofList] at h
    split at h
    next => exact absurd rfl (hstar '*' (by simp))
    next =>
      split at h
      next number hread =>
        split at h
        next hrange => exact ⟨number, hread, hrange⟩
        next => cases h
      next =>
        split at h
        next => simp [hdigits] at h
        next => cases h
  case stepRefused =>
    intro unit digits values hdigits h
    simp only [plainPackage] at h
    rw [if_neg (hlist _ (by simp)), String.toList_ofList] at h
    split at h
    next tail htail =>
      obtain rfl : digits = tail := by simpa using htail
      split at h
      next step hread =>
        split at h
        next hrange => exact ⟨step, hread, hrange.1⟩
        next => cases h
      next => cases h
    next hno => exact absurd rfl (hno digits)

end Papaia.Backup
