/-
Module: Papaia.Proofs.Cadence
Purpose: What the gaps sampled at one moment say about a later one.  The sample ends at a horizon
  and after a number of runs, so a later sample can hold gaps the earlier one did not see.
Trusted boundary: FiresNext (the trigger returns the next instant that matches the fields)
Main exports: FiresNext, Gap, sample_complete, accepted_iff, accepted_stays_acceptable_iff
-/
import Papaia.Backup.Schedule

namespace Papaia.Backup

/-! ### The runs of a trigger -/

/-- The trigger, asked without a previous run or just past it, returns the next of the instants
that match the fields.  Those are at least a second apart, and each has one reading. -/
structure FiresNext (fires : Run → Prop) (trigger : Trigger) : Prop where
  unique : ∀ {a b}, fires a → fires b → a.utc = b.utc → a = b
  spaced : ∀ {a b}, fires a → fires b → a.utc < b.utc → after a ≤ b.utc
  next : ∀ {previous now run}, (∀ last, previous = some last → now = after last) →
    trigger previous now = some run →
      fires run ∧ now ≤ run.utc ∧ ∀ other, fires other → now ≤ other.utc → run.utc ≤ other.utc
  last : ∀ {previous now}, (∀ last, previous = some last → now = after last) →
    trigger previous now = none → ∀ other, fires other → other.utc < now

/-- Two consecutive runs. -/
structure Gap (fires : Run → Prop) (a b : Run) : Prop where
  first : fires a
  second : fires b
  lt : a.utc < b.utc
  between : ∀ c, fires c → a.utc < c.utc → b.utc ≤ c.utc

/-- Two runs in the days after a moment. -/
def TwoRuns (fires : Run → Prop) (moment : Int) : Prop :=
  ∃ a b, fires a ∧ fires b ∧ moment ≤ a.utc ∧ a.utc < b.utc ∧ b.utc ≤ moment + cadenceHorizon

@[simp] theorem gaps_nil : gaps [] = [] := rfl

@[simp] theorem gaps_singleton (run : Run) : gaps [run] = [] := rfl

@[simp] theorem gaps_cons_cons (a b : Run) (rest : List Run) :
    gaps (a :: b :: rest) = (a, b) :: gaps (b :: rest) := rfl

theorem gaps_subset_cons (a : Run) (rest : List Run) : gaps rest ⊆ gaps (a :: rest) := by
  cases rest with
  | nil => simp
  | cons b rest => simp

section Sample

variable {fires : Run → Prop} {trigger : Trigger} {horizon : Int}

/-- The sampled runs match, and they lie between the moment and the horizon. -/
theorem mem_sampleFrom (h : FiresNext fires trigger) {count : Nat} {previous : Option Run}
    {current : Int} (hcurrent : ∀ last, previous = some last → current = after last) {run : Run}
    (hrun : run ∈ sampleFrom trigger horizon count previous current) :
    fires run ∧ current ≤ run.utc ∧ run.utc ≤ horizon := by
  induction count generalizing previous current with
  | zero => cases hrun
  | succ count ih =>
      unfold sampleFrom at hrun
      cases hnext : trigger previous current with
      | none => rw [hnext] at hrun; cases hrun
      | some upcoming =>
          obtain ⟨hfires, hle, _⟩ := h.next hcurrent hnext
          rw [hnext] at hrun
          dsimp only at hrun
          split at hrun
          · cases hrun
          · rename_i hhorizon
            rcases List.mem_cons.1 hrun with rfl | hrest
            · exact ⟨hfires, hle, by omega⟩
            · obtain ⟨hother, hafter, hbound⟩ :=
                ih (fun last hlast => by rw [Option.some.inj hlast]) hrest
              refine ⟨hother, ?_, hbound⟩
              simp only [after, second] at hafter
              omega

/-- A trigger that has a run before the horizon makes the loop take it. -/
theorem sampleFrom_succ (h : FiresNext fires trigger) (horizon : Int) (count : Nat)
    {previous : Option Run} {current : Int} (hcurrent : ∀ last, previous = some last → current = after last) {other : Run}
    (hother : fires other) (hle : current ≤ other.utc) (hbound : other.utc ≤ horizon) :
    ∃ upcoming, fires upcoming ∧ current ≤ upcoming.utc ∧ upcoming.utc ≤ other.utc ∧
      sampleFrom trigger horizon (count + 1) previous current =
        upcoming :: sampleFrom trigger horizon count (some upcoming) (after upcoming) := by
  cases hnext : trigger previous current with
  | none => exact absurd (h.last hcurrent hnext other hother) (by omega)
  | some upcoming =>
      obtain ⟨hfires, hcurrentLe, hleast⟩ := h.next hcurrent hnext
      have hfirst := hleast other hother hle
      refine ⟨upcoming, hfires, hcurrentLe, hfirst, ?_⟩
      rw [sampleFrom, hnext]
      dsimp only
      rw [if_neg (by omega)]

theorem after_some (upcoming : Run) : ∀ last, some upcoming = some last → after upcoming = after last :=
  fun _ hlast => by rw [Option.some.inj hlast]

/-- A gap before the horizon is sampled, unless the sample is full before its end. -/
theorem sampleFrom_complete (h : FiresNext fires trigger) {a b : Run} (hgap : Gap fires a b)
    (hbound : b.utc ≤ horizon) (count : Nat) (previous : Option Run) {current : Int}
    (hcurrent : ∀ last, previous = some last → current = after last) (hle : current ≤ a.utc) :
    (a, b) ∈ gaps (sampleFrom trigger horizon count previous current) ∨
      ((sampleFrom trigger horizon count previous current).length = count ∧
        ∀ run ∈ sampleFrom trigger horizon count previous current, run.utc < b.utc) := by
  induction count generalizing previous current with
  | zero => exact .inr ⟨rfl, fun run hrun => by cases hrun⟩
  | succ count ih =>
      have hlt := hgap.lt
      obtain ⟨upcoming, hfires, _, hfirst, hsample⟩ :=
        sampleFrom_succ h horizon count hcurrent hgap.first hle (by omega)
      rw [hsample]
      rcases Int.lt_or_eq_of_le hfirst with hbefore | hsame
      · -- the gap lies behind the run that was just taken
        rcases ih _ (after_some upcoming) (h.spaced hfires hgap.first hbefore) with hmem | ⟨hlength, hall⟩
        · exact .inl (gaps_subset_cons _ _ hmem)
        · refine .inr ⟨by rw [List.length_cons, hlength], ?_⟩
          exact List.forall_mem_cons.2 ⟨by omega, hall⟩
      · obtain rfl := h.unique hfires hgap.first hsame
        cases count with
        | zero => exact .inr ⟨rfl, by simpa [sampleFrom] using hlt⟩
        | succ count =>
            obtain ⟨following, hfollowing, hafter, hfollowingLe, hrest⟩ :=
              sampleFrom_succ h horizon count (after_some upcoming) hgap.second
                (h.spaced hfires hgap.second hlt) hbound
            have hsecond : following = b := by
              refine h.unique hfollowing hgap.second ?_
              have := hgap.between following hfollowing (by simp only [after, second] at hafter; omega)
              omega
            rw [hrest, hsecond]
            exact .inl (by simp)

/-- Consecutive sampled runs are consecutive runs. -/
theorem gap_of_mem_sampleFrom (h : FiresNext fires trigger) {count : Nat} {previous : Option Run}
    {current : Int} (hcurrent : ∀ last, previous = some last → current = after last)
    {gap : Run × Run} (hgap : gap ∈ gaps (sampleFrom trigger horizon count previous current)) :
    Gap fires gap.1 gap.2 ∧ current ≤ gap.1.utc ∧ gap.2.utc ≤ horizon := by
  induction count generalizing previous current with
  | zero => cases hgap
  | succ count ih =>
      unfold sampleFrom at hgap
      cases hnext : trigger previous current with
      | none => rw [hnext] at hgap; cases hgap
      | some upcoming =>
          obtain ⟨hfires, hle, _⟩ := h.next hcurrent hnext
          rw [hnext] at hgap
          dsimp only at hgap
          split at hgap
          · cases hgap
          · cases hrest : sampleFrom trigger horizon count (some upcoming) (after upcoming) with
            | nil => rw [hrest] at hgap; cases hgap
            | cons following rest =>
                have hfollowing := mem_sampleFrom h (after_some upcoming)
                  (hrest ▸ List.mem_cons_self)
                rw [hrest, gaps_cons_cons, List.mem_cons] at hgap
                rcases hgap with rfl | hgap
                · refine ⟨⟨hfires, hfollowing.1, ?_, ?_⟩, hle, hfollowing.2.2⟩
                  · have := hfollowing.2.1
                    simp only [after, second] at this
                    dsimp only
                    omega
                  · intro c hc hlt
                    -- the loop took the least run past the first one
                    cases count with
                    | zero => cases hrest
                    | succ count =>
                        rw [sampleFrom] at hrest
                        cases hnext' : trigger (some upcoming) (after upcoming) with
                        | none => rw [hnext'] at hrest; cases hrest
                        | some found =>
                            rw [hnext'] at hrest
                            dsimp only at hrest
                            split at hrest
                            · cases hrest
                            · obtain ⟨rfl, _⟩ := List.cons.inj hrest
                              exact (h.next (after_some upcoming) hnext').2.2 c hc (h.spaced hfires hc hlt)
                · obtain ⟨hinner, hafter, hbound⟩ := ih (after_some upcoming) (hrest ▸ hgap)
                  refine ⟨hinner, ?_, hbound⟩
                  simp only [after, second] at hafter
                  omega

/-- The window holds two runs exactly when the sample has a gap. -/
theorem twoRuns_iff (h : FiresNext fires trigger) (moment : Int) :
    TwoRuns fires moment ↔ gaps (sample trigger moment) ≠ [] := by
  constructor
  · rintro ⟨a, b, ha, hb, hle, hlt, hbound⟩ hnil
    obtain ⟨first, hfirst, hge, hfirstLe, hsample⟩ :=
      sampleFrom_succ h (moment + cadenceHorizon) 1999
        (show ∀ last, (none : Option Run) = some last → moment = after last from
          fun _ hlast => by cases hlast) ha hle (by omega)
    obtain ⟨second, _, _, _, hrest⟩ :=
      sampleFrom_succ h (moment + cadenceHorizon) 1998 (after_some first) hb (h.spaced hfirst hb (by omega)) hbound
    have hcount : sample trigger moment =
        sampleFrom trigger (moment + cadenceHorizon) (1999 + 1) none moment := rfl
    rw [hcount, hsample, hrest, gaps_cons_cons] at hnil
    cases hnil
  · intro hne
    obtain ⟨gap, hgap⟩ := List.exists_mem_of_ne_nil _ hne
    obtain ⟨hinner, hle, hbound⟩ :=
      gap_of_mem_sampleFrom h (fun _ hlast => by cases hlast) hgap
    exact ⟨gap.1, gap.2, hinner.first, hinner.second, hle, hinner.lt, hbound⟩

end Sample

/-! ### The validation -/

/-- A gap a schedule with this retention may have. -/
def Fits (retentionDays : Option Int) (gap : Run × Run) : Prop :=
  minInterval ≤ elapsed gap ∧ ∀ days, retentionDays = some days → 2 * smaller gap ≤ days * day

instance (retentionDays : Option Int) (gap : Run × Run) : Decidable (Fits retentionDays gap) :=
  decidable_of_iff (minInterval ≤ elapsed gap ∧
      retentionDays.all (fun days => decide (2 * smaller gap ≤ days * day)) = true) (by
    cases retentionDays <;> simp [Fits])

/-- The analysis finds the shortest and the longest of the sampled gaps. -/
theorem analyseCadence_eq_ok {trigger : Trigger} {moment : Int} {cadence : Cadence} :
    analyseCadence trigger moment = .ok cadence ↔
      ((gaps (sample trigger moment)).map elapsed).min? = some cadence.shortest ∧
        ((gaps (sample trigger moment)).map smaller).max? = some cadence.longest := by
  unfold analyseCadence
  cases gaps (sample trigger moment) with
  | nil => simp
  | cons first rest =>
      rw [List.map_cons, List.map_cons, List.min?_cons', List.max?_cons']
      constructor
      · intro h
        rw [← Except.ok.inj h]
        exact ⟨rfl, rfl⟩
      · rintro ⟨hshortest, hlongest⟩
        dsimp only
        rw [Option.some.inj hshortest, Option.some.inj hlongest]

theorem exists_analysis {trigger : Trigger} {moment : Int}
    (h : gaps (sample trigger moment) ≠ []) :
    ∃ cadence, analyseCadence trigger moment = .ok cadence := by
  unfold analyseCadence
  cases hgaps : gaps (sample trigger moment) with
  | nil => exact absurd hgaps h
  | cons first rest => exact ⟨_, rfl⟩

theorem checkCadence_ok_iff {cadence : Cadence} {retentionDays : Option Int}
    (hpositive : ∀ days, retentionDays = some days → 1 ≤ days) :
    checkCadence cadence retentionDays = .ok () ↔
      minInterval ≤ cadence.shortest ∧
        ∀ days, retentionDays = some days → 2 * cadence.longest ≤ days * day := by
  unfold checkCadence
  by_cases hshort : cadence.shortest < minInterval
  · rw [if_pos hshort]
    exact iff_of_false (by simp) fun h => absurd h.1 (by omega)
  · rw [if_neg hshort]
    cases retentionDays with
    | none => simp; omega
    | some days =>
        dsimp only
        have hone := hpositive days rfl
        have hfloor : days < minRetentionDays cadence ↔ ¬ 2 * cadence.longest ≤ days * day := by
          simp only [minRetentionDays, day, hour, minute, second]
          omega
        by_cases hdays : days < minRetentionDays cadence
        · rw [if_pos hdays]
          refine iff_of_false (by simp) fun h => hfloor.1 hdays (h.2 days rfl)
        · rw [if_neg hdays]
          refine iff_of_true rfl ⟨by omega, fun other hother => ?_⟩
          obtain rfl := Option.some.inj hother
          by_contra hlong
          exact hdays (hfloor.2 hlong)

theorem checkBounds_retention {fields : BackupSchedule} (h : checkBounds fields = .ok ()) :
    ∀ days, fields.retentionDays = some days → 1 ≤ days := by
  intro days hdays
  unfold checkBounds at h
  rw [hdays] at h
  dsimp only at h
  split at h
  · cases h
  · omega

section Validation

variable {build : String → String → Except String Trigger} {trigger : Trigger}
  {fields : BackupSchedule} {moment : Int}

/-- A schedule is accepted at a moment exactly when its bounds hold and the gaps sampled then, at
least one of them, fit its retention. -/
theorem accepted_iff (hbuild : build fields.cron fields.timezone = .ok trigger) :
    (∃ schedule, buildSchedule build moment fields = .ok schedule) ↔
      checkBounds fields = .ok () ∧ gaps (sample trigger moment) ≠ [] ∧
        ∀ gap ∈ gaps (sample trigger moment), Fits fields.retentionDays gap := by
  unfold buildSchedule cadenceOf
  rw [hbuild]
  dsimp only
  cases hbounds : checkBounds fields with
  | error problem => simp
  | ok =>
      dsimp only
      have hpositive := checkBounds_retention hbounds
      by_cases hgaps : gaps (sample trigger moment) = []
      · have hnone : analyseCadence trigger moment =
            .error "This expression runs less than twice in two years." := by
          rw [analyseCadence, hgaps]
        rw [hnone]
        exact iff_of_false (by simp) fun h => h.2.1 hgaps
      · obtain ⟨cadence, hcadence⟩ := exists_analysis hgaps
        obtain ⟨hshortest, hlongest⟩ := analyseCadence_eq_ok.1 hcadence
        rw [List.min?_eq_some_iff] at hshortest
        rw [List.max?_eq_some_iff] at hlongest
        have hfits : checkCadence cadence fields.retentionDays = .ok () ↔
            ∀ gap ∈ gaps (sample trigger moment), Fits fields.retentionDays gap := by
          rw [checkCadence_ok_iff hpositive]
          constructor
          · rintro ⟨hshort, hlong⟩ gap hgap
            have hmin := hshortest.2 _ (List.mem_map_of_mem hgap)
            have hmax := hlongest.2 _ (List.mem_map_of_mem hgap)
            refine ⟨by omega, fun days hdays => ?_⟩
            have := hlong days hdays
            omega
          · intro h
            obtain ⟨least, hleast, hleastEq⟩ := List.mem_map.1 hshortest.1
            obtain ⟨most, hmost, hmostEq⟩ := List.mem_map.1 hlongest.1
            rw [← hleastEq, ← hmostEq]
            exact ⟨(h least hleast).1, (h most hmost).2⟩
        rw [hcadence]
        dsimp only
        rw [← hfits]
        cases checkCadence cadence fields.retentionDays with
        | error problem => simp
        | ok => simp [hgaps]

/-- A schedule that is accepted at one moment is accepted at another, and its longest gap covers
the 800 days, exactly when the window of the other moment has two runs and only gaps that were
seen or fit, and every gap behind a full sample is no longer than one that was seen. -/
theorem accepted_stays_acceptable_iff (fires : Run → Prop) (trigger : Trigger)
    (hfires : FiresNext fires trigger) (build : String → String → Except String Trigger)
    (fields : BackupSchedule) (hbuild : build fields.cron fields.timezone = .ok trigger)
    (t1 t2 : Int) :
    (((∃ schedule, buildSchedule build t1 fields = .ok schedule) →
          ∃ schedule, buildSchedule build t2 fields = .ok schedule) ∧
        ∀ cadence, analyseCadence trigger t1 = .ok cadence → ∀ a b, Gap fires a b → t1 ≤ a.utc →
          b.utc ≤ t1 + cadenceHorizon → smaller (a, b) ≤ cadence.longest) ↔
      ((∃ schedule, buildSchedule build t1 fields = .ok schedule) →
          TwoRuns fires t2 ∧ ∀ gap ∈ gaps (sample trigger t2), gap ∉ gaps (sample trigger t1) →
            Fits fields.retentionDays gap) ∧
        (TwoRuns fires t1 → (sample trigger t1).length = cadenceSamples →
          ∀ a b, Gap fires a b → t1 ≤ a.utc → b.utc ≤ t1 + cadenceHorizon →
            (∀ run ∈ sample trigger t1, run.utc < b.utc) →
              ∃ seen ∈ gaps (sample trigger t1), smaller (a, b) ≤ smaller seen) := by
  apply and_congr
  · refine imp_congr_right fun haccepted => ?_
    obtain ⟨hbounds, _, hseen⟩ := (accepted_iff hbuild).1 haccepted
    rw [accepted_iff hbuild, twoRuns_iff hfires]
    constructor
    · rintro ⟨_, htwo, hfits⟩
      exact ⟨htwo, fun gap hgap _ => hfits gap hgap⟩
    · rintro ⟨htwo, hfits⟩
      refine ⟨hbounds, htwo, fun gap hgap => ?_⟩
      by_cases hold : gap ∈ gaps (sample trigger t1)
      · exact hseen gap hold
      · exact hfits gap hgap hold
  · rw [twoRuns_iff hfires]
    constructor
    · intro hcovers hgaps _ a b hgap hle hbound _
      obtain ⟨cadence, hcadence⟩ := exists_analysis hgaps
      have hlongest := (analyseCadence_eq_ok.1 hcadence).2
      rw [List.max?_eq_some_iff] at hlongest
      obtain ⟨seen, hseen, hseenEq⟩ := List.mem_map.1 hlongest.1
      exact ⟨seen, hseen, hseenEq ▸ hcovers cadence hcadence a b hgap hle hbound⟩
    · intro hcut cadence hcadence a b hgap hle hbound
      have hlongest := (analyseCadence_eq_ok.1 hcadence).2
      rw [List.max?_eq_some_iff] at hlongest
      rcases sampleFrom_complete hfires hgap hbound cadenceSamples none
        (fun _ hlast => by cases hlast) hle with
        hmem | ⟨hfull, hbehind⟩
      · exact hlongest.2 _ (List.mem_map_of_mem hmem)
      · have hgaps : gaps (sample trigger t1) ≠ [] := by
          obtain ⟨seen, hseen, _⟩ := List.mem_map.1 hlongest.1
          exact List.ne_nil_of_mem hseen
        obtain ⟨seen, hseen, hshorter⟩ := hcut hgaps hfull a b hgap hle hbound hbehind
        exact Int.le_trans hshorter (hlongest.2 _ (List.mem_map_of_mem hseen))

end Validation

/-! ### Yearly runs and a leap year -/

theorem yearlyTrigger_firesNext : FiresNext (· ∈ yearlyRuns) yearlyTrigger where
  unique := by
    have h : ∀ a ∈ yearlyRuns, ∀ b ∈ yearlyRuns, a.utc = b.utc → a = b := by decide
    intro a b ha hb
    exact h a ha b hb
  spaced := by
    have h : ∀ a ∈ yearlyRuns, ∀ b ∈ yearlyRuns, a.utc < b.utc → after a ≤ b.utc := by
      decide
    intro a b ha hb
    exact h a ha b hb
  next := by
    intro previous now run _ hnext
    obtain ⟨hle, before, rest, hsplit, hbefore⟩ := List.find?_eq_some_iff_append.1 hnext
    have hsorted : yearlyRuns.Pairwise fun a b => a.utc < b.utc := by decide
    refine ⟨hsplit ▸ by simp, by simpa using hle, fun other hother hnow => ?_⟩
    rw [hsplit, List.mem_append, List.mem_cons] at hother
    rw [hsplit] at hsorted
    rcases hother with hother | rfl | hother
    · exact absurd hnow (by simpa using hbefore other hother)
    · exact Int.le_refl _
    · exact Int.le_of_lt
        ((List.pairwise_cons.1 (List.pairwise_append.1 hsorted).2.1).1 other hother)
  last := by
    intro previous now _ hnext other hother
    have := List.find?_eq_none.1 hnext other hother
    simpa using this

/-- New Year's backups, kept for two years.  From 2 January 2025 the sample sees the year 2026, from
2 January 2027 the leap year 2028, and two years of 366 days are more than 730 days. -/
theorem leap_year_refuses_schedule :
    ¬ ∀ (fires : Run → Prop) (trigger : Trigger), FiresNext fires trigger →
      ∀ (build : String → String → Except String Trigger) (fields : BackupSchedule),
        build fields.cron fields.timezone = .ok trigger → ∀ t1 t2 : Int, t1 ≤ t2 →
          (∃ schedule, buildSchedule build t1 fields = .ok schedule) →
            ∃ schedule, buildSchedule build t2 fields = .ok schedule := by
  intro h
  obtain ⟨schedule, hlater⟩ := h _ yearlyTrigger yearlyTrigger_firesNext (fun _ _ => .ok yearlyTrigger)
    { cron := "0 3 1 1 *", timezone := "UTC", retentionDays := some 730 } rfl (20090 * day)
    (20820 * day) (by decide) ⟨_, rfl⟩
  have hrefused : (buildSchedule (fun _ _ => .ok yearlyTrigger) (20820 * day)
      { cron := "0 3 1 1 *", timezone := "UTC", retentionDays := some 730 }).toOption = none := by
    decide
  rw [hlater] at hrefused
  cases hrefused

/-- Kept for three years they stay acceptable. -/
theorem three_years_stay_acceptable :
    ∃ schedule, buildSchedule (fun _ _ => .ok yearlyTrigger) (20820 * day)
      { cron := "0 3 1 1 *", timezone := "UTC", retentionDays := some 1100 } = .ok schedule :=
  ((accepted_stays_acceptable_iff _ yearlyTrigger yearlyTrigger_firesNext
    (fun _ _ => .ok yearlyTrigger)
    { cron := "0 3 1 1 *", timezone := "UTC", retentionDays := some 1100 } rfl (20090 * day)
    (20820 * day)).2
      ⟨fun _ => ⟨(twoRuns_iff yearlyTrigger_firesNext _).2 (by decide), by decide⟩,
        fun _ hfull => absurd hfull (by decide)⟩).1 ⟨_, rfl⟩

end Papaia.Backup
