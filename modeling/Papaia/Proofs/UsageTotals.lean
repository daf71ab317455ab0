/-
Module: Papaia.Proofs.UsageTotals
Purpose: The report conserves the numbers: its integer totals are the sums over its models, over its
  days and over the entries that count, for whatever order its sets are iterated in.
Trusted boundary: none
Main exports: Metrics.counts, countsOf, tokensOf, Conserves, reportOf_eq, conserves, mem_names
-/
import Mathlib.Algebra.Group.Int.Defs
import Mathlib.Algebra.Group.Prod
import Papaia.Proofs.UsageNumbers

namespace Papaia.Models

open Grouped Paired Sorted

/-! ### Whole numbers that are added up -/

/-- The prompt and completion tokens, the requests and the failed requests. -/
abbrev Counts := Int × Int × Int × Int

namespace Metrics

def counts (metrics : Metrics) : Counts :=
  (metrics.promptTokens, metrics.completionTokens, metrics.requests, metrics.failed)

@[simp] theorem counts_zero : zero.counts = 0 := rfl

@[simp] theorem counts_add (one other : Metrics) : (one.add other).counts = one.counts + other.counts :=
  rfl

/-- Spends are rounded when they are added, counts are not. -/
theorem counts_sum (metrics : List Metrics) : (sum metrics).counts = (metrics.map counts).sum := by
  have hfold : ∀ start : Metrics,
      (metrics.foldl add start).counts = start.counts + (metrics.map counts).sum := by
    induction metrics with
    | nil => simp
    | cons first rest ih =>
        intro start
        rw [List.foldl_cons, ih, counts_add, List.map_cons, List.sum_cons, add_assoc]
  rw [sum, hfold, counts_zero, zero_add]

end Metrics

/-- The counts of an entry, as the manager reads them. -/
def countsOf (lib : Library) (entry : Contribution) : Counts :=
  match metricsFrom lib entry.raw with
  | .ok metrics => metrics.counts
  | .error _ => 0

/-- The counts of a name, all its days together. -/
def countsOfName (lib : Library) (entries : List Contribution) (name : PyText) : Counts :=
  ((entries.filter fun entry => entry.name = name).map (countsOf lib)).sum

/-- The tokens and the requests of a name. -/
def tokensOf (lib : Library) (entries : List Contribution) (name : PyText) : Int × Int :=
  let counts := countsOfName lib entries name
  (counts.1 + counts.2.1, counts.2.2.1)

/-! ### The table of the models and their days -/

section Table

variable (entries : List Measured)

/-- What a name has on a day. -/
def metricsOn (name : PyText) (day : Int) : Metrics :=
  Metrics.sum (((entries.filter fun entry => entry.name = name).filter fun entry =>
    entry.day = day).map Measured.metrics)

theorem collect_eq : entries.foldl collect [] =
    table (entries.map Measured.name).eraseDups fun name =>
      table ((entries.filter fun entry => entry.name = name).map Measured.day).eraseDups
        (metricsOn entries name) := by
  have hname := foldl_change Measured.name ([] : List (Int × Metrics))
    (fun entry => change entry.day .zero fun before => before.add entry.metrics) entries
  refine hname.trans (congrArg (table _) ?_)
  funext name
  have hday := foldl_change Measured.day Metrics.zero (fun entry before => before.add entry.metrics)
    (entries.filter fun entry => entry.name = name)
  rw [hday]
  congr 2
  funext day
  rw [metricsOn, Metrics.sum, List.foldl_map]

theorem daysOf_collect (name : PyText) : daysOf (entries.foldl collect []) name =
    table ((entries.filter fun entry => entry.name = name).map Measured.day).eraseDups
      (metricsOn entries name) := by
  rw [daysOf, collect_eq, lookup_table]
  by_cases hname : name ∈ (entries.map Measured.name).eraseDups
  · rw [if_pos hname]
    rfl
  · have hnone : (entries.filter fun entry => entry.name = name) = [] := by
      rw [List.filter_eq_nil_iff]
      intro entry hentry hsame
      apply hname
      rw [List.mem_eraseDups, ← of_decide_eq_true hsame]
      exact List.mem_map_of_mem hentry
    rw [if_neg hname, hnone]
    rfl

theorem lookup_day (name : PyText) (day : Int) :
    ((daysOf (entries.foldl collect []) name).lookup day).getD .zero = metricsOn entries name day := by
  rw [daysOf_collect, lookup_table]
  split
  · rfl
  · next habsent =>
      have hnone : ((entries.filter fun entry => entry.name = name).filter fun entry =>
          entry.day = day) = [] := by
        rw [List.filter_eq_nil_iff]
        intro entry hentry hsame
        apply habsent
        rw [List.mem_eraseDups, ← of_decide_eq_true hsame]
        exact List.mem_map_of_mem hentry
      rw [metricsOn, hnone]
      rfl

theorem counts_metricsOn (name : PyText) (day : Int) : (metricsOn entries name day).counts =
    (((entries.filter fun entry => entry.name = name).filter fun entry => entry.day = day).map
      fun entry => entry.metrics.counts).sum := by
  rw [metricsOn, Metrics.counts_sum, List.map_map]
  rfl

/-- The days of a name sum up to what its entries hold. -/
theorem counts_daysOf (name : PyText) :
    (Metrics.sum ((daysOf (entries.foldl collect []) name).map Prod.snd)).counts =
      ((entries.filter fun entry => entry.name = name).map fun entry => entry.metrics.counts).sum := by
  rw [Metrics.counts_sum, daysOf_collect, table, List.map_map, List.map_map]
  simp only [Function.comp_def, counts_metricsOn]
  apply sum_groups Measured.day _ _ (nodup_eraseDups _)
  intro entry hentry
  exact List.mem_eraseDups.2 (List.mem_map_of_mem hentry)

/-- What all names have on a day sums up to what the day's entries hold. -/
theorem counts_of_day {names : List PyText} (hnames : names.Nodup)
    (hall : ∀ entry ∈ entries, entry.name ∈ names) (day : Int) :
    (Metrics.sum (names.map fun name =>
      ((daysOf (entries.foldl collect []) name).lookup day).getD .zero)).counts =
        ((entries.filter fun entry => entry.day = day).map fun entry => entry.metrics.counts).sum := by
  have hswap : ∀ name, ((entries.filter fun entry => entry.name = name).filter fun entry =>
      entry.day = day) = (entries.filter fun entry => entry.day = day).filter fun entry =>
        entry.name = name := by
    intro name
    rw [List.filter_filter, List.filter_filter]
    apply List.filter_congr
    intro entry _
    exact Bool.and_comm _ _
  rw [Metrics.counts_sum, List.map_map]
  simp only [Function.comp_def, lookup_day, counts_metricsOn, hswap]
  apply sum_groups Measured.name _ _ hnames
  exact fun entry hentry => hall entry (List.mem_of_mem_filter hentry)

end Table

/-! ### Entries and their numbers -/

section Entries

variable {lib : Library} {entries : List Contribution} {numbers : List Measured}

theorem measured_eq_ok {entry : Contribution} {number : Measured} (h : measured lib entry = .ok number) :
    number.name = entry.name ∧ number.day = entry.day ∧ number.metrics.counts = countsOf lib entry := by
  unfold measured at h
  unfold countsOf
  cases hraw : metricsFrom lib entry.raw with
  | error raised => rw [hraw] at h; cases h
  | ok metrics =>
      rw [hraw] at h
      obtain rfl := Except.ok.inj h
      exact ⟨rfl, rfl, rfl⟩

theorem names_of_measured (h : entries.mapM (measured lib) = .ok numbers) :
    numbers.map Measured.name = entries.map Contribution.name := by
  induction mapM_eq_ok_iff.1 h with
  | nil => rfl
  | cons hentry hrest ih =>
      rw [List.map_cons, List.map_cons, (measured_eq_ok hentry).1, ih (mapM_eq_ok_iff.2 hrest)]

theorem counts_of_measured (h : entries.mapM (measured lib) = .ok numbers) :
    numbers.map (fun number => number.metrics.counts) = entries.map (countsOf lib) := by
  induction mapM_eq_ok_iff.1 h with
  | nil => rfl
  | cons hentry hrest ih =>
      rw [List.map_cons, List.map_cons, (measured_eq_ok hentry).2.2, ih (mapM_eq_ok_iff.2 hrest)]

theorem counts_of_name (h : entries.mapM (measured lib) = .ok numbers) (name : PyText) :
    ((numbers.filter fun number => number.name = name).map fun number => number.metrics.counts).sum =
      countsOfName lib entries name := by
  rw [countsOfName]
  congr 1
  induction mapM_eq_ok_iff.1 h with
  | nil => rfl
  | cons hentry hrest ih =>
      have htail := ih (mapM_eq_ok_iff.2 hrest)
      rw [List.filter_cons, List.filter_cons, (measured_eq_ok hentry).1]
      split
      · rw [List.map_cons, List.map_cons, (measured_eq_ok hentry).2.2, htail]
      · exact htail

end Entries

theorem holds_of_mem_wellFormed {lib : Library} {window : Window} {results : List Object}
    {entry : Contribution} (h : entry ∈ wellFormed lib window results) : window.Holds entry.day := by
  obtain ⟨source, -, hentry⟩ := List.mem_flatMap.1 h
  unfold contributions at hentry
  cases hday : lib.day (get source "date") with
  | none => simp [hday] at hentry
  | some day =>
      rw [hday] at hentry
      dsimp only at hentry
      by_cases hholds : window.Holds day
      · rw [if_pos hholds] at hentry
        obtain ⟨group, -, hgroup⟩ := List.mem_filterMap.1 hentry
        unfold contribution at hgroup
        split at hgroup
        · cases hgroup
        · obtain ⟨item, -, rfl⟩ := Option.map_eq_some_iff.1 hgroup
          exact hholds
      · rw [if_neg hholds] at hentry
        cases hentry

/-! ### The window's days -/

theorem Window.nodup_dates (window : Window) : window.dates.Nodup :=
  List.nodup_range.map fun one other h => by simpa using h

theorem Window.mem_dates {window : Window} {day : Int} : day ∈ window.dates ↔ window.Holds day := by
  unfold Window.dates Window.Holds Window.length
  rw [List.mem_map]
  constructor
  · intro h
    obtain ⟨offset, hoffset, rfl⟩ := h
    rw [List.mem_range] at hoffset
    omega
  · intro h
    refine ⟨(day - window.start).toNat, ?_, ?_⟩
    · rw [List.mem_range]
      omega
    · omega

/-! ### The report -/

section Report

variable (lib : Library) (order : SetOrder) (window : Window) (catalog : List ModelEntry)
  (complete : Bool)

/-- The catalog by its names, as the report has it. -/
def entriesOf : List (PyText × ModelEntry) :=
  catalog.foldl (fun entries entry => put entry.name entry entries) []

theorem names_entriesOf (name : PyText) :
    name ∈ (entriesOf catalog).map Prod.fst ↔ name ∈ catalog.map ModelEntry.name := by
  have hfold : ∀ entries : List (PyText × ModelEntry),
      name ∈ (catalog.foldl (fun entries entry => put entry.name entry entries) entries).map Prod.fst ↔
        name ∈ entries.map Prod.fst ∨ name ∈ catalog.map ModelEntry.name := by
    induction catalog with
    | nil => simp
    | cons entry rest ih =>
        intro entries
        rw [List.foldl_cons, ih, put, mem_keys_change, List.map_cons, List.mem_cons]
        tauto
  rw [entriesOf, hfold]
  simp

variable (usage : Usage)

theorem nodup_namesOf (entries : List (PyText × ModelEntry)) :
    (namesOf lib order entries usage).Nodup :=
  nodup_sortBy.2 (order.nodup_union _ _)

theorem mem_namesOf (entries : List (PyText × ModelEntry)) (name : PyText) :
    name ∈ namesOf lib order entries usage ↔
      name ∈ entries.map Prod.fst ∨ name ∈ usage.map Prod.fst := by
  rw [namesOf, mem_sortBy, order.mem_union, order.mem_setOf, order.mem_setOf]

/-- The slots that a report assigns. -/
def slotsOf : List (PyText × Nat) :=
  assignSlots lib order (namesOf lib order (entriesOf catalog) usage)
    (table (namesOf lib order (entriesOf catalog) usage) fun name =>
      let totals := Metrics.sum ((daysOf usage name).map Prod.snd)
      (totals.tokens, totals.requests))

/-- The model of a name. -/
def modelOf (name : PyText) : ModelUsage where
  name := name
  entry := (entriesOf catalog).lookup name
  daily := window.dates.map fun day => ((daysOf usage name).lookup day).getD .zero
  totals := Metrics.sum ((daysOf usage name).map Prod.snd)
  slot := (slotsOf lib order catalog usage).lookup name

theorem models_buildReport : (buildReport lib order window catalog usage complete).models =
    (namesOf lib order (entriesOf catalog) usage).map (modelOf lib order window catalog usage) := by
  apply List.map_congr_left
  intro name hname
  have hmem : name ∈ namesOf lib order (entriesOf catalog) usage := hname
  have hsummed : ((table (namesOf lib order (entriesOf catalog) usage) fun name =>
      Metrics.sum ((daysOf usage name).map Prod.snd)).lookup name).getD .zero =
        Metrics.sum ((daysOf usage name).map Prod.snd) := by
    rw [lookup_table, if_pos hmem]
    rfl
  rw [ModelUsage.mk.injEq]
  refine ⟨rfl, rfl, rfl, hsummed, ?_⟩
  unfold modelOf slotsOf table
  rw [List.map_map]
  rfl

theorem dailyTotals_buildReport : (buildReport lib order window catalog usage complete).dailyTotals =
    window.dates.map fun day => Metrics.sum ((namesOf lib order (entriesOf catalog) usage).map fun name =>
      ((daysOf usage name).lookup day).getD .zero) := by
  have hunfold : (buildReport lib order window catalog usage complete).dailyTotals =
      (List.range window.dates.length).map fun index => Metrics.sum
        ((buildReport lib order window catalog usage complete).models.map fun model =>
          model.daily.getD index .zero) := rfl
  rw [hunfold, models_buildReport]
  apply List.ext_getElem
  · simp
  · intro index hindex _
    have hin : index < window.dates.length := by simpa using hindex
    simp only [List.getElem_map, List.getElem_range, List.map_map]
    congr 1
    apply List.map_congr_left
    intro name _
    simp [modelOf, hin]

end Report

/-! ### The names of the report -/

/-- Every entry of the catalog stands under its own name. -/
def Filed (entries : List (PyText × ModelEntry)) : Prop :=
  ∀ entry ∈ entries, entry.2.name = entry.1

theorem Filed.put {name : PyText} {entry : ModelEntry} {entries : List (PyText × ModelEntry)}
    (h : Filed entries) (hname : entry.name = name) : Filed (put name entry entries) := by
  intro filed hfiled
  rcases eq_or_mem_of_mem_change hfiled with ⟨-, rfl⟩ | hmem
  · exact hname
  · exact h filed hmem

theorem addDeployment_put {entries : List (PyText × ModelEntry)} (h : Filed entries)
    (entry : ModelEntry) : ∃ merged : ModelEntry, merged.name = entry.name ∧
      addDeployment entries (some entry) = put entry.name merged entries := by
  rw [addDeployment]
  cases hseen : entries.lookup entry.name with
  | none => exact ⟨entry, rfl, rfl⟩
  | some seen =>
      obtain ⟨before, after, hsplit, -⟩ := List.lookup_eq_some_iff.1 hseen
      refine ⟨seen.filledBy entry, ?_, rfl⟩
      exact h (entry.name, seen) (by rw [hsplit]; simp)

theorem names_foldl_addDeployment (outputs : List (Option ModelEntry)) (name : PyText)
    {entries : List (PyText × ModelEntry)} (h : Filed entries) :
    Filed (outputs.foldl addDeployment entries) ∧
      (name ∈ (outputs.foldl addDeployment entries).map Prod.fst ↔
        name ∈ entries.map Prod.fst ∨ ∃ entry, some entry ∈ outputs ∧ entry.name = name) := by
  induction outputs generalizing entries with
  | nil => exact ⟨h, by simp⟩
  | cons output rest ih =>
      rw [List.foldl_cons]
      cases output with
      | none =>
          obtain ⟨hfiled, hnames⟩ := ih h
          exact ⟨hfiled, hnames.trans (by simp)⟩
      | some entry =>
          obtain ⟨merged, hmerged, hput⟩ := addDeployment_put h entry
          rw [hput]
          obtain ⟨hfiled, hnames⟩ := ih (h.put hmerged)
          refine ⟨hfiled, hnames.trans ?_⟩
          rw [put, mem_keys_change]
          simp only [List.mem_cons, Option.some.injEq, or_and_right, exists_or, exists_eq_left]
          rw [eq_comm (a := name)]
          tauto

/-- The names of the answers: those of the catalog and those of the entries that count. -/
def namesIn (lib : Library) (window : Window) (items results : List Object) : List PyText :=
  (items.filterMap fun item => (get item "model_name").named?) ++
    (wellFormed lib window results).map Contribution.name

theorem name_of_entryOf {lib : Library} {item : Object} {output : Option ModelEntry}
    (h : entryOf lib item = .ok output) :
    output.map ModelEntry.name = (get item "model_name").named? := by
  rw [entryOf] at h
  cases hname : (get item "model_name").named? with
  | none =>
      rw [hname] at h
      obtain rfl := Except.ok.inj h
      rfl
  | some name =>
      rw [hname] at h
      obtain ⟨host, -, h⟩ := bind_eq_ok.1 h
      obtain ⟨inputPerMillion, -, h⟩ := bind_eq_ok.1 h
      obtain ⟨outputPerMillion, -, h⟩ := bind_eq_ok.1 h
      obtain rfl := Except.ok.inj h
      rfl

theorem names_parseCatalog {lib : Library} {items : List Object} {catalog : List ModelEntry}
    (h : parseCatalog lib items = .ok catalog) (name : PyText) :
    name ∈ catalog.map ModelEntry.name ↔
      name ∈ items.filterMap fun item => (get item "model_name").named? := by
  rw [parseCatalog_eq] at h
  cases houtputs : items.mapM (entryOf lib) with
  | error raised => rw [houtputs] at h; cases h
  | ok outputs =>
      rw [houtputs] at h
      obtain rfl := Except.ok.inj h
      have hempty : Filed [] := by simp [Filed]
      obtain ⟨hfiled, hnames⟩ := names_foldl_addDeployment outputs name hempty
      have hvalues : ((outputs.foldl addDeployment []).map Prod.snd).map ModelEntry.name =
          (outputs.foldl addDeployment []).map Prod.fst := by
        rw [List.map_map]
        exact List.map_congr_left hfiled
      have hsorted := (perm_sortBy (fun entry => lib.casefold entry.name)
        ((outputs.foldl addDeployment []).map Prod.snd)).map ModelEntry.name
      rw [hsorted.mem_iff, hvalues, hnames, List.mem_filterMap]
      have hpairs := mapM_eq_ok_iff.1 houtputs
      simp only [List.map_nil, List.not_mem_nil, false_or]
      constructor
      · rintro ⟨entry, hentry, rfl⟩
        obtain ⟨item, hitem, hread⟩ := exists_right hpairs _ hentry
        exact ⟨item, hitem, (name_of_entryOf hread).symm⟩
      · rintro ⟨item, hitem, hname⟩
        obtain ⟨output, houtput, hread⟩ := exists_left hpairs _ hitem
        have hsome := (name_of_entryOf hread).trans hname
        obtain ⟨entry, rfl, hentry⟩ := Option.map_eq_some_iff.1 hsome
        exact ⟨entry, houtput, hentry⟩

/-! ### What a report conserves -/

section Conserved

variable {lib : Library} {order : SetOrder} {window : Window} {items results : List Object}
  {complete : Bool} {report : UsageReport}

/-- What a report is made of. -/
theorem reportOf_eq_ok (h : reportOf lib order window items results complete = .ok report) :
    ∃ catalog numbers, parseCatalog lib items = .ok catalog ∧
      (wellFormed lib window results).mapM (measured lib) = .ok numbers ∧
      report = buildReport lib order window catalog (numbers.foldl collect []) complete := by
  obtain ⟨catalog, hcatalog, h⟩ := bind_eq_ok.1 h
  obtain ⟨usage, husage, h⟩ := bind_eq_ok.1 h
  rw [parseUsage_eq] at husage
  cases hnumbers : (wellFormed lib window results).mapM (measured lib) with
  | error raised => rw [hnumbers] at husage; cases husage
  | ok numbers =>
      rw [hnumbers] at husage
      obtain rfl := Except.ok.inj husage
      exact ⟨catalog, numbers, hcatalog, rfl, (Except.ok.inj h).symm⟩

/-- The integer totals are the sums over the models, over the days and over the entries that count, and
no two models share a name. -/
structure Conserves (lib : Library) (entries : List Contribution) (report : UsageReport) : Prop where
  models : report.totals.counts = (report.models.map fun model => model.totals.counts).sum
  daily : report.totals.counts = (report.dailyTotals.map Metrics.counts).sum
  entries : report.totals.counts = (entries.map (countsOf lib)).sum
  names : (report.models.map ModelUsage.name).Nodup

theorem names_buildReport (lib : Library) (order : SetOrder) (window : Window)
    (catalog : List ModelEntry) (usage : Usage) (complete : Bool) :
    (buildReport lib order window catalog usage complete).models.map ModelUsage.name =
      namesOf lib order (entriesOf catalog) usage := by
  rw [models_buildReport, List.map_map]
  exact List.map_id _

theorem names_collect (numbers : List Measured) (name : PyText) :
    name ∈ (numbers.foldl collect []).map Prod.fst ↔ name ∈ numbers.map Measured.name := by
  rw [collect_eq, keys_table, List.mem_eraseDups]

theorem counts_totals (lib : Library) (order : SetOrder) (window : Window) (catalog : List ModelEntry)
    (usage : Usage) (complete : Bool) :
    (buildReport lib order window catalog usage complete).totals.counts =
      ((buildReport lib order window catalog usage complete).models.map fun model =>
        model.totals.counts).sum := by
  refine (Metrics.counts_sum _).trans ?_
  rw [List.map_map]
  rfl

theorem conserves (h : reportOf lib order window items results complete = .ok report) :
    Conserves lib (wellFormed lib window results) report := by
  obtain ⟨catalog, numbers, -, hnumbers, rfl⟩ := reportOf_eq_ok h
  have hnodup := nodup_namesOf lib order (numbers.foldl collect []) (entriesOf catalog)
  have hnamed : ∀ number ∈ numbers,
      number.name ∈ namesOf lib order (entriesOf catalog) (numbers.foldl collect []) := by
    intro number hnumber
    rw [mem_namesOf, names_collect]
    exact .inr (List.mem_map_of_mem hnumber)
  have hdays : ∀ number ∈ numbers, number.day ∈ window.dates := by
    intro number hnumber
    obtain ⟨entry, hentry, hread⟩ := exists_right (mapM_eq_ok_iff.1 hnumbers) _ hnumber
    rw [Window.mem_dates, (measured_eq_ok hread).2.1]
    exact holds_of_mem_wellFormed hentry
  -- by model, then all its entries
  have hmodels : (buildReport lib order window catalog (numbers.foldl collect []) complete).totals.counts =
      (numbers.map fun number => number.metrics.counts).sum := by
    rw [counts_totals, models_buildReport, List.map_map]
    simp only [Function.comp_def, modelOf, counts_daysOf]
    exact sum_groups Measured.name _ _ hnodup hnamed
  -- by day, then the models that have entries there
  have hdaily : ((buildReport lib order window catalog (numbers.foldl collect []) complete).dailyTotals.map
      Metrics.counts).sum = (numbers.map fun number => number.metrics.counts).sum := by
    rw [dailyTotals_buildReport, List.map_map]
    simp only [Function.comp_def, counts_of_day numbers hnodup hnamed]
    exact sum_groups Measured.day _ _ window.nodup_dates hdays
  refine ⟨counts_totals _ _ _ _ _ _, hmodels.trans hdaily.symm, ?_, ?_⟩
  · rw [hmodels, counts_of_measured hnumbers]
  · rw [names_buildReport]
    exact hnodup

/-- The names of a report are those of the answers. -/
theorem mem_names (h : reportOf lib order window items results complete = .ok report) (name : PyText) :
    name ∈ report.models.map ModelUsage.name ↔ name ∈ namesIn lib window items results := by
  obtain ⟨catalog, numbers, hcatalog, hnumbers, rfl⟩ := reportOf_eq_ok h
  rw [names_buildReport, mem_namesOf, names_entriesOf, names_parseCatalog hcatalog, names_collect,
    names_of_measured hnumbers, namesIn, List.mem_append]

/-- What the models of a report have used is what the entries that count say. -/
theorem tokens_of_mem (h : reportOf lib order window items results complete = .ok report)
    {model : ModelUsage} (hmodel : model ∈ report.models) :
    (model.totals.tokens, model.totals.requests) =
      tokensOf lib (wellFormed lib window results) model.name := by
  obtain ⟨catalog, numbers, -, hnumbers, rfl⟩ := reportOf_eq_ok h
  rw [models_buildReport] at hmodel
  obtain ⟨name, -, rfl⟩ := List.mem_map.1 hmodel
  rw [tokensOf, ← counts_of_name hnumbers, modelOf, ← counts_daysOf]
  rfl

end Conserved

end Papaia.Models
