/-
Module: Papaia.Proofs.UsageNumbers
Purpose: Which numbers of LiteLLM's answers end the reading with an exception, and the entries that
  count: the well-formed ones inside the window, whatever stands around them.
Trusted boundary: none
Main exports: OverflowsWhen, Infinite, TooLarge, Beyond, Misread, Overpriced, Unreadable, wellFormed,
  parseUsage_eq, parseUsage_overflows, parseCatalog_unreadable, parseCatalog_overflows
-/
import Papaia.Lib.Paired
import Papaia.Stack.ModelUsage

namespace Papaia.Models

open Binary64 Paired Sorted

/-! ### Computations that only overflow -/

/-- A computation that ends with an `OverflowError` under a condition, and well otherwise. -/
structure OverflowsWhen {α : Type} (outcome : Except Raised α) (beyond : Prop) : Prop where
  raises : beyond → outcome = .error .overflowError
  returns : ¬ beyond → ∃ value, outcome = .ok value

namespace OverflowsWhen

variable {α β : Type} {outcome : Except Raised α} {beyond more : Prop}

theorem ok (value : α) : OverflowsWhen (Except.ok value) False :=
  ⟨False.elim, fun _ => ⟨value, rfl⟩⟩

theorem iff (h : OverflowsWhen outcome beyond) (hiff : beyond ↔ more) :
    OverflowsWhen outcome more :=
  ⟨fun hmore => h.raises (hiff.2 hmore), fun hmore => h.returns (mt hiff.1 hmore)⟩

theorem bind {f : α → Except Raised β} (h : OverflowsWhen outcome beyond)
    (hf : ∀ value, OverflowsWhen (f value) more) : OverflowsWhen (outcome >>= f) (beyond ∨ more) := by
  by_cases hbeyond : beyond
  · rw [h.raises hbeyond]
    exact ⟨fun _ => rfl, fun hnot => absurd (Or.inl hbeyond) hnot⟩
  · obtain ⟨value, hvalue⟩ := h.returns hbeyond
    rw [hvalue]
    exact (hf value).iff (by simp [hbeyond])

theorem map (f : α → β) (h : OverflowsWhen outcome beyond) : OverflowsWhen (outcome.map f) beyond := by
  constructor
  · intro hbeyond
    rw [h.raises hbeyond]
    rfl
  · intro hnot
    obtain ⟨value, hvalue⟩ := h.returns hnot
    exact ⟨f value, by rw [hvalue]; rfl⟩

theorem mapM {f : β → Except Raised α} {inputs : List β} {beyond : β → Prop}
    (h : ∀ input ∈ inputs, OverflowsWhen (f input) (beyond input)) :
    OverflowsWhen (inputs.mapM f) (∃ input ∈ inputs, beyond input) := by
  induction inputs with
  | nil => exact (ok []).iff (by simp)
  | cons first rest ih =>
      rw [List.forall_mem_cons] at h
      have hrest : ∀ value, OverflowsWhen (rest.mapM f >>= fun more => pure (value :: more))
          (∃ input ∈ rest, beyond input) :=
        fun value => ((ih h.2).bind fun more => ok (value :: more)).iff (or_iff_left not_false)
      rw [List.mapM_cons]
      exact (h.1.bind hrest).iff (by simp)

end OverflowsWhen

/-! ### Numbers -/

/-- A number that is no whole number: `Infinity`, or one that is read as infinite, as `1e400` is. -/
def Infinite (value : Json) : Prop :=
  ∃ negative, value = .float (.infinite negative)

/-- A whole number that is too large for a float. -/
def TooLarge (value : Json) : Prop :=
  ∃ number : Int, value = .int number ∧ Overflows number

theorem int_overflows (lib : Library) (value : Json) :
    OverflowsWhen (int lib value) (Infinite value) := by
  cases value with
  | float value =>
      cases value with
      | infinite negative => exact ⟨fun _ => rfl, fun hnot => absurd ⟨negative, rfl⟩ hnot⟩
      | finite value => exact (OverflowsWhen.ok _).iff (by simp [Infinite])
      | nan => exact (OverflowsWhen.ok 0).iff (by simp [Infinite])
  | str chars =>
      rw [int, toInt]
      cases lib.parseInt chars <;> exact (OverflowsWhen.ok _).iff (by simp [Infinite])
  | null => exact (OverflowsWhen.ok 0).iff (by simp [Infinite])
  | bool value => exact (OverflowsWhen.ok _).iff (by simp [Infinite])
  | int value => exact (OverflowsWhen.ok value).iff (by simp [Infinite])
  | arr items => exact (OverflowsWhen.ok 0).iff (by simp [Infinite])
  | obj fields => exact (OverflowsWhen.ok 0).iff (by simp [Infinite])

/-- What is done with a float, after the errors that are taken for nothing. -/
theorem toFloat_overflows {α : Type} (lib : Library) (fallback : α) (f : PyFloat → α) (value : Json) :
    OverflowsWhen (orElse fallback ((toFloat lib value).map f)) (TooLarge value) := by
  cases value with
  | int number =>
      have hiff : TooLarge (.int number) ↔ Overflows number := by simp [TooLarge]
      rw [toFloat, Host.toFloat, Host.checkedFloat]
      by_cases h : Overflows (number : Rat)
      · rw [if_pos h]
        exact ⟨fun _ => rfl, fun hnot => absurd (hiff.2 h) hnot⟩
      · rw [if_neg h]
        exact (OverflowsWhen.ok _).iff (iff_of_false not_false (mt hiff.1 h))
  | str chars =>
      rw [toFloat]
      cases lib.parseFloat chars <;> exact (OverflowsWhen.ok _).iff (by simp [TooLarge])
  | null => exact (OverflowsWhen.ok fallback).iff (by simp [TooLarge])
  | bool value => exact (OverflowsWhen.ok _).iff (by simp [TooLarge])
  | float value => exact (OverflowsWhen.ok _).iff (by simp [TooLarge])
  | arr items => exact (OverflowsWhen.ok fallback).iff (by simp [TooLarge])
  | obj fields => exact (OverflowsWhen.ok fallback).iff (by simp [TooLarge])

theorem float_overflows (lib : Library) (value : Json) :
    OverflowsWhen (float lib value) (TooLarge value) := by
  have h := toFloat_overflows lib (.finite 0) id value
  have hid : (toFloat lib value).map id = toFloat lib value := by
    cases toFloat lib value <;> rfl
  rwa [hid] at h

theorem perMillion_overflows (lib : Library) (value : Json) :
    OverflowsWhen (perMillion lib value) (TooLarge value) := by
  have h := toFloat_overflows lib none
    (fun price => some (rounded (Host.times price 1000000))) value
  cases value with
  | null => exact (OverflowsWhen.ok none).iff (by simp [TooLarge])
  | _ => exact h

/-- Metrics with a count that is infinite, or with a spend that is too large. -/
def Beyond (raw : Json) : Prop :=
  ∃ fields, raw.object? = some fields ∧
    (Infinite (get fields "prompt_tokens") ∨ Infinite (get fields "completion_tokens") ∨
      TooLarge (get fields "spend") ∨ Infinite (get fields "api_requests") ∨
      Infinite (get fields "failed_requests"))

theorem metricsFrom_overflows (lib : Library) (raw : Json) :
    OverflowsWhen (metricsFrom lib raw) (Beyond raw) := by
  rw [metricsFrom]
  cases hraw : raw.object? with
  | none => exact (OverflowsWhen.ok Metrics.zero).iff (by simp [Beyond, hraw])
  | some fields =>
      have hsteps := (int_overflows lib (get fields "prompt_tokens")).bind fun promptTokens =>
        (int_overflows lib (get fields "completion_tokens")).bind fun completionTokens =>
        (float_overflows lib (get fields "spend")).bind fun spend =>
        (int_overflows lib (get fields "api_requests")).bind fun requests =>
        (int_overflows lib (get fields "failed_requests")).map fun failed =>
          ({ promptTokens, completionTokens, spend, requests, failed } : Metrics)
      exact hsteps.iff (by simp [Beyond, hraw])

/-! ### The entries that count -/

/-- What one group of a day entry holds. -/
structure Contribution where
  name : PyText
  day : Int
  raw : Json

/-- A group counts where it has a name and is a dict. -/
def contribution (day : Int) (group : PyText × Json) : Option Contribution :=
  if group.1.isEmpty then none
  else group.2.object?.map fun item => ⟨group.1, day, get item "metrics"⟩

/-- What a day entry holds that counts: nothing where its date cannot be read or lies outside of the
window, or where its groups are no dict. -/
def contributions (lib : Library) (window : Window) (entry : Object) : List Contribution :=
  match lib.day (get entry "date") with
  | none => []
  | some day =>
      if window.Holds day then ((groupsOf entry).getD []).filterMap (contribution day) else []

/-- The well-formed entries inside the window. -/
def wellFormed (lib : Library) (window : Window) (results : List Object) : List Contribution :=
  results.flatMap (contributions lib window)

/-- An entry with its numbers. -/
structure Measured where
  name : PyText
  day : Int
  metrics : Metrics

def measured (lib : Library) (entry : Contribution) : Except Raised Measured :=
  (metricsFrom lib entry.raw).map fun metrics => ⟨entry.name, entry.day, metrics⟩

/-- The numbers of an entry added to its model and its day. -/
def collect (usage : Usage) (entry : Measured) : Usage :=
  addMetrics entry.name entry.day entry.metrics usage

theorem addGroup_eq (lib : Library) (day : Int) (usage : Usage) (group : PyText × Json) :
    addGroup lib day usage group = (contribution day group).elim (.ok usage) fun entry =>
      (measured lib entry).map (collect usage) := by
  unfold addGroup contribution
  cases group.1.isEmpty with
  | true => rfl
  | false =>
      cases group.2.object? with
      | none => rfl
      | some item =>
          simp only [Bool.false_eq_true, if_false, Option.map_some, Option.elim_some, measured]
          cases metricsFrom lib (get item "metrics") <;> rfl

theorem foldlM_addGroup (lib : Library) (day : Int) (groups : Object) (usage : Usage) :
    groups.foldlM (addGroup lib day) usage = (groups.filterMap (contribution day)).foldlM
      (fun usage entry => (measured lib entry).map (collect usage)) usage := by
  induction groups generalizing usage with
  | nil => rfl
  | cons group rest ih =>
      rw [List.foldlM_cons, addGroup_eq]
      cases hgroup : contribution day group with
      | none =>
          rw [List.filterMap_cons_none hgroup]
          exact ih usage
      | some entry =>
          rw [List.filterMap_cons_some hgroup, List.foldlM_cons, Option.elim_some]
          simp only [ih]

theorem addEntry_eq (lib : Library) (window : Window) (usage : Usage) (entry : Object) :
    addEntry lib window usage entry = (contributions lib window entry).foldlM
      (fun usage entry => (measured lib entry).map (collect usage)) usage := by
  unfold addEntry contributions
  cases lib.day (get entry "date") with
  | none => rfl
  | some day =>
      by_cases h : window.Holds day
      · simp only [if_pos h]
        cases groupsOf entry with
        | none => rfl
        | some groups => exact foldlM_addGroup lib day groups usage
      · simp only [if_neg h]
        rfl

/-- The two loops add up the well-formed entries, in their order. -/
theorem parseUsage_eq (lib : Library) (window : Window) (results : List Object) :
    parseUsage lib results window =
      ((wellFormed lib window results).mapM (measured lib)).map fun entries =>
        entries.foldl collect [] := by
  have hloops : ∀ usage, results.foldlM (addEntry lib window) usage =
      (wellFormed lib window results).foldlM
        (fun usage entry => (measured lib entry).map (collect usage)) usage := by
    induction results with
    | nil => exact fun _ => rfl
    | cons entry rest ih =>
        intro usage
        rw [List.foldlM_cons, addEntry_eq, wellFormed, List.flatMap_cons, List.foldlM_append]
        simp only [ih]
        rfl
  exact (hloops []).trans (foldlM_map _ _ _ _)

theorem parseUsage_overflows (lib : Library) (window : Window) (results : List Object) :
    OverflowsWhen (parseUsage lib results window)
      (∃ entry ∈ wellFormed lib window results, Beyond entry.raw) := by
  rw [parseUsage_eq]
  apply OverflowsWhen.map
  apply OverflowsWhen.mapM
  exact fun entry _ => (metricsFrom_overflows lib entry.raw).map _

/-! ### The catalog -/

/-- A deployment with a name whose `api_base` is no address that can be read. -/
def Misread (lib : Library) (item : Object) : Prop :=
  (get item "model_name").named?.isSome ∧
    hostOf lib (objectOf item "litellm_params") = .error .valueError

/-- A deployment with a name and a price that is too large. -/
def Overpriced (item : Object) : Prop :=
  (get item "model_name").named?.isSome ∧
    (TooLarge (get (objectOf item "model_info") "input_cost_per_token") ∨
      TooLarge (get (objectOf item "model_info") "output_cost_per_token"))

/-- An address that cannot be read comes before every price that is too large. -/
def Unreadable (lib : Library) : List Object → Prop
  | [] => False
  | item :: rest => Misread lib item ∨ ¬ Overpriced item ∧ Unreadable lib rest

theorem hostOf_cases (lib : Library) (params : Object) :
    hostOf lib params = .error .valueError ∨ ∃ host, hostOf lib params = .ok host := by
  unfold hostOf
  cases (get params "api_base").text? with
  | none => exact .inr ⟨[], rfl⟩
  | some base =>
      cases hbase : lib.hostname base with
      | none => exact .inl (by simp only [hbase])
      | some host => exact .inr ⟨host, by simp only [hbase]⟩

theorem entryOf_misread {lib : Library} {item : Object} (h : Misread lib item) :
    entryOf lib item = .error .valueError := by
  obtain ⟨name, hname⟩ := Option.isSome_iff_exists.1 h.1
  rw [entryOf, hname]
  simp only [h.2]
  rfl

theorem entryOf_overflows {lib : Library} {item : Object} (h : ¬ Misread lib item) :
    OverflowsWhen (entryOf lib item) (Overpriced item) := by
  rw [entryOf]
  cases hname : (get item "model_name").named? with
  | none => exact (OverflowsWhen.ok none).iff (by simp [Overpriced, hname])
  | some name =>
      obtain ⟨host, hhost⟩ := (hostOf_cases lib (objectOf item "litellm_params")).resolve_left
        fun hraised => h ⟨by simp [hname], hraised⟩
      have hsteps :=
        (perMillion_overflows lib (get (objectOf item "model_info") "input_cost_per_token")).bind
        fun inputPerMillion =>
        (perMillion_overflows lib (get (objectOf item "model_info") "output_cost_per_token")).map
        fun outputPerMillion => some
          { name := name
            provider := providerOf (objectOf item "litellm_params")
            host := host
            mode := (get (objectOf item "model_info") "mode").text?.getD []
            inputPerMillion := inputPerMillion
            outputPerMillion := outputPerMillion
            deployments := 1 : ModelEntry }
      simp only [hhost]
      exact hsteps.iff (by simp [Overpriced, hname])

/-- The first deployment that raises decides how the catalog ends. -/
theorem mapM_entryOf_unreadable {lib : Library} {items : List Object} (h : Unreadable lib items) :
    items.mapM (entryOf lib) = .error .valueError := by
  induction items with
  | nil => exact h.elim
  | cons item rest ih =>
      rw [List.mapM_cons]
      by_cases hmisread : Misread lib item
      · rw [entryOf_misread hmisread]
        rfl
      · obtain ⟨hprice, hrest⟩ := h.resolve_left hmisread
        obtain ⟨entry, hentry⟩ := (entryOf_overflows hmisread).returns hprice
        rw [hentry, ih hrest]
        rfl

theorem mapM_entryOf_overflows {lib : Library} {items : List Object} (h : ¬ Unreadable lib items) :
    OverflowsWhen (items.mapM (entryOf lib)) (∃ item ∈ items, Overpriced item) := by
  induction items with
  | nil => exact (OverflowsWhen.ok []).iff (by simp)
  | cons item rest ih =>
      rw [Unreadable, not_or, not_and_or, not_not] at h
      have hitem := entryOf_overflows h.1
      rw [List.mapM_cons]
      by_cases hprice : Overpriced item
      · rw [hitem.raises hprice]
        exact ⟨fun _ => rfl, fun hnot => absurd ⟨item, List.mem_cons_self, hprice⟩ hnot⟩
      · have hrest := ih (h.2.resolve_left hprice)
        obtain ⟨entry, hentry⟩ := hitem.returns hprice
        have hmore := hrest.bind fun more => OverflowsWhen.ok (entry :: more)
        rw [hentry]
        exact hmore.iff (by simp [hprice])

theorem parseCatalog_eq (lib : Library) (items : List Object) :
    parseCatalog lib items = (items.mapM (entryOf lib)).map fun entries =>
      sortBy (fun entry => lib.casefold entry.name)
        ((entries.foldl addDeployment []).map Prod.snd) := by
  rw [parseCatalog, foldlM_map]
  cases items.mapM (entryOf lib) <;> rfl

theorem parseCatalog_unreadable {lib : Library} {items : List Object} (h : Unreadable lib items) :
    parseCatalog lib items = .error .valueError := by
  rw [parseCatalog_eq, mapM_entryOf_unreadable h]
  rfl

theorem parseCatalog_overflows {lib : Library} {items : List Object} (h : ¬ Unreadable lib items) :
    OverflowsWhen (parseCatalog lib items) (∃ item ∈ items, Overpriced item) := by
  rw [parseCatalog_eq]
  exact (mapM_entryOf_overflows h).map _

end Papaia.Models
