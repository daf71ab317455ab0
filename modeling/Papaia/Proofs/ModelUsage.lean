/-
Module: Papaia.Proofs.ModelUsage
Purpose: The law of the usage report: the numbers are conserved, the colours belong to the models and
  not to the order of a set, and every answer gives a reading; with the answers that keep it.
Trusted boundary: none
Main exports: Ahead, Untied, Harmless, UsageLaw, usage_law_iff
-/
import Papaia.Proofs.UsageTotals

namespace Papaia.Models

open Binary64 Grouped Sorted

/-! ### Who gets a slot -/

section Shown

variable (casefold : PyText → PyText) (tokens : PyText → Int × Int)

/-- The names with a slot, in the order of their slots. -/
def shown (names : List PyText) : List PyText :=
  if (sortBy casefold names).length ≤ slots then sortBy casefold names
  else sortBy casefold ((sortBy (busyKey tokens) (sortBy casefold names)).take slots)

theorem assignSlots_eq (lib : Library) (order : SetOrder) (names : List PyText)
    (tokens : List (PyText × Int × Int)) : assignSlots lib order names tokens =
      (shown lib.casefold (fun name => (tokens.lookup name).getD (0, 0)) (order.setOf names)).zipIdx := by
  rw [assignSlots, shown]
  split <;> rfl

/-- A name comes before another for certain: it was busier, or as busy with a smaller name. -/
def Ahead (other name : PyText) : Prop :=
  toLex (tokens name) < toLex (tokens other) ∨
    tokens other = tokens name ∧ casefold other < casefold name

instance (other name : PyText) : Decidable (Ahead casefold tokens other name) :=
  inferInstanceAs (Decidable (_ ∨ _))

/-- The key that the busiest are in order of. -/
def placeKey (name : PyText) : Lex ((Lex (Int × Int))ᵒᵈ × PyText) :=
  toLex (busyKey tokens name, casefold name)

theorem pairwise_busiest (names : List PyText) :
    (sortBy (busyKey tokens) (sortBy casefold names)).Pairwise fun one two =>
      placeKey casefold tokens one ≤ placeKey casefold tokens two := by
  rw [sortBy_eq_lex (pairwise_sortBy casefold names)]
  exact pairwise_sortBy _ _

theorem perm_busiest (names : List PyText) :
    (sortBy (busyKey tokens) (sortBy casefold names)).Perm names :=
  (perm_sortBy _ _).trans (perm_sortBy _ _)

variable {casefold tokens}

theorem placeKey_lt {other name : PyText} :
    placeKey casefold tokens other < placeKey casefold tokens name ↔
      Ahead casefold tokens other name := by
  rw [placeKey, placeKey, Prod.Lex.toLex_lt_toLex, Ahead, busyKey, busyKey]
  simp only [OrderDual.toDual_lt_toDual, OrderDual.toDual_inj, toLex_inj]

theorem placeKey_inj {other name : PyText} :
    placeKey casefold tokens other = placeKey casefold tokens name ↔
      tokens other = tokens name ∧ casefold other = casefold name := by
  rw [placeKey, placeKey, toLex_inj, Prod.mk.injEq, busyKey, busyKey]
  simp only [OrderDual.toDual_inj, toLex_inj]

/-- No two names tie where it shows: among few, none are the same but for case; among many, none that
are as busy too and that fewer than `slots` are ahead of. -/
structure Untied (casefold : PyText → PyText) (tokens : PyText → Int × Int) (names : List PyText) :
    Prop where
  few : names.length ≤ slots → ∀ name ∈ names, ∀ other ∈ names, casefold name = casefold other →
    name = other
  many : slots < names.length → ∀ name ∈ names, ∀ other ∈ names, name ≠ other →
    casefold name = casefold other → tokens name = tokens other →
      slots ≤ names.countP fun third => decide (Ahead casefold tokens third name)

theorem Untied.perm {one two : List PyText} (h : Untied casefold tokens one) (hperm : one.Perm two) :
    Untied casefold tokens two := by
  constructor
  · intro hfew name hname other hother
    rw [← hperm.length_eq] at hfew
    exact h.few hfew name (hperm.mem_iff.2 hname) other (hperm.mem_iff.2 hother)
  · intro hmany name hname other hother
    rw [← hperm.length_eq] at hmany
    rw [← hperm.countP_eq]
    exact h.many hmany name (hperm.mem_iff.2 hname) other (hperm.mem_iff.2 hother)

/-- Without a tie the order of the set leaves no trace. -/
theorem shown_eq {one two : List PyText} (hperm : one.Perm two) (h : Untied casefold tokens one) :
    shown casefold tokens one = shown casefold tokens two := by
  have hordered : (sortBy casefold one).Perm (sortBy casefold two) :=
    (perm_sortBy _ _).trans (hperm.trans (perm_sortBy _ _).symm)
  rw [shown, shown, length_sortBy, length_sortBy, ← hperm.length_eq]
  by_cases hfew : one.length ≤ slots
  · rw [if_pos hfew, if_pos hfew]
    apply eq_of_perm hordered (pairwise_sortBy _ _) (pairwise_sortBy _ _)
    intro name hname other hother
    exact h.few hfew name (mem_sortBy.1 hname) other (mem_sortBy.1 hother)
  · rw [if_neg hfew, if_neg hfew]
    congr 1
    have hbusiest := perm_busiest casefold tokens one
    apply take_eq_of_perm (hbusiest.trans (hperm.trans (perm_busiest casefold tokens two).symm))
      (pairwise_busiest casefold tokens one) (pairwise_busiest casefold tokens two)
    intro name hname other hother hne hkey
    obtain ⟨htokens, hcase⟩ := placeKey_inj.1 hkey
    simp only [placeKey_lt]
    rw [hbusiest.countP_eq]
    exact h.many (not_le.1 hfew) name (hbusiest.mem_iff.1 hname) other (hbusiest.mem_iff.1 hother)
      hne hcase htokens

/-- Up to `slots` names, nobody asks how busy they were. -/
theorem shown_few {names : List PyText} (other : PyText → Int × Int) (h : names.length ≤ slots) :
    shown casefold tokens names = shown casefold other names := by
  rw [shown, shown, length_sortBy, if_pos h, if_pos h]

theorem length_shown_le (names : List PyText) : (shown casefold tokens names).length ≤ slots := by
  unfold shown
  split
  · assumption
  · rw [length_sortBy, List.length_take]
    exact min_le_left _ _

theorem nodup_shown {names : List PyText} (h : names.Nodup) :
    (shown casefold tokens names).Nodup := by
  unfold shown
  split
  · exact nodup_sortBy.2 h
  · exact nodup_sortBy.2 ((nodup_sortBy.2 (nodup_sortBy.2 h)).sublist (List.take_sublist _ _))

/-- Of two names that tie where it shows, the one that the set gives first comes first. -/
theorem first_of_tie {name other : PyText} {rest : List PyText} (hnodup : (name :: rest).Nodup)
    (hother : other ∈ rest) (hcase : casefold name = casefold other)
    (hmany : slots < (name :: rest).length → tokens name = tokens other ∧
      ((name :: rest).countP fun third => decide (Ahead casefold tokens third name)) < slots) :
    name ∈ shown casefold tokens (name :: rest) ∧
      (other ∈ shown casefold tokens (name :: rest) →
        [name, other].Sublist (shown casefold tokens (name :: rest))) := by
  have hfirst : ∀ third ∈ rest, [name, third].Sublist (name :: rest) := fun third hthird =>
    .cons_cons _ (List.singleton_sublist.2 hthird)
  have hordered : [name, other].Sublist (sortBy casefold (name :: rest)) :=
    sublist_sortBy (hfirst other hother) hcase.le
  rw [shown, length_sortBy]
  by_cases hfew : (name :: rest).length ≤ slots
  · rw [if_pos hfew]
    exact ⟨mem_sortBy.2 List.mem_cons_self, fun _ => hordered⟩
  · rw [if_neg hfew]
    obtain ⟨htokens, hcount⟩ := hmany (not_le.1 hfew)
    have hperm := perm_busiest casefold tokens (name :: rest)
    have hbusy := hperm.nodup_iff.2 hnodup
    have hsub : ∀ third ∈ rest, placeKey casefold tokens third = placeKey casefold tokens name →
        [name, third].Sublist (sortBy (busyKey tokens) (sortBy casefold (name :: rest))) := by
      intro third hthird hkey
      obtain ⟨hsame, hfold⟩ := placeKey_inj.1 hkey
      apply sublist_sortBy (sublist_sortBy (hfirst third hthird) hfold.ge)
      rw [busyKey, busyKey, hsame]
    have hmem : name ∈ (sortBy (busyKey tokens) (sortBy casefold (name :: rest))).take slots := by
      apply mem_take_of_first hbusy (pairwise_busiest _ _ _) (hperm.mem_iff.2 List.mem_cons_self)
      · intro third hthird hne hkey
        exact hsub third ((List.mem_cons.1 (hperm.mem_iff.1 hthird)).resolve_left hne) hkey
      · simp only [placeKey_lt]
        rwa [hperm.countP_eq]
    refine ⟨mem_sortBy.2 hmem, ?_⟩
    intro hshown
    have htie := hsub other hother (placeKey_inj.2 ⟨htokens.symm, hcase.symm⟩)
    exact sublist_sortBy (sublist_take hbusy htie (mem_sortBy.1 hshown)) hcase.le

/-! ### The place of a name -/

/-- `slots.get(name)` for the names in the order of their slots. -/
def placeIn (names : List PyText) (name : PyText) : Option Nat :=
  if name ∈ names then some (names.idxOf name) else none

theorem placeIn_lt {names : List PyText} {name : PyText} {place : Nat}
    (h : placeIn names name = some place) : place < names.length := by
  unfold placeIn at h
  split at h
  · next hmem =>
      obtain rfl := Option.some.inj h
      exact List.idxOf_lt_length_of_mem hmem
  · cases h

theorem placeIn_inj {names : List PyText} {name other : PyText} {place : Nat}
    (h : placeIn names name = some place) (hother : placeIn names other = some place) :
    name = other := by
  unfold placeIn at h hother
  split at h
  · next hmem =>
      split at hother
      · exact (List.idxOf_inj hmem).1 ((Option.some.inj h).trans (Option.some.inj hother).symm)
      · cases hother
  · cases h

/-- Two lists that put each of two names before the other do not give both the same places. -/
theorem placeIn_ne {one two : List PyText} {name other : PyText} (hone : one.Nodup) (htwo : two.Nodup)
    (hname : name ∈ one ∧ (other ∈ one → [name, other].Sublist one))
    (hother : other ∈ two ∧ (name ∈ two → [other, name].Sublist two))
    (h : placeIn one name = placeIn two name) : placeIn one other ≠ placeIn two other := by
  intro hsame
  rw [placeIn, if_pos hname.1] at h
  rw [placeIn.eq_1 two, if_pos hother.1] at hsame
  by_cases hnametwo : name ∈ two
  · rw [placeIn, if_pos hnametwo] at h
    by_cases hotherone : other ∈ one
    · rw [placeIn, if_pos hotherone] at hsame
      have hfirst := idxOf_lt_of_sublist hone (hname.2 hotherone)
      have hsecond := idxOf_lt_of_sublist htwo (hother.2 hnametwo)
      have hplace := Option.some.inj h
      have hplace' := Option.some.inj hsame
      omega
    · rw [placeIn, if_neg hotherone] at hsame
      cases hsame
  · rw [placeIn, if_neg hnametwo] at h
    cases h

end Shown

/-! ### The slots of a report -/

section Slots

variable {lib : Library} {order : SetOrder} {window : Window} {items results : List Object}
  {complete : Bool} {report : UsageReport}

theorem tokensOf_eq_zero {entries : List Contribution} {name : PyText}
    (h : name ∉ entries.map Contribution.name) : tokensOf lib entries name = (0, 0) := by
  have hnone : (entries.filter fun entry => entry.name = name) = [] := by
    rw [List.filter_eq_nil_iff]
    intro entry hentry hsame
    exact h (of_decide_eq_true hsame ▸ List.mem_map_of_mem hentry)
  rw [tokensOf, countsOfName, hnone]
  rfl

/-- The slot of a model is its place among those that are shown. -/
theorem slot_of_mem (h : reportOf lib order window items results complete = .ok report)
    {model : ModelUsage} (hmodel : model ∈ report.models) :
    model.slot = placeIn (shown lib.casefold (tokensOf lib (wellFormed lib window results))
      (order.setOf (report.models.map ModelUsage.name))) model.name := by
  have htokens : ∀ model ∈ report.models, (model.totals.tokens, model.totals.requests) =
      tokensOf lib (wellFormed lib window results) model.name :=
    fun _ hmodel => tokens_of_mem h hmodel
  have hnames := mem_names h
  obtain ⟨catalog, numbers, -, -, rfl⟩ := reportOf_eq_ok h
  rw [models_buildReport] at hmodel htokens
  rw [names_buildReport] at hnames ⊢
  obtain ⟨name, -, rfl⟩ := List.mem_map.1 hmodel
  have htable : (fun name => ((table (namesOf lib order (entriesOf catalog) (numbers.foldl collect []))
      fun name => ((Metrics.sum ((daysOf (numbers.foldl collect []) name).map Prod.snd)).tokens,
        (Metrics.sum ((daysOf (numbers.foldl collect []) name).map Prod.snd)).requests)).lookup name).getD
          (0, 0)) = tokensOf lib (wellFormed lib window results) := by
    funext name
    rw [lookup_table]
    split
    · next hname => exact htokens _ (List.mem_map_of_mem hname)
    · next hname =>
        rw [tokensOf_eq_zero]
        · rfl
        · intro hmem
          exact hname ((hnames name).2 (List.mem_append_right _ hmem))
  have hslots : slotsOf lib order catalog (numbers.foldl collect []) =
      (shown lib.casefold (tokensOf lib (wellFormed lib window results))
        (order.setOf (namesOf lib order (entriesOf catalog) (numbers.foldl collect [])))).zipIdx := by
    rw [← htable, ← assignSlots_eq]
    rfl
  change (slotsOf lib order catalog (numbers.foldl collect [])).lookup name = _
  rw [hslots, lookup_zipIdx, placeIn]
  simp only [Nat.zero_add]
  rfl

/-- Every colour is one of the palette's, and no two models share it. -/
structure OwnSlots (report : UsageReport) : Prop where
  below : ∀ model ∈ report.models, ∀ slot, model.slot = some slot → slot < slots
  injective : ∀ model ∈ report.models, ∀ other ∈ report.models, ∀ slot,
    model.slot = some slot → other.slot = some slot → model.name = other.name

theorem ownSlots (h : reportOf lib order window items results complete = .ok report) :
    OwnSlots report := by
  constructor
  · intro model hmodel slot hslot
    rw [slot_of_mem h hmodel] at hslot
    exact (placeIn_lt hslot).trans_le (length_shown_le _)
  · intro model hmodel other hother slot hslot hsame
    rw [slot_of_mem h hmodel] at hslot
    rw [slot_of_mem h hother] at hsame
    exact placeIn_inj hslot hsame

/-- Two reports over the same names and, where there are more names than slots, over the same tokens and
requests. -/
structure SameModels (one two : UsageReport) : Prop where
  names : ∀ name, name ∈ one.models.map ModelUsage.name ↔ name ∈ two.models.map ModelUsage.name
  tokens : slots < one.models.length → ∀ model ∈ one.models, ∀ other ∈ two.models,
    model.name = other.name → model.totals.tokens = other.totals.tokens ∧
      model.totals.requests = other.totals.requests

/-- Two reports that colour every model alike. -/
def SameSlots (one two : UsageReport) : Prop :=
  ∀ model ∈ one.models, ∀ other ∈ two.models, model.name = other.name → model.slot = other.slot

end Slots

/-! ### How a fetch ends -/

/-- The answers that a report is made of. -/
structure Read (answers : Answers) (items results : List Object) (complete : Bool) : Prop where
  key : answers.masterKey.isEmpty = false
  info : answers.info = .answered items
  daily : answers.daily = .answered (results, complete)

/-- A fetch that gives a report. -/
def Reports (lib : Library) (order : SetOrder) (answers : Answers) (report : UsageReport) : Prop :=
  ∃ reading, fetch lib order answers = .ok reading ∧ reading.report = some report

theorem not_exists_mem {α : Type} {l : List α} {p : α → Prop} :
    (¬ ∃ a ∈ l, p a) ↔ ∀ a ∈ l, ¬ p a := by
  simp

section Fetch

variable {lib : Library} {order : SetOrder} {answers : Answers} {items results : List Object}
  {complete : Bool}

theorem reportOf_overflows (order : SetOrder) (window : Window) (results : List Object)
    (complete : Bool) (h : ¬ Unreadable lib items) :
    OverflowsWhen (reportOf lib order window items results complete)
      ((∃ item ∈ items, Overpriced item) ∨ ∃ entry ∈ wellFormed lib window results, Beyond entry.raw) :=
  (parseCatalog_overflows h).bind fun _ => (parseUsage_overflows lib window results).map _

theorem fetch_of_ok {report : UsageReport} (h : Read answers items results complete)
    (hreport : reportOf lib order answers.window items results complete = .ok report) :
    fetch lib order answers = .ok
      { window := answers.window
        fetchedAt := answers.now
        problem := none
        database := databaseOf lib answers.health
        report := some report } := by
  simp only [fetch, h.key, h.info, h.daily, hreport]
  rfl

theorem fetch_of_error {raised : Raised} (h : Read answers items results complete)
    (hraised : reportOf lib order answers.window items results complete = .error raised) :
    fetch lib order answers =
      if raised.caught then .ok (answers.failed (databaseOf lib answers.health) unreadable)
      else .error raised := by
  simp only [fetch, h.key, h.info, h.daily, hraised]
  rfl

theorem reports_of_read {report : UsageReport} (h : Read answers items results complete)
    (hreport : reportOf lib order answers.window items results complete = .ok report) :
    Reports lib order answers report :=
  ⟨_, fetch_of_ok h hreport, rfl⟩

/-- No request of the client ends with an exception that is no `LitellmError`, where it is asked. -/
def Polite (answers : Answers) : Prop :=
  answers.masterKey.isEmpty = false → (∀ exception, answers.info ≠ .raised exception) ∧
    ∀ items exception, answers.info = .answered items → answers.daily ≠ .raised exception

theorem Read.polite (h : Read answers items results complete) : Polite answers := by
  intro _
  rw [h.info, h.daily]
  exact ⟨nofun, fun _ _ _ => nofun⟩

theorem Read.unique {items' results' : List Object} {complete' : Bool}
    (h : Read answers items results complete) (h' : Read answers items' results' complete') :
    items' = items ∧ results' = results := by
  have hitems := h'.info.symm.trans h.info
  have hresults := h'.daily.symm.trans h.daily
  exact ⟨Outcome.answered.inj hitems, congrArg Prod.fst (Outcome.answered.inj hresults)⟩

/-- Where there is nothing to read, the fetch ends with a problem or with the client's exception. -/
theorem fetch_cases (lib : Library) (order : SetOrder) (answers : Answers) :
    (∃ items results complete, Read answers items results complete) ∨
      (∀ items results complete, ¬ Read answers items results complete) ∧
        (Polite answers ∧ (∃ database problem,
            fetch lib order answers = .ok (answers.failed database problem)) ∨
          ¬ Polite answers ∧ ∃ exception, fetch lib order answers = .error exception) := by
  cases hkey : answers.masterKey.isEmpty with
  | true =>
      have hpolite : Polite answers := fun hnot => absurd (hkey.symm.trans hnot) nofun
      exact .inr ⟨fun _ _ _ hread => absurd (hkey.symm.trans hread.key) nofun,
        .inl ⟨hpolite, _, _, if_pos hkey⟩⟩
  | false =>
      cases hinfo : answers.info with
      | refused problem =>
          have hpolite : Polite answers := by simp [Polite, hinfo]
          exact .inr ⟨fun _ _ _ hread => absurd (hinfo.symm.trans hread.info) nofun,
            .inl ⟨hpolite, _, _, by simp only [fetch, hkey, hinfo]; rfl⟩⟩
      | raised exception =>
          exact .inr ⟨fun _ _ _ hread => absurd (hinfo.symm.trans hread.info) nofun,
            .inr ⟨fun h => (h hkey).1 exception hinfo, exception,
              by simp only [fetch, hkey, hinfo]; rfl⟩⟩
      | answered items =>
          cases hdaily : answers.daily with
          | refused problem =>
              have hpolite : Polite answers := by simp [Polite, hinfo, hdaily]
              exact .inr ⟨fun _ _ _ hread => absurd (hdaily.symm.trans hread.daily) nofun,
                .inl ⟨hpolite, _, _, by simp only [fetch, hkey, hinfo, hdaily]; rfl⟩⟩
          | raised exception =>
              exact .inr ⟨fun _ _ _ hread => absurd (hdaily.symm.trans hread.daily) nofun,
                .inr ⟨fun h => (h hkey).2 items exception hinfo hdaily, exception,
                  by simp only [fetch, hkey, hinfo, hdaily]; rfl⟩⟩
          | answered answer => exact .inl ⟨items, answer.1, answer.2, hkey, hinfo, hdaily⟩

theorem Reports.read {report : UsageReport} (h : Reports lib order answers report) :
    ∃ items results complete, Read answers items results complete ∧
      reportOf lib order answers.window items results complete = .ok report := by
  obtain ⟨reading, hfetch, hreading⟩ := h
  have hfailed : ∀ database problem,
      fetch lib order answers ≠ .ok (answers.failed database problem) := by
    intro database problem heq
    rw [Except.ok.inj (hfetch.symm.trans heq)] at hreading
    cases hreading
  rcases fetch_cases lib order answers with
    ⟨items, results, complete, hread⟩ | ⟨-, ⟨-, database, problem, hends⟩ | ⟨-, exception, hends⟩⟩
  · refine ⟨items, results, complete, hread, ?_⟩
    cases hreport : reportOf lib order answers.window items results complete with
    | ok found =>
        obtain rfl := Except.ok.inj ((fetch_of_ok hread hreport).symm.trans hfetch)
        exact congrArg Except.ok (Option.some.inj hreading)
    | error raised =>
        have hends := fetch_of_error hread hreport
        cases hcaught : raised.caught with
        | true =>
            rw [hcaught] at hends
            exact absurd hends (hfailed _ _)
        | false =>
            rw [hcaught] at hends
            cases hfetch.symm.trans hends
  · exact absurd hends (hfailed _ _)
  · cases hfetch.symm.trans hends

/-- No number of the answers is too large, unless an address that cannot be read comes first. -/
def Bounded (lib : Library) (answers : Answers) : Prop :=
  ∀ items results complete, Read answers items results complete → ¬ Unreadable lib items →
    (∀ item ∈ items, ¬ Overpriced item) ∧
      ∀ entry ∈ wellFormed lib answers.window results, ¬ Beyond entry.raw

theorem Read.bounded_iff (h : Read answers items results complete) :
    Bounded lib answers ↔ (¬ Unreadable lib items →
      ¬ ((∃ item ∈ items, Overpriced item) ∨
        ∃ entry ∈ wellFormed lib answers.window results, Beyond entry.raw)) := by
  rw [not_or, not_exists_mem, not_exists_mem]
  refine ⟨fun hbounded => hbounded _ _ _ h, ?_⟩
  intro hbounded items' results' complete' h'
  obtain ⟨rfl, rfl⟩ := h.unique h'
  exact hbounded

theorem fetch_returns_iff (lib : Library) (order : SetOrder) (answers : Answers) :
    (∃ reading, fetch lib order answers = .ok reading) ↔ Polite answers ∧ Bounded lib answers := by
  rcases fetch_cases lib order answers with
    ⟨items, results, complete, hread⟩ | ⟨hnone, ⟨hpolite, _, _, hends⟩ | ⟨hpolite, _, hends⟩⟩
  · rw [and_iff_right hread.polite, hread.bounded_iff]
    by_cases hunreadable : Unreadable lib items
    · have hraised : reportOf lib order answers.window items results complete = .error .valueError := by
        rw [reportOf, parseCatalog_unreadable hunreadable]
        rfl
      exact iff_of_true ⟨_, fetch_of_error hread hraised⟩ fun hnot => absurd hunreadable hnot
    · have hends := reportOf_overflows order answers.window results complete hunreadable
      constructor
      · rintro ⟨reading, hreading⟩ _ hbeyond
        rw [fetch_of_error hread (hends.raises hbeyond)] at hreading
        cases hreading
      · intro hbounded
        obtain ⟨report, hreport⟩ := hends.returns (hbounded hunreadable)
        exact ⟨_, fetch_of_ok hread hreport⟩
  · exact iff_of_true ⟨_, hends⟩ ⟨hpolite, fun _ _ _ hread => absurd hread (hnone _ _ _)⟩
  · refine iff_of_false ?_ fun h => hpolite h.1
    rintro ⟨reading, hreading⟩
    cases hends.symm.trans hreading

end Fetch

/-! ### The law -/

/-- The entries of the answers that count. -/
def Answers.entries (lib : Library) (answers : Answers) : List Contribution :=
  match answers.daily with
  | .answered answer => wellFormed lib answers.window answer.1
  | _ => []

/-- What the report promises. -/
structure UsageLaw (lib : Library) (answers : Answers) : Prop where
  /-- A reading never raises. -/
  returns : ∀ order, ∃ reading, fetch lib order answers = .ok reading
  conserves : ∀ order report, Reports lib order answers report →
    Conserves lib (answers.entries lib) report
  own : ∀ order report, Reports lib order answers report → OwnSlots report
  /-- The slots are those of the names, and of their tokens where there are many: in every order of the
  sets, and for all other answers with the same names and tokens. -/
  stable : ∀ order order' other one two, Reports lib order answers one → Reports lib order' other two →
    SameModels one two → SameSlots one two

/-- Answers that the report keeps its promises for. -/
structure Harmless (lib : Library) (answers : Answers) : Prop where
  polite : Polite answers
  bounded : Bounded lib answers
  untied : ∀ items results complete, Read answers items results complete → ¬ Unreadable lib items →
    Untied lib.casefold (tokensOf lib (wellFormed lib answers.window results))
      (namesIn lib answers.window items results).eraseDups

/-- The names of a report in any order of a set. -/
theorem perm_setOf {lib : Library} {order : SetOrder} {window : Window} {items results : List Object}
    {complete : Bool} {report : UsageReport}
    (h : reportOf lib order window items results complete = .ok report) (order' : SetOrder) :
    (namesIn lib window items results).eraseDups.Perm
      (order'.setOf (report.models.map ModelUsage.name)) := by
  rw [List.perm_ext_iff_of_nodup (nodup_eraseDups _) (order'.nodup_setOf _)]
  intro name
  rw [List.mem_eraseDups, order'.mem_setOf, mem_names h]

/-- Reports over the same names and, with more names than slots, over the same tokens, are over the same
tokens altogether. -/
theorem tokens_eq_of_same {lib : Library} {order order' : SetOrder} {window window' : Window}
    {items items' results results' : List Object} {complete complete' : Bool} {one two : UsageReport}
    (hone : reportOf lib order window items results complete = .ok one)
    (htwo : reportOf lib order' window' items' results' complete' = .ok two)
    (hsame : SameModels one two) (hmany : slots < one.models.length) :
    tokensOf lib (wellFormed lib window results) = tokensOf lib (wellFormed lib window' results') := by
  funext name
  by_cases hname : name ∈ one.models.map ModelUsage.name
  · obtain ⟨model, hmodel, rfl⟩ := List.mem_map.1 hname
    obtain ⟨other, hother, hnames⟩ := List.mem_map.1 ((hsame.names _).1 hname)
    obtain ⟨htoken, hrequests⟩ := hsame.tokens hmany model hmodel other hother hnames.symm
    rw [← tokens_of_mem hone hmodel, ← hnames, ← tokens_of_mem htwo hother, htoken, hrequests]
  · -- a name without a model has no entries in either
    rw [tokensOf_eq_zero, tokensOf_eq_zero]
    · intro hmem
      apply hname
      rw [hsame.names, mem_names htwo]
      exact List.mem_append_right _ hmem
    · intro hmem
      apply hname
      rw [mem_names hone]
      exact List.mem_append_right _ hmem

theorem sameSlots_of_untied {lib : Library} {order order' : SetOrder} {window window' : Window}
    {items items' results results' : List Object} {complete complete' : Bool} {one two : UsageReport}
    (hone : reportOf lib order window items results complete = .ok one)
    (htwo : reportOf lib order' window' items' results' complete' = .ok two)
    (huntied : Untied lib.casefold (tokensOf lib (wellFormed lib window results))
      (namesIn lib window items results).eraseDups)
    (hsame : SameModels one two) : SameSlots one two := by
  have hperm : (order.setOf (one.models.map ModelUsage.name)).Perm
      (order'.setOf (two.models.map ModelUsage.name)) := by
    rw [List.perm_ext_iff_of_nodup (order.nodup_setOf _) (order'.nodup_setOf _)]
    intro name
    rw [order.mem_setOf, order'.mem_setOf]
    exact hsame.names name
  have hshown : shown lib.casefold (tokensOf lib (wellFormed lib window results))
      (order.setOf (one.models.map ModelUsage.name)) =
        shown lib.casefold (tokensOf lib (wellFormed lib window' results'))
          (order'.setOf (two.models.map ModelUsage.name)) := by
    rw [shown_eq hperm (huntied.perm (perm_setOf hone order))]
    by_cases hfew : (order'.setOf (two.models.map ModelUsage.name)).length ≤ slots
    · exact shown_few _ hfew
    · -- with more names than slots both reports have the same tokens
      have hlength : (order'.setOf (two.models.map ModelUsage.name)).length = one.models.length := by
        rw [← hperm.length_eq, ← List.length_map ModelUsage.name]
        apply List.Perm.length_eq
        rw [List.perm_ext_iff_of_nodup (order.nodup_setOf _) (conserves hone).names]
        exact order.mem_setOf _
      rw [tokens_eq_of_same hone htwo hsame (by omega)]
  intro model hmodel other hother hname
  rw [slot_of_mem hone hmodel, slot_of_mem htwo hother, hshown, hname]

/-- An order that puts a name first. -/
def front (name : PyText) : SetOrder where
  setOf texts := if name ∈ texts then name :: texts.eraseDups.erase name else texts.eraseDups
  union one other := (one ++ other).eraseDups
  nodup_setOf texts := by
    have hnodup := nodup_eraseDups texts
    split
    · exact List.nodup_cons.2 ⟨hnodup.not_mem_erase, hnodup.erase name⟩
    · exact hnodup
  mem_setOf texts text := by
    split
    · next hname =>
        rw [List.mem_cons, (nodup_eraseDups texts).mem_erase_iff, List.mem_eraseDups]
        by_cases hsame : text = name
        · simp [hsame, hname]
        · simp [hsame]
    · exact List.mem_eraseDups
  nodup_union one other := nodup_eraseDups _
  mem_union one other text := by rw [List.mem_eraseDups, List.mem_append]

section Tie

variable {lib : Library} {answers : Answers} {items results : List Object} {complete : Bool}

/-- Two names that tie where it shows. -/
structure Tie (casefold : PyText → PyText) (tokens : PyText → Int × Int) (names : List PyText)
    (name other : PyText) : Prop where
  mem : name ∈ names
  other_mem : other ∈ names
  distinct : name ≠ other
  alike : casefold name = casefold other
  busy : slots < names.length → tokens name = tokens other ∧
    (names.countP fun third => decide (Ahead casefold tokens third name)) < slots

theorem Tie.symm {casefold : PyText → PyText} {tokens : PyText → Int × Int} {names : List PyText}
    {name other : PyText} (h : Tie casefold tokens names name other) :
    Tie casefold tokens names other name := by
  refine ⟨h.other_mem, h.mem, h.distinct.symm, h.alike.symm, ?_⟩
  intro hmany
  obtain ⟨htokens, hcount⟩ := h.busy hmany
  have hahead : ∀ third, Ahead casefold tokens third other ↔ Ahead casefold tokens third name := by
    intro third
    rw [Ahead, Ahead, htokens, h.alike]
  simp only [hahead]
  exact ⟨htokens.symm, hcount⟩

theorem untied_of_no_tie {casefold : PyText → PyText} {tokens : PyText → Int × Int}
    {names : List PyText} (h : ∀ name other, ¬ Tie casefold tokens names name other) :
    Untied casefold tokens names := by
  constructor
  · intro hfew name hname other hother halike
    by_contra hne
    exact h name other ⟨hname, hother, hne, halike, fun hmany => absurd hfew (not_le.2 hmany)⟩
  · intro _ name hname other hother hne halike htokens
    by_contra hcount
    exact h name other ⟨hname, hother, hne, halike, fun _ => ⟨htokens, not_le.1 hcount⟩⟩

/-- Where a set gives one of two names that tie first, that one has the first slot of the two. -/
theorem first_in_front {window : Window} {report : UsageReport} {name other : PyText}
    (h : reportOf lib (front name) window items results complete = .ok report)
    (htie : Tie lib.casefold (tokensOf lib (wellFormed lib window results))
      (namesIn lib window items results).eraseDups name other) :
    let assigned := shown lib.casefold (tokensOf lib (wellFormed lib window results))
      ((front name).setOf (report.models.map ModelUsage.name))
    name ∈ assigned ∧ (other ∈ assigned → [name, other].Sublist assigned) := by
  have hperm := perm_setOf h (front name)
  have hnodup := (front name).nodup_setOf (report.models.map ModelUsage.name)
  have hname : name ∈ report.models.map ModelUsage.name :=
    (mem_names h name).2 (List.mem_eraseDups.1 htie.mem)
  have hset : (front name).setOf (report.models.map ModelUsage.name) =
      name :: (report.models.map ModelUsage.name).eraseDups.erase name := if_pos hname
  have hother := hperm.mem_iff.1 htie.other_mem
  have hbusy := htie.busy
  rw [hperm.length_eq, hperm.countP_eq] at hbusy
  rw [hset] at hnodup hother hbusy ⊢
  exact first_of_tie hnodup ((List.mem_cons.1 hother).resolve_left htie.distinct.symm) htie.alike hbusy

/-- A tie that shows is broken by the order of a set. -/
theorem not_stable_of_tie (hread : Read answers items results complete)
    (hreport : ∀ order, ∃ report,
      reportOf lib order answers.window items results complete = .ok report) {name other : PyText}
    (htie : Tie lib.casefold (tokensOf lib (wellFormed lib answers.window results))
      (namesIn lib answers.window items results).eraseDups name other) :
    ∃ one two, Reports lib (front name) answers one ∧ Reports lib (front other) answers two ∧
      SameModels one two ∧ ¬ SameSlots one two := by
  obtain ⟨one, hone⟩ := hreport (front name)
  obtain ⟨two, htwo⟩ := hreport (front other)
  refine ⟨one, two, reports_of_read hread hone, reports_of_read hread htwo, ⟨?_, ?_⟩, ?_⟩
  · intro third
    rw [mem_names hone, mem_names htwo]
  · intro _ model hmodel third hthird hnames
    have htokens := (tokens_of_mem hone hmodel).trans
      ((congrArg _ hnames).trans (tokens_of_mem htwo hthird).symm)
    exact Prod.mk.inj htokens
  · intro hslots
    have hplaces : ∀ third ∈ (namesIn lib answers.window items results).eraseDups,
        placeIn (shown lib.casefold (tokensOf lib (wellFormed lib answers.window results))
          ((front name).setOf (one.models.map ModelUsage.name))) third =
        placeIn (shown lib.casefold (tokensOf lib (wellFormed lib answers.window results))
          ((front other).setOf (two.models.map ModelUsage.name))) third := by
      intro third hthird
      have hmem := List.mem_eraseDups.1 hthird
      obtain ⟨model, hmodel, hname⟩ := List.mem_map.1 ((mem_names hone third).2 hmem)
      obtain ⟨found, hfound, hsame⟩ := List.mem_map.1 ((mem_names htwo third).2 hmem)
      have hslot := hslots model hmodel found hfound (hname.trans hsame.symm)
      rw [slot_of_mem hone hmodel, slot_of_mem htwo hfound, hname, hsame] at hslot
      exact hslot
    exact placeIn_ne (nodup_shown ((front name).nodup_setOf _)) (nodup_shown ((front other).nodup_setOf _))
      (first_in_front hone htie) (first_in_front htwo htie.symm) (hplaces name htie.mem)
      (hplaces other htie.other_mem)

end Tie

theorem entries_of_read {lib : Library} {answers : Answers} {items results : List Object}
    {complete : Bool} (h : Read answers items results complete) :
    answers.entries lib = wellFormed lib answers.window results := by
  rw [Answers.entries, h.daily]

/-- A report in any order of the sets, for answers that are read without an exception. -/
theorem exists_report {lib : Library} {answers : Answers} {items results : List Object}
    {complete : Bool} (hread : Read answers items results complete)
    (hunreadable : ¬ Unreadable lib items) (hbounded : Bounded lib answers) (order : SetOrder) :
    ∃ report, reportOf lib order answers.window items results complete = .ok report := by
  exact (reportOf_overflows order answers.window results complete hunreadable).returns
    (hread.bounded_iff.1 hbounded hunreadable)

theorem readable_of_ok {lib : Library} {order : SetOrder} {window : Window} {items results : List Object}
    {complete : Bool} {report : UsageReport}
    (h : reportOf lib order window items results complete = .ok report) : ¬ Unreadable lib items := by
  intro hunreadable
  rw [reportOf, parseCatalog_unreadable hunreadable] at h
  cases h

theorem harmless_of_law {lib : Library} {answers : Answers} (h : UsageLaw lib answers) :
    Harmless lib answers := by
  obtain ⟨hpolite, hbounded⟩ := (fetch_returns_iff lib (front []) answers).1 (h.returns _)
  refine ⟨hpolite, hbounded, ?_⟩
  intro items results complete hread hunreadable
  apply untied_of_no_tie
  intro name other htie
  obtain ⟨one, two, hone, htwo, hsame, hnot⟩ :=
    not_stable_of_tie hread (exists_report hread hunreadable hbounded) htie
  exact hnot (h.stable _ _ _ _ _ hone htwo hsame)

/-- The report keeps its promises exactly for the answers without a number that is too large and without
names that tie. -/
theorem usage_law_iff (lib : Library) (answers : Answers) :
    UsageLaw lib answers ↔ Harmless lib answers := by
  refine ⟨harmless_of_law, ?_⟩
  intro h
  constructor
  · intro order
    exact (fetch_returns_iff lib order answers).2 ⟨h.polite, h.bounded⟩
  · intro order report hreports
    obtain ⟨items, results, complete, hread, hreport⟩ := hreports.read
    rw [entries_of_read hread]
    exact conserves hreport
  · intro order report hreports
    obtain ⟨items, results, complete, -, hreport⟩ := hreports.read
    exact ownSlots hreport
  · intro order order' other one two hone htwo hsame
    obtain ⟨items, results, complete, hread, hreport⟩ := hone.read
    obtain ⟨items', results', complete', -, hreport'⟩ := htwo.read
    exact sameSlots_of_untied hreport hreport' (h.untied _ _ _ hread (readable_of_ok hreport)) hsame

/-- Python's library for texts of ASCII letters and one day. -/
def asciiLibrary : Library where
  casefold text := text.map fun c => if 0x41 ≤ c.val && c.val ≤ 0x5a then c + 0x20 else c
  parseInt _ := none
  parseFloat _ := none
  hostname _ := some []
  day value := if value.text? = some (PyText.of "2026-10-24") then some 739913 else none
  str _ := []

/-- Answers about the week up to that day. -/
def answersOf (items results : List Object) : Answers where
  masterKey := PyText.of "sk-1"
  window := { key := "7d", start := 739907, last := 739913 }
  now := 0
  health := .answered []
  info := .answered items
  daily := .answered (results, true)

/-- A dict with one more field before the others. -/
def field (key : String) (value : Json) (rest : Object) : Object :=
  (PyText.of key, value) :: rest

theorem get_field (key : String) (value : Json) (rest : Object) :
    get (field key value rest) key = value := by
  rw [get, field, List.lookup_cons_self]
  rfl

theorem get_field_ne {key other : String} (value : Json) (rest : Object)
    (h : PyText.of key ≠ PyText.of other) : get (field other value rest) key = get rest key := by
  rw [get, field, List.lookup_cons, beq_false_of_ne h]
  rfl

/-- Two deployments, one called `A` and the other `a`. -/
def casedItems : List Object :=
  [field "model_name" (.str (PyText.of "A")) [], field "model_name" (.str (PyText.of "a")) []]

/-- A deployment with a price of 401 digits. -/
def dearItems : List Object :=
  [field "model_name" (.str (PyText.of "A"))
    (field "model_info" (.obj (field "input_cost_per_token" (.int (10 ^ 400)) [])) [])]

/-- Metrics with `1e400` prompt tokens. -/
def endlessMetrics : Json :=
  .obj (field "prompt_tokens" (.float (.infinite false)) [])

/-- A day on which a model had them. -/
def endlessResults : List Object :=
  [field "date" (.str (PyText.of "2026-10-24")) (field "breakdown" (.obj (field "model_groups"
    (.obj (field "A" (.obj (field "metrics" endlessMetrics [])) [])) [])) [])]

theorem readable_ascii (items : List Object) : ¬ Unreadable asciiLibrary items := by
  have hhost : ∀ params, hostOf asciiLibrary params ≠ .error .valueError := by
    intro params
    unfold hostOf
    cases (get params "api_base").text? <;> simp [asciiLibrary]
  induction items with
  | nil => exact id
  | cons item rest ih =>
      rintro (hmisread | hrest)
      · exact hhost _ hmisread.2
      · exact ih hrest.2

theorem read_answersOf (items results : List Object) : Read (answersOf items results) items results true :=
  ⟨rfl, rfl, rfl⟩

theorem fetch_answersOf {items results : List Object}
    (hbeyond : (∃ item ∈ items, Overpriced item) ∨
      ∃ entry ∈ wellFormed asciiLibrary (answersOf items results).window results, Beyond entry.raw)
    (order : SetOrder) : fetch asciiLibrary order (answersOf items results) = .error .overflowError :=
  fetch_of_error (read_answersOf items results)
    ((reportOf_overflows order _ results true (readable_ascii items)).raises hbeyond)

theorem overpriced_dearItems : ∃ item ∈ dearItems, Overpriced item := by
  refine ⟨_, List.mem_singleton_self _, ?_, .inl ⟨10 ^ 400, ?_, ?_⟩⟩
  · rw [get_field]
    rfl
  · rw [objectOf, get_field_ne _ _ (by decide), get_field]
    exact get_field _ _ _
  · have hlarge : Overflows ((10 ^ 400 : Nat) : Rat) := overflows_natCast.2 (by decide +kernel)
    exact_mod_cast hlarge

theorem beyond_endlessResults :
    ∃ entry ∈ wellFormed asciiLibrary { key := "7d", start := 739907, last := 739913 } endlessResults,
      Beyond entry.raw := by
  refine ⟨⟨PyText.of "A", 739913, endlessMetrics⟩, ?_, _, rfl, .inl ⟨false, get_field _ _ _⟩⟩
  have hday : asciiLibrary.day (.str (PyText.of "2026-10-24")) = some 739913 := by
    simp [asciiLibrary, Json.text?]
  have hmetrics := get_field "metrics" endlessMetrics []
  rw [wellFormed, endlessResults, List.flatMap_singleton, contributions, get_field, hday, groupsOf,
    get_field_ne _ _ (by decide), get_field]
  simp only [Json.object?, Option.bind_some, get_field]
  rw [if_pos (by decide)]
  exact List.mem_filterMap.2 ⟨_, List.mem_singleton_self _, by
    rw [contribution, if_neg (by decide), Json.object?, Option.map_some, hmetrics]⟩

/-- Names that differ in case only have colours that depend on the order of a set, and a price or a
count that is too large ends the reading with an exception. -/
theorem colours_swap_and_numbers_raise :
    ¬ UsageLaw asciiLibrary (answersOf casedItems []) ∧
      (∀ order, fetch asciiLibrary order (answersOf dearItems []) = .error .overflowError) ∧
      ∀ order, fetch asciiLibrary order (answersOf [] endlessResults) = .error .overflowError := by
  refine ⟨?_, fetch_answersOf (.inl overpriced_dearItems), fetch_answersOf (.inr beyond_endlessResults)⟩
  intro h
  have huntied := (harmless_of_law h).untied _ _ _ (read_answersOf casedItems []) (readable_ascii _)
  have hsame := huntied.few (by decide) (PyText.of "A") (by decide) (PyText.of "a") (by decide) (by decide)
  exact absurd hsame (by decide)

end Papaia.Models
