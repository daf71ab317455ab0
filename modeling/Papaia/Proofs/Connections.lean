/-
Module: Papaia.Proofs.Connections
Purpose: What a surgery on the connections does to the problems of the entries it leaves alone.
  A problem is known by the name and the field it is reported under; an entry without a usable name
  is reported under its place, which a surgery can change.
Trusted boundary: none
Main exports: Reported, mem_validateEntries, Harmless, remove_harmless_iff,
  overwrite_harmless_iff, append_harmless_iff, change_harmless_iff
-/
import Papaia.Vectordb.Service
import Papaia.Proofs.Reading
import Std.Data.String.ToNat

namespace Papaia.Vectordb

open Text Ingest

/-! ### The problems of one entry -/

/-- The name of an entry the ingester accepts. -/
def acceptedName (rt : Runtime) (raw : Val) : Option String :=
  raw.mapping?.bind fun m => (readConnection rt m).toOption.map (·.name)

/-- The names of the accepted entries, in order. -/
def namesOf (rt : Runtime) (entries : List Val) : List String :=
  entries.filterMap (acceptedName rt)

/-- What can be wrong with an entry. -/
inductive Problem where
  | notMapping
  | fault (fault : Fault)
  | duplicate (name : String)
deriving DecidableEq, Repr

/-- The problems an entry has wherever it stands. -/
def ownProblems (rt : Runtime) (raw : Val) : List Problem :=
  match raw.mapping? with
  | none => [.notMapping]
  | some m => (readConnection rt m).faultsOf.map .fault

/-- How a problem of the entry at a place is reported. -/
def Problem.issue (index : Nat) (raw : Val) : Problem → FileIssue
  | .notMapping => ⟨none, entryLabel index, "connection must be a mapping"⟩
  | .fault found =>
      ⟨some ((raw.mapping?.bind statedName).getD (entryLabel index)), issueField found, found.msg⟩
  | .duplicate name => ⟨some name, "name", "duplicate connection name"⟩

/-- The entry at a place has a problem: one of its own, or its name is taken by an accepted entry
before it. -/
def Reported (rt : Runtime) (entries : List Val) (index : Nat) (raw : Val) (problem : Problem) :
    Prop :=
  entries[index]? = some raw ∧
    (problem ∈ ownProblems rt raw ∨
      ∃ name, problem = .duplicate name ∧ acceptedName rt raw = some name ∧
        name ∈ namesOf rt (entries.take index))

/-- The issues about the entry at a place, with the names seen before it. -/
def issuesAt (rt : Runtime) (index : Nat) (seen : List String) (raw : Val) : List FileIssue :=
  (ownProblems rt raw).map (Problem.issue index raw) ++
    match acceptedName rt raw with
    | some name => if seen.contains name then [Problem.issue index raw (.duplicate name)] else []
    | none => []

theorem validateFrom_cons (rt : Runtime) (index : Nat) (seen : List String) (raw : Val)
    (rest : List Val) :
    validateFrom rt index seen (raw :: rest) =
      issuesAt rt index seen raw ++
        validateFrom rt (index + 1) ((acceptedName rt raw).toList ++ seen) rest := by
  cases hmap : raw.mapping? with
  | none => simp [validateFrom, issuesAt, ownProblems, acceptedName, hmap, Problem.issue]
  | some m =>
      cases hread : readConnection rt m with
      | error faults =>
          simp [validateFrom, issuesAt, ownProblems, acceptedName, hmap, hread, issuesFrom,
            Problem.issue, Except.toOption]
      | ok entry =>
          simp [validateFrom, issuesAt, ownProblems, acceptedName, hmap, hread, Problem.issue,
            Except.toOption]

theorem mem_issuesAt {rt : Runtime} {index : Nat} {seen : List String} {raw : Val}
    {issue : FileIssue} :
    issue ∈ issuesAt rt index seen raw ↔
      ∃ problem, issue = problem.issue index raw ∧
        (problem ∈ ownProblems rt raw ∨
          ∃ name, problem = .duplicate name ∧ acceptedName rt raw = some name ∧ name ∈ seen) := by
  unfold issuesAt
  cases hname : acceptedName rt raw with
  | none =>
      simp only [List.append_nil, List.mem_map, reduceCtorEq, false_and, and_false, exists_false,
        or_false]
      exact exists_congr fun problem => by rw [and_comm, eq_comm]
  | some name =>
      simp only [List.mem_append, List.mem_map, Option.some.injEq]
      constructor
      · rintro (⟨problem, hproblem, rfl⟩ | h)
        · exact ⟨problem, rfl, .inl hproblem⟩
        · split at h
          · rename_i hseen
            rw [List.mem_singleton] at h
            exact ⟨_, h, .inr ⟨name, rfl, rfl, by simpa using hseen⟩⟩
          · cases h
      · rintro ⟨problem, rfl, hproblem | ⟨_, rfl, rfl, hseen⟩⟩
        · exact .inl ⟨problem, hproblem, rfl⟩
        · rw [if_pos (by simpa using hseen)]
          exact .inr (List.mem_singleton_self _)

/-- The loop reports every entry, from its place and the names before it. -/
theorem mem_validateFrom {rt : Runtime} {entries : List Val} {start : Nat} {seen : List String}
    {issue : FileIssue} :
    issue ∈ validateFrom rt start seen entries ↔
      ∃ index raw, entries[index]? = some raw ∧
        issue ∈ issuesAt rt (start + index)
          ((namesOf rt (entries.take index)).reverse ++ seen) raw := by
  induction entries generalizing start seen with
  | nil => simp [validateFrom]
  | cons first rest ih =>
      rw [validateFrom_cons, List.mem_append, ih]
      constructor
      · rintro (h | ⟨index, raw, hraw, h⟩)
        · exact ⟨0, first, rfl, by simpa [namesOf] using h⟩
        · refine ⟨index + 1, raw, hraw, ?_⟩
          have hseen : (namesOf rt ((first :: rest).take (index + 1))).reverse ++ seen =
              (namesOf rt (rest.take index)).reverse ++ ((acceptedName rt first).toList ++ seen) := by
            cases hname : acceptedName rt first <;> simp [namesOf, hname]
          rw [hseen, show start + (index + 1) = start + 1 + index by omega]
          exact h
      · rintro ⟨index, raw, hraw, h⟩
        cases index with
        | zero =>
            obtain rfl := Option.some.inj hraw
            exact .inl (by simpa [namesOf] using h)
        | succ index =>
            refine .inr ⟨index, raw, hraw, ?_⟩
            have hseen : (namesOf rt ((first :: rest).take (index + 1))).reverse ++ seen =
                (namesOf rt (rest.take index)).reverse ++
                  ((acceptedName rt first).toList ++ seen) := by
              cases hname : acceptedName rt first <;> simp [namesOf, hname]
            rw [hseen, show start + (index + 1) = start + 1 + index by omega] at h
            exact h

/-- What `validate_entries` reports. -/
theorem mem_validateEntries {rt : Runtime} {entries : List Val} {issue : FileIssue} :
    issue ∈ validateEntries rt entries ↔
      ∃ index raw problem, Reported rt entries index raw problem ∧
        issue = problem.issue index raw := by
  rw [validateEntries, mem_validateFrom]
  simp only [Nat.zero_add, List.append_nil, mem_issuesAt, List.mem_reverse]
  constructor
  · rintro ⟨index, raw, hraw, problem, rfl, hproblem⟩
    exact ⟨index, raw, problem, ⟨hraw, hproblem⟩, rfl⟩
  · rintro ⟨index, raw, problem, ⟨hraw, hproblem⟩, rfl⟩
    exact ⟨index, raw, hraw, problem, rfl, hproblem⟩

/-! ### Surgeries -/

/-- The entries with the places they stand at. -/
def placed (entries : List Val) : List (Option Nat × Val) :=
  entries.zipIdx.map fun entry => (some entry.2, entry.1)

/-- An entry that the surgery leaves alone: where it stood, and where it stands afterwards. -/
def Untouched (surgery : Surgery) (entries : List Val) (before after : Nat) (raw : Val) : Prop :=
  (surgery.on Prod.snd (fun new => (none, new)) (placed entries))[after]? =
    some (some before, raw)

/-- The write is not refused, and no entry that is left alone has a problem it did not have. -/
structure Harmless (rt : Runtime) (surgery : Surgery) (entries : List Val) : Prop where
  accepted : freshIssues rt entries (surgery.apply entries) = []
  kept : ∀ before after raw problem, Untouched surgery entries before after raw →
    Reported rt (surgery.apply entries) after raw problem → Reported rt entries before raw problem

theorem freshIssues_eq_nil_iff {rt : Runtime} {old new : List Val} :
    freshIssues rt old new = [] ↔
      ∀ index raw problem, Reported rt new index raw problem →
        ∃ place other known, Reported rt old place other known ∧
          (known.issue place other).key = (problem.issue index raw).key := by
  simp only [freshIssues, List.filter_eq_nil_iff, mem_validateEntries, Bool.not_eq_true',
    Bool.not_eq_false, List.contains_iff_mem, List.mem_map]
  constructor
  · intro h index raw problem hreported
    obtain ⟨_, ⟨place, other, known, hknown, rfl⟩, hkey⟩ :=
      h _ ⟨index, raw, problem, hreported, rfl⟩
    exact ⟨place, other, known, hknown, hkey⟩
  · rintro h _ ⟨index, raw, problem, hreported, rfl⟩
    obtain ⟨place, other, known, hknown, hkey⟩ := h index raw problem hreported
    exact ⟨_, ⟨place, other, known, hknown, rfl⟩, hkey⟩

/-- An element that a filter keeps, with what stands before it. -/
theorem getElem?_filter {α : Type} {keep : α → Bool} {xs : List α} {after : Nat} {x : α}
    (h : (xs.filter keep)[after]? = some x) :
    ∃ before : Nat, xs[before]? = some x ∧
      (xs.filter keep).take after = (xs.take before).filter keep := by
  induction xs generalizing after with
  | nil => simp at h
  | cons first rest ih =>
      by_cases hkeep : keep first = true
      · rw [List.filter_cons_of_pos hkeep] at h ⊢
        cases after with
        | zero => exact ⟨0, by simpa using h, by simp⟩
        | succ after =>
            obtain ⟨before, hx, htake⟩ := ih (by simpa using h)
            exact ⟨before + 1, by simpa using hx, by simp [hkeep, htake]⟩
      · rw [List.filter_cons_of_neg hkeep] at h ⊢
        obtain ⟨before, hx, htake⟩ := ih h
        exact ⟨before + 1, by simpa using hx, by simp [hkeep, htake]⟩

theorem getElem?_placed {entries : List Val} {place before : Nat} {raw : Val}
    (h : (placed entries)[place]? = some (some before, raw)) :
    place = before ∧ entries[before]? = some raw := by
  simp only [placed, List.getElem?_map, List.getElem?_zipIdx, Option.map_eq_some_iff,
    Nat.zero_add] at h
  obtain ⟨_, ⟨other, hother, rfl⟩, hpair⟩ := h
  obtain ⟨hplace, rfl⟩ := Prod.mk.inj hpair
  obtain rfl := Option.some.inj hplace
  exact ⟨rfl, hother⟩

theorem map_snd_placed (entries : List Val) : (placed entries).map Prod.snd = entries := by
  rw [placed, List.map_map]
  exact List.zipIdx_map_fst 0 entries

theorem namesOf_subset {rt : Runtime} {xs ys : List Val} (h : xs.Sublist ys) :
    namesOf rt xs ⊆ namesOf rt ys :=
  (h.filterMap (acceptedName rt)).subset

/-! ### Names are no labels -/

theorem entryLabel_injective {i j : Nat} (h : entryLabel i = entryLabel j) : i = j := by
  have hnat : toString i = toString j := by
    simpa [entryLabel] using h
  exact Nat.repr_injective hnat

theorem entryLabel_not_slug (index : Nat) : isSlug (entryLabel index) = false := by
  simp [isSlug, entryLabel]

theorem readConnection_eq_ok {rt : Runtime} {m : Mapping} {entry : ConnectionEntry} :
    readConnection rt m = .ok entry ↔
      field m "name" missing (readPattern isSlug) = .ok entry.name ∧
        field m "url" missing readUrl = .ok entry.url ∧
        field m "api_key" (.ok none) readApiKey = .ok entry.apiKey ∧
        noExtras rt ["name", "url", "api_key"] m = .ok () := by
  cases entry
  simp [readConnection, and_assoc]

theorem readConnection_of_accepted {rt : Runtime} {m : Mapping} {name : String}
    (h : acceptedName rt (.map m) = some name) :
    ∃ entry, readConnection rt m = .ok entry ∧ entry.name = name := by
  rw [acceptedName, Val.mapping?_map, Option.bind_some] at h
  obtain ⟨entry, hentry, rfl⟩ := Option.map_eq_some_iff.1 h
  cases hcase : readConnection rt m with
  | error faults => rw [hcase] at hentry; cases hentry
  | ok other =>
      rw [hcase] at hentry
      exact ⟨other, rfl, by rw [Option.some.inj hentry]⟩

/-- The accepted entries have proper names. -/
theorem isSlug_of_accepted {rt : Runtime} {raw : Val} {name : String}
    (h : acceptedName rt raw = some name) : isSlug name = true := by
  obtain ⟨m, hmap, _⟩ := Option.bind_eq_some_iff.1 h
  obtain rfl := Val.mapping?_eq_some.1 hmap
  obtain ⟨entry, hread, rfl⟩ := readConnection_of_accepted h
  have hname := (readConnection_eq_ok.1 hread).1
  rw [field_eq_ok] at hname
  split at hname
  · exact (readPattern_eq_ok.1 hname).2
  · cases hname

/-! ### Removing -/

/-- The fields of an entry the ingester refuses. -/
def faultFields (rt : Runtime) (m : Mapping) : List String :=
  (readConnection rt m).faultsOf.map issueField

/-- The entries without a usable name land on places whose old entries had the same problems: an
entry that is no mapping on one that is no mapping, and a field that is refused on a place (or
under a name spelled like that place) where it was refused. -/
def LandsOnSame (rt : Runtime) (name : String) (entries : List Val) : Prop :=
  ∀ (place : Nat) (raw : Val), (entries.filter fun entry => !named name entry)[place]? = some raw →
    match raw.mapping? with
    | none => ∃ other, entries[place]? = some other ∧ other.mapping? = none
    | some m => statedName m = none → ∀ refused ∈ faultFields rt m,
        (∃ other : Mapping, entries[place]? = some (.map other) ∧ statedName other = none ∧
          refused ∈ faultFields rt other) ∨
        ∃ other : Mapping, .map other ∈ entries ∧ statedName other = some (entryLabel place) ∧
          refused ∈ faultFields rt other

theorem mem_faultFields {rt : Runtime} {m : Mapping} {refused : String} :
    refused ∈ faultFields rt m ↔
      ∃ found, .fault found ∈ ownProblems rt (.map m) ∧ issueField found = refused := by
  simp [faultFields, ownProblems]

/-- An entry that is kept has, at its new place, only the problems it had. -/
theorem reported_of_remove {rt : Runtime} {name : String} {entries : List Val} {before after : Nat}
    {raw : Val} {problem : Problem} (hold : entries[before]? = some raw)
    (htake : ((entries.filter fun entry => !named name entry).take after) =
      (entries.take before).filter fun entry => !named name entry)
    (h : Reported rt (entries.filter fun entry => !named name entry) after raw problem) :
    Reported rt entries before raw problem := by
  refine ⟨hold, h.2.imp_right ?_⟩
  rintro ⟨taken, hproblem, haccepted, hseen⟩
  rw [htake] at hseen
  exact ⟨taken, hproblem, haccepted, namesOf_subset List.filter_sublist hseen⟩

theorem untouched_remove {name : String} {entries : List Val} {before after : Nat} {raw : Val}
    (h : Untouched (.remove name) entries before after raw) :
    entries[before]? = some raw ∧
      ((entries.filter fun entry => !named name entry).take after) =
        (entries.take before).filter fun entry => !named name entry := by
  obtain ⟨place, hplace, htake⟩ := getElem?_filter h
  obtain ⟨rfl, hraw⟩ := getElem?_placed hplace
  have hmap := congrArg (List.map Prod.snd) htake
  have hkeep : (fun entry : Option Nat × Val => !named name entry.2) =
      (fun entry => !named name entry) ∘ Prod.snd := rfl
  rw [hkeep, List.map_take, ← List.filter_map, ← List.filter_map, List.map_take,
    map_snd_placed] at hmap
  exact ⟨hraw, hmap⟩

theorem own_of_none {rt : Runtime} {raw : Val} {problem : Problem} (h : raw.mapping? = none) :
    problem ∈ ownProblems rt raw ↔ problem = .notMapping := by
  simp [ownProblems, h]

theorem notMapping_own (rt : Runtime) {raw : Val} (h : .notMapping ∈ ownProblems rt raw) :
    raw.mapping? = none := by
  cases hmap : raw.mapping? with
  | none => rfl
  | some m => simp [ownProblems, hmap] at h

theorem fault_own {rt : Runtime} {raw : Val} {found : Fault}
    (h : .fault found ∈ ownProblems rt raw) :
    ∃ m, raw = .map m ∧ issueField found ∈ faultFields rt m := by
  cases hmap : raw.mapping? with
  | none => simp [ownProblems, hmap] at h
  | some m =>
      obtain rfl := Val.mapping?_eq_some.1 hmap
      exact ⟨m, rfl, mem_faultFields.2 ⟨found, h, rfl⟩⟩

theorem duplicate_not_own {rt : Runtime} {raw : Val} {name : String} :
    .duplicate name ∉ ownProblems rt raw := by
  unfold ownProblems
  cases raw.mapping? <;> simp

/-- Removing a connection is harmless exactly when the entries without a usable name land on places
that already had their problems. -/
theorem remove_harmless_iff (rt : Runtime) (name : String) (entries : List Val) :
    Harmless rt (.remove name) entries ↔ LandsOnSame rt name entries := by
  constructor
  · intro h place raw hraw
    have hown : ∀ problem ∈ ownProblems rt raw, ∃ index other known,
        Reported rt entries index other known ∧
          (known.issue index other).key = (problem.issue place raw).key := fun problem hproblem =>
      freshIssues_eq_nil_iff.1 h.accepted place raw problem ⟨hraw, .inl hproblem⟩
    cases hmap : raw.mapping? with
    | none =>
        obtain ⟨index, other, known, ⟨hother, hreported⟩, hkey⟩ :=
          hown .notMapping ((own_of_none hmap).2 rfl)
        cases known with
        | notMapping =>
            have hindex : index = place := entryLabel_injective (congrArg Prod.snd hkey)
            rw [hindex] at hother
            refine ⟨other, hother, notMapping_own rt (hreported.resolve_right ?_)⟩
            rintro ⟨_, hdup, _⟩
            cases hdup
        | fault | duplicate => cases congrArg Prod.fst hkey
    | some m =>
        obtain rfl := Val.mapping?_eq_some.1 hmap
        intro hunnamed refused hrefused
        obtain ⟨found, hfound, rfl⟩ := mem_faultFields.1 hrefused
        obtain ⟨index, other, known, ⟨hother, hreported⟩, hkey⟩ := hown _ hfound
        simp only [Problem.issue, FileIssue.key, Val.mapping?_map, Option.bind_some, hunnamed,
          Option.getD_none] at hkey
        cases known with
        | notMapping => cases congrArg Prod.fst hkey
        | duplicate taken =>
            obtain ⟨_, hdup, haccepted, _⟩ := hreported.resolve_left duplicate_not_own
            cases hdup
            have hslug := isSlug_of_accepted haccepted
            rw [Option.some.inj (congrArg Prod.fst hkey), entryLabel_not_slug] at hslug
            cases hslug
        | fault known =>
            have hknown : .fault known ∈ ownProblems rt other := by
              refine hreported.resolve_right ?_
              rintro ⟨_, hdup, _⟩
              cases hdup
            obtain ⟨m', rfl, hfield⟩ := fault_own hknown
            have hlabel := Option.some.inj (congrArg Prod.fst hkey)
            have hsame : issueField known = issueField found := congrArg Prod.snd hkey
            simp only [Val.mapping?_map, Option.bind_some] at hlabel
            rw [hsame] at hfield
            cases hname : statedName m' with
            | none =>
                rw [hname, Option.getD_none] at hlabel
                rw [entryLabel_injective hlabel] at hother
                exact .inl ⟨m', hother, hname, hfield⟩
            | some label =>
                rw [hname, Option.getD_some] at hlabel
                exact .inr ⟨m', List.mem_of_getElem? hother, by rw [hname, hlabel], hfield⟩
  · intro h
    refine ⟨freshIssues_eq_nil_iff.2 ?_, ?_⟩
    · intro place raw problem hreported
      obtain ⟨before, hold, htake⟩ := getElem?_filter hreported.1
      have hbefore := reported_of_remove hold htake hreported
      have hland := h place raw hreported.1
      rcases hreported.2 with hown | ⟨taken, rfl, _⟩
      · cases hmap : raw.mapping? with
        | none =>
            rw [hmap] at hland
            obtain ⟨other, hother, hnone⟩ := hland
            obtain rfl := (own_of_none hmap).1 hown
            exact ⟨place, other, .notMapping, ⟨hother, .inl ((own_of_none hnone).2 rfl)⟩, rfl⟩
        | some m =>
            rw [hmap] at hland
            obtain rfl := Val.mapping?_eq_some.1 hmap
            cases hname : statedName m with
            | some label =>
                refine ⟨before, .map m, problem, hbefore, ?_⟩
                cases problem <;> simp_all [Problem.issue, FileIssue.key, ownProblems]
            | none =>
                cases problem with
                | notMapping => cases hmap.symm.trans (notMapping_own rt hown)
                | duplicate taken => exact absurd hown duplicate_not_own
                | fault found =>
                    rcases hland hname _ (mem_faultFields.2 ⟨found, hown, rfl⟩) with
                      ⟨other, hother, hunnamed, hfield⟩ | ⟨other, hother, hlabel, hfield⟩
                    · obtain ⟨known, hknown, hsame⟩ := mem_faultFields.1 hfield
                      exact ⟨place, .map other, .fault known, ⟨hother, .inl hknown⟩, by
                        simp [Problem.issue, FileIssue.key, hunnamed, hname, hsame]⟩
                    · obtain ⟨known, hknown, hsame⟩ := mem_faultFields.1 hfield
                      obtain ⟨index, hindex⟩ := List.getElem?_of_mem hother
                      exact ⟨index, .map other, .fault known, ⟨hindex, .inl hknown⟩, by
                        simp [Problem.issue, FileIssue.key, hlabel, hname, hsame]⟩
      · exact ⟨before, raw, .duplicate taken, hbefore, rfl⟩
    · intro before after raw problem huntouched hreported
      obtain ⟨hold, htake⟩ := untouched_remove huntouched
      exact reported_of_remove hold htake hreported

/-! ### Overwriting and appending -/

theorem mem_namesOf_take {rt : Runtime} {entries : List Val} {stop : Nat} {name : String} :
    name ∈ namesOf rt (entries.take stop) ↔
      ∃ place raw, place < stop ∧ entries[place]? = some raw ∧ acceptedName rt raw = some name := by
  rw [namesOf, List.mem_filterMap]
  simp only [List.mem_iff_getElem?, List.getElem?_take]
  constructor
  · rintro ⟨raw, ⟨place, hraw⟩, hname⟩
    split at hraw
    · exact ⟨place, raw, ‹_›, hraw, hname⟩
    · cases hraw
  · rintro ⟨place, raw, hlt, hraw, hname⟩
    exact ⟨raw, ⟨place, by rw [if_pos hlt, hraw]⟩, hname⟩

theorem mem_namesOf_drop {rt : Runtime} {entries : List Val} {start : Nat} {name : String} :
    name ∈ namesOf rt (entries.drop start) ↔
      ∃ place raw, start ≤ place ∧ entries[place]? = some raw ∧ acceptedName rt raw = some name := by
  rw [namesOf, List.mem_filterMap]
  simp only [List.mem_iff_getElem?, List.getElem?_drop]
  constructor
  · rintro ⟨raw, ⟨offset, hraw⟩, hname⟩
    exact ⟨start + offset, raw, Nat.le_add_right _ _, hraw, hname⟩
  · rintro ⟨place, raw, hle, hraw, hname⟩
    exact ⟨raw, ⟨place - start, by rw [Nat.add_sub_cancel' hle, hraw]⟩, hname⟩

/-- The first accepted entry of a name. -/
theorem exists_first_accepted {rt : Runtime} {entries : List Val} {place : Nat} {raw : Val}
    {name : String} (hraw : entries[place]? = some raw) (hname : acceptedName rt raw = some name) :
    ∃ first other, first ≤ place ∧ entries[first]? = some other ∧
      acceptedName rt other = some name ∧ name ∉ namesOf rt (entries.take first) := by
  induction place using Nat.strongRecOn generalizing raw with
  | ind place ih =>
      by_cases hseen : name ∈ namesOf rt (entries.take place)
      · obtain ⟨earlier, other, hlt, hother, hearlier⟩ := mem_namesOf_take.1 hseen
        obtain ⟨first, found, hle, hrest⟩ := ih earlier hlt hother hearlier
        exact ⟨first, found, Nat.le_of_lt (Nat.lt_of_le_of_lt hle hlt), hrest⟩
      · exact ⟨place, raw, Nat.le_refl _, hraw, hname, hseen⟩

/-- Accepted entries that state the same name have the same name. -/
theorem acceptedName_unique {rt : Runtime} {old entry : Mapping} {one two : String}
    (hsame : old.get? "name" = entry.get? "name") (hone : acceptedName rt (.map old) = some one)
    (htwo : acceptedName rt (.map entry) = some two) : one = two := by
  obtain ⟨first, hfirst, rfl⟩ := readConnection_of_accepted hone
  obtain ⟨second, hsecond, rfl⟩ := readConnection_of_accepted htwo
  have hnameOne := (readConnection_eq_ok.1 hfirst).1
  have hnameTwo := (readConnection_eq_ok.1 hsecond).1
  rw [field_eq_ok, hsame, ← field_eq_ok, hnameTwo] at hnameOne
  exact (Except.ok.inj hnameOne).symm

/-- The field `name` is already reported for a name: two accepted entries have it, or an entry that
states it is refused there. -/
def NameReported (rt : Runtime) (entries : List Val) (name : String) : Prop :=
  (∃ place raw, entries[place]? = some raw ∧ acceptedName rt raw = some name ∧
      name ∈ namesOf rt (entries.take place)) ∨
    ∃ other : Mapping, .map other ∈ entries ∧ statedName other = some name ∧
      "name" ∈ faultFields rt other

theorem nameReported_iff {rt : Runtime} {entries : List Val} {name : String}
    (hslug : isSlug name = true) :
    NameReported rt entries name ↔
      ∃ place other known, Reported rt entries place other known ∧
        (known.issue place other).key = (some name, "name") := by
  constructor
  · rintro (⟨place, raw, hraw, haccepted, hseen⟩ | ⟨other, hother, hstated, hfield⟩)
    · exact ⟨place, raw, .duplicate name, ⟨hraw, .inr ⟨name, rfl, haccepted, hseen⟩⟩, rfl⟩
    · obtain ⟨known, hknown, hsame⟩ := mem_faultFields.1 hfield
      obtain ⟨place, hplace⟩ := List.getElem?_of_mem hother
      exact ⟨place, .map other, .fault known, ⟨hplace, .inl hknown⟩, by
        simp [Problem.issue, FileIssue.key, hstated, hsame]⟩
  · rintro ⟨place, other, known, ⟨hother, hreported⟩, hkey⟩
    cases known with
    | notMapping => cases congrArg Prod.fst hkey
    | duplicate taken =>
        obtain ⟨_, hdup, haccepted, hseen⟩ := hreported.resolve_left duplicate_not_own
        cases hdup
        obtain rfl := Option.some.inj (congrArg Prod.fst hkey)
        exact .inl ⟨place, other, hother, haccepted, hseen⟩
    | fault known =>
        have hknown : .fault known ∈ ownProblems rt other := by
          refine hreported.resolve_right ?_
          rintro ⟨_, hdup, _⟩
          cases hdup
        obtain ⟨m, rfl, hfield⟩ := fault_own hknown
        have hlabel := Option.some.inj (congrArg Prod.fst hkey)
        have hsame : issueField known = "name" := congrArg Prod.snd hkey
        simp only [Val.mapping?_map, Option.bind_some] at hlabel
        rw [hsame] at hfield
        cases hname : statedName m with
        | none =>
            rw [hname, Option.getD_none] at hlabel
            rw [← hlabel, entryLabel_not_slug] at hslug
            cases hslug
        | some label =>
            rw [hname, Option.getD_some] at hlabel
            exact .inr ⟨m, List.mem_of_getElem? hother, by rw [hname, hlabel], hfield⟩

/-- The edited entry was accepted before, or is still refused; or no accepted entry behind it has
its name unless one before it has, and then the name is reported already. -/
def NameFree (rt : Runtime) (entries : List Val) (index : Nat) (old entry : Mapping) : Prop :=
  ∀ name, acceptedName rt (.map entry) = some name → acceptedName rt (.map old) = none →
    (name ∈ namesOf rt (entries.drop (index + 1)) → name ∈ namesOf rt (entries.take index)) ∧
      (name ∈ namesOf rt (entries.take index) → NameReported rt entries name)

theorem untouched_overwrite {index : Nat} {entry : Mapping} {entries : List Val}
    {before after : Nat} {raw : Val} (h : Untouched (.overwrite index entry) entries before after raw) :
    before = after ∧ after ≠ index := by
  unfold Untouched Surgery.on at h
  by_cases hindex : index = after
  · subst hindex
    rw [List.getElem?_set_self'] at h
    obtain ⟨_, _, hpair⟩ := Option.map_eq_some_iff.1 h
    cases hpair
  · rw [List.getElem?_set_ne hindex] at h
    exact ⟨(getElem?_placed h).1.symm, Ne.symm hindex⟩

variable {rt : Runtime} {entries : List Val} {index : Nat} {old entry : Mapping}

/-- Another entry has only the problems it had. -/
theorem reported_of_overwrite (hold : entries[index]? = some (.map old))
    (hsame : old.get? "name" = entry.get? "name")
    (hfree : NameFree rt entries index old entry) {place : Nat} {raw : Val} {problem : Problem}
    (hne : place ≠ index)
    (h : Reported rt (entries.set index (.map entry)) place raw problem) :
    Reported rt entries place raw problem := by
  have hraw : entries[place]? = some raw := by
    rw [← h.1, List.getElem?_set_ne hne.symm]
  refine ⟨hraw, h.2.imp_right ?_⟩
  rintro ⟨taken, hproblem, haccepted, hseen⟩
  refine ⟨taken, hproblem, haccepted, ?_⟩
  obtain ⟨earlier, other, hlt, hother, hearlier⟩ := mem_namesOf_take.1 hseen
  by_cases hindex : earlier = index
  · subst hindex
    rw [List.getElem?_set_self (List.getElem?_eq_some_iff.1 hold).1] at hother
    obtain rfl := Option.some.inj hother
    cases hwas : acceptedName rt (.map old) with
    | some name =>
        obtain rfl := acceptedName_unique hsame hwas hearlier
        exact mem_namesOf_take.2 ⟨earlier, .map old, hlt, hold, hwas⟩
    | none =>
        have hbehind := mem_namesOf_drop.2 ⟨place, raw, hlt, hraw, haccepted⟩
        obtain ⟨first, found, hfirst, hrest⟩ :=
          mem_namesOf_take.1 ((hfree taken hearlier hwas).1 hbehind)
        exact mem_namesOf_take.2 ⟨first, found, hfirst.trans hlt, hrest⟩
  · rw [List.getElem?_set_ne (Ne.symm hindex)] at hother
    exact mem_namesOf_take.2 ⟨earlier, other, hlt, hother, hearlier⟩

theorem namesOf_take_set (name : String) :
    name ∈ namesOf rt ((entries.set index (.map entry)).take index) ↔
      name ∈ namesOf rt (entries.take index) := by
  rw [List.take_set_of_le (Nat.le_refl _)]

/-- Editing a connection is harmless exactly when its name is free where the edit makes a refused
entry an accepted one. -/
theorem overwrite_harmless_iff (hold : entries[index]? = some (.map old))
    (hsame : old.get? "name" = entry.get? "name")
    (hown : ∀ refused ∈ faultFields rt entry, refused ∈ faultFields rt old) :
    Harmless rt (.overwrite index entry) entries ↔ NameFree rt entries index old entry := by
  have hlt := (List.getElem?_eq_some_iff.1 hold).1
  have hself : (entries.set index (.map entry))[index]? = some (.map entry) :=
    List.getElem?_set_self hlt
  constructor
  · intro h name hname hwas
    have hslug := isSlug_of_accepted hname
    constructor
    · intro hbehind
      by_contra hbefore
      obtain ⟨later, raw, hlater, hraw, haccepted⟩ := mem_namesOf_drop.1 hbehind
      obtain ⟨first, other, _, hother, hfirst, hunseen⟩ := exists_first_accepted hraw haccepted
      have hbehindFirst : index < first := by
        rcases Nat.lt_trichotomy index first with h | rfl | h
        · exact h
        · rw [hold] at hother
          rw [← Option.some.inj hother, hwas] at hfirst
          cases hfirst
        · exact absurd (mem_namesOf_take.2 ⟨first, other, h, hother, hfirst⟩) hbefore
      have huntouched : Untouched (.overwrite index entry) entries first first other := by
        unfold Untouched Surgery.on
        rw [List.getElem?_set_ne (Nat.ne_of_lt hbehindFirst)]
        simp [placed, hother]
      have hreported : Reported rt (entries.set index (.map entry)) first other
          (.duplicate name) := by
        refine ⟨by rw [List.getElem?_set_ne (Nat.ne_of_lt hbehindFirst), hother], .inr ?_⟩
        exact ⟨name, rfl, hfirst,
          mem_namesOf_take.2 ⟨index, .map entry, hbehindFirst, hself, hname⟩⟩
      obtain ⟨_, hdup, _, hseen⟩ :=
        (h.kept first first other _ huntouched hreported).2.resolve_left duplicate_not_own
      cases hdup
      exact hunseen hseen
    · intro hbefore
      have hreported : Reported rt (entries.set index (.map entry)) index (.map entry)
          (.duplicate name) :=
        ⟨hself, .inr ⟨name, rfl, hname, (namesOf_take_set name).2 hbefore⟩⟩
      exact (nameReported_iff hslug).2
        (freshIssues_eq_nil_iff.1 h.accepted index _ _ hreported)
  · intro hfree
    refine ⟨freshIssues_eq_nil_iff.2 ?_, ?_⟩
    · intro place raw problem hreported
      by_cases hplace : place = index
      · subst hplace
        have hraw := hreported.1.symm.trans hself
        obtain rfl := Option.some.inj hraw
        rcases hreported.2 with hproblem | ⟨taken, rfl, haccepted, hseen⟩
        · cases problem with
          | notMapping => cases notMapping_own rt hproblem
          | duplicate taken => exact absurd hproblem duplicate_not_own
          | fault found =>
              obtain ⟨known, hknown, hfield⟩ :=
                mem_faultFields.1 (hown _ (mem_faultFields.2 ⟨found, hproblem, rfl⟩))
              exact ⟨place, .map old, .fault known, ⟨hold, .inl hknown⟩, by
                simp [Problem.issue, FileIssue.key, statedName, hsame, hfield]⟩
        · rw [Surgery.apply, Surgery.on, id, namesOf_take_set] at hseen
          cases hwas : acceptedName rt (.map old) with
          | some name =>
              obtain rfl := acceptedName_unique hsame hwas haccepted
              exact ⟨place, .map old, .duplicate name, ⟨hold, .inr ⟨name, rfl, hwas, hseen⟩⟩, rfl⟩
          | none =>
              exact (nameReported_iff (isSlug_of_accepted haccepted)).1
                ((hfree taken haccepted hwas).2 hseen)
      · exact ⟨place, raw, problem, reported_of_overwrite hold hsame hfree hplace hreported, rfl⟩
    · intro before after raw problem huntouched hreported
      obtain ⟨rfl, hne⟩ := untouched_overwrite huntouched
      exact reported_of_overwrite hold hsame hfree hne hreported

/-- Appending an accepted connection is harmless exactly when no accepted entry has its name, or
the name is reported already. -/
theorem append_harmless_iff {name : String} (haccepted : acceptedName rt (.map entry) = some name) :
    Harmless rt (.append entry) entries ↔
      (name ∈ namesOf rt entries → NameReported rt entries name) := by
  have hslug := isSlug_of_accepted haccepted
  have hlast : (entries ++ [Val.map entry])[entries.length]? = some (.map entry) := by simp
  have hown : ∀ problem, problem ∉ ownProblems rt (.map entry) := by
    obtain ⟨read, hread, _⟩ := readConnection_of_accepted haccepted
    simp [ownProblems, hread]
  have hearlier : ∀ {place raw problem}, place < entries.length →
      Reported rt (entries ++ [.map entry]) place raw problem →
        Reported rt entries place raw problem := by
    intro place raw problem hlt hreported
    refine ⟨by rw [← hreported.1, List.getElem?_append_left hlt], hreported.2.imp_right ?_⟩
    rintro ⟨taken, hproblem, htaken, hseen⟩
    rw [List.take_append_of_le_length (Nat.le_of_lt hlt)] at hseen
    exact ⟨taken, hproblem, htaken, hseen⟩
  constructor
  · intro h hseen
    have hreported : Reported rt (entries ++ [.map entry]) entries.length (.map entry)
        (.duplicate name) :=
      ⟨hlast, .inr ⟨name, rfl, haccepted, by rwa [List.take_left]⟩⟩
    exact (nameReported_iff hslug).2
      (freshIssues_eq_nil_iff.1 h.accepted entries.length _ _ hreported)
  · intro hname
    refine ⟨freshIssues_eq_nil_iff.2 ?_, ?_⟩
    · intro place raw problem hreported
      rcases Nat.lt_or_ge place entries.length with hlt | hge
      · exact ⟨place, raw, problem, hearlier hlt hreported, rfl⟩
      · have hplace : place = entries.length := by
          have := (List.getElem?_eq_some_iff.1 hreported.1).1
          simp [Surgery.apply, Surgery.on] at this
          omega
        subst hplace
        obtain rfl := Option.some.inj (hreported.1.symm.trans hlast)
        obtain ⟨taken, rfl, htaken, hseen⟩ := hreported.2.resolve_left (hown problem)
        obtain rfl := Option.some.inj (haccepted.symm.trans htaken)
        rw [Surgery.apply, Surgery.on, id, List.take_left] at hseen
        exact (nameReported_iff hslug).1 (hname hseen)
    · intro before after raw problem huntouched hreported
      unfold Untouched Surgery.on at huntouched
      rcases Nat.lt_or_ge after (placed entries).length with hlt | hge
      · rw [List.getElem?_append_left hlt] at huntouched
        obtain ⟨rfl, _⟩ := getElem?_placed huntouched
        exact hearlier (by simpa [placed] using hlt) hreported
      · rw [List.getElem?_append_right hge] at huntouched
        obtain ⟨_, hpair⟩ := List.getElem?_eq_some_iff.1 huntouched
        simp at hpair

/-! ### The changes of the page -/

theorem findEntry_eq_some {document : Mapping} {name : String}
    (h : findEntry document name = some (index, old)) :
    (connectionsOf document)[index]? = some (.map old) ∧ old.get? "name" = some (.str name) := by
  unfold findEntry at h
  cases hindex : (connectionsOf document).findIdx? (named name) with
  | none => rw [hindex] at h; cases h
  | some place =>
      rw [hindex] at h
      obtain ⟨m, hm, hpair⟩ := Option.map_eq_some_iff.1 h
      obtain ⟨rfl, rfl⟩ := Prod.mk.inj hpair
      obtain ⟨hlt, hnamed, _⟩ := List.findIdx?_eq_some_iff_getElem.1 hindex
      rw [Val.mapping?_eq_some, List.getD_eq_getElem?_getD, List.getElem?_eq_getElem hlt,
        Option.getD_some] at hm
      rw [hm] at hnamed
      exact ⟨by rw [List.getElem?_eq_getElem hlt, hm], Mapping.getD_eqv_str.1 hnamed⟩

theorem faultsOf_readConnection (m : Mapping) :
    (readConnection rt m).faultsOf =
      (field m "name" missing (readPattern isSlug)).faultsOf ++
        (field m "url" missing readUrl).faultsOf ++
        (field m "api_key" (.ok none) readApiKey).faultsOf ++
        (noExtras rt ["name", "url", "api_key"] m).faultsOf := by
  simp [readConnection]

theorem readUrl_ok {url : String} (h : httpScheme url = true) : readUrl (.str url) = .ok url := by
  have hne : url ≠ "" := by
    rintro rfl
    exact absurd h (by decide)
  have hfilled : readFilledStr (.str url) = .ok url := by
    unfold readFilledStr readStr laxText
    split
    · rename_i hempty
      exact absurd (Except.ok.inj hempty) hne
    · rfl
  simp [readUrl, hfilled, h]

section ToEntry

variable {name url : String} {token : Option String}

/-- What an entry of the page has under its keys. -/
theorem get?_toEntry (name url : String) (token : Option String) :
    (toEntry name url token).get? "name" = some (.str name) ∧
      (toEntry name url token).get? "url" = some (.str url) ∧
      (toEntry name url token).get? "api_key" = (writtenKey token).map .str := by
  unfold toEntry
  cases writtenKey token <;> exact ⟨rfl, rfl, rfl⟩

theorem noExtras_toEntry : noExtras rt ["name", "url", "api_key"] (toEntry name url token) = .ok () := by
  unfold toEntry
  cases writtenKey token <;> simp [noExtras]

theorem writtenKey_ne_empty {text : String} (h : writtenKey token = some text) :
    token = some text ∧ text ≠ "" := by
  cases token with
  | none => cases h
  | some found =>
      by_cases hfound : found = ""
      · simp [writtenKey, hfound] at h
      · simp only [writtenKey, if_neg hfound, Option.some.injEq] at h
        exact ⟨by rw [h], h ▸ hfound⟩

theorem readApiKey_text {text : String} (hne : text ≠ "") (h : startsWith text encPrefix = true) :
    readApiKey (.str text) = .ok (some text) := by
  simp [readApiKey, readNullable, readStr, laxText, Checked.both, Checked.of, hne, h]

theorem validToken_written (h : ValidToken token) : ValidToken (writtenKey token) :=
  fun text htext => h text (writtenKey_ne_empty htext).1

theorem readApiKey_ok (h : ValidToken (writtenKey token)) :
    field (toEntry name url token) "api_key" (.ok none) readApiKey = .ok (writtenKey token) := by
  rw [field_eq_ok, (get?_toEntry name url token).2.2]
  cases hkey : writtenKey token with
  | none => rfl
  | some text =>
      exact readApiKey_text (writtenKey_ne_empty hkey).2 (h text hkey)

/-- The faults of an entry of the page: its name, and a stored key that was kept. -/
theorem faultsOf_toEntry (hurl : httpScheme url = true) :
    (readConnection rt (toEntry name url token)).faultsOf =
      (field (toEntry name url token) "name" missing (readPattern isSlug)).faultsOf ++
        (field (toEntry name url token) "api_key" (.ok none) readApiKey).faultsOf := by
  have hread : field (toEntry name url token) "url" missing readUrl = .ok url := by
    rw [field_eq_ok, (get?_toEntry name url token).2.1]
    exact readUrl_ok hurl
  rw [faultsOf_readConnection, hread, noExtras_toEntry]
  simp

theorem accepted_toEntry (hslug : isSlug name = true) (hurl : httpScheme url = true)
    (htoken : ValidToken (writtenKey token)) :
    acceptedName rt (.map (toEntry name url token)) = some name := by
  have hname : field (toEntry name url token) "name" missing (readPattern isSlug) = .ok name := by
    rw [field_eq_ok, (get?_toEntry name url token).1]
    exact readPattern_eq_ok.2 ⟨rfl, hslug⟩
  have hread : field (toEntry name url token) "url" missing readUrl = .ok url := by
    rw [field_eq_ok, (get?_toEntry name url token).2.1]
    exact readUrl_ok hurl
  have hconnection : readConnection rt (toEntry name url token) =
      .ok ⟨name, url, writtenKey token⟩ :=
    readConnection_eq_ok.2 ⟨hname, hread, readApiKey_ok htoken, noExtras_toEntry⟩
  simp [acceptedName, hconnection, Except.toOption]

theorem name_of_accepted_toEntry {accepted : String}
    (h : acceptedName rt (.map (toEntry name url token)) = some accepted) :
    accepted = name ∧ isSlug name = true ∧ ValidToken (writtenKey token) := by
  obtain ⟨entry, hread, rfl⟩ := readConnection_of_accepted h
  obtain ⟨hname, _, hkey, _⟩ := readConnection_eq_ok.1 hread
  rw [field_eq_ok, (get?_toEntry name url token).1] at hname
  rw [field_eq_ok, (get?_toEntry name url token).2.2] at hkey
  obtain ⟨hsame, hslug⟩ := readPattern_eq_ok.1 hname
  obtain rfl := Option.some.inj hsame
  refine ⟨rfl, hslug, fun text htext => ?_⟩
  rw [htext] at hkey
  by_contra hprefix
  have hne := (writtenKey_ne_empty htext).2
  simp [readApiKey, readNullable, readStr, laxText, Checked.both, Checked.of, hne, hprefix] at hkey

end ToEntry

/-- The name of an edited entry is free where the edit makes it an accepted one. -/
def NameOpen (rt : Runtime) (entries : List Val) (index : Nat) (name : String) : Prop :=
  (name ∈ namesOf rt (entries.drop (index + 1)) → name ∈ namesOf rt (entries.take index)) ∧
    (name ∈ namesOf rt (entries.take index) → NameReported rt entries name)

/-- When a change gets through.  Removing: the entries without a usable name land on places with
their problems.  Appending: no accepted entry reads as the name, or it is reported already.
Overwriting a refused entry with an accepted one: the same about the entries before it, and no
accepted entry behind it has the name unless one before it has. -/
def Change.Clear (rt : Runtime) (document : Mapping) : Change → Prop
  | .create name _ _ =>
      name ∈ namesOf rt (connectionsOf document) → NameReported rt (connectionsOf document) name
  | .edit name _ token clearKey _ _ =>
      ∀ index old, findEntry document name = some (index, old) → isSlug name = true →
        ValidToken (writtenKey (keptToken token clearKey old)) →
          acceptedName rt (.map old) = none → NameOpen rt (connectionsOf document) index name
  | .delete name _ => LandsOnSame rt name (connectionsOf document)
  | .resetDefault _ =>
      match findEntry document defaultName with
      | none =>
          defaultName ∈ namesOf rt (connectionsOf document) →
            NameReported rt (connectionsOf document) defaultName
      | some (index, old) =>
          acceptedName rt (.map old) = none →
            NameOpen rt (connectionsOf document) index defaultName

/-- An edited entry has no fault the entry before the edit did not have. -/
theorem faults_of_edit {name url : String} {token : Option String} {clearKey : Bool}
    (hold : old.get? "name" = some (.str name)) (hurl : httpScheme url = true)
    (htoken : ValidToken token) :
    ∀ refused ∈ faultFields rt (toEntry name url (keptToken token clearKey old)),
      refused ∈ faultFields rt old := by
  intro refused hrefused
  rw [faultFields, faultsOf_toEntry hurl, List.map_append, List.mem_append] at hrefused
  rw [faultFields, faultsOf_readConnection, List.map_append, List.map_append, List.map_append]
  simp only [List.mem_append]
  rcases hrefused with hname | hkey
  · have hsame : field (toEntry name url (keptToken token clearKey old)) "name" missing
        (readPattern isSlug) = field old "name" missing (readPattern isSlug) := by
      rw [field, field, (get?_toEntry _ _ _).1, hold]
    rw [hsame] at hname
    exact .inl (.inl (.inl hname))
  · by_cases hnew : token.isSome = true
    · rw [keptToken, if_pos hnew, readApiKey_ok (validToken_written htoken)] at hkey
      cases hkey
    · by_cases hclear : (clearKey || !hasKey old) = true
      · rw [keptToken, if_neg hnew, if_pos hclear,
          readApiKey_ok (fun _ h => by cases h)] at hkey
        cases hkey
      · -- the stored key is kept as it is
        have hstored : ∃ text, old.get? "api_key" = some (.str text) ∧ text ≠ "" ∧
            keptToken token clearKey old = some text := by
          rw [keptToken, if_neg hnew, if_neg hclear]
          simp only [Bool.or_eq_true, Bool.not_eq_true', not_or, Bool.not_eq_false] at hclear
          have hhas := hclear.2
          unfold hasKey at hhas
          cases hcase : storedKey old with
          | none => simp [hcase] at hhas
          | some text =>
              obtain ⟨value, hvalue, htext⟩ := Option.bind_eq_some_iff.1 hcase
              rw [Val.str?_eq_some] at htext
              rw [htext] at hvalue
              exact ⟨text, hvalue, by simpa [hcase] using hhas, rfl⟩
        obtain ⟨text, htext, hne, hkept⟩ := hstored
        have hsame : field (toEntry name url (keptToken token clearKey old)) "api_key" (.ok none)
            readApiKey = field old "api_key" (.ok none) readApiKey := by
          rw [field, field, (get?_toEntry _ _ _).2.2, hkept, htext, writtenKey, if_neg hne]
          rfl
        rw [hsame] at hkey
        exact .inl (.inr hkey)

theorem editSurgery_ok {ctx : ServiceContext} {name url etag : String} {token : Option String}
    {clearKey confirmJobs : Bool} {document : Mapping} {surgery : Surgery}
    (h : editSurgery rt ctx name url token clearKey etag confirmJobs document = .ok surgery) :
    ∃ index old, findEntry document name = some (index, old) ∧
      surgery = .overwrite index (toEntry name url (keptToken token clearKey old)) := by
  unfold editSurgery at h
  cases hfind : findEntry document name with
  | none => rw [hfind] at h; cases h
  | some found =>
      obtain ⟨index, old⟩ := found
      rw [hfind] at h
      dsimp only at h
      split at h
      · cases h
      · split at h
        · cases h
        · exact ⟨index, old, rfl, (Except.ok.inj h).symm⟩

theorem deleteSurgery_ok {ctx : ServiceContext} {name etag : String} {document : Mapping}
    {surgery : Surgery} (h : deleteSurgery rt ctx name etag document = .ok surgery) :
    surgery = .remove name := by
  unfold deleteSurgery at h
  split at h
  · cases h
  · split at h
    · cases h
    · split at h
      · split at h
        · cases h
        · split at h
          · cases h
          · exact (Except.ok.inj h).symm
      · cases h

/-- A change of the page, on any document: it is harmless exactly when it is clear. -/
theorem change_harmless_iff {ctx : ServiceContext} {change : Change} {document : Mapping}
    {surgery : Surgery} (hvalid : change.Valid)
    (hmutate : change.mutate rt ctx document = .ok surgery) :
    Harmless rt surgery (connectionsOf document) ↔ change.Clear rt document := by
  cases change with
  | create name url token =>
      obtain ⟨hslug, hurl, htoken⟩ := hvalid
      simp only [Change.mutate, createSurgery] at hmutate
      split at hmutate
      · cases hmutate
      · obtain rfl := Except.ok.inj hmutate
        exact append_harmless_iff (accepted_toEntry hslug hurl (validToken_written htoken))
  | edit name url token clearKey etag confirmJobs =>
      obtain ⟨hurl, htoken⟩ := hvalid
      obtain ⟨index, old, hfind, rfl⟩ := editSurgery_ok hmutate
      obtain ⟨hold, hname⟩ := findEntry_eq_some hfind
      rw [overwrite_harmless_iff hold (by rw [hname, (get?_toEntry _ _ _).1])
        (faults_of_edit hname hurl htoken)]
      constructor
      · intro hfree index' old' hfind' hslug hkept hwas
        obtain ⟨rfl, rfl⟩ := Prod.mk.inj (Option.some.inj (hfind.symm.trans hfind'))
        exact hfree name (accepted_toEntry hslug hurl hkept) hwas
      · intro hclear accepted haccepted hwas
        obtain ⟨rfl, hslug, hkept⟩ := name_of_accepted_toEntry haccepted
        exact hclear index old hfind hslug hkept hwas
  | delete name etag =>
      obtain rfl := deleteSurgery_ok hmutate
      exact remove_harmless_iff rt name _
  | resetDefault token =>
      simp only [Change.mutate, resetSurgery] at hmutate
      simp only [Change.Clear]
      cases hfind : findEntry document defaultName with
      | none =>
          rw [hfind] at hmutate
          obtain rfl := Except.ok.inj hmutate
          exact append_harmless_iff (accepted_toEntry (by decide) (by decide)
            (validToken_written hvalid))
      | some found =>
          obtain ⟨index, old⟩ := found
          rw [hfind] at hmutate
          obtain rfl := Except.ok.inj hmutate
          obtain ⟨hold, hname⟩ := findEntry_eq_some hfind
          have haccepted : acceptedName rt (.map (toEntry defaultName integratedUrl (some token))) =
              some defaultName :=
            accepted_toEntry (by decide) (by decide) (validToken_written hvalid)
          have hown : ∀ refused ∈ faultFields rt (toEntry defaultName integratedUrl (some token)),
              refused ∈ faultFields rt old := by
            obtain ⟨entry, hread, _⟩ := readConnection_of_accepted haccepted
            simp [faultFields, hread]
          rw [overwrite_harmless_iff hold (by rw [hname, (get?_toEntry _ _ _).1]) hown]
          constructor
          · exact fun hfree hwas => hfree defaultName haccepted hwas
          · intro hopen name hname hwas
            obtain rfl := Option.some.inj (haccepted.symm.trans hname)
            exact hopen hwas

/-- The service without jobs, with fingerprints that are all alike. -/
def idleContext : ServiceContext :=
  { etagOf := fun _ => "", lowerOf := lower, usageError := none, jobsOf := fun _ => [] }

/-- A good connection, and behind it one without a name. -/
def namelessDocument : Mapping :=
  [(.str "version", .int 1),
    (.str "connections", .list [.map [(.str "name", .str "a"), (.str "url", .str "http://a")],
      .map [(.str "url", .str "http://b")]])]

def namelessText : String :=
  "version: 1\nconnections:\n- name: a\n  url: http://a\n- url: http://b\n"

end Papaia.Vectordb
