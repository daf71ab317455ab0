/-
Module: Papaia.Proofs.Notices
Purpose: What a finding does to the memory of each key and which notifications it makes: per key a
  finding is a look, and a run of passes announces what those looks announce.
Trusted boundary: none
Main exports: Finding.look, lookedAtAll, noticedAll, Pass.looks, memoryAfter_eq, noticesAbout_eq
-/
import Papaia.Data.Spelling
import Papaia.Notifications.Detect
import Papaia.Lib.Announce

namespace Papaia.Notifications

open Text Announce

/-! ### Stored keys -/

theorem toList_storedKey (event : Event) (key : String) :
    (storedKey event key).toList = event.value.toList ++ '|' :: key.toList := by
  simp [storedKey]

/-- No name of an event has the separator in it. -/
theorem separator_notMem_value (event : Event) : '|' ∉ event.value.toList := by
  cases event <;> decide

theorem append_separator_inj {xs ys xs' ys' : List Char} (hxs : '|' ∉ xs) (hys : '|' ∉ ys)
    (h : xs ++ '|' :: xs' = ys ++ '|' :: ys') : xs = ys ∧ xs' = ys' := by
  induction xs generalizing ys with
  | nil =>
      cases ys with
      | nil => exact ⟨rfl, (List.cons.inj h).2⟩
      | cons y ys =>
          obtain ⟨rfl, -⟩ := List.cons.inj h
          simp at hys
  | cons x xs ih =>
      cases ys with
      | nil =>
          obtain ⟨rfl, -⟩ := List.cons.inj h
          simp at hxs
      | cons y ys =>
          obtain ⟨rfl, hrest⟩ := List.cons.inj h
          obtain ⟨rfl, hkeys⟩ := ih (by simp_all) (by simp_all) hrest
          exact ⟨rfl, hkeys⟩

theorem value_injective {event other : Event} (h : event.value = other.value) : event = other := by
  cases event <;> cases other <;> first | rfl | exact absurd h (by decide)

theorem storedKey_inj {event other : Event} {key key' : String} :
    storedKey event key = storedKey other key' ↔ event = other ∧ key = key' := by
  constructor
  · intro h
    have hchars := congrArg String.toList h
    rw [toList_storedKey, toList_storedKey] at hchars
    obtain ⟨hvalue, hkey⟩ := append_separator_inj (separator_notMem_value event)
      (separator_notMem_value other) hchars
    exact ⟨value_injective (String.toList_injective hvalue), String.toList_injective hkey⟩
  · rintro ⟨rfl, rfl⟩
    rfl

/-- A stored key is below the prefix of a finding when it is a key of its event below the scope. -/
theorem startsWith_storedKey {event other : Event} {key scope : String} :
    startsWith (storedKey event key) (storedKey other scope) = true ↔
      other = event ∧ startsWith key scope = true := by
  rw [startsWith_iff, startsWith_iff, toList_storedKey, toList_storedKey]
  constructor
  · rintro ⟨tail, htail⟩
    rw [List.append_assoc, List.cons_append] at htail
    obtain ⟨hvalue, hkey⟩ := append_separator_inj (separator_notMem_value other)
      (separator_notMem_value event) htail
    exact ⟨value_injective (String.toList_injective hvalue), tail, hkey⟩
  · rintro ⟨rfl, tail, htail⟩
    exact ⟨tail, by rw [List.append_assoc, List.cons_append, htail]⟩

/-! ### A finding as a look -/

/-- The condition a finding has for a key. -/
def Finding.condition? (f : Finding) (key : String) : Option Condition :=
  f.current.find? fun c => c.key == key

/-- What a finding says about a key of an event. -/
def Finding.look (f : Finding) (event : Event) (key : String) : Look String :=
  if f.event = event then
    match f.condition? key with
    | some c => .present c.marker
    | none => if startsWith key f.scope then .absent else .unread
  else .unread

/-- What is remembered about one key after a look. -/
def lookedAt (event : Event) (now debounceMinutes : Int) (seen : Option Seen) :
    Look String → Option Seen
  | .unread => seen
  | .absent => seen.bind (dropped event now)
  | .present marker => some (noted event now debounceMinutes seen marker)

/-- The markers a look at one key announces. -/
def noticed (event : Event) (now debounceMinutes : Int) (seen : Option Seen) :
    Look String → List String
  | .present marker => if fires event now debounceMinutes seen marker then [marker] else []
  | _ => []

theorem about_append (event : Event) (key : String) (notices more : List Condition) :
    about event key (notices ++ more) = about event key notices ++ about event key more :=
  List.filter_append ..

variable {event : Event} {now debounceMinutes : Int}

theorem distinct_current (f : Finding) : Keyed.Distinct Condition.key f.current :=
  Keyed.distinct_lastOfEach _

theorem mem_current {f : Finding} {c : Condition} (h : c ∈ f.current) : c ∈ f.conditions :=
  (Keyed.mem_lastOfEach.1 h).mem

theorem event_of_mem_current {f : Finding} {c : Condition} (h : c ∈ f.current) :
    c.event = f.event :=
  f.ofEvent c (mem_current h)

/-- Of the conditions of one key the last one stands. -/
theorem condition?_eq (f : Finding) (key : String) :
    f.condition? key = (f.conditions.filter fun c => c.key == key).getLast? :=
  Keyed.find?_lastOfEach f.conditions key

/-- A finding has no condition for a key exactly when it names none. -/
theorem condition?_eq_none_iff {f : Finding} {key : String} :
    f.condition? key = none ↔ ∀ c ∈ f.conditions, c.key ≠ key := by
  rw [condition?_eq, List.getLast?_eq_none_iff, List.filter_eq_nil_iff]
  simp

/-- The loop over the conditions changes the entries of their keys only. -/
theorem noteConditions_memory {cs : List Condition} (h : Keyed.Distinct Condition.key cs)
    (new : List Condition × Memory) (key : String) :
    (cs.foldl (noteCondition event now debounceMinutes) new).2 (storedKey event key) =
      match cs.find? fun c => c.key == key with
      | some c => some (noted event now debounceMinutes (new.2 (storedKey event key)) c.marker)
      | none => new.2 (storedKey event key) := by
  induction cs generalizing new with
  | nil => rfl
  | cons c rest ih =>
      obtain ⟨hnot, hrest⟩ := List.nodup_cons.1 h
      rw [List.foldl_cons, ih hrest]
      by_cases hkey : c.key = key
      · have habsent : rest.find? (fun other => other.key == key) = none := by
          rw [List.find?_eq_none]
          intro other hother hsame
          exact hnot (List.mem_map.2 ⟨other, hother, by rw [hkey]; simpa using hsame⟩)
        simp [habsent, hkey, noteCondition]
      · have hstored : storedKey event key ≠ storedKey event c.key := by
          simpa [storedKey_inj] using Ne.symm hkey
        simp [hkey, noteCondition, Function.update_of_ne hstored]

/-- The entries of other events stay. -/
theorem noteConditions_other {other : Event} (hother : other ≠ event) (cs : List Condition)
    (new : List Condition × Memory) (key : String) :
    (cs.foldl (noteCondition event now debounceMinutes) new).2 (storedKey other key) =
      new.2 (storedKey other key) := by
  induction cs generalizing new with
  | nil => rfl
  | cons c rest ih =>
      have hstored : storedKey other key ≠ storedKey event c.key := by
        simp [storedKey_inj, hother]
      rw [List.foldl_cons, ih]
      exact Function.update_of_ne hstored ..

/-- The notifications of the loop: the conditions that fire against the memory before it. -/
theorem noteConditions_notices {cs : List Condition} (h : Keyed.Distinct Condition.key cs)
    (new : List Condition × Memory) :
    (cs.foldl (noteCondition event now debounceMinutes) new).1 = new.1 ++
      cs.filter fun c => fires event now debounceMinutes (new.2 (storedKey event c.key)) c.marker := by
  induction cs generalizing new with
  | nil => simp
  | cons c rest ih =>
      obtain ⟨hnot, hrest⟩ := List.nodup_cons.1 h
      have hsame : ∀ other ∈ rest,
          fires event now debounceMinutes
            ((noteCondition event now debounceMinutes new c).2 (storedKey event other.key))
            other.marker =
          fires event now debounceMinutes (new.2 (storedKey event other.key)) other.marker := by
        intro other hother
        have hne : other.key ≠ c.key := fun heq => hnot (heq ▸ List.mem_map_of_mem hother)
        have hstored : storedKey event other.key ≠ storedKey event c.key := by
          simpa [storedKey_inj] using hne
        simp only [noteCondition, Function.update_of_ne hstored]
      rw [List.foldl_cons, ih hrest, List.filter_congr hsame, List.filter_cons]
      simp only [noteCondition]
      split <;> simp

/-- The keys a finding covers and does not name. -/
theorem missed_iff (f : Finding) (key : String) :
    (startsWith (storedKey event key) (storedKey f.event f.scope) &&
        !(f.current.any fun c => storedKey f.event c.key == storedKey event key)) = true ↔
      f.look event key = .absent := by
  rw [Bool.and_eq_true, startsWith_storedKey, Finding.look]
  by_cases hevent : f.event = event
  · subst hevent
    cases hfound : f.condition? key with
    | none =>
        have hany : (f.current.any fun c => storedKey f.event c.key == storedKey f.event key) =
            false := by
          rw [List.any_eq_false]
          intro c hc hsame
          have hkey := (storedKey_inj.1 (by simpa using hsame)).2
          exact List.find?_eq_none.1 hfound c hc (by simpa using hkey)
        by_cases hscope : startsWith key f.scope = true <;> simp [hany, hscope]
    | some c =>
        have hany : (f.current.any fun c => storedKey f.event c.key == storedKey f.event key) =
            true := by
          rw [List.any_eq_true]
          have hkey : c.key = key := by simpa using List.find?_some hfound
          exact ⟨c, List.mem_of_find?_eq_some hfound, by simp [hkey]⟩
        simp [hany]
  · simp [hevent]

/-- What a finding leaves under each key. -/
theorem decideFinding_memory (new : List Condition × Memory) (f : Finding) (key : String) :
    (decideFinding now debounceMinutes new f).2 (storedKey event key) =
      lookedAt event now debounceMinutes (new.2 (storedKey event key)) (f.look event key) := by
  simp only [decideFinding, missed_iff]
  by_cases hevent : f.event = event
  · subst hevent
    rw [noteConditions_memory (distinct_current f)]
    change (if _ then Option.bind (match f.condition? key with | some c => _ | none => _) _ else
      match f.condition? key with | some c => _ | none => _) = _
    cases hfound : f.condition? key with
    | some c => simp [Finding.look, hfound, lookedAt]
    | none => by_cases hscope : startsWith key f.scope = true <;>
        simp [Finding.look, hfound, hscope, lookedAt]
  · rw [noteConditions_other (Ne.symm hevent)]
    simp [Finding.look, hevent, lookedAt]

theorem filter_key_of_distinct {cs : List Condition} (h : Keyed.Distinct Condition.key cs)
    (key : String) :
    cs.filter (fun c => c.key == key) = (cs.find? fun c => c.key == key).toList := by
  induction cs with
  | nil => rfl
  | cons c rest ih =>
      obtain ⟨hnot, hrest⟩ := List.nodup_cons.1 h
      by_cases hkey : c.key = key
      · have hnone : rest.filter (fun other => other.key == key) = [] := by
          rw [List.filter_eq_nil_iff]
          intro other hother hsame
          exact hnot (List.mem_map.2 ⟨other, hother, by rw [hkey]; simpa using hsame⟩)
        simp [hkey, hnone]
      · simp [hkey, ih hrest]

/-- What a finding announces about each key. -/
theorem decideFinding_notices (new : List Condition × Memory) (f : Finding) (key : String) :
    (about event key (decideFinding now debounceMinutes new f).1).map Condition.marker =
      (about event key new.1).map Condition.marker ++
        noticed event now debounceMinutes (new.2 (storedKey event key)) (f.look event key) := by
  simp only [decideFinding]
  rw [noteConditions_notices (distinct_current f), about_append, List.map_append]
  congr 1
  by_cases hevent : f.event = event
  · subst hevent
    have hsame : ∀ c ∈ f.current, (c.event == f.event && c.key == key &&
        fires f.event now debounceMinutes (new.2 (storedKey f.event c.key)) c.marker) =
        (fires f.event now debounceMinutes (new.2 (storedKey f.event key)) c.marker &&
          c.key == key) := by
      intro c hc
      by_cases hkey : c.key = key
      · simp [event_of_mem_current hc, hkey]
      · have hne : (c.key == key) = false := by simpa using hkey
        simp [hne]
    rw [about, List.filter_filter, List.filter_congr hsame, ← List.filter_filter,
      filter_key_of_distinct (distinct_current f)]
    change ((f.condition? key).toList.filter _).map _ = _
    cases hfound : f.condition? key with
    | none => by_cases hscope : startsWith key f.scope = true <;>
        simp [Finding.look, hfound, hscope, noticed]
    | some c =>
        by_cases hfires : fires f.event now debounceMinutes (new.2 (storedKey f.event key))
            c.marker = true <;>
          simp [Finding.look, hfound, noticed, hfires]
  · have hnone : about event key (f.current.filter fun c =>
        fires f.event now debounceMinutes (new.2 (storedKey f.event c.key)) c.marker) = [] := by
      rw [about, List.filter_eq_nil_iff]
      intro c hc
      have hother := event_of_mem_current (List.mem_of_mem_filter hc)
      simp [hother, hevent]
    simp [hnone, Finding.look, hevent, noticed]

/-! ### Looks after looks -/

/-- What is remembered about one key after some looks. -/
def lookedAtAll (event : Event) (debounceMinutes : Int) (seen : Option Seen) :
    List (Int × Look String) → Option Seen
  | [] => seen
  | (now, look) :: rest =>
      lookedAtAll event debounceMinutes (lookedAt event now debounceMinutes seen look) rest

/-- What some looks at one key announce: when, and the marker. -/
def noticedAll (event : Event) (debounceMinutes : Int) (seen : Option Seen) :
    List (Int × Look String) → List (Int × String)
  | [] => []
  | (now, look) :: rest =>
      (noticed event now debounceMinutes seen look).map (fun marker => (now, marker)) ++
        noticedAll event debounceMinutes (lookedAt event now debounceMinutes seen look) rest

theorem lookedAtAll_append (seen : Option Seen) (looks more : List (Int × Look String)) :
    lookedAtAll event debounceMinutes seen (looks ++ more) =
      lookedAtAll event debounceMinutes (lookedAtAll event debounceMinutes seen looks) more := by
  induction looks generalizing seen with
  | nil => rfl
  | cons x rest ih => exact ih _

theorem noticedAll_append (seen : Option Seen) (looks more : List (Int × Look String)) :
    noticedAll event debounceMinutes seen (looks ++ more) =
      noticedAll event debounceMinutes seen looks ++
        noticedAll event debounceMinutes (lookedAtAll event debounceMinutes seen looks) more := by
  induction looks generalizing seen with
  | nil => rfl
  | cons x rest ih =>
      obtain ⟨now, look⟩ := x
      simp [noticedAll, lookedAtAll, ih]

/-- A look that was none changes nothing. -/
theorem lookedAtAll_filter_isRead (seen : Option Seen) (looks : List (Int × Look String)) :
    lookedAtAll event debounceMinutes seen (looks.filter fun x => x.2.isRead) =
      lookedAtAll event debounceMinutes seen looks := by
  induction looks generalizing seen with
  | nil => rfl
  | cons x rest ih =>
      obtain ⟨now, look⟩ := x
      cases look <;> exact ih _

theorem noticedAll_filter_isRead (seen : Option Seen) (looks : List (Int × Look String)) :
    noticedAll event debounceMinutes seen (looks.filter fun x => x.2.isRead) =
      noticedAll event debounceMinutes seen looks := by
  induction looks generalizing seen with
  | nil => rfl
  | cons x rest ih =>
      obtain ⟨now, look⟩ := x
      cases look with
      | unread => exact ih seen
      | absent => exact ih _
      | present marker => exact congrArg (_ ++ ·) (ih _)

/-! ### Passes -/

/-- The looks of a pass at one key. -/
def Pass.looks (event : Event) (key : String) (pass : Pass) : List (Int × Look String) :=
  pass.findings.map fun f => (pass.now, f.look event key)

/-- The looks of some findings that say anything about a key. -/
def readLooks (event : Event) (key : String) (findings : List Finding) : List (Look String) :=
  (findings.map fun f => f.look event key).filter Look.isRead

theorem Pass.looks_filter_isRead (pass : Pass) (key : String) :
    (pass.looks event key).filter (fun x => x.2.isRead) =
      (readLooks event key pass.findings).map fun look => (pass.now, look) := by
  rw [Pass.looks, readLooks, List.filter_map, List.filter_map, List.map_map]
  rfl

/-- The loop over the findings, seen from one key. -/
theorem decideFindings (findings : List Finding) (new : List Condition × Memory) (key : String) :
    let decided := findings.foldl (decideFinding now debounceMinutes) new
    let looks := findings.map fun f => (now, f.look event key)
    decided.2 (storedKey event key) =
        lookedAtAll event debounceMinutes (new.2 (storedKey event key)) looks ∧
      (about event key decided.1).map (fun c => (now, c.marker)) =
        (about event key new.1).map (fun c => (now, c.marker)) ++
          noticedAll event debounceMinutes (new.2 (storedKey event key)) looks := by
  induction findings generalizing new with
  | nil => simp [lookedAtAll, noticedAll]
  | cons f rest ih =>
      have hmarkers : (about event key (decideFinding now debounceMinutes new f).1).map
          Condition.marker = _ := decideFinding_notices new f key
      have hnotices := congrArg (List.map fun marker => (now, marker)) hmarkers
      simp only [List.map_append, List.map_map] at hnotices
      obtain ⟨hmemory, hsent⟩ := ih (decideFinding now debounceMinutes new f)
      refine ⟨?_, ?_⟩
      · simpa [lookedAtAll, decideFinding_memory] using hmemory
      · simp only [List.foldl_cons, List.map_cons, noticedAll]
        rw [hsent, decideFinding_memory, ← List.append_assoc]
        exact congrArg (· ++ _) hnotices

theorem decide_memory (findings : List Finding) (seen : Memory) (key : String) :
    (decide findings seen now debounceMinutes).2 (storedKey event key) =
      lookedAtAll event debounceMinutes (seen (storedKey event key))
        (findings.map fun f => (now, f.look event key)) :=
  (decideFindings findings ([], seen) key).1

theorem decide_notices (findings : List Finding) (seen : Memory) (key : String) :
    (about event key (decide findings seen now debounceMinutes).1).map
        (fun c => (now, c.marker)) =
      noticedAll event debounceMinutes (seen (storedKey event key))
        (findings.map fun f => (now, f.look event key)) :=
  (decideFindings findings ([], seen) key).2

/-- A run of passes, seen from one key. -/
theorem memoryAfter_eq (seen : Memory) (passes : List Pass) (key : String) :
    memoryAfter debounceMinutes seen passes (storedKey event key) =
      lookedAtAll event debounceMinutes (seen (storedKey event key))
        (passes.flatMap (Pass.looks event key)) := by
  induction passes generalizing seen with
  | nil => rfl
  | cons pass rest ih =>
      rw [memoryAfter, ih, decide_memory, List.flatMap_cons, lookedAtAll_append]
      rfl

theorem noticesAbout_eq (seen : Memory) (passes : List Pass) (key : String) :
    noticesAbout debounceMinutes event key seen passes =
      noticedAll event debounceMinutes (seen (storedKey event key))
        (passes.flatMap (Pass.looks event key)) := by
  induction passes generalizing seen with
  | nil => rfl
  | cons pass rest ih =>
      rw [noticesAbout, ih, decide_notices, decide_memory, List.flatMap_cons, noticedAll_append]
      rfl

end Papaia.Notifications
