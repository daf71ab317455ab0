/-
Module: Papaia.Proofs.ModelReadings
Purpose: However many open the models page and reload it: a window is fetched by one at a time and not
  again while its reading is served, few readings are kept, and what is shown was fetched for the days
  that were asked for and is not too old.
Trusted boundary: none
Main exports: fetch_window, Sound, sound_step, model_windows_are_fetched_in_turn,
  model_readings_are_young
-/
import Mathlib.Data.List.Dedup
import Papaia.Stack.ModelReadings

namespace Papaia.Models.Readings

open Runs SharedRead

variable {second : Nat} {lib : Library} {order : SetOrder}

/-- A reading is of the window that was asked for. -/
theorem fetch_window {answers : Answers} {reading : Reading}
    (h : fetch lib order answers = .ok reading) : reading.window = answers.window := by
  have hfailed : ∀ {database : PyText} {problem : Problem},
      (.ok (answers.failed database problem) : Except Raised Reading) = .ok reading →
      reading.window = answers.window := by
    intro database problem hok
    obtain rfl := Except.ok.inj hok
    rfl
  unfold fetch at h
  split at h
  next => exact hfailed h
  next =>
    dsimp only at h
    split at h
    next => exact hfailed h
    next => cases h
    next items _ =>
      split at h
      next => exact hfailed h
      next => cases h
      next results complete _ =>
        split at h
        next report _ =>
          obtain rfl := Except.ok.inj h
          rfl
        next =>
          split at h
          · exact hfailed h
          · cases h

theorem serves_iff {key : Key} {request : Request} {reading : Reading} {age : Int} :
    (policy second).serves key request reading age = true ↔
      age < (if reading.report.isSome then 60 else 15) * second ∧
        (request.fresh = true → age < 5 * second) := by
  simp only [policy, Bool.and_eq_true, Bool.or_eq_true, decide_eq_true_eq, Bool.not_eq_true']
  cases request.fresh <;> simp [ttl, ttlOk, ttlFailed, minRecheck]

/-! ### What holds in every run -/

/-- A key is that of a window. -/
def KeyOf (key : Key) (request : Request) : Prop :=
  key.start = request.window.start ∧ key.last = request.window.last

structure Sound (second : Nat) (lib : Library) (order : SetOrder) (s : State) : Prop where
  shared : Inv (policy second) s.shared
  reads : ∀ read ∈ s.shared.reads, KeyOf read.key read.origin
  callers : ∀ caller ∈ s.shared.callers, KeyOf caller.key caller.origin
  fetched : ∀ (i : Nat) (read : SharedRead.Read Key Request Reading) (t : Int) (outcome : Option Reading),
    s.shared.reads[i]? = some read → read.ended = some (t, outcome) →
    ∃ answers, (i, answers) ∈ s.answers ∧ answers.window = read.origin.window ∧
      (fetch lib order answers).toOption = outcome

theorem sound_start (clock : Int) : Sound second lib order { shared := { clock := clock } } where
  shared := inv_start clock
  reads := by simp
  callers := by simp
  fetched := by simp

variable {s s' : State}

/-- The callers change, and nothing else. -/
theorem Sound.withCallers (sound : Sound second lib order s)
    {shared : SharedRead.State Key Request Reading} (inv : Inv (policy second) shared)
    (reads : shared.reads = s.shared.reads)
    (callers : ∀ caller ∈ shared.callers, KeyOf caller.key caller.origin) :
    Sound second lib order { s with shared := shared } where
  shared := inv
  reads := reads ▸ sound.reads
  callers := callers
  fetched := fun i read t outcome hread => sound.fetched i read t outcome (reads ▸ hread)

theorem sound_ask (sound : Sound second lib order s) (key : Key) (request : Request)
    (hkey : KeyOf key request) :
    Sound second lib order { s with shared := s.shared.ask (policy second) key request } := by
  have inv := sound.shared.ask key request
  have hcallers : ∀ {caller : Caller Key Request Reading}, caller.key = key →
      caller.origin = request →
      ∀ other ∈ s.shared.callers ++ [caller], KeyOf other.key other.origin := by
    rintro caller rfl rfl other hother
    rcases List.mem_append.1 hother with hold | hnew
    · exact sound.callers other hold
    · obtain rfl := List.mem_singleton.1 hnew
      exact hkey
  simp only [SharedRead.State.ask] at inv ⊢
  cases hcached : s.shared.cached (policy second) key request with
  | some value =>
      rw [hcached] at inv
      exact sound.withCallers inv rfl (hcallers rfl rfl)
  | none =>
      rw [hcached] at inv
      cases hjoined : s.shared.joined (policy second) key with
      | some i =>
          rw [hjoined] at inv
          exact sound.withCallers inv rfl (hcallers rfl rfl)
      | none =>
          rw [hjoined] at inv
          refine ⟨inv, ?_, hcallers rfl rfl, ?_⟩
          · intro read hread
            rcases List.mem_append.1 hread with hold | hnew
            · exact sound.reads read hold
            · obtain rfl := List.mem_singleton.1 hnew
              exact hkey
          · intro i read t outcome hread hended
            rcases getElem?_append_one.1 hread with hold | ⟨-, rfl⟩
            · exact sound.fetched i read t outcome hold hended
            · cases hended

section Changed

variable {i : Nat} {read : SharedRead.Read Key Request Reading}

theorem keyOf_set (sound : Sound second lib order s) (hread : s.shared.reads[i]? = some read)
    {new : SharedRead.Read Key Request Reading} (hkey : new.key = read.key) (horigin : new.origin = read.origin) :
    ∀ other ∈ s.shared.reads.set i new, KeyOf other.key other.origin := by
  intro other hother
  rcases List.mem_or_eq_of_mem_set hother with hold | rfl
  · exact sound.reads other hold
  · rw [hkey, horigin]
    exact sound.reads read (List.mem_of_getElem? hread)

theorem sound_fetched (sound : Sound second lib order s) (hread : s.shared.reads[i]? = some read)
    (hopen : read.ended = none) (answers : Answers) :
    Sound second lib order (s.fetched second lib order i read answers) where
  shared := sound.shared.finish hread hopen _
  reads := keyOf_set sound hread rfl rfl
  callers := sound.callers
  fetched := by
    intro j other t outcome hother hended
    rcases (getElem?_set_eq_some hread).1 hother with ⟨rfl, rfl⟩ | ⟨-, hold⟩
    · obtain ⟨-, houtcome⟩ := Prod.mk.inj (Option.some.inj hended)
      exact ⟨_, List.mem_append_right _ (List.mem_singleton.2 rfl), rfl, houtcome⟩
    · obtain ⟨before, hbefore, hwindow, houtcome⟩ := sound.fetched j other t outcome hold hended
      exact ⟨before, List.mem_append_left _ hbefore, hwindow, houtcome⟩

theorem sound_forget (sound : Sound second lib order s) (hread : s.shared.reads[i]? = some read)
    (hended : read.ended ≠ none) :
    Sound second lib order { s with shared := s.shared.forget i read } where
  shared := sound.shared.forget hread hended
  reads := keyOf_set sound hread rfl rfl
  callers := sound.callers
  fetched := by
    intro j other t outcome hother hend
    rcases (getElem?_set_eq_some hread).1 hother with ⟨rfl, rfl⟩ | ⟨-, hold⟩
    · exact sound.fetched j read t outcome hread hend
    · exact sound.fetched j other t outcome hold hend

end Changed

theorem sound_step {e : Event} (sound : Sound second lib order s)
    (taken : step second lib order s e = some s') : Sound second lib order s' := by
  cases e with
  | ask url request =>
      obtain rfl := Option.some.inj taken
      exact sound_ask sound _ request ⟨rfl, rfl⟩
  | answer i answers =>
      obtain ⟨read, hread, hrest⟩ := Option.bind_eq_some_iff.1 taken
      simp only [Option.ite_none_left_eq_some, Option.some.injEq] at hrest
      obtain ⟨hopen, rfl⟩ := hrest
      exact sound_fetched sound hread (by simpa using hopen) answers
  | forget i =>
      obtain ⟨read, hread, hrest⟩ := Option.bind_eq_some_iff.1 taken
      simp only [Option.ite_none_left_eq_some, Option.some.injEq] at hrest
      obtain ⟨hended, rfl⟩ := hrest
      refine sound_forget sound hread ?_
      intro hnone
      simp [hnone] at hended
  | resume c =>
      obtain ⟨shared, hresumed, rfl⟩ := Option.map_eq_some_iff.1 taken
      refine sound.withCallers (sound.shared.resumeAt hresumed) (reads_of_resumeAt hresumed) ?_
      exact forall_callers_of_resumeAt hresumed sound.callers fun _ _ h => h
  | tick d =>
      obtain rfl := Option.some.inj taken
      exact sound.withCallers (sound.shared.tick d) rfl sound.callers

theorem sound_of_reaches {clock : Int}
    (h : Reaches (step second lib order) (fun _ _ => True) { shared := { clock := clock } } s) :
    Sound second lib order s :=
  h.invariant (sound_start clock) fun _ _ _ sound _ taken => sound_step sound taken

/-! ### Whoever looks -/

/-- Two fetches of the same days are never under way at once, and the next one begins when the reading
of the last is no longer served to who asks, unless sixteen readings of other days that are not older
have taken its place.  No more than sixteen readings are kept. -/
theorem model_windows_are_fetched_in_turn {clock : Int}
    (h : Reaches (step second lib order) (fun _ _ => True) { shared := { clock := clock } } s) :
    s.shared.entries.length ≤ 16 ∧
      ∀ (i j : Nat) (first next : SharedRead.Read Key Request Reading), i < j →
        s.shared.reads[i]? = some first → s.shared.reads[j]? = some next → next.key = first.key →
        ∃ t outcome, first.ended = some (t, outcome) ∧ t ≤ next.began ∧
          ∀ reading, outcome = some reading → NoneKept s.shared first.key i j →
            (if reading.report.isSome then 60 else 15) * (second : Int) ≤ next.began - t ∨
              (next.origin.fresh = true ∧ 5 * (second : Int) ≤ next.began - t) ∨
              Crowded (policy second) s.shared first.key t := by
  have sound := sound_of_reaches h
  refine ⟨sound.shared.bounded maxCached rfl, ?_⟩
  intro i j first next hlt hfirst hnext hkey
  obtain ⟨t, outcome, hended, hle⟩ := sound.shared.inTurn i j first next hlt hfirst hnext hkey
  refine ⟨t, outcome, hended, hle, ?_⟩
  rintro reading rfl hnone
  rcases sound.shared.spaced i j first next t reading hlt hfirst hnext hkey
    (Read.kept_eq_some.2 hended) hnone with hold | hcrowded
  · rw [Bool.eq_false_iff, ne_eq, serves_iff, not_and_or, Int.not_lt, Classical.not_imp,
      Int.not_lt] at hold
    exact hold.imp_right .inl
  · exact .inr (.inr hcrowded)

/-- A library that reads nothing. -/
def noLibrary : Library where
  casefold text := text
  parseInt _ := none
  parseFloat _ := none
  hostname _ := none
  day _ := none
  str _ := []

/-- The order of the first places. -/
def firstPlaces : SetOrder where
  setOf texts := texts.dedup
  union one other := (one ++ other).dedup
  nodup_setOf texts := texts.nodup_dedup
  mem_setOf _ _ := List.mem_dedup
  nodup_union one other := (one ++ other).nodup_dedup
  mem_union one other text := by rw [List.mem_dedup, List.mem_append]

def lastWeek : Window :=
  { key := "7d", start := 739907, last := 739913 }

/-- The master key is not set. -/
def keyless : Answers where
  masterKey := []
  window := lastWeek
  now := 0
  health := .answered []
  info := .answered []
  daily := .answered ([], true)

/-- The page is opened, reloaded in time and opened once more. -/
def openedAgain : List Event :=
  [.ask "http://litellm:4000" ⟨lastWeek, false⟩, .answer 0 keyless, .forget 0, .resume 0,
    .tick 4999, .ask "http://litellm:4000" ⟨lastWeek, true⟩, .tick 10001,
    .ask "http://litellm:4000" ⟨lastWeek, false⟩]

def modelsPage (events : List Event) : State :=
  (replay (step 1000 noLibrary firstPlaces) { shared := { clock := 0 } } events).getD
    { shared := { clock := 0 } }

theorem modelsPage_reached :
    Reaches (step 1000 noLibrary firstPlaces) (fun _ _ => True) { shared := { clock := 0 } }
      (modelsPage openedAgain) :=
  reaches_of_isSome _ (permits_all _ _) (by decide +kernel)

theorem model_windows_are_fetched_in_turn_openedAgain :
    (modelsPage openedAgain).shared.reads.length = 2 ∧
      (modelsPage openedAgain).shared.entries.length ≤ 16 :=
  ⟨by decide +kernel, (model_windows_are_fetched_in_turn modelsPage_reached).1⟩

/-- What is shown was fetched for the days that were asked for.  It is a reading younger than it may be,
or younger than five seconds for who reloads; or the end of a fetch that had not ended when it was
asked for, or was just being forgotten. -/
theorem model_readings_are_young {clock : Int}
    (h : Reaches (step second lib order) (fun _ _ => True) { shared := { clock := clock } } s)
    {caller : Caller Key Request Reading} (hcaller : caller ∈ s.shared.callers)
    {given : Option Reading} (hgiven : caller.given = some given) :
    ∃ i read t answers, s.shared.reads[i]? = some read ∧ read.key = caller.key ∧
      read.ended = some (t, given) ∧ (i, answers) ∈ s.answers ∧
      (fetch lib order answers).toOption = given ∧
      (∀ reading ∈ given, reading.window.start = caller.origin.window.start ∧
        reading.window.last = caller.origin.window.last) ∧
      ((∃ reading ∈ given, caller.asked - t < (if reading.report.isSome then 60 else 15) * second ∧
          (caller.origin.fresh = true → caller.asked - t < 5 * second)) ∨
        caller.asked ≤ t ∨ ∀ u, read.forgotten = some u → caller.asked ≤ u) := by
  have sound := sound_of_reaches h
  obtain ⟨read, hread, hkey, t, hended, hserved⟩ :=
    (sound.shared.callers caller hcaller).given given hgiven
  obtain ⟨i, hi⟩ := List.mem_iff_getElem?.1 hread
  obtain ⟨answers, hanswers, hwindow, hfetch⟩ := sound.fetched i read t given hi hended
  refine ⟨i, read, t, answers, hi, hkey, hended, hanswers, hfetch, ?_, ?_⟩
  · rintro reading hreading
    obtain rfl : given = some reading := hreading
    obtain ⟨hstart, hlast⟩ := sound.reads read hread
    obtain ⟨hstart', hlast'⟩ := sound.callers caller hcaller
    have hok : fetch lib order answers = .ok reading := by
      cases hcases : fetch lib order answers with
      | ok other =>
          rw [hcases] at hfetch
          exact congrArg Except.ok (Option.some.inj hfetch)
      | error exception =>
          rw [hcases] at hfetch
          cases hfetch
    rw [fetch_window hok, hwindow, ← hstart, ← hlast, hkey]
    exact ⟨hstart', hlast'⟩
  · rcases hserved with ⟨reading, hreading, hyoung⟩ | hjoined | ⟨-, hforgotten⟩
    · exact .inl ⟨reading, hreading, serves_iff.1 hyoung⟩
    · exact .inr (.inl (hjoined t given hended))
    · exact .inr (.inr hforgotten)

def keylessReading : Reading :=
  { window := lastWeek, fetchedAt := 0, problem := some noKey, database := [], report := none }

theorem model_readings_are_young_openedAgain :
    ∃ i read t answers, (modelsPage openedAgain).shared.reads[i]? = some read ∧
      read.ended = some (t, some keylessReading) ∧
      (i, answers) ∈ (modelsPage openedAgain).answers := by
  have hcaller : (modelsPage openedAgain).shared.callers[1]? =
      some ⟨⟨"http://litellm:4000", 739907, 739913⟩, ⟨lastWeek, true⟩, 4999, none,
        some (some keylessReading)⟩ := by decide +kernel
  obtain ⟨i, read, t, answers, hread, -, hended, hanswers, -⟩ :=
    model_readings_are_young modelsPage_reached (List.mem_of_getElem? hcaller) rfl
  exact ⟨i, read, t, answers, hread, hended, hanswers⟩

end Papaia.Models.Readings
