/-
Module: Papaia.Proofs.WidgetReadings
Purpose: Whoever looks at the dashboard and however often: a widget is read by one at a time and not
  again before its time, and a card shows what was read of its own widget, with the age it may have.
Trusted boundary: none
Main exports: Shown, Sound, sound_step, widgets_are_read_in_turn, cards_show_what_was_read
-/
import Papaia.Widgets.Runtime

namespace Papaia.Widgets

open Runs SharedRead

variable {δ π : Type} {second : Nat} {parsePayload : δ → Except String π}

theorem minRefresh_le_interval (widgetType : WidgetType) : 15 ≤ widgetType.interval := by
  simp only [WidgetType.interval, minRefreshSeconds, maxRefreshSeconds]
  omega

theorem limit_of_not_ok (key : Key) {result : WidgetResult π} (h : result.status ≠ .ok) :
    limit key result = 15 := by
  have hinterval := minRefresh_le_interval key.widgetType
  simp only [limit, h, if_false, failureTtlSeconds]
  omega

theorem minRefresh_le_limit (key : Key) (result : WidgetResult π) : 15 ≤ limit key result := by
  by_cases h : result.status = .ok
  · simpa [limit, h] using minRefresh_le_interval key.widgetType
  · exact Int.le_of_eq (limit_of_not_ok key h).symm

/-! ### What a read has come to -/

/-- A good reading of a key that ended at a moment. -/
def GoodAt (s : State δ π) (key : Key) (t : Int) (result : WidgetResult π) : Prop :=
  result.status = .ok ∧ ∃ read ∈ s.shared.reads, read.key = key ∧ read.ended = some (t, some result)

/-- What the read of a key that ended at a moment may show: the document it got, the latest good reading
if that is not too old, or nothing. -/
inductive Shown (second : Nat) (parsePayload : δ → Except String π) (s : State δ π) (i : Nat)
    (read : SharedRead.Read Key Int (WidgetResult π)) (t : Int) : WidgetResult π → Prop where
  | ok {doc : δ} {payload : π} (answered : (i, .document doc) ∈ s.answers)
      (parsed : parsePayload doc = .ok payload) :
      Shown second parsePayload s i read t
        { status := .ok, payload := some payload, fetchedAt := some read.origin }
  | stale {answer : Answer δ} {failure : Failure} {last : Int} {good : WidgetResult π}
      (answered : (i, answer) ∈ s.answers) (failed : measured parsePayload answer = .error failure)
      (isGood : GoodAt s read.key last good) (before : last ≤ t)
      (young : t - last ≤ staleMaxSeconds * second)
      (latest : ∀ u other, GoodAt s read.key u other → u ≤ last ∨ t ≤ u) :
      Shown second parsePayload s i read t
        { status := .stale, payload := good.payload, reason := some failure,
          fetchedAt := good.fetchedAt }
  | unavailable {answer : Answer δ} {failure : Failure} (answered : (i, answer) ∈ s.answers)
      (failed : measured parsePayload answer = .error failure)
      (old : ∀ u other, GoodAt s read.key u other → staleMaxSeconds * second < t - u ∨ t ≤ u) :
      Shown second parsePayload s i read t { status := .unavailable, reason := some failure }

/-- `_good` has the latest good reading of each key. -/
structure Remembers (s : State δ π) (key : Key) : Prop where
  good : ∀ t result, s.good key = some (t, result) → GoodAt s key t result
  latest : ∀ t result, GoodAt s key t result → ∃ last good, s.good key = some (last, good) ∧ t ≤ last

structure Sound (second : Nat) (parsePayload : δ → Except String π) (s : State δ π) : Prop where
  shared : Inv (policy second) s.shared
  shown : ∀ (i : Nat) (read : SharedRead.Read Key Int (WidgetResult π)) (t : Int)
    (outcome : Option (WidgetResult π)), s.shared.reads[i]? = some read →
    read.ended = some (t, outcome) →
    ∃ result, outcome = some result ∧ Shown second parsePayload s i read t result
  remembers : ∀ key, Remembers s key

theorem sound_start (clock : Int) :
    Sound second parsePayload ({ shared := { clock := clock } } : State δ π) where
  shared := inv_start clock
  shown := by simp
  remembers := fun key => ⟨by simp, by simp [GoodAt]⟩

/-! ### A step -/

variable {s s' : State δ π}

/-- Nothing ends. -/
structure SameEnds (s s' : State δ π) : Prop where
  good : s'.good = s.good
  answers : s'.answers = s.answers
  reads : ∀ (i : Nat) (read : SharedRead.Read Key Int (WidgetResult π)) (t : Int)
    (outcome : Option (WidgetResult π)), read.ended = some (t, outcome) →
    (s'.shared.reads[i]? = some read ↔ s.shared.reads[i]? = some read)

theorem SameEnds.goodAt (same : SameEnds s s') {key : Key} {t : Int} {result : WidgetResult π} :
    GoodAt s' key t result ↔ GoodAt s key t result := by
  refine and_congr_right fun _ => ⟨?_, ?_⟩
  · rintro ⟨read, hread, hkey, hended⟩
    obtain ⟨i, hi⟩ := List.mem_iff_getElem?.1 hread
    exact ⟨read, List.mem_of_getElem? ((same.reads i read _ _ hended).1 hi), hkey, hended⟩
  · rintro ⟨read, hread, hkey, hended⟩
    obtain ⟨i, hi⟩ := List.mem_iff_getElem?.1 hread
    exact ⟨read, List.mem_of_getElem? ((same.reads i read _ _ hended).2 hi), hkey, hended⟩

theorem Shown.mono {i : Nat} {read : SharedRead.Read Key Int (WidgetResult π)} {t : Int} {result : WidgetResult π}
    (h : Shown second parsePayload s i read t result) (answers : s.answers ⊆ s'.answers)
    (kept : ∀ key u other, GoodAt s key u other → GoodAt s' key u other)
    (later : ∀ key u other, GoodAt s' key u other → GoodAt s key u other ∨ t ≤ u) :
    Shown second parsePayload s' i read t result := by
  cases h with
  | ok answered parsed => exact .ok (answers answered) parsed
  | stale answered failed isGood before young latest =>
      refine .stale (answers answered) failed (kept _ _ _ isGood) before young ?_
      intro u other hother
      rcases later _ u other hother with hbefore | hle
      · exact latest u other hbefore
      · exact .inr hle
  | unavailable answered failed old =>
      refine .unavailable (answers answered) failed ?_
      intro u other hother
      rcases later _ u other hother with hbefore | hle
      · exact old u other hbefore
      · exact .inr hle

theorem Sound.sameEnds (sound : Sound second parsePayload s) (same : SameEnds s s')
    (shared : Inv (policy second) s'.shared) : Sound second parsePayload s' where
  shared := shared
  shown := by
    intro i read t outcome hread hended
    obtain ⟨result, houtcome, hshown⟩ :=
      sound.shown i read t outcome ((same.reads i read t outcome hended).1 hread) hended
    refine ⟨result, houtcome, hshown.mono (same.answers ▸ List.Subset.refl _) ?_ ?_⟩
    · exact fun _ _ _ h => same.goodAt.2 h
    · exact fun _ _ _ h => .inl (same.goodAt.1 h)
  remembers := by
    intro key
    have hremembers := sound.remembers key
    constructor
    · intro t result h
      rw [same.good] at h
      exact same.goodAt.2 (hremembers.good t result h)
    · intro t result h
      rw [same.good]
      exact hremembers.latest t result (same.goodAt.1 h)

theorem sameEnds_of_reads {shared : SharedRead.State Key Int (WidgetResult π)}
    (reads : shared.reads = s.shared.reads) : SameEnds s { s with shared := shared } :=
  ⟨rfl, rfl, fun _ _ _ _ _ => by simp [reads]⟩

theorem sameEnds_ask (key : Key) (now : Int) :
    SameEnds s { s with shared := s.shared.ask (policy second) key now } := by
  simp only [SharedRead.State.ask]
  cases s.shared.cached (policy second) key now with
  | some value => exact sameEnds_of_reads rfl
  | none =>
      cases s.shared.joined (policy second) key with
      | some i => exact sameEnds_of_reads rfl
      | none =>
          refine ⟨rfl, rfl, ?_⟩
          intro i read t outcome hended
          refine ⟨?_, fun h => getElem?_append_one.2 (.inl h)⟩
          intro h
          rcases getElem?_append_one.1 h with hold | ⟨-, rfl⟩
          · exact hold
          · cases hended

section Answered

variable {i : Nat} {read : SharedRead.Read Key Int (WidgetResult π)} {answer : Answer δ}
  {result : WidgetResult π}

/-- The state behind a read that has come to a result, with what `_good` is then. -/
def endedWith (second : Nat) (s : State δ π) (i : Nat) (read : SharedRead.Read Key Int (WidgetResult π))
    (answer : Answer δ) (result : WidgetResult π) (good : Key → Option (Int × WidgetResult π)) :
    State δ π :=
  { shared := s.shared.finish (policy second) i read (some result)
    good := good
    answers := s.answers ++ [(i, answer)] }

theorem goodAt_endedWith {good : Key → Option (Int × WidgetResult π)}
    (hread : s.shared.reads[i]? = some read) (hopen : read.ended = none) {key : Key} {t : Int}
    {other : WidgetResult π} :
    GoodAt (endedWith second s i read answer result good) key t other ↔
      GoodAt s key t other ∨
        (result.status = .ok ∧ key = read.key ∧ t = s.shared.clock ∧ other = result) := by
  constructor
  · rintro ⟨hok, read', hmem, hkey, hended⟩
    obtain ⟨j, hj⟩ := List.mem_iff_getElem?.1 hmem
    rcases (getElem?_set_eq_some hread).1 hj with ⟨rfl, rfl⟩ | ⟨-, hold⟩
    · obtain ⟨rfl, hresult⟩ := Prod.mk.inj (Option.some.inj hended)
      obtain rfl := Option.some.inj hresult
      exact .inr ⟨hok, hkey.symm, rfl, rfl⟩
    · exact .inl ⟨hok, read', List.mem_of_getElem? hold, hkey, hended⟩
  · rintro (⟨hok, read', hmem, hkey, hended⟩ | ⟨hok, rfl, rfl, rfl⟩)
    · obtain ⟨j, hj⟩ := List.mem_iff_getElem?.1 hmem
      have hne : j ≠ i := by
        rintro rfl
        obtain rfl : read = read' := Option.some.inj (hread.symm.trans hj)
        simp [hopen] at hended
      exact ⟨hok, read', List.mem_of_getElem? ((getElem?_set_eq_some hread).2 (.inr ⟨hne, hj⟩)), hkey,
        hended⟩
    · refine ⟨hok, { read with ended := some (s.shared.clock, some other) }, ?_, rfl, rfl⟩
      exact List.mem_of_getElem? ((getElem?_set_eq_some hread).2 (.inl ⟨rfl, rfl⟩))

/-- A read comes to a result that may be shown. -/
theorem Sound.settle (sound : Sound second parsePayload s) (hread : s.shared.reads[i]? = some read)
    (hopen : read.ended = none) {good : Key → Option (Int × WidgetResult π)}
    (shown : Shown second parsePayload (endedWith second s i read answer result good) i read
      s.shared.clock result)
    (remembers : ∀ key, Remembers (endedWith second s i read answer result good) key) :
    Sound second parsePayload (endedWith second s i read answer result good) where
  shared := sound.shared.finish hread hopen (some result)
  shown := by
    intro j read' t outcome hj hended
    rcases (getElem?_set_eq_some hread).1 hj with ⟨rfl, rfl⟩ | ⟨-, hold⟩
    · obtain ⟨rfl, rfl⟩ := Prod.mk.inj (Option.some.inj hended)
      refine ⟨result, rfl, ?_⟩
      cases shown with
      | ok answered parsed => exact .ok answered parsed
      | stale answered failed isGood before young latest =>
          exact .stale answered failed isGood before young latest
      | unavailable answered failed old => exact .unavailable answered failed old
    · obtain ⟨other, houtcome, hshown⟩ := sound.shown j read' t outcome hold hended
      refine ⟨other, houtcome, hshown.mono (List.subset_append_left _ _) ?_ ?_⟩
      · exact fun key u other h => (goodAt_endedWith hread hopen).2 (.inl h)
      · intro key u other h
        rcases (goodAt_endedWith hread hopen).1 h with hbefore | ⟨-, -, rfl, -⟩
        · exact .inl hbefore
        · exact .inr (sound.shared.ended read' (List.mem_of_getElem? hold) t outcome hended).2
  remembers := remembers

theorem GoodAt.le_clock (sound : Sound second parsePayload s) {key : Key} {t : Int}
    (h : GoodAt s key t result) : t ≤ s.shared.clock := by
  obtain ⟨-, read, hread, -, hended⟩ := h
  exact (sound.shared.ended read hread t _ hended).2

/-- What a read that has failed comes to may be shown. -/
theorem shown_failed (sound : Sound second parsePayload s)
    (same : ∀ key t other, GoodAt s' key t other ↔ GoodAt s key t other)
    (answered : (i, answer) ∈ s'.answers) {failure : Failure}
    (failedSo : measured parsePayload answer = .error failure) :
    Shown second parsePayload s' i read s.shared.clock
      (failed second s.shared.clock (s.good read.key) failure) := by
  have hremembers := sound.remembers read.key
  cases hyoung : (s.good read.key).filter fun entry =>
    s.shared.clock - entry.1 ≤ staleMaxSeconds * second with
  | some entry =>
      obtain ⟨hgood, hage⟩ := Option.filter_eq_some_iff.1 hyoung
      have hisGood : GoodAt s read.key entry.1 entry.2 := hremembers.good _ _ hgood
      have hlatest : ∀ u other, GoodAt s' read.key u other → u ≤ entry.1 ∨ s.shared.clock ≤ u := by
        intro u other h
        obtain ⟨last, good, hlast, hle⟩ := hremembers.latest u other ((same _ _ _).1 h)
        obtain rfl := Option.some.inj (hgood.symm.trans hlast)
        exact .inl hle
      have hshown := Shown.stale answered failedSo ((same _ _ _).2 hisGood) (hisGood.le_clock sound)
        (by simpa using hage) hlatest
      rw [failed, hyoung]
      exact hshown
  | none =>
      have hold : ∀ u other, GoodAt s' read.key u other →
          staleMaxSeconds * second < s.shared.clock - u ∨ s.shared.clock ≤ u := by
        intro u other h
        obtain ⟨last, good, hlast, hle⟩ := hremembers.latest u other ((same _ _ _).1 h)
        have hnot := Option.filter_eq_none_iff.1 hyoung _ hlast
        simp only [decide_eq_true_eq] at hnot
        exact .inl (by omega)
      have hshown := Shown.unavailable answered failedSo hold
      rw [failed, hyoung]
      exact hshown

theorem Sound.measure (sound : Sound second parsePayload s) (hread : s.shared.reads[i]? = some read)
    (hopen : read.ended = none) (answer : Answer δ) :
    Sound second parsePayload (s.measure second parsePayload i read answer) := by
  have hanswered : (i, answer) ∈ s.answers ++ [(i, answer)] := by simp
  unfold State.measure
  cases hmeasured : measured parsePayload answer with
  | ok payload =>
      refine sound.settle hread hopen ?_ ?_
      · cases answer with
        | document doc =>
            cases hparsed : parsePayload doc with
            | ok parsed =>
                obtain rfl : parsed = payload := by
                  simpa [measured, hparsed, Except.mapError] using hmeasured
                exact .ok hanswered hparsed
            | error exc => simp [measured, hparsed, Except.mapError] at hmeasured
        | unavailable exc => simp [measured] at hmeasured
        | timeout => simp [measured] at hmeasured
        | raised => simp [measured] at hmeasured
      · intro key
        constructor
        · intro t other h
          simp only [endedWith, Function.update_apply] at h
          rw [goodAt_endedWith hread hopen]
          split at h
          next hkey =>
            obtain ⟨rfl, rfl⟩ := Prod.mk.inj (Option.some.inj h)
            exact .inr ⟨rfl, hkey, rfl, rfl⟩
          next => exact .inl ((sound.remembers key).good t other h)
        · intro t other h
          simp only [endedWith, Function.update_apply]
          split
          next hkey =>
            refine ⟨_, _, rfl, ?_⟩
            rcases (goodAt_endedWith hread hopen).1 h with hbefore | ⟨-, -, rfl, -⟩
            · exact hbefore.le_clock sound
            · exact Int.le_refl _
          next hkey =>
            rcases (goodAt_endedWith hread hopen).1 h with hbefore | ⟨-, hsame, -, -⟩
            · exact (sound.remembers key).latest t other hbefore
            · exact absurd hsame hkey
  | error failure =>
      have hnotOk : (failed second s.shared.clock (s.good read.key) failure : WidgetResult π).status ≠
          .ok := by
        rw [failed]
        cases (s.good read.key).filter fun entry =>
          s.shared.clock - entry.1 ≤ staleMaxSeconds * second <;> simp
      have hsame (key : Key) (t : Int) (other : WidgetResult π) :
          GoodAt (endedWith second s i read answer
            (failed second s.shared.clock (s.good read.key) failure) s.good) key t other ↔
            GoodAt s key t other := by
        rw [goodAt_endedWith hread hopen]
        simp [hnotOk]
      refine sound.settle hread hopen (shown_failed sound hsame hanswered hmeasured) ?_
      intro key
      constructor
      · exact fun t other h => (hsame _ _ _).2 ((sound.remembers key).good t other h)
      · exact fun t other h => (sound.remembers key).latest t other ((hsame _ _ _).1 h)

end Answered

theorem sound_step {e : Event δ} (sound : Sound second parsePayload s)
    (taken : step second parsePayload s e = some s') : Sound second parsePayload s' := by
  cases e with
  | ask key now =>
      obtain rfl := Option.some.inj taken
      exact sound.sameEnds (sameEnds_ask key now) (sound.shared.ask key now)
  | answer i answer =>
      obtain ⟨read, hread, hrest⟩ := Option.bind_eq_some_iff.1 taken
      simp only [Option.ite_none_left_eq_some, Option.some.injEq] at hrest
      obtain ⟨hopen, rfl⟩ := hrest
      exact sound.measure hread (by simpa using hopen) answer
  | resume c =>
      obtain ⟨shared, hresumed, rfl⟩ := Option.map_eq_some_iff.1 taken
      exact sound.sameEnds (sameEnds_of_reads (reads_of_resumeAt hresumed))
        (sound.shared.resumeAt hresumed)
  | tick d =>
      obtain rfl := Option.some.inj taken
      exact sound.sameEnds (sameEnds_of_reads rfl) (sound.shared.tick d)

theorem sound_of_reaches {clock : Int} {s : State δ π}
    (h : Reaches (step second parsePayload) (fun _ _ => True) { shared := { clock := clock } } s) :
    Sound second parsePayload s :=
  h.invariant (sound_start clock) fun _ _ _ sound _ taken => sound_step sound taken

/-! ### Whoever looks -/

/-- However many look at the dashboard, two reads of a widget are never under way at once, and the next
one begins when the interval of the widget is over since the last one, or fifteen seconds after one
that has failed. -/
theorem widgets_are_read_in_turn {clock : Int} {s : State δ π}
    (h : Reaches (step second parsePayload) (fun _ _ => True) { shared := { clock := clock } } s)
    {i j : Nat} {first next : SharedRead.Read Key Int (WidgetResult π)} (hlt : i < j)
    (hfirst : s.shared.reads[i]? = some first) (hnext : s.shared.reads[j]? = some next)
    (hkey : next.key = first.key) :
    ∃ t result, first.ended = some (t, some result) ∧ t ≤ next.began ∧
      (if result.status = .ok then first.key.widgetType.interval else 15) * second ≤
        next.began - t := by
  have sound := sound_of_reaches h
  obtain ⟨t, outcome, hended, hle⟩ := sound.shared.inTurn i j first next hlt hfirst hnext hkey
  obtain ⟨result, rfl, -⟩ := sound.shown i first t outcome hfirst hended
  refine ⟨t, result, hended, hle, ?_⟩
  have steady : ∀ key (origin other : Int) (value : WidgetResult π) age later, age ≤ later →
      (policy second).serves key origin value later = true →
      (policy second).serves key other value age = true := by
    intro key origin other value age later hage hserved
    have hyoung : later < limit key value * second := by simpa [policy] using hserved
    simpa [policy] using Int.lt_of_le_of_lt hage hyoung
  rcases sound.shared.spaced_all steady hlt hfirst hnext hkey (Read.kept_eq_some.2 hended) with
    hold | ⟨most, hmost, -⟩
  · have hlimit : limit first.key result * second ≤ next.began - t := by
      simpa [policy, hkey] using hold
    split
    next hok => simpa [limit, hok] using hlimit
    next hok => rwa [limit_of_not_ok first.key hok] at hlimit
  · cases hmost

def diskSpace : Key :=
  ⟨{ id := "disk-space" }, "en"⟩

/-- Two tabs look at the disk and again a minute later, when it cannot be read. -/
def twoTabs : List (Event Nat) :=
  [.ask diskSpace 0, .ask diskSpace 1, .answer 0 (.document 40), .resume 0, .resume 1, .tick 59999,
    .ask diskSpace 2, .tick 1, .ask diskSpace 3, .answer 1 .timeout, .resume 3]

def dashboard (events : List (Event Nat)) : State Nat Nat :=
  (replay (step 1000 .ok) { shared := { clock := 0 } } events).getD { shared := { clock := 0 } }

theorem dashboard_reached :
    Reaches (step 1000 .ok) (fun _ _ => True) { shared := { clock := 0 } } (dashboard twoTabs) :=
  reaches_of_isSome _ (permits_all _ _) (by decide +kernel)

def goodResult : WidgetResult Nat :=
  { status := .ok, payload := some 40, fetchedAt := some 0 }

def staleResult : WidgetResult Nat :=
  { status := .stale, payload := some 40, reason := some .tookTooLong, fetchedAt := some 0 }

def goodRead : SharedRead.Read Key Int (WidgetResult Nat) :=
  ⟨diskSpace, 0, 0, some (0, some goodResult), none⟩

def lateRead : SharedRead.Read Key Int (WidgetResult Nat) :=
  ⟨diskSpace, 3, 60000, some (60000, some staleResult), none⟩

theorem widgets_are_read_in_turn_twoTabs :
    ∃ t result, goodRead.ended = some (t, some result) ∧ t ≤ lateRead.began ∧
      (if result.status = .ok then goodRead.key.widgetType.interval else 15) * (1000 : Nat) ≤
        lateRead.began - t := by
  have hfirst : (dashboard twoTabs).shared.reads[0]? = some goodRead := by decide +kernel
  have hnext : (dashboard twoTabs).shared.reads[1]? = some lateRead := by decide +kernel
  exact widgets_are_read_in_turn dashboard_reached Nat.zero_lt_one hfirst hnext rfl

/-- Whatever a card is given is what a read of its widget in its language came to.  That read ended
after the card was asked for, or not longer before than such a result is remembered; and it shows what
it may. -/
theorem cards_show_what_was_read {clock : Int} {s : State δ π}
    (h : Reaches (step second parsePayload) (fun _ _ => True) { shared := { clock := clock } } s)
    {caller : Caller Key Int (WidgetResult π)} (hcaller : caller ∈ s.shared.callers)
    {given : Option (WidgetResult π)} (hgiven : caller.given = some given) :
    ∃ i read t result, given = some result ∧ s.shared.reads[i]? = some read ∧
      read.key = caller.key ∧ read.ended = some (t, some result) ∧
      (caller.asked ≤ t ∨ caller.asked - t < limit caller.key result * second) ∧
      Shown second parsePayload s i read t result := by
  have sound := sound_of_reaches h
  obtain ⟨read, hread, hkey, t, hended, hserved⟩ :=
    (sound.shared.callers caller hcaller).given given hgiven
  obtain ⟨i, hi⟩ := List.mem_iff_getElem?.1 hread
  obtain ⟨result, rfl, hshown⟩ := sound.shown i read t given hi hended
  refine ⟨i, read, t, result, rfl, hi, hkey, hended, ?_, hshown⟩
  rcases hserved with ⟨value, hvalue, hyoung⟩ | hjoined | ⟨hjoins, -⟩
  · obtain rfl : result = value := Option.some.inj hvalue
    exact .inr (by simpa [policy] using hyoung)
  · exact .inl (hjoined t (some result) hended)
  · cases hjoins

def staleCard : Caller Key Int (WidgetResult Nat) :=
  ⟨diskSpace, 3, 60000, some 1, some (some staleResult)⟩

theorem cards_show_what_was_read_stale :
    ∃ i read t result, some staleResult = some result ∧
      (dashboard twoTabs).shared.reads[i]? = some read ∧ read.key = diskSpace ∧
      read.ended = some (t, some result) ∧
      (60000 ≤ t ∨ 60000 - t < limit diskSpace result * (1000 : Nat)) ∧
      Shown 1000 .ok (dashboard twoTabs) i read t result := by
  have hcaller : (dashboard twoTabs).shared.callers[3]? = some staleCard := by decide +kernel
  exact cards_show_what_was_read dashboard_reached (List.mem_of_getElem? hcaller) rfl

end Papaia.Widgets
