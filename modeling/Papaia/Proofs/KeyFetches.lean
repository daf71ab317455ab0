/-
Module: Papaia.Proofs.KeyFetches
Purpose: The checks of tokens, the lock they wait for and the fetches behind it: what each knows of the
  provider's keys, and what every step leaves as it was.
Trusted boundary: none
Main exports: Saw, Unknown, InVain, Believed, Stands, Onward, Ledger, Cached
-/
import Papaia.Lib.SharedRead
import Papaia.Proofs.TokenChecks

namespace Papaia.Auth.Keys

open SharedRead (getElem?_append_one getElem?_set_eq_some)

variable {jose : Jose} {client : Client} {idToken kid : String} {accessToken : Option String} {wall : Int}
  {jwks : Jwks} {key : Jwk}

/-! ### What a step can do -/

variable {s s' : State}

/-- A check that is over. -/
def Phase.over : Phase → Prop
  | .ended _ | .cancelled => True
  | _ => False

/-- A check after one that was, or was not, forced to ask: the same token, asked for anew or over. -/
structure Later (task task' : Task) (forced : Bool) : Prop where
  same : ∃ phase, task' = { task with phase := phase }
  phase : task'.phase = .waiting true ∧ forced = false ∨ task'.phase.over

theorem later_fail (task : Task) (forced : Bool) (failure : Failure) :
    Later task (task.fail failure) forced where
  same := ⟨_, rfl⟩
  phase := .inr trivial

theorem later_cancelled (task : Task) (forced : Bool) :
    Later task { task with phase := .cancelled } forced where
  same := ⟨_, rfl⟩
  phase := .inr trivial

theorem later_look (jose : Jose) (client : Client) (task : Task) (wall : Int) (forced : Bool)
    (jwks : Jwks) : Later task (task.look jose client wall forced jwks) forced := by
  unfold Task.look
  split
  next failure _ => exact later_fail task forced failure
  next => exact ⟨⟨_, rfl⟩, .inr trivial⟩
  next =>
    split
    next => exact later_fail task forced _
    next hforced => exact ⟨⟨_, rfl⟩, .inl ⟨rfl, by simpa using hforced⟩⟩

/-- An answer with keys, which was looked into at most as late after it as keys are kept. -/
def Saw (client : Client) (s : State) (jwks : Jwks) (moment : Int) : Prop :=
  ∃ (n : Nat) (f : Fetch) (e : Int), s.fetches[n]? = some f ∧ f.ended = some (e, some jwks) ∧ e ≤ moment ∧
    (moment - e < client.jwksCacheTtl ∨ e = moment)

/-- Keys were looked into in vain since the token was presented. -/
def Unknown (client : Client) (s : State) (task : Task) (latest : Int) : Prop :=
  ∃ (moment : Int) (jwks : Jwks), task.presented ≤ moment ∧ moment ≤ latest ∧
    Saw client s jwks moment ∧ findJwk jwks task.kid = .ok none

/-- The provider was asked anew for the check, and in vain. -/
def InVain (s : State) (i : Nat) (task : Task) : Prop :=
  ∃ (n : Nat) (f : Fetch) (e : Int) (jwks : Jwks), s.fetches[n]? = some f ∧ f.task = i ∧ f.forced = true ∧
    f.ended = some (e, some jwks) ∧ task.presented ≤ f.began ∧ findJwk jwks task.kid = .ok none

/-- Claims of a token that were believed since it was presented. -/
def Believed (jose : Jose) (client : Client) (s : State) (task : Task) (claims : Claims) : Prop :=
  ∃ (moment wall : Int) (jwks : Jwks) (key : Jwk) (alg : String) (payload : Mapping),
    task.presented ≤ moment ∧ moment ≤ s.clock ∧ Saw client s jwks moment ∧
    Signed jose client task.idToken task.accessToken wall jwks claims key alg payload

/-- What is known of a check. -/
structure Stands (jose : Jose) (client : Client) (s : State) (i : Nat) (task : Task) : Prop where
  presented : task.presented ≤ s.clock
  kid : ¬task.phase.over → kidOf jose task.idToken = .ok task.kid
  unknown : (task.phase = .waiting true ∨ ∃ n, task.phase = .fetching true n) →
    Unknown client s task s.clock
  believed : ∀ claims, task.phase = .ended (.ok claims) → Believed jose client s task claims
  inVain : task.phase = .ended (.error (.oidc .keyNotFound)) → InVain s i task

theorem stands_fail {i : Nat} {task : Task} {failure : Failure} (hpresented : task.presented ≤ s.clock)
    (hne : failure ≠ .oidc .keyNotFound) : Stands jose client s i (task.fail failure) where
  presented := hpresented
  kid h := absurd trivial h
  unknown h := by
    rcases h with h | ⟨n, h⟩ <;> cases h
  believed claims h := by cases h
  inVain h := by
    cases h
    exact absurd rfl hne

/-- A check that has looked into keys. -/
theorem stands_look {i : Nat} {task : Task} {forced : Bool} (hpresented : task.presented ≤ s.clock)
    (hkid : kidOf jose task.idToken = .ok task.kid) (hsaw : Saw client s jwks s.clock)
    (hinVain : forced = true → findJwk jwks task.kid = .ok none → InVain s i task) :
    Stands jose client s i (task.look jose client wall forced jwks) := by
  unfold Task.look
  split
  next failure hfind =>
    apply stands_fail hpresented
    rw [findJwk_error hfind]
    simp
  next key hfind =>
    refine ⟨hpresented, fun h => absurd trivial h, ?_, ?_, ?_⟩
    · intro h
      rcases h with h | ⟨n, h⟩ <;> cases h
    · intro claims h
      obtain ⟨alg, payload, hsigned⟩ := signed_of_validated hkid hfind (Phase.ended.inj h)
      exact ⟨s.clock, wall, jwks, key, alg, payload, hpresented, le_refl _, hsaw, hsigned⟩
    · intro h
      exact absurd (Phase.ended.inj h) validated_ne_keyNotFound
  next hfind =>
    split
    next hforced =>
      refine ⟨hpresented, fun h => absurd trivial h, ?_, ?_, fun _ => hinVain hforced hfind⟩
      · intro h
        rcases h with h | ⟨n, h⟩ <;> cases h
      · intro claims h
        cases h
    next =>
      refine ⟨hpresented, fun _ => hkid, ?_, ?_, ?_⟩
      · intro _
        exact ⟨s.clock, jwks, hpresented, le_refl _, hsaw, hfind⟩
      · intro claims h
        cases h
      · intro h
        cases h

/-! ### What stays -/

/-- A later state: fetches only end, and tokens stay what they were. -/
structure Onward (s s' : State) : Prop where
  clock : s.clock ≤ s'.clock
  fetches : ∀ (n : Nat) (f : Fetch), s.fetches[n]? = some f →
    ∃ ended, s'.fetches[n]? = some { f with ended := ended } ∧ ∀ x, f.ended = some x → ended = some x
  tasks : ∀ (i : Nat) (task : Task), s.tasks[i]? = some task →
    ∃ phase, s'.tasks[i]? = some { task with phase := phase }

theorem Saw.mono {moment : Int} (h : Onward s s') (hsaw : Saw client s jwks moment) :
    Saw client s' jwks moment := by
  obtain ⟨n, f, e, hf, hended, hle, hyoung⟩ := hsaw
  obtain ⟨ended, hf', hkept⟩ := h.fetches n f hf
  exact ⟨n, _, e, hf', hkept _ hended, hle, hyoung⟩

theorem Unknown.mono {task : Task} {latest latest' : Int} (h : Onward s s') (hle : latest ≤ latest')
    (hunknown : Unknown client s task latest) : Unknown client s' task latest' := by
  obtain ⟨moment, jwks, hpresented, hmoment, hsaw, hfind⟩ := hunknown
  exact ⟨moment, jwks, hpresented, hmoment.trans hle, hsaw.mono h, hfind⟩

/-- What was known of a check stays so while the check stays where it is. -/
theorem Stands.mono {i : Nat} {task : Task} (h : Onward s s') (hstands : Stands jose client s i task) :
    Stands jose client s' i task where
  presented := hstands.presented.trans h.clock
  kid := hstands.kid
  unknown hphase := (hstands.unknown hphase).mono h h.clock
  believed claims hphase := by
    obtain ⟨moment, wall, jwks, key, alg, payload, hpresented, hle, hsaw, hsigned⟩ :=
      hstands.believed claims hphase
    exact ⟨moment, wall, jwks, key, alg, payload, hpresented, hle.trans h.clock, hsaw.mono h, hsigned⟩
  inVain hphase := by
    obtain ⟨n, f, e, jwks, hf, htask, hforced, hended, hpresented, hfind⟩ := hstands.inVain hphase
    obtain ⟨ended, hf', hkept⟩ := h.fetches n f hf
    exact ⟨n, _, e, jwks, hf', htask, hforced, hkept _ hended, hpresented, hfind⟩

theorem Onward.of_tasks {tasks : List Task} (h : ∀ (i : Nat) (task : Task), s.tasks[i]? = some task →
    ∃ phase, tasks[i]? = some { task with phase := phase }) : Onward s { s with tasks := tasks } where
  clock := le_refl _
  fetches _ f hf := ⟨f.ended, hf, fun _ => id⟩
  tasks := h

theorem onward_add (s : State) (task : Task) : Onward s (s.add task) := by
  apply Onward.of_tasks
  intro i old hold
  exact ⟨old.phase, getElem?_append_one.2 (.inl hold)⟩

/-- The tasks after one of them went on. -/
theorem tasks_set {i : Nat} {task task' : Task} {forced : Bool} (htask : s.tasks[i]? = some task)
    (hlater : Later task task' forced) (j : Nat) (old : Task) (hold : s.tasks[j]? = some old) :
    ∃ phase, (s.tasks.set i task')[j]? = some { old with phase := phase } := by
  obtain ⟨phase, hsame⟩ := hlater.same
  by_cases hji : j = i
  · subst hji
    obtain rfl := Option.some.inj (htask.symm.trans hold)
    exact ⟨phase, (getElem?_set_eq_some htask).2 (.inl ⟨rfl, hsame.symm⟩)⟩
  · exact ⟨old.phase, (getElem?_set_eq_some htask).2 (.inr ⟨hji, hold⟩)⟩

variable {i : Nat} {task task' : Task} {forced : Bool}

theorem onward_setTask (htask : s.tasks[i]? = some task) (hlater : Later task task' forced) :
    Onward s (s.setTask i task') :=
  Onward.of_tasks (tasks_set htask hlater)

theorem onward_fetch (htask : s.tasks[i]? = some task) : Onward s (s.fetch i task forced) where
  clock := le_refl _
  fetches _ f hf := ⟨f.ended, getElem?_append_one.2 (.inl hf), fun _ => id⟩
  tasks j old hold := by
    by_cases hji : j = i
    · subst hji
      obtain rfl := Option.some.inj (htask.symm.trans hold)
      exact ⟨_, (getElem?_set_eq_some htask).2 (.inl ⟨rfl, rfl⟩)⟩
    · exact ⟨old.phase, (getElem?_set_eq_some htask).2 (.inr ⟨hji, hold⟩)⟩

/-- The state in which a fetch has ended and its check has gone on. -/
structure Settled (s s' : State) (i n : Nat) (outcome : Option Jwks) (task' : Task) : Prop where
  clock : s'.clock = s.clock
  lock : s'.lock = none
  tasks : s'.tasks = s.tasks.set i task'
  fetches : s'.fetches = s.fetches.modify n fun f => { f with ended := some (s.clock, outcome) }

variable {n : Nat} {outcome : Option Jwks}

theorem Settled.getElem? (h : Settled s s' i n outcome task') {m : Nat} {g : Fetch} :
    s'.fetches[m]? = some g ↔ ∃ f, s.fetches[m]? = some f ∧
      g = if n = m then { f with ended := some (s.clock, outcome) } else f := by
  rw [h.fetches, List.getElem?_modify, Option.map_eq_map, Option.map_eq_some_iff]
  simp only [eq_comm]

theorem onward_settled (h : Settled s s' i n outcome task') (htask : s.tasks[i]? = some task)
    (hlater : Later task task' forced) {f : Fetch} (hf : s.fetches[n]? = some f) (hopen : f.ended = none) :
    Onward s s' where
  clock := Int.le_of_eq h.clock.symm
  fetches m g hg := by
    by_cases hnm : n = m
    · subst hnm
      obtain rfl := Option.some.inj (hf.symm.trans hg)
      refine ⟨some (s.clock, outcome), h.getElem?.2 ⟨f, hf, (if_pos rfl).symm⟩, ?_⟩
      intro x hx
      rw [hopen] at hx
      cases hx
    · exact ⟨g.ended, h.getElem?.2 ⟨g, hg, (if_neg hnm).symm⟩, fun _ => id⟩
  tasks := by
    rw [h.tasks]
    exact tasks_set htask hlater

/-! ### The lock and the fetches behind it -/

/-- The fetches that a check may have made when it is where it is: one that was not forced before one
that was. -/
def Asked : Phase → Nat → Bool → Prop
  | .waiting forced, _, flag => forced = true ∧ flag = false
  | .fetching forced n, m, flag => flag = forced ∧ m = n ∨ forced = true ∧ flag = false
  | _, _, _ => True

theorem asked_later {m : Nat} {flag : Bool} (hlater : Later task task' forced)
    (hphase : task.phase = .waiting forced ∨ ∃ n, task.phase = .fetching forced n)
    (h : Asked task.phase m flag) : Asked task'.phase m flag := by
  rcases hlater.phase with ⟨hwaits, hforced⟩ | hover
  · rw [hwaits]
    refine ⟨rfl, ?_⟩
    rcases hphase with hphase | ⟨n, hphase⟩
    · rw [hphase] at h
      exact h.2
    · rw [hphase] at h
      rcases h with h | h
      · exact h.1.trans hforced
      · exact h.2
  · cases hover' : task'.phase with
    | waiting | fetching => rw [hover'] at hover; exact hover.elim
    | ended | cancelled => trivial

/-- The fetches follow one another, under a lock that the check which fetches holds. -/
structure Ledger (s : State) : Prop where
  times : ∀ (n : Nat) (f : Fetch), s.fetches[n]? = some f → f.began ≤ s.clock ∧
    ∀ (e : Int) (answered : Option Jwks), f.ended = some (e, answered) → f.began ≤ e ∧ e ≤ s.clock
  apart : ∀ (m n : Nat) (f g : Fetch), m < n → s.fetches[m]? = some f → s.fetches[n]? = some g →
    ∃ (e : Int) (answered : Option Jwks), f.ended = some (e, answered) ∧ e ≤ g.began
  once : ∀ (m n : Nat) (f g : Fetch), s.fetches[m]? = some f → s.fetches[n]? = some g →
    f.task = g.task → f.forced = g.forced → m = n
  locked : ∀ (n : Nat) (f : Fetch), s.fetches[n]? = some f → f.ended = none → s.lock = some f.task
  fetching : ∀ (i : Nat) (task : Task) (forced : Bool) (n : Nat), s.tasks[i]? = some task →
    task.phase = .fetching forced n → s.lock = some i ∧
    ∃ f, s.fetches[n]? = some f ∧ f.task = i ∧ f.forced = forced ∧ f.ended = none ∧
      task.presented ≤ f.began
  held : ∀ i, s.lock = some i →
    ∃ (task : Task) (forced : Bool) (n : Nat), s.tasks[i]? = some task ∧ task.phase = .fetching forced n
  asked : ∀ (n : Nat) (f : Fetch), s.fetches[n]? = some f →
    ∃ task, s.tasks[f.task]? = some task ∧ Asked task.phase n f.forced

/-- A later time, and other tasks that fetch what they did. -/
theorem Ledger.of_tasks (h : Ledger s) {tasks : List Task}
    (hfetching : ∀ (i : Nat) (task : Task) (forced : Bool) (n : Nat),
      task.phase = .fetching forced n → (tasks[i]? = some task ↔ s.tasks[i]? = some task))
    (hasked : ∀ (i : Nat) (task : Task), s.tasks[i]? = some task → ∃ task', tasks[i]? = some task' ∧
      ∀ m flag, Asked task.phase m flag → Asked task'.phase m flag) :
    Ledger { s with tasks := tasks } where
  times := h.times
  apart := h.apart
  once := h.once
  locked := h.locked
  fetching i task forced n htask hphase :=
    h.fetching i task forced n ((hfetching i task forced n hphase).1 htask) hphase
  held i hlock := by
    obtain ⟨task, forced, n, htask, hphase⟩ := h.held i hlock
    exact ⟨task, forced, n, (hfetching i task forced n hphase).2 htask, hphase⟩
  asked n f hf := by
    obtain ⟨task, htask, hold⟩ := h.asked n f hf
    obtain ⟨task', htask', hnew⟩ := hasked f.task task htask
    exact ⟨task', htask', hnew n f.forced hold⟩

theorem Ledger.tick (h : Ledger s) (d : Nat) (wall : Int) :
    Ledger { s with clock := s.clock + d, wall := wall } where
  times n f hf := by
    obtain ⟨hbegan, hended⟩ := h.times n f hf
    refine ⟨by dsimp only; omega, fun e answered hx => ?_⟩
    obtain ⟨hle, hle'⟩ := hended e answered hx
    exact ⟨hle, by dsimp only; omega⟩
  apart := h.apart
  once := h.once
  locked := h.locked
  fetching := h.fetching
  held := h.held
  asked := h.asked

theorem Ledger.add (h : Ledger s) (hphase : ∀ forced n, task.phase ≠ .fetching forced n) :
    Ledger (s.add task) := by
  apply h.of_tasks
  · intro i old forced n hfetching
    refine ⟨fun hold => ?_, fun hold => getElem?_append_one.2 (.inl hold)⟩
    rcases getElem?_append_one.1 hold with hold | ⟨-, rfl⟩
    · exact hold
    · exact absurd hfetching (hphase forced n)
  · intro i old hold
    exact ⟨old, getElem?_append_one.2 (.inl hold), fun _ _ => id⟩

theorem not_fetching_of_later (hlater : Later task task' forced) {flag : Bool} {m : Nat} :
    task'.phase ≠ .fetching flag m := by
  intro h
  rcases hlater.phase with ⟨hwaits, -⟩ | hover
  · rw [h] at hwaits
    cases hwaits
  · rw [h] at hover
    exact hover

theorem Ledger.setTask (h : Ledger s) (htask : s.tasks[i]? = some task)
    (hphase : task.phase = .waiting forced) (hlater : Later task task' forced) :
    Ledger (s.setTask i task') := by
  apply h.of_tasks
  · intro j old flag m hfetching
    rw [getElem?_set_eq_some htask]
    constructor
    · intro hold
      rcases hold with ⟨rfl, rfl⟩ | ⟨-, hold⟩
      · exact absurd hfetching (not_fetching_of_later hlater)
      · exact hold
    · intro hold
      refine .inr ⟨?_, hold⟩
      intro hji
      subst hji
      obtain rfl := Option.some.inj (htask.symm.trans hold)
      rw [hphase] at hfetching
      cases hfetching
  · intro j old hold
    by_cases hji : j = i
    · subst hji
      obtain rfl := Option.some.inj (htask.symm.trans hold)
      exact ⟨task', (getElem?_set_eq_some htask).2 (.inl ⟨rfl, rfl⟩),
        fun _ _ => asked_later hlater (.inl hphase)⟩
    · exact ⟨old, (getElem?_set_eq_some htask).2 (.inr ⟨hji, hold⟩), fun _ _ => id⟩

/-- While the lock is free every fetch has ended. -/
theorem Ledger.ended_of_free (h : Ledger s) (hfree : s.lock = none) {f : Fetch}
    (hf : s.fetches[n]? = some f) :
    ∃ (e : Int) (answered : Option Jwks), f.ended = some (e, answered) ∧ e ≤ s.clock := by
  cases hended : f.ended with
  | none =>
      have hlocked := h.locked n f hf hended
      rw [hfree] at hlocked
      cases hlocked
  | some x => exact ⟨x.1, x.2, rfl, ((h.times n f hf).2 x.1 x.2 hended).2⟩

theorem Ledger.fetch (h : Ledger s) (htask : s.tasks[i]? = some task)
    (hphase : task.phase = .waiting forced) (hfree : s.lock = none) (hpresented : task.presented ≤ s.clock) :
    Ledger (s.fetch i task forced) where
  times m f hf := by
    rcases getElem?_append_one.1 hf with hf | ⟨-, rfl⟩
    · exact h.times m f hf
    · exact ⟨le_refl _, fun e answered hx => nomatch hx⟩
  apart m m' f g hlt hf hg := by
    rcases getElem?_append_one.1 hg with hg | ⟨rfl, rfl⟩
    · have hm' := (List.getElem?_eq_some_iff.1 hg).1
      rcases getElem?_append_one.1 hf with hf | ⟨rfl, -⟩
      · exact h.apart m m' f g hlt hf hg
      · omega
    · rcases getElem?_append_one.1 hf with hf | ⟨rfl, -⟩
      · exact h.ended_of_free hfree hf
      · exact absurd hlt (Nat.lt_irrefl _)
  once m m' f g hf hg hsame hflag := by
    -- what a check that waits has asked for was asked for with the other flag
    have hother : ∀ {k : Nat} {f : Fetch}, s.fetches[k]? = some f → f.task = i → f.forced ≠ forced := by
      intro k f hf hi hforced
      obtain ⟨old, hold, hasked⟩ := h.asked k f hf
      rw [hi] at hold
      obtain rfl := Option.some.inj (htask.symm.trans hold)
      rw [hphase] at hasked
      exact Bool.noConfusion (hasked.2.symm.trans (hforced.trans hasked.1))
    rcases getElem?_append_one.1 hf with hf | ⟨rfl, rfl⟩
    · rcases getElem?_append_one.1 hg with hg | ⟨rfl, rfl⟩
      · exact h.once m m' f g hf hg hsame hflag
      · exact absurd hflag (hother hf hsame)
    · rcases getElem?_append_one.1 hg with hg | ⟨rfl, rfl⟩
      · exact absurd hflag.symm (hother hg hsame.symm)
      · rfl
  locked m f hf hopen := by
    rcases getElem?_append_one.1 hf with hf | ⟨-, rfl⟩
    · obtain ⟨e, answered, hended, -⟩ := h.ended_of_free hfree hf
      rw [hopen] at hended
      cases hended
    · rfl
  fetching j old flag m hold hfetching := by
    rcases (getElem?_set_eq_some htask).1 hold with ⟨rfl, rfl⟩ | ⟨-, hold⟩
    · cases hfetching
      exact ⟨rfl, _, getElem?_append_one.2 (.inr ⟨rfl, rfl⟩), rfl, rfl, rfl, hpresented⟩
    · have hlocked := (h.fetching j old flag m hold hfetching).1
      rw [hfree] at hlocked
      cases hlocked
  held j hlock := by
    obtain rfl : i = j := Option.some.inj hlock
    exact ⟨_, forced, s.fetches.length, (getElem?_set_eq_some htask).2 (.inl ⟨rfl, rfl⟩), rfl⟩
  asked m f hf := by
    rcases getElem?_append_one.1 hf with hf | ⟨rfl, rfl⟩
    · obtain ⟨old, hold, hasked⟩ := h.asked m f hf
      by_cases hi : f.task = i
      · rw [hi] at hold ⊢
        obtain rfl := Option.some.inj (htask.symm.trans hold)
        rw [hphase] at hasked
        exact ⟨_, (getElem?_set_eq_some htask).2 (.inl ⟨rfl, rfl⟩), .inr hasked⟩
      · exact ⟨old, (getElem?_set_eq_some htask).2 (.inr ⟨hi, hold⟩), hasked⟩
    · exact ⟨_, (getElem?_set_eq_some htask).2 (.inl ⟨rfl, rfl⟩), .inl ⟨rfl, rfl⟩⟩

/-- The fetch of a check that fetches is the latest. -/
theorem Ledger.latest (h : Ledger s) {f g : Fetch} (hf : s.fetches[n]? = some f) (hopen : f.ended = none)
    {m : Nat} (hg : s.fetches[m]? = some g) : m ≤ n := by
  by_contra hlt
  obtain ⟨e, answered, hended, -⟩ := h.apart n m f g (by omega) hf hg
  rw [hopen] at hended
  cases hended

theorem Ledger.settled (h : Ledger s) (hs : Settled s s' i n outcome task')
    (htask : s.tasks[i]? = some task) (hphase : task.phase = .fetching forced n)
    (hlater : Later task task' forced) : Ledger s' := by
  obtain ⟨-, own, hown, -, -, hopen, -⟩ := h.fetching i task forced n htask hphase
  have hkept : ∀ {m : Nat} {g : Fetch}, s'.fetches[m]? = some g → ∃ f, s.fetches[m]? = some f ∧
      g.task = f.task ∧ g.forced = f.forced ∧ g.began = f.began ∧
      (m = n ∧ g.ended = some (s.clock, outcome) ∨ m ≠ n ∧ g = f) := by
    intro m g hg
    obtain ⟨f, hf, rfl⟩ := hs.getElem?.1 hg
    by_cases hnm : n = m
    · rw [if_pos hnm]
      exact ⟨f, hf, rfl, rfl, rfl, .inl ⟨hnm.symm, rfl⟩⟩
    · rw [if_neg hnm]
      exact ⟨f, hf, rfl, rfl, rfl, .inr ⟨Ne.symm hnm, rfl⟩⟩
  have hended : ∀ {m : Nat} {g : Fetch}, s'.fetches[m]? = some g →
      ∃ (e : Int) (answered : Option Jwks), g.ended = some (e, answered) := by
    intro m g hg
    obtain ⟨f, hf, -, -, -, ⟨-, hx⟩ | ⟨hne, rfl⟩⟩ := hkept hg
    · exact ⟨_, _, hx⟩
    · have hle := h.latest hown hopen hf
      obtain ⟨e, answered, hx, -⟩ := h.apart m n g own (by omega) hf hown
      exact ⟨e, answered, hx⟩
  constructor
  case times =>
    intro m g hg
    rw [hs.clock]
    obtain ⟨f, hf, -, -, hbegan, ⟨-, hx⟩ | ⟨-, rfl⟩⟩ := hkept hg
    · rw [hbegan]
      refine ⟨(h.times m f hf).1, fun e answered hx' => ?_⟩
      rw [hx] at hx'
      cases hx'
      exact ⟨(h.times m f hf).1, le_refl _⟩
    · exact h.times m g hf
  case apart =>
    intro m m' f g hlt hf hg
    obtain ⟨f', hf', -, -, -, hcase⟩ := hkept hf
    obtain ⟨g', hg', -, -, hbegan, -⟩ := hkept hg
    have hle := h.latest hown hopen hg'
    rcases hcase with ⟨rfl, -⟩ | ⟨-, rfl⟩
    · omega
    · rw [hbegan]
      exact h.apart m m' f g' hlt hf' hg'
  case once =>
    intro m m' f g hf hg hsame hflag
    obtain ⟨f', hf', htaskf, hforcedf, -⟩ := hkept hf
    obtain ⟨g', hg', htaskg, hforcedg, -⟩ := hkept hg
    exact h.once m m' f' g' hf' hg' (htaskf.symm.trans (hsame.trans htaskg))
      (hforcedf.symm.trans (hflag.trans hforcedg))
  case locked =>
    intro m g hg hnone
    obtain ⟨e, answered, hx⟩ := hended hg
    rw [hnone] at hx
    cases hx
  case fetching =>
    intro j old flag m hold hfetching
    rw [hs.tasks] at hold
    rcases (getElem?_set_eq_some htask).1 hold with ⟨rfl, rfl⟩ | ⟨hne, hold⟩
    · exact absurd hfetching (not_fetching_of_later hlater)
    · -- the lock was held by the check whose fetch has ended
      have hlock := (h.fetching j old flag m hold hfetching).1
      have hlock' := (h.fetching i task forced n htask hphase).1
      exact absurd (Option.some.inj (hlock.symm.trans hlock')) hne
  case held =>
    intro j hlock
    rw [hs.lock] at hlock
    cases hlock
  case asked =>
    intro m g hg
    obtain ⟨f, hf, htaskf, hforcedf, -⟩ := hkept hg
    obtain ⟨old, hold, hasked⟩ := h.asked m f hf
    rw [htaskf, hforcedf, hs.tasks]
    by_cases hi : f.task = i
    · rw [hi] at hold ⊢
      obtain rfl := Option.some.inj (htask.symm.trans hold)
      exact ⟨task', (getElem?_set_eq_some htask).2 (.inl ⟨rfl, rfl⟩),
        asked_later hlater (.inr ⟨n, hphase⟩) hasked⟩
    · exact ⟨old, (getElem?_set_eq_some htask).2 (.inr ⟨hi, hold⟩), hasked⟩

/-! ### The keys that are kept -/

/-- A null was answered between two fetches, and what was kept was dropped. -/
def NullBetween (s : State) (m n : Nat) : Prop :=
  ∃ (k : Nat) (f : Fetch) (e : Int), m < k ∧ k < n ∧ s.fetches[k]? = some f ∧ f.ended = some (e, some .null)

/-- What is kept is the latest answer, and nobody asks without need. -/
structure Cached (client : Client) (s : State) : Prop where
  kept : ∀ jwks, s.jwks = some jwks →
    ∃ (n : Nat) (f : Fetch), s.fetches[n]? = some f ∧ f.ended = some (s.jwksFetchedAt, some jwks)
  newest : ∀ (n : Nat) (f : Fetch) (e : Int) (jwks : Jwks), s.fetches[n]? = some f →
    f.ended = some (e, some jwks) → jwks ≠ .null →
    (∃ kept, s.jwks = some kept) ∧ e ≤ s.jwksFetchedAt ∨ NullBetween s n s.fetches.length
  plain : ∀ (m n : Nat) (f g : Fetch) (e : Int) (jwks : Jwks), m < n → s.fetches[m]? = some f →
    s.fetches[n]? = some g → f.ended = some (e, some jwks) → jwks ≠ .null → g.forced = false →
    e + client.jwksCacheTtl ≤ g.began ∨ NullBetween s m n

theorem NullBetween.mono (h : Onward s s') {m n n' : Nat} (hle : n ≤ n') (hnull : NullBetween s m n) :
    NullBetween s' m n' := by
  obtain ⟨k, f, e, hm, hn, hf, hended⟩ := hnull
  obtain ⟨ended, hf', hkept⟩ := h.fetches k f hf
  exact ⟨k, _, e, hm, hn.trans_le hle, hf', hkept _ hended⟩

theorem fresh_eq_some : s.fresh client = some jwks ↔
    s.jwks = some jwks ∧ s.clock - s.jwksFetchedAt < client.jwksCacheTtl := by
  rw [State.fresh, Option.filter_eq_some_iff, decide_eq_true_eq]

/-- The keys that are young enough were answered, and lately. -/
theorem Cached.saw (h : Cached client s) (ledger : Ledger s) (hfresh : s.fresh client = some jwks) :
    Saw client s jwks s.clock := by
  obtain ⟨hjwks, hyoung⟩ := fresh_eq_some.1 hfresh
  obtain ⟨n, f, hf, hended⟩ := h.kept jwks hjwks
  exact ⟨n, f, s.jwksFetchedAt, hf, hended, ((ledger.times n f hf).2 _ _ hended).2, .inl hyoung⟩

theorem Cached.fetch (h : Cached client s) (htask : s.tasks[i]? = some task)
    (hneeded : forced = true ∨ s.fresh client = none) : Cached client (s.fetch i task forced) := by
  have honward : Onward s (s.fetch i task forced) := onward_fetch htask
  have hold : ∀ {n : Nat} {f : Fetch} {e : Int} {answered : Option Jwks},
      (s.fetch i task forced).fetches[n]? = some f → f.ended = some (e, answered) →
      s.fetches[n]? = some f := by
    intro n f e answered hf hended
    rcases getElem?_append_one.1 hf with hf | ⟨-, rfl⟩
    · exact hf
    · cases hended
  constructor
  case kept =>
    intro jwks hjwks
    obtain ⟨n, f, hf, hended⟩ := h.kept jwks hjwks
    exact ⟨n, f, getElem?_append_one.2 (.inl hf), hended⟩
  case newest =>
    intro n f e jwks hf hended hne
    rcases h.newest n f e jwks (hold hf hended) hended hne with hkept | hnull
    · exact .inl hkept
    · exact .inr (hnull.mono honward (by simp [State.fetch]))
  case plain =>
    intro m n f g e jwks hlt hf hg hended hne hplain
    have hf := hold hf hended
    rcases getElem?_append_one.1 hg with hg | ⟨rfl, rfl⟩
    · exact (h.plain m n f g e jwks hlt hf hg hended hne hplain).imp_right
        (NullBetween.mono honward (le_refl _))
    · rcases h.newest m f e jwks hf hended hne with ⟨⟨kept, hkept⟩, hle⟩ | hnull
      · left
        have hold : ¬s.clock - s.jwksFetchedAt < client.jwksCacheTtl := by
          intro hyoung
          rcases hneeded with hforced | hnone
          · exact Bool.noConfusion (hforced.symm.trans hplain)
          · exact nomatch hnone.symm.trans (fresh_eq_some.2 ⟨hkept, hyoung⟩)
        dsimp only
        omega
      · exact .inr (hnull.mono honward (le_refl _))

theorem Cached.settled (h : Cached client s) (ledger : Ledger s) (hs : Settled s s' i n outcome task')
    (htask : s.tasks[i]? = some task) (hphase : task.phase = .fetching forced n)
    (hlater : Later task task' forced)
    (hkeeps : (outcome = none ∧ s'.jwks = s.jwks ∧ s'.jwksFetchedAt = s.jwksFetchedAt) ∨
      (outcome = some .null ∧ s'.jwks = none) ∨
      ∃ jwks, outcome = some jwks ∧ s'.jwks = some jwks ∧ s'.jwksFetchedAt = s.clock) :
    Cached client s' := by
  obtain ⟨-, own, hown, -, -, hopen, -⟩ := ledger.fetching i task forced n htask hphase
  have honward := onward_settled hs htask hlater hown hopen
  have hlength : s'.fetches.length = s.fetches.length := by
    rw [hs.fetches, List.length_modify]
  have hlt : n < s.fetches.length := (List.getElem?_eq_some_iff.1 hown).1
  have hnew : s'.fetches[n]? = some { own with ended := some (s.clock, outcome) } :=
    hs.getElem?.2 ⟨own, hown, (if_pos rfl).symm⟩
  have hold : ∀ {m : Nat} {f : Fetch}, m ≠ n → s'.fetches[m]? = some f → s.fetches[m]? = some f := by
    intro m f hne hf
    obtain ⟨f', hf', rfl⟩ := hs.getElem?.1 hf
    rw [if_neg (Ne.symm hne)]
    exact hf'
  constructor
  case kept =>
    intro jwks hjwks
    rcases hkeeps with ⟨-, hsame, hat⟩ | ⟨-, hnone⟩ | ⟨jwks', houtcome, hsome, hat⟩
    · obtain ⟨m, f, hf, hended⟩ := h.kept jwks (hsame.symm.trans hjwks)
      obtain ⟨ended, hf', hkept⟩ := honward.fetches m f hf
      rw [hat]
      exact ⟨m, _, hf', hkept _ hended⟩
    · rw [hnone] at hjwks
      cases hjwks
    · obtain rfl := Option.some.inj (hsome.symm.trans hjwks)
      rw [hat]
      exact ⟨n, _, hnew, by rw [houtcome]⟩
  case newest =>
    intro m f e jwks hf hended hne
    rw [hlength]
    by_cases hm : m = n
    · subst hm
      obtain rfl := Option.some.inj (hnew.symm.trans hf)
      obtain ⟨rfl, rfl⟩ := Prod.mk.inj (Option.some.inj hended)
      rcases hkeeps with ⟨hnone, -⟩ | ⟨hnull, -⟩ | ⟨jwks', -, hsome, hat⟩
      · cases hnone
      · exact absurd (Option.some.inj hnull) hne
      · exact .inl ⟨⟨jwks', hsome⟩, Int.le_of_eq hat.symm⟩
    · have hf := hold hm hf
      have hmn : m < n := Nat.lt_of_le_of_ne (ledger.latest hown hopen hf) hm
      rcases hkeeps with ⟨-, hsame, hat⟩ | ⟨houtcome, -⟩ | ⟨jwks', -, hsome, hat⟩
      · rw [hsame, hat]
        exact (h.newest m f e jwks hf hended hne).imp_right (NullBetween.mono honward (le_refl _))
      · exact .inr ⟨n, _, s.clock, hmn, hlt, hnew, by rw [houtcome]⟩
      · refine .inl ⟨⟨jwks', hsome⟩, ?_⟩
        rw [hat]
        exact ((ledger.times m f hf).2 _ _ hended).2
  case plain =>
    intro k m f g e jwks hkm hf hg hended hne hplain
    obtain ⟨g', hg', hgEq⟩ := hs.getElem?.1 hg
    have hle := ledger.latest hown hopen hg'
    have hf := hold (show k ≠ n by omega) hf
    have hbegan : g.began = g'.began ∧ g.forced = g'.forced := by
      rw [hgEq]
      split <;> exact ⟨rfl, rfl⟩
    rw [hbegan.1]
    rw [hbegan.2] at hplain
    exact (h.plain k m f g' e jwks hkm hf hg' hended hne hplain).imp_right
      (NullBetween.mono honward (le_refl _))

end Papaia.Auth.Keys
