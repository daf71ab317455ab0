/-
Module: Papaia.Proofs.Renewal
Purpose: When a refresh token is used once: requests with the same cookie present it one time in the
  window in which its result is remembered, and each that succeeds holds the newest one.
Trusted boundary: none
Main exports: Once, Lawful, Foreseen, Good, good_step, renewal_runs
-/
import Papaia.Auth.Renewal
import Papaia.Lib.Runs

namespace Papaia.Auth.Renewal

/-! ### The law -/

/-- No refresh token is presented twice within the window. -/
def Once (s : State) : Prop :=
  s.presented.Pairwise fun later earlier =>
    later.token = earlier.token → refreshResultTtlSeconds * second < later.at - earlier.at

/-- A request that succeeds leaves the newest refresh token of its browser in its session. -/
def Lawful (s s' : State) : Prop :=
  ∀ (i : Nat) (task task' : Task), s.tasks[i]? = some task → ¬task.Succeeded →
    s'.tasks[i]? = some task' → task'.Succeeded →
    ∀ refreshToken ∈ task'.session.oidc,
      refreshToken.session = task'.browser ∧ Unused s' refreshToken

/-- The lock a request waits for or holds. -/
def Task.lock (task : Task) : Option Nat :=
  match task.phase with
  | .waiting lock | .presenting lock _ => some lock
  | .ready | .failed => none

/-- A request whose next call renews the session with a refresh token. -/
def Task.Renews (task : Task) (refreshToken : RefreshToken) : Prop :=
  task.calls.head? = some .refreshSession ∧ task.session.oidc = some refreshToken

/-- The lock of the requests that renew with a refresh token is still the one in the table. -/
def Kept (s : State) (refreshToken : RefreshToken) : Prop :=
  ∀ task ∈ s.tasks, task.Renews refreshToken → ∀ lock ∈ task.lock,
    s.memory.refreshLocks.lookup refreshToken = some lock

instance (task : Task) (refreshToken : RefreshToken) : Decidable (task.Renews refreshToken) :=
  inferInstanceAs (Decidable (_ ∧ _))

instance (s : State) (refreshToken : RefreshToken) : Decidable (Kept s refreshToken) :=
  inferInstanceAs (Decidable (∀ task ∈ s.tasks, task.Renews refreshToken → ∀ lock ∈ task.lock,
    s.memory.refreshLocks.lookup refreshToken = some lock))

/-- The session of a browser was not renewed for an access token. -/
def Unaccessed (s : State) (browser : Nat) : Prop :=
  ∀ presented ∈ s.presented, presented.call = .userAccessToken →
    presented.token.session ≠ browser

/-- An access token is served from memory while the refresh token of the session is unused; it is
renewed with a refresh token that no session was renewed with, when no other request of the browser
is under way. -/
def Apart (s : State) (i : Nat) (task : Task) (refreshToken : RefreshToken) (now : Int) : Prop :=
  if (cachedToken s.memory refreshToken now).isSome then Unused s refreshToken
  else (∀ presented ∈ s.presented, presented.call = .refreshSession →
      presented.token ≠ refreshToken) ∧
    ∀ (j : Nat) (other : Task), s.tasks[j]? = some other → j ≠ i →
      other.browser = task.browser → other.Ended

/-- What a move of a request finds. -/
def Undisturbed (s : State) (i : Nat) (task : Task) (refreshToken : RefreshToken) (now : Int) :
    Call → Move → Prop
  | .refreshSession, .enter => Kept s refreshToken
  | .refreshSession, .acquire => refreshToken ∉ s.refused
  | .refreshSession, .answer none => Unused s refreshToken
  | .refreshSession, .answer (some _) => True
  | .userAccessToken, .enter =>
      (cachedToken s.memory refreshToken now).isSome → Unused s refreshToken
  | .userAccessToken, .acquire => Apart s i task refreshToken now
  | .userAccessToken, .answer _ => True

def Foreseen (s : State) : Event → Prop
  | .arrive browser _ => Unaccessed s browser
  | .move i now move => ∀ task call rest refreshToken, s.tasks[i]? = some task →
      task.calls = call :: rest → task.session.oidc = some refreshToken →
      Undisturbed s i task refreshToken now call move

/-! ### Tables -/

section Tables

variable {α : Type} {table : Table α} {key : RefreshToken}

theorem lookup_popAll (keys : List RefreshToken) :
    (popAll table keys).lookup key = if key ∈ keys then none else table.lookup key := by
  induction keys generalizing table with
  | nil => simp [popAll]
  | cons first rest ih =>
      have hrest : popAll table (first :: rest) = popAll (table.erase first) rest := rfl
      rw [hrest, ih]
      by_cases hfirst : key = first
      · subst hfirst
        simp
      · rw [AList.lookup_erase_ne hfirst]
        simp [hfirst]

theorem mem_keysWhere {test : α → Bool} :
    key ∈ keysWhere table test ↔ ∃ value, table.lookup key = some value ∧ test value = true := by
  unfold keysWhere
  simp only [List.mem_map, List.mem_filter]
  constructor
  · rintro ⟨⟨other, value⟩, ⟨hmem, htest⟩, rfl⟩
    exact ⟨value, AList.mem_lookup_iff.2 hmem, htest⟩
  · rintro ⟨value, hvalue, htest⟩
    exact ⟨⟨key, value⟩, ⟨AList.mem_lookup_iff.1 hvalue, htest⟩, rfl⟩

/-- Dropping what passes a test keeps what does not. -/
theorem lookup_popAll_keysWhere {test : α → Bool} {value : α} :
    (popAll table (keysWhere table test)).lookup key = some value ↔
      table.lookup key = some value ∧ test value = false := by
  rw [lookup_popAll]
  by_cases hmem : key ∈ keysWhere table test
  · obtain ⟨other, hother, htest⟩ := mem_keysWhere.1 hmem
    rw [if_pos hmem]
    constructor
    · intro h
      cases h
    · rintro ⟨hvalue, hfalse⟩
      obtain rfl := Option.some.inj (hother.symm.trans hvalue)
      rw [htest] at hfalse
      cases hfalse
  · rw [if_neg hmem]
    constructor
    · intro hvalue
      refine ⟨hvalue, ?_⟩
      by_contra htest
      exact hmem (mem_keysWhere.2 ⟨value, hvalue, by simpa using htest⟩)
    · exact fun h => h.1

end Tables

/-- A result outlives a prune within its window. -/
theorem lookup_pruneRefreshState {memory : Memory} {now : Int} {key : RefreshToken}
    {result : Int × Payload} :
    (pruneRefreshState now memory).refreshResults.lookup key = some result ↔
      memory.refreshResults.lookup key = some result ∧
        now - result.1 ≤ refreshResultTtlSeconds * second := by
  unfold pruneRefreshState
  rw [lookup_popAll_keysWhere, decide_eq_false_iff_not, Int.not_lt]

/-- A prune drops no access token that would have been served. -/
theorem cachedToken_prune (memory : Memory) (refreshToken : RefreshToken) (now : Int) :
    cachedToken (prune now memory) refreshToken now = cachedToken memory refreshToken now := by
  have hlookup : ∀ cached, (prune now memory).cache.lookup refreshToken = some cached ↔
      memory.cache.lookup refreshToken = some cached ∧ ¬cached.1 ≤ now := by
    intro cached
    unfold prune
    rw [lookup_popAll_keysWhere, decide_eq_false_iff_not]
  unfold cachedToken
  cases hold : memory.cache.lookup refreshToken with
  | none =>
      cases hnew : (prune now memory).cache.lookup refreshToken with
      | none => rfl
      | some cached =>
          rw [hlookup, hold] at hnew
          cases hnew.1
  | some cached =>
      by_cases hdead : cached.1 ≤ now
      · have hnone : (prune now memory).cache.lookup refreshToken = none := by
          rw [Option.eq_none_iff_forall_ne_some]
          intro other hother
          obtain ⟨hsame, hlive⟩ := (hlookup other).1 hother
          obtain rfl := Option.some.inj (hold.symm.trans hsame)
          exact hlive hdead
        rw [hnone]
        have hskew : ¬skewSeconds * second < cached.1 - now := by
          have : 0 < skewSeconds * second := by decide
          omega
        simp only [if_neg hskew]
      · rw [(hlookup cached).2 ⟨hold, hdead⟩]

/-! ### The invariant -/

/-- A refresh token that was presented for a session is at the provider still, or was refused, or its
result is remembered, or it is past its window. -/
def Settled (s : State) (presented : Presented) : Prop :=
  (∃ task ∈ s.tasks, task.Renews presented.token ∧
      ∃ lock since, task.phase = .presenting lock since) ∨
    presented.token ∈ s.refused ∨
    (∃ result, s.memory.refreshResults.lookup presented.token = some result ∧
      presented.at ≤ result.1) ∨
    refreshResultTtlSeconds * second < s.clock - presented.at

/-- What holds of a request by itself. -/
structure Task.Fits (cookie : Nat → Session) (task : Task) : Prop where
  calls : task.calls = [] ∨ task.calls ∈ needs
  /-- The refresh token is of the browser, and the cookie's own while the session is to be renewed. -/
  token : ∀ refreshToken ∈ task.session.oidc, refreshToken.session = task.browser ∧
    (Call.refreshSession ∈ task.calls → (cookie task.browser).oidc = some refreshToken)

/-- A request that is asking the provider for an access token. -/
def Task.Accesses (task : Task) : Prop :=
  task.calls.head? = some .userAccessToken ∧ ∃ lock since, task.phase = .presenting lock since

/-- What holds of a request in a state. -/
structure Stands (cookie : Nat → Session) (s : State) (task : Task) : Prop where
  fits : task.Fits cookie
  /-- Where a session was renewed for an access token, nothing else is under way. -/
  alone : ∀ presented ∈ s.presented, presented.call = .userAccessToken →
    task.browser = presented.token.session → task.Ended ∨ task.Accesses
  accesses : task.Accesses → ∀ refreshToken ∈ task.session.oidc,
    ∃ presented ∈ s.presented, presented.call = .userAccessToken ∧ presented.token = refreshToken
  held : ∀ lock since, task.phase = .presenting lock since → lock ∈ s.held
  /-- A refresh token is presented for a session after every earlier time. -/
  since : ∀ refreshToken, task.Renews refreshToken → ∀ lock since,
    task.phase = .presenting lock since → ∀ presented ∈ s.presented,
      presented.token = refreshToken → presented.at ≤ since

/-- Two requests that renew with one refresh token share its lock, and no lock is held by both. -/
structure Agree (task other : Task) : Prop where
  shared : ∀ refreshToken, task.Renews refreshToken → other.Renews refreshToken →
    ∀ lock ∈ task.lock, ∀ lock' ∈ other.lock, lock = lock'
  single : ∀ lock since since', task.phase = .presenting lock since →
    other.phase ≠ .presenting lock since'

def Agreeing (tasks : List Task) : Prop :=
  ∀ (i j : Nat) (task other : Task), tasks[i]? = some task → tasks[j]? = some other → i ≠ j →
    Agree task other

structure Good (cookie : Nat → Session) (s : State) : Prop where
  stands : ∀ task ∈ s.tasks, Stands cookie s task
  agree : Agreeing s.tasks
  times : ∀ presented ∈ s.presented, presented.at ≤ s.clock
  settled : ∀ presented ∈ s.presented, presented.call = .refreshSession → Settled s presented
  /-- A result that is remembered for a cookie holds the next refresh token. -/
  results : ∀ browser refreshToken result, (cookie browser).oidc = some refreshToken →
    s.memory.refreshResults.lookup refreshToken = some result →
      result.2.oidc = { refreshToken with serial := refreshToken.serial + 1 } ∧
        refreshToken.serial < s.newest browser
  bound : ∀ browser refreshToken, (cookie browser).oidc = some refreshToken →
    Unaccessed s browser → s.newest browser ≤ refreshToken.serial + 1
  once : Once s

variable {cookie : Nat → Session} {s s' : State} {e : Event} {i : Nat} {task task' other : Task}

/-! ### One request and the others -/

/-- A request that is not at the provider. -/
def Task.Idle (task : Task) : Prop :=
  ∀ lock since, task.phase ≠ .presenting lock since

theorem Task.lock_of_presenting {lock : Nat} {since : Int}
    (h : task.phase = .presenting lock since) : task.lock = some lock := by
  rw [Task.lock, h]

theorem Task.idle_of_free (h : task.lock = none) : task.Idle := by
  intro lock since hphase
  rw [Task.lock_of_presenting hphase] at h
  cases h

theorem Task.idle_of_waiting {lock : Nat} (h : task.phase = .waiting lock) : task.Idle := by
  intro lock' since hphase
  rw [h] at hphase
  cases hphase

theorem Task.idle_of_ready (h : task.phase = .ready) : task.Idle := by
  intro lock since hphase
  rw [h] at hphase
  cases hphase

theorem Task.Idle.not_accesses (h : task.Idle) : ¬task.Accesses := by
  rintro ⟨-, lock, since, hphase⟩
  exact h lock since hphase

theorem Task.not_ended_of_lock {lock : Nat} (h : task.lock = some lock) : ¬task.Ended := by
  unfold Task.lock at h
  rintro (⟨-, hready⟩ | hfailed)
  · rw [hready] at h
    cases h
  · rw [hfailed] at h
    cases h

theorem Agree.symm (h : Agree task other) : Agree other task where
  shared := fun refreshToken hrenews hrenews' lock hlock lock' hlock' =>
    (h.shared refreshToken hrenews' hrenews lock' hlock' lock hlock).symm
  single := fun lock since since' hphase hphase' => h.single lock since' since hphase' hphase

/-- A request that is at no lock agrees with every other. -/
theorem agree_of_free (h : task.lock = none) (other : Task) : Agree task other where
  shared := by
    intro refreshToken _ _ lock hlock
    rw [h] at hlock
    cases hlock
  single := fun lock since _ hphase => absurd hphase (Task.idle_of_free h lock since)

/-- A request that is not at the provider stands when it has ended, or when no session of its browser
was renewed for an access token. -/
theorem Stands.idle (hfits : task.Fits cookie) (hidle : task.Idle)
    (halone : task.Ended ∨ Unaccessed s task.browser) : Stands cookie s task where
  fits := hfits
  alone := by
    intro presented hpresented hcall hsame
    rcases halone with hended | hnever
    · exact .inl hended
    · exact absurd hsame.symm (hnever presented hpresented hcall)
  accesses := fun hacc => absurd hacc hidle.not_accesses
  held := fun lock since hphase => absurd hphase (hidle lock since)
  since := fun _ _ lock since hphase => absurd hphase (hidle lock since)

/-- The requests of a state in which one has moved. -/
theorem getElem?_set_cases {j : Nat} (h : (s.tasks.set i task')[j]? = some other) :
    (j = i ∧ other = task') ∨ j ≠ i ∧ s.tasks[j]? = some other := by
  by_cases hij : i = j
  · subst hij
    rw [List.getElem?_set_self'] at h
    obtain ⟨_, -, rfl⟩ := Option.map_eq_some_iff.1 h
    exact .inl ⟨rfl, rfl⟩
  · rw [List.getElem?_set_ne hij] at h
    exact .inr ⟨fun h => hij h.symm, h⟩

/-- What holds of the request that moved and of the others holds of all. -/
theorem forall_mem_set {holds : Task → Prop} (hmoved : holds task')
    (hothers : ∀ (j : Nat) (other : Task), j ≠ i → s.tasks[j]? = some other → holds other) :
    ∀ other ∈ s.tasks.set i task', holds other := by
  intro other hother
  obtain ⟨j, hj⟩ := List.mem_iff_getElem?.1 hother
  rcases getElem?_set_cases hj with ⟨-, rfl⟩ | ⟨hne, hj⟩
  · exact hmoved
  · exact hothers j other hne hj

/-- A request that is not the one that moves stays. -/
theorem mem_set_of_mem (hi : s.tasks[i]? = some task) (h : other ∈ s.tasks) (hne : other ≠ task) :
    other ∈ s.tasks.set i task' := by
  obtain ⟨j, hj⟩ := List.mem_iff_getElem?.1 h
  have hij : i ≠ j := by
    rintro rfl
    exact hne (Option.some.inj (hj.symm.trans hi))
  exact List.mem_of_getElem? ((List.getElem?_set_ne hij).trans hj)

theorem Agreeing.set (h : Agreeing s.tasks) (hmoved : ∀ (j : Nat) (other : Task), j ≠ i →
    s.tasks[j]? = some other → Agree task' other) : Agreeing (s.tasks.set i task') := by
  intro j k one other hj hk hne
  rcases getElem?_set_cases hj with ⟨hji, rfl⟩ | ⟨hji, hone⟩
  · rcases getElem?_set_cases hk with ⟨hki, -⟩ | ⟨hki, hother⟩
    · exact absurd (hji.trans hki.symm) hne
    · exact hmoved k other hki hother
  · rcases getElem?_set_cases hk with ⟨-, rfl⟩ | ⟨-, hother⟩
    · exact (hmoved j one hji hone).symm
    · exact h j k one other hone hother hne

theorem Settled.mono {presented : Presented} (h : Settled s presented)
    (htasks : ∀ task ∈ s.tasks, task.Renews presented.token →
      (∃ lock since, task.phase = .presenting lock since) → Settled s' presented)
    (hrefused : s.refused ⊆ s'.refused)
    (hresults : ∀ result, s.memory.refreshResults.lookup presented.token = some result →
      presented.at ≤ result.1 → Settled s' presented)
    (hclock : s.clock ≤ s'.clock) : Settled s' presented := by
  rcases h with ⟨task, hmem, hrenews, hphase⟩ | hgone | ⟨result, hresult, hat⟩ | hpast
  · exact htasks task hmem hrenews hphase
  · exact .inr (.inl (hrefused hgone))
  · exact hresults result hresult hat
  · exact .inr (.inr (.inr (by omega)))

/-- A request that was not at the provider moves: what was settled stays so. -/
theorem Settled.set {presented : Presented} (h : Settled s presented)
    (hi : s.tasks[i]? = some task) (hidle : task.Idle)
    (htasks : s'.tasks = s.tasks.set i task') (hrefused : s'.refused = s.refused)
    (hresults : s'.memory.refreshResults = s.memory.refreshResults)
    (hclock : s'.clock = s.clock) : Settled s' presented := by
  apply h.mono
  · rintro other hother hrenews ⟨lock, since, hphase⟩
    have hne : other ≠ task := by
      rintro rfl
      exact hidle lock since hphase
    exact .inl ⟨other, htasks ▸ mem_set_of_mem hi hother hne, hrenews, lock, since, hphase⟩
  · rw [hrefused]
    exact List.Subset.refl _
  · exact fun result hresult hat => .inr (.inr (.inl ⟨result, hresults ▸ hresult, hat⟩))
  · exact Int.le_of_eq hclock.symm

/-- A request that has yet to end, and does not ask for an access token, keeps its browser's session
from having been renewed for one. -/
theorem Good.unaccessed (h : Good cookie s) (hmem : task ∈ s.tasks) (hended : ¬task.Ended)
    (haccesses : ¬task.Accesses) : Unaccessed s task.browser := by
  intro presented hpresented hcall hsame
  rcases (h.stands task hmem).alone presented hpresented hcall hsame.symm with hend | hacc
  · exact hended hend
  · exact haccesses hacc

/-- A request moves without going to the provider: what it changes besides is said by what is
settled, by the results and by the bound. -/
theorem Good.leave (h : Good cookie s) {memory : Memory} {held : List Nat} {newLock : Nat}
    {newest : Nat → Nat} {refused : List RefreshToken} (hmoved : Stands cookie s task')
    (hidle : task'.Idle) (hagree : ∀ (j : Nat) (other : Task), j ≠ i →
      s.tasks[j]? = some other → Agree task' other)
    (hheld : ∀ (j : Nat) (other : Task) (lock : Nat) (since : Int), j ≠ i →
      s.tasks[j]? = some other → other.phase = .presenting lock since → lock ∈ held)
    (hsettled : ∀ presented ∈ s.presented, presented.call = .refreshSession →
      Settled { s with memory, tasks := s.tasks.set i task', held, newLock, newest, refused }
        presented)
    (hresults : ∀ browser refreshToken result, (cookie browser).oidc = some refreshToken →
      memory.refreshResults.lookup refreshToken = some result →
        result.2.oidc = { refreshToken with serial := refreshToken.serial + 1 } ∧
          refreshToken.serial < newest browser)
    (hbound : ∀ browser refreshToken, (cookie browser).oidc = some refreshToken →
      Unaccessed s browser → newest browser ≤ refreshToken.serial + 1) :
    Good cookie
      { s with memory, tasks := s.tasks.set i task', held, newLock, newest, refused } where
  stands := by
    apply forall_mem_set
    · exact { hmoved with held := fun lock since hphase => absurd hphase (hidle lock since) }
    · intro j other hne hj
      exact { h.stands other (List.mem_of_getElem? hj) with
        held := fun lock since hphase => hheld j other lock since hne hj hphase }
  agree := h.agree.set hagree
  times := h.times
  settled := hsettled
  results := hresults
  bound := hbound
  once := h.once

/-! ### Moves that leave no lock behind -/

/-- What a call leaves of a request that fits: fewer calls, and a refresh token that is as good. -/
theorem Task.Fits.next (h : task.Fits cookie) : task.next.Fits cookie where
  calls := by
    rcases h.calls with hnil | hneeds
    · exact .inl (by rw [Task.next, hnil]; rfl)
    · simp only [needs, List.mem_cons, List.not_mem_nil, or_false] at hneeds
      rcases hneeds with hcalls | hcalls | hcalls <;> rw [Task.next, hcalls]
      · exact .inl rfl
      · exact .inl rfl
      · apply Or.inr
        change [Call.userAccessToken] ∈ needs
        decide
  token := by
    intro refreshToken htoken
    obtain ⟨hsession, hcookie⟩ := h.token refreshToken htoken
    exact ⟨hsession, fun hmem => hcookie (List.mem_of_mem_tail hmem)⟩

theorem Task.Fits.waiting (h : task.Fits cookie) {lock : Nat} :
    ({ task with phase := .waiting lock } : Task).Fits cookie where
  calls := h.calls
  token := h.token

theorem Task.Fits.failed (h : task.Fits cookie) :
    ({ task with phase := .failed } : Task).Fits cookie where
  calls := h.calls
  token := h.token

/-- A session is renewed once, before anything else. -/
theorem Task.Fits.not_mem_tail (h : task.Fits cookie) : Call.refreshSession ∉ task.calls.tail := by
  rcases h.calls with hnil | hneeds
  · rw [hnil]
    exact List.not_mem_nil
  · simp only [needs, List.mem_cons, List.not_mem_nil, or_false] at hneeds
    rcases hneeds with hcalls | hcalls | hcalls <;> rw [hcalls] <;> decide

theorem Task.Fits.apply (h : task.Fits cookie) {payload : Payload}
    (hsession : payload.oidc.session = task.browser) : (task.apply payload).Fits cookie where
  calls := h.next.calls
  token := by
    intro refreshToken htoken
    obtain rfl : payload.oidc = refreshToken := Option.some.inj htoken
    exact ⟨hsession, fun hmem => absurd hmem h.not_mem_tail⟩

/-- An access token is the last thing a request needs. -/
theorem Task.Fits.next_calls (h : task.Fits cookie)
    (hhead : task.calls.head? = some .userAccessToken) : task.next.calls = [] := by
  rcases h.calls with hnil | hneeds
  · rw [Task.next, hnil]
    rfl
  · simp only [needs, List.mem_cons, List.not_mem_nil, or_false] at hneeds
    rcases hneeds with hcalls | hcalls | hcalls <;> rw [hcalls] at hhead
    · cases hhead
    · rw [Task.next, hcalls]
      rfl
    · cases hhead

/-- A request that was not at the provider moves on, or up to a lock. -/
theorem Good.pass (h : Good cookie s) (hi : s.tasks[i]? = some task) (hidle : task.Idle)
    (hended : ¬task.Ended) {memory : Memory} {newLock : Nat}
    (hmemory : memory.refreshResults = s.memory.refreshResults)
    (hbrowser : task'.browser = task.browser) (hfits : task'.Fits cookie) (hidle' : task'.Idle)
    (hagree : ∀ (j : Nat) (other : Task), j ≠ i → s.tasks[j]? = some other →
      Agree task' other) :
    Good cookie { s with memory, tasks := s.tasks.set i task', newLock } := by
  have hunaccessed := h.unaccessed (List.mem_of_getElem? hi) hended hidle.not_accesses
  apply h.leave (Stands.idle hfits hidle' (.inr (hbrowser ▸ hunaccessed))) hidle' hagree
  · intro j other lock since _ hj hphase
    exact (h.stands other (List.mem_of_getElem? hj)).held lock since hphase
  · intro presented hpresented hcall
    exact (h.settled presented hpresented hcall).set hi hidle rfl rfl hmemory rfl
  · intro browser refreshToken result hcookie hresult
    rw [hmemory] at hresult
    exact h.results browser refreshToken result hcookie hresult
  · exact h.bound

theorem Good.setTask (h : Good cookie s) (hi : s.tasks[i]? = some task) (hidle : task.Idle)
    (hended : ¬task.Ended) (hbrowser : task'.browser = task.browser)
    (hfits : task'.Fits cookie) (hfree : task'.lock = none) :
    Good cookie (setTask s i task') :=
  h.pass hi hidle hended rfl hbrowser hfits (Task.idle_of_free hfree)
    fun _ other _ _ => agree_of_free hfree other

/-- Time goes on, and results that are past their window are forgotten. -/
theorem Good.forget (h : Good cookie s) {now : Int} (hclock : s.clock ≤ now) {memory : Memory}
    (hmemory : ∀ key result, memory.refreshResults.lookup key = some result →
      s.memory.refreshResults.lookup key = some result)
    (hwindow : ∀ key result, s.memory.refreshResults.lookup key = some result →
      now - result.1 ≤ refreshResultTtlSeconds * second →
        memory.refreshResults.lookup key = some result) :
    Good cookie { s with memory, clock := now } where
  stands := fun task hmem => { h.stands task hmem with }
  agree := h.agree
  times := fun presented hpresented => Int.le_trans (h.times presented hpresented) hclock
  settled := by
    intro presented hpresented hcall
    apply (h.settled presented hpresented hcall).mono
    · exact fun other hother hrenews hphase => .inl ⟨other, hother, hrenews, hphase⟩
    · exact List.Subset.refl _
    · intro result hresult hat
      by_cases hkept : now - result.1 ≤ refreshResultTtlSeconds * second
      · exact .inr (.inr (.inl ⟨result, hwindow _ result hresult hkept, hat⟩))
      · apply Or.inr (Or.inr (Or.inr _))
        change refreshResultTtlSeconds * second < now - presented.at
        omega
    · exact hclock
  results := fun browser refreshToken result hcookie hresult =>
    h.results browser refreshToken result hcookie (hmemory _ result hresult)
  bound := h.bound
  once := h.once

/-! ### Moves up to the provider -/

/-- A request that presents its refresh token under a lock that nobody holds. -/
theorem Good.present (h : Good cookie s) (hi : s.tasks[i]? = some task) {lock : Nat}
    (hwaiting : task.phase = .waiting lock) (hlock : lock ∉ s.held) {call : Call}
    {refreshToken : RefreshToken} (hcall : task.calls.head? = some call)
    (htoken : task.session.oidc = some refreshToken)
    (hothers : call = .userAccessToken → ∀ (j : Nat) (other : Task), s.tasks[j]? = some other →
      j ≠ i → other.browser = task.browser → other.Ended)
    (honce : ∀ earlier ∈ s.presented, refreshToken = earlier.token →
      refreshResultTtlSeconds * second < s.clock - earlier.at) :
    Good cookie (present s i task call refreshToken lock s.clock) := by
  have hmem : task ∈ s.tasks := List.mem_of_getElem? hi
  have hat : task.lock = some lock := by rw [Task.lock, hwaiting]
  have hidle := Task.idle_of_waiting hwaiting
  have hunaccessed := h.unaccessed hmem (Task.not_ended_of_lock hat) hidle.not_accesses
  have hfits := (h.stands task hmem).fits
  have hbrowser : refreshToken.session = task.browser := (hfits.token refreshToken htoken).1
  have hnobody : ∀ (j : Nat) (other : Task) (since : Int), s.tasks[j]? = some other →
      other.phase ≠ .presenting lock since := fun j other since hj hphase =>
    hlock ((h.stands other (List.mem_of_getElem? hj)).held lock since hphase)
  refine ⟨forall_mem_set ?_ ?_, h.agree.set ?_, ?_, ?_, h.results, ?_, ?_⟩
  · refine ⟨⟨hfits.calls, hfits.token⟩, ?_, ?_, ?_, ?_⟩
    · intro presented hpresented hcalled hsame
      rcases List.mem_cons.1 hpresented with rfl | hbefore
      · exact .inr ⟨hcall.trans (congrArg some hcalled), lock, s.clock, rfl⟩
      · exact absurd hsame.symm (hunaccessed presented hbefore hcalled)
    · intro hacc other hother
      obtain rfl : refreshToken = other := Option.some.inj (htoken.symm.trans hother)
      exact ⟨_, List.mem_cons_self, Option.some.inj (hcall.symm.trans hacc.1), rfl⟩
    · intro lock' since hphase
      obtain ⟨rfl, -⟩ := Phase.presenting.inj hphase
      exact List.mem_cons_self
    · intro key _ lock' since hphase presented hpresented _
      obtain ⟨-, rfl⟩ := Phase.presenting.inj hphase
      rcases List.mem_cons.1 hpresented with rfl | hbefore
      · exact Int.le_refl _
      · exact h.times presented hbefore
  · intro j other hne hj
    have hstands := h.stands other (List.mem_of_getElem? hj)
    refine ⟨hstands.fits, ?_, ?_, ?_, ?_⟩
    · intro presented hpresented hcalled hsame
      rcases List.mem_cons.1 hpresented with rfl | hbefore
      · exact .inl (hothers hcalled j other hj hne (hsame.trans hbrowser))
      · exact hstands.alone presented hbefore hcalled hsame
    · intro hacc key hkey
      obtain ⟨presented, hpresented, hsame⟩ := hstands.accesses hacc key hkey
      exact ⟨presented, List.mem_cons_of_mem _ hpresented, hsame⟩
    · intro lock' since hphase
      exact List.mem_cons_of_mem _ (hstands.held lock' since hphase)
    · intro key hrenews lock' since hphase presented hpresented hkey
      rcases List.mem_cons.1 hpresented with rfl | hbefore
      · -- Nobody else is presenting this refresh token: it would have the lock, or have ended.
        obtain rfl : refreshToken = key := hkey
        have hlock' := Task.lock_of_presenting hphase
        cases call with
        | refreshSession =>
            obtain rfl : lock = lock' := (h.agree i j task other hi hj (Ne.symm hne)).shared
              refreshToken ⟨hcall, htoken⟩ hrenews lock hat lock' hlock'
            exact absurd hphase (hnobody j other since hj)
        | userAccessToken =>
            have hsame := (hstands.fits.token refreshToken hrenews.2).1
            exact absurd (hothers rfl j other hj hne (hsame.symm.trans hbrowser))
              (Task.not_ended_of_lock hlock')
      · exact hstands.since key hrenews lock' since hphase presented hbefore hkey
  · intro j other hne hj
    refine ⟨?_, ?_⟩
    · intro key hrenews hrenews' lock₁ hlock₁ lock₂ hlock₂
      obtain rfl : lock = lock₁ := Option.some.inj hlock₁
      exact (h.agree i j task other hi hj (Ne.symm hne)).shared key hrenews hrenews' lock hat lock₂
        hlock₂
    · intro lock' since since' hphase
      obtain ⟨rfl, -⟩ := Phase.presenting.inj hphase
      exact hnobody j other since' hj
  · intro presented hpresented
    rcases List.mem_cons.1 hpresented with rfl | hbefore
    · exact Int.le_refl _
    · exact h.times presented hbefore
  · intro presented hpresented hcalled
    rcases List.mem_cons.1 hpresented with rfl | hbefore
    · have hmoved : { task with phase := .presenting lock s.clock } ∈
          s.tasks.set i { task with phase := .presenting lock s.clock } :=
        List.mem_of_getElem? (List.getElem?_set_self (List.getElem?_eq_some_iff.1 hi).1)
      exact .inl ⟨_, hmoved, ⟨hcall.trans (congrArg some hcalled), htoken⟩, lock, s.clock, rfl⟩
    · exact (h.settled presented hbefore hcalled).set hi hidle rfl rfl rfl rfl
  · intro browser key hcookie hfree
    exact h.bound browser key hcookie fun presented hpresented =>
      hfree presented (List.mem_cons_of_mem _ hpresented)
  · exact List.Pairwise.cons honce h.once

/-! ### Every move -/

/-- The request `i` has moved: the invariant holds, and if it has got all it needed, it holds an
unused refresh token. -/
def Moved (cookie : Nat → Session) (s s' : State) (i : Nat) : Prop :=
  Good cookie s' ∧ ∃ task', s'.tasks = s.tasks.set i task' ∧
    (task'.Succeeded → ∀ refreshToken ∈ task'.session.oidc, Unused s' refreshToken)

/-- A request that could not renew its session fails, or goes on with the same one. -/
theorem unrenewed_cases (task : Task) (now : Int) :
    task.unrenewed now = task.next ∨ (task.unrenewed now).phase = .failed ∧
      (task.unrenewed now).calls = task.calls ∧ (task.unrenewed now).browser = task.browser ∧
        ((task.unrenewed now).session = task.session ∨ (task.unrenewed now).session = {}) := by
  unfold Task.unrenewed
  split
  · exact .inr ⟨rfl, rfl, rfl, .inl rfl⟩
  · split
    · exact .inr ⟨rfl, rfl, rfl, .inr rfl⟩
    · exact .inl rfl

theorem Task.Fits.unrenewed (h : task.Fits cookie) (now : Int) :
    (task.unrenewed now).Fits cookie := by
  rcases unrenewed_cases task now with hnext | ⟨-, hcalls, hbrowser, hsession⟩
  · rw [hnext]
    exact h.next
  · refine ⟨hcalls ▸ h.calls, ?_⟩
    rw [hbrowser, hcalls]
    rcases hsession with hsession | hsession <;> rw [hsession]
    · exact h.token
    · intro refreshToken htoken
      cases htoken

theorem unrenewed_lock (task : Task) (now : Int) : (task.unrenewed now).lock = none := by
  rcases unrenewed_cases task now with hnext | ⟨hfailed, -⟩
  · rw [hnext]
    rfl
  · rw [Task.lock, hfailed]

theorem unrenewed_browser (task : Task) (now : Int) :
    (task.unrenewed now).browser = task.browser := by
  rcases unrenewed_cases task now with hnext | ⟨-, -, hbrowser, -⟩
  · rw [hnext]
    rfl
  · exact hbrowser

/-- A request that goes on without a renewal has the session it had. -/
theorem unrenewed_succeeded {now : Int} (h : (task.unrenewed now).Succeeded) :
    (task.unrenewed now).session = task.session := by
  rcases unrenewed_cases task now with hnext | ⟨hfailed, -⟩
  · rw [hnext]
    rfl
  · rw [h.2] at hfailed
    cases hfailed

theorem not_ended_of_ready (hready : task.phase = .ready) {call : Call} {rest : List Call}
    (hcalls : task.calls = call :: rest) : ¬task.Ended := by
  rintro (⟨hnil, -⟩ | hfailed)
  · rw [hcalls] at hnil
    cases hnil
  · rw [hready] at hfailed
    cases hfailed

theorem moved_enter (h : Good cookie s) (hi : s.tasks[i]? = some task)
    (hready : task.phase = .ready) {call : Call} {rest : List Call}
    (hcalls : task.calls = call :: rest) {now : Int}
    (hforeseen : ∀ refreshToken, task.session.oidc = some refreshToken →
      Undisturbed s i task refreshToken now call .enter) :
    Moved cookie s (enter s i task call now) i := by
  have hfits := (h.stands task (List.mem_of_getElem? hi)).fits
  have hidle := Task.idle_of_ready hready
  have hended := not_ended_of_ready hready hcalls
  cases htoken : task.session.oidc with
  | none =>
      cases call with
      | refreshSession =>
          simp only [enter, htoken]
          refine ⟨h.setTask hi hidle hended (unrenewed_browser task now) (hfits.unrenewed now)
            (unrenewed_lock task now), _, rfl, ?_⟩
          intro hsucceeded refreshToken hmem
          rw [unrenewed_succeeded hsucceeded, htoken] at hmem
          cases hmem
      | userAccessToken =>
          simp only [enter, htoken]
          refine ⟨h.setTask hi hidle hended rfl hfits.failed rfl, _, rfl, ?_⟩
          intro hsucceeded
          cases hsucceeded.2
  | some refreshToken =>
      have hfound := hforeseen refreshToken htoken
      cases call with
      | refreshSession =>
          simp only [enter, htoken]
          refine ⟨h.pass hi hidle hended rfl rfl hfits.waiting (Task.idle_of_waiting rfl) ?_, _, rfl,
            fun hsucceeded => ?_⟩
          · intro j other _ hj
            refine ⟨?_, fun lock since _ hphase => absurd hphase (Task.idle_of_waiting rfl lock since)⟩
            intro key hrenews hrenews' lock hlock lock' hlock'
            obtain rfl : refreshToken = key := Option.some.inj (htoken.symm.trans hrenews.2)
            have hkept := hfound other (List.mem_of_getElem? hj) hrenews' lock' hlock'
            rw [← Option.some.inj hlock, lockOf, hkept]
            rfl
          · cases hsucceeded.2
      | userAccessToken =>
          simp only [enter, htoken]
          cases hcached : cachedToken s.memory refreshToken now with
          | some accessToken =>
              refine ⟨h.setTask hi hidle hended rfl ⟨hfits.next.calls, hfits.next.token⟩ rfl, _,
                rfl, ?_⟩
              intro _ other hother
              obtain rfl : refreshToken = other := Option.some.inj (htoken.symm.trans hother)
              exact hfound (by rw [hcached]; rfl)
          | none =>
              refine ⟨h.pass hi hidle hended rfl rfl hfits.waiting (Task.idle_of_waiting rfl) ?_, _,
                rfl, fun hsucceeded => ?_⟩
              · intro j other _ _
                refine ⟨?_, fun lock since _ hphase =>
                  absurd hphase (Task.idle_of_waiting rfl lock since)⟩
                intro key hrenews
                have hhead := hrenews.1
                rw [hcalls] at hhead
                cases hhead
              · cases hsucceeded.2

/-- While no session of a browser was renewed for an access token, a result that is remembered for
its cookie holds the newest refresh token. -/
theorem Good.result_unused (h : Good cookie s) {refreshToken : RefreshToken}
    {result : Int × Payload} (hcookie : (cookie task.browser).oidc = some refreshToken)
    (hsession : refreshToken.session = task.browser) (hfree : Unaccessed s task.browser)
    (hresult : s.memory.refreshResults.lookup refreshToken = some result) :
    result.2.oidc.session = task.browser ∧ Unused s result.2.oidc := by
  obtain ⟨hnext, hused⟩ := h.results task.browser refreshToken result hcookie hresult
  have hbound := h.bound task.browser refreshToken hcookie hfree
  rw [hnext, Unused]
  refine ⟨hsession, ?_⟩
  change refreshToken.serial + 1 = s.newest refreshToken.session
  rw [hsession]
  omega

theorem moved_acquire (h : Good cookie s) (hi : s.tasks[i]? = some task) {lock : Nat}
    (hwaiting : task.phase = .waiting lock) (hlock : lock ∉ s.held) {call : Call}
    {rest : List Call} (hcalls : task.calls = call :: rest) {refreshToken : RefreshToken}
    (htoken : task.session.oidc = some refreshToken)
    (hforeseen : Undisturbed s i task refreshToken s.clock call .acquire) :
    Moved cookie s (acquire s i task call refreshToken lock s.clock) i := by
  have hmem : task ∈ s.tasks := List.mem_of_getElem? hi
  have hfits := (h.stands task hmem).fits
  have hat : task.lock = some lock := by rw [Task.lock, hwaiting]
  have hidle := Task.idle_of_waiting hwaiting
  have hended := Task.not_ended_of_lock hat
  have hunaccessed := h.unaccessed hmem hended hidle.not_accesses
  obtain ⟨hsession, hcookie⟩ := hfits.token refreshToken htoken
  have hhead : task.calls.head? = some call := by
    rw [hcalls]
    rfl
  cases call with
  | refreshSession =>
      have hcookie := hcookie (by rw [hcalls]; exact List.mem_cons_self)
      have hpruned : Good cookie { s with memory := pruneRefreshState s.clock s.memory } :=
        h.forget (Int.le_refl _) (fun key result hresult => (lookup_pruneRefreshState.1 hresult).1)
          (fun key result hresult hkept => lookup_pruneRefreshState.2 ⟨hresult, hkept⟩)
      simp only [acquire]
      cases hresult : (pruneRefreshState s.clock s.memory).refreshResults.lookup refreshToken with
      | some result =>
          obtain ⟨hof, hunused⟩ := hpruned.result_unused hcookie hsession hunaccessed hresult
          refine ⟨hpruned.setTask hi hidle hended rfl (hfits.apply hof) rfl, _, rfl, ?_⟩
          intro _ other hother
          obtain rfl : result.2.oidc = other := Option.some.inj hother
          exact hunused
      | none =>
          refine ⟨hpruned.present hi hwaiting hlock hhead htoken (fun hcall => ?_) ?_, _, rfl,
            fun hsucceeded => ?_⟩
          · cases hcall
          · intro earlier hearlier hsame
            subst hsame
            cases hcall : earlier.call with
            | userAccessToken => exact absurd hsession (hunaccessed earlier hearlier hcall)
            | refreshSession =>
                -- Whoever presented it has its lock, or left a result, unless it was refused.
                obtain ⟨other, hother, hrenews, lock', since, hphase⟩ | hrefused |
                  ⟨result, hresult', -⟩ | hpast := hpruned.settled earlier hearlier hcall
                · obtain ⟨j, hj⟩ := List.mem_iff_getElem?.1 hother
                  have hne : i ≠ j := by
                    rintro rfl
                    exact hidle lock' since (Option.some.inj (hi.symm.trans hj) ▸ hphase)
                  obtain rfl : lock = lock' := (h.agree i j task other hi hj hne).shared
                    earlier.token ⟨hhead, htoken⟩ hrenews lock hat lock'
                    (Task.lock_of_presenting hphase)
                  exact absurd ((h.stands other hother).held lock since hphase) hlock
                · exact absurd hrefused hforeseen
                · change (pruneRefreshState s.clock s.memory).refreshResults.lookup earlier.token =
                    some result at hresult'
                  rw [hresult] at hresult'
                  cases hresult'
                · exact hpast
          · cases hsucceeded.2
  | userAccessToken =>
      have hpruned : Good cookie { s with memory := prune s.clock s.memory } :=
        h.forget (Int.le_refl _) (fun key result hresult => hresult)
          (fun key result hresult _ => hresult)
      simp only [Undisturbed, Apart] at hforeseen
      simp only [acquire, cachedToken_prune]
      cases hcached : cachedToken s.memory refreshToken s.clock with
      | some accessToken =>
          rw [hcached] at hforeseen
          refine ⟨hpruned.setTask hi hidle hended rfl ⟨hfits.next.calls, hfits.next.token⟩ rfl, _, rfl,
            ?_⟩
          intro _ other hother
          obtain rfl : refreshToken = other := Option.some.inj (htoken.symm.trans hother)
          exact hforeseen
      | none =>
          rw [hcached] at hforeseen
          obtain ⟨hnew, hothers⟩ := hforeseen
          refine ⟨hpruned.present hi hwaiting hlock hhead htoken (fun _ => hothers) ?_, _, rfl,
            fun hsucceeded => ?_⟩
          · intro earlier hearlier hsame
            cases hcall : earlier.call with
            | refreshSession => exact absurd hsame.symm (hnew earlier hearlier hcall)
            | userAccessToken =>
                subst hsame
                exact absurd hsession (hunaccessed earlier hearlier hcall)
          · cases hsucceeded.2

/-! ### Answers -/

/-- The cookies are of their browsers. -/
def Own (cookie : Nat → Session) : Prop :=
  ∀ browser, ∀ refreshToken ∈ (cookie browser).oidc, refreshToken.session = browser

/-- A request leaves the provider and its lock. -/
theorem Good.answered (h : Good cookie s) (hi : s.tasks[i]? = some task) {lock : Nat} {since : Int}
    (hphase : task.phase = .presenting lock since) {memory : Memory} {newest : Nat → Nat}
    {refused : List RefreshToken} (hfits : task'.Fits cookie) (hfree : task'.lock = none)
    (halone : task'.Ended ∨ Unaccessed s task'.browser) (hrefused : s.refused ⊆ refused)
    (hresults : ∀ key result, s.memory.refreshResults.lookup key = some result →
      memory.refreshResults.lookup key = some result ∨ task.Renews key)
    (hsettled : ∀ presented ∈ s.presented, presented.call = .refreshSession →
      task.Renews presented.token → presented.at ≤ since →
      presented.token ∈ refused ∨ ∃ result,
        memory.refreshResults.lookup presented.token = some result ∧ presented.at ≤ result.1)
    (hnext : ∀ browser refreshToken result, (cookie browser).oidc = some refreshToken →
      memory.refreshResults.lookup refreshToken = some result →
        result.2.oidc = { refreshToken with serial := refreshToken.serial + 1 } ∧
          refreshToken.serial < newest browser)
    (hbound : ∀ browser refreshToken, (cookie browser).oidc = some refreshToken →
      Unaccessed s browser → newest browser ≤ refreshToken.serial + 1) :
    Good cookie { s with
      memory, tasks := s.tasks.set i task', held := s.held.erase lock, newest, refused } := by
  have hidle := Task.idle_of_free hfree
  apply h.leave (Stands.idle hfits hidle halone) hidle
  · exact fun _ other _ _ => agree_of_free hfree other
  · intro j other lock' since' hne hj hphase'
    have hdiffers : lock' ≠ lock := by
      rintro rfl
      exact (h.agree i j task other hi hj (Ne.symm hne)).single lock' since since' hphase hphase'
    exact (List.mem_erase_of_ne hdiffers).2
      ((h.stands other (List.mem_of_getElem? hj)).held lock' since' hphase')
  · intro presented hpresented hcall
    -- What this request presented is settled by its answer.
    have hown : task.Renews presented.token → Settled { s with
        memory, tasks := s.tasks.set i task', held := s.held.erase lock, newest, refused }
        presented := by
      intro hrenews
      have hat := (h.stands task (List.mem_of_getElem? hi)).since presented.token hrenews lock since
        hphase presented hpresented rfl
      rcases hsettled presented hpresented hcall hrenews hat with hgone | hresult
      · exact .inr (.inl hgone)
      · exact .inr (.inr (.inl hresult))
    apply (h.settled presented hpresented hcall).mono
    · intro other hother hrenews hother'
      by_cases hsame : other = task
      · subst hsame
        exact hown hrenews
      · exact .inl ⟨other, mem_set_of_mem hi hother hsame, hrenews, hother'⟩
    · exact hrefused
    · intro result hresult hat
      rcases hresults _ result hresult with hkept | hrenews
      · exact .inr (.inr (.inl ⟨result, hkept, hat⟩))
      · exact hown hrenews
    · exact Int.le_refl _
  · exact hnext
  · exact hbound

/-- The provider goes on to the next refresh token of one sign-in. -/
theorem newest_le_update {refreshToken : RefreshToken} (h : Unused s refreshToken)
    (browser : Nat) : s.newest browser ≤
      Function.update s.newest refreshToken.session (refreshToken.serial + 1) browser := by
  by_cases hsame : browser = refreshToken.session
  · subst hsame
    rw [Function.update_self, ← h]
    omega
  · rw [Function.update_of_ne hsame]

/-- What the provider does: it refuses, or takes an unused refresh token and answers with the next
one. -/
theorem provide_cases {refreshToken : RefreshToken} {answer : Option TokenSet}
    (h : provide s refreshToken answer = some s') :
    (answer = none ∧ s' = { s with refused := refreshToken :: s.refused }) ∨
    ∃ tokenSet, answer = some tokenSet ∧ Unused s refreshToken ∧
      tokenSet.kept refreshToken = { refreshToken with serial := refreshToken.serial + 1 } ∧
      s' = { s with
        newest := Function.update s.newest refreshToken.session (refreshToken.serial + 1) } := by
  unfold provide at h
  split at h
  · exact .inl ⟨rfl, (Option.some.inj h).symm⟩
  · split at h
    · next hgrant =>
        refine .inr ⟨_, rfl, hgrant.1, ?_, (Option.some.inj h).symm⟩
        rw [TokenSet.kept, hgrant.2.1]
        rfl
    · cases h

theorem moved_refreshed (hown : Own cookie) (h : Good cookie s) (hi : s.tasks[i]? = some task)
    {lock : Nat} {since now : Int} (hphase : task.phase = .presenting lock since)
    {rest : List Call} (hcalls : task.calls = .refreshSession :: rest)
    {refreshToken : RefreshToken} (htoken : task.session.oidc = some refreshToken)
    {answer : Option TokenSet}
    (hforeseen : Undisturbed s i task refreshToken now .refreshSession (.answer answer))
    {provided : State} (hprovided : provide s refreshToken answer = some provided) :
    Moved cookie s (refreshed { provided with held := s.held.erase lock } i task refreshToken since
      now answer) i := by
  have hmem : task ∈ s.tasks := List.mem_of_getElem? hi
  have hfits := (h.stands task hmem).fits
  have hhead : task.calls.head? = some .refreshSession := by
    rw [hcalls]
    rfl
  have hrenews : task.Renews refreshToken := ⟨hhead, htoken⟩
  have hunaccessed := h.unaccessed hmem (Task.not_ended_of_lock (Task.lock_of_presenting hphase))
    fun hacc => by cases hhead.symm.trans hacc.1
  have hsame : ∀ key, task.Renews key → key = refreshToken :=
    fun key hkey => Option.some.inj (hkey.2.symm.trans htoken)
  obtain ⟨hsession, hcookie⟩ := hfits.token refreshToken htoken
  have hcookie := hcookie (by rw [hcalls]; exact List.mem_cons_self)
  obtain ⟨rfl, rfl⟩ | ⟨tokenSet, rfl, hunused, hkept, rfl⟩ := provide_cases hprovided
  · refine ⟨h.answered hi hphase (hfits.unrenewed now) (unrenewed_lock task now)
      (.inr ?_) (List.subset_cons_self _ _) (fun key result hresult => .inl hresult) ?_ h.results
      h.bound, _, rfl, ?_⟩
    · rw [unrenewed_browser]
      exact hunaccessed
    · intro presented _ _ hrenewed _
      rw [hsame _ hrenewed]
      exact .inl List.mem_cons_self
    · intro hsucceeded other hother
      rw [unrenewed_succeeded hsucceeded] at hother
      obtain rfl : refreshToken = other := Option.some.inj (htoken.symm.trans hother)
      exact hforeseen
  · have hnext : ∀ browser key result, (cookie browser).oidc = some key →
        (s.memory.refreshResults.insert refreshToken
          (since, { user := tokenSet.claims, oidc := tokenSet.kept refreshToken })).lookup key =
            some result →
          result.2.oidc = { key with serial := key.serial + 1 } ∧ key.serial <
            Function.update s.newest refreshToken.session (refreshToken.serial + 1) browser := by
      intro browser key result hkey hresult
      by_cases hsame : key = refreshToken
      · subst hsame
        rw [AList.lookup_insert] at hresult
        obtain rfl := Option.some.inj hresult
        refine ⟨hkept, ?_⟩
        rw [← hown browser key hkey, Function.update_self]
        exact Nat.lt_succ_self _
      · rw [AList.lookup_insert_ne hsame] at hresult
        obtain ⟨hnext, hused⟩ := h.results browser key result hkey hresult
        exact ⟨hnext, Nat.lt_of_lt_of_le hused (newest_le_update hunused browser)⟩
    have hbound : ∀ browser key, (cookie browser).oidc = some key → Unaccessed s browser →
        Function.update s.newest refreshToken.session (refreshToken.serial + 1) browser ≤
          key.serial + 1 := by
      intro browser key hkey hfree
      by_cases hbrowser : browser = task.browser
      · subst hbrowser
        obtain rfl : refreshToken = key := Option.some.inj (hcookie.symm.trans hkey)
        rw [← hsession, Function.update_self]
      · rw [Function.update_of_ne (hsession ▸ hbrowser)]
        exact h.bound browser key hkey hfree
    refine ⟨h.answered hi hphase (hfits.apply ?_) rfl (.inr hunaccessed) (List.Subset.refl _)
      ?_ ?_ hnext hbound, _, rfl, ?_⟩
    · change (tokenSet.kept refreshToken).session = task.browser
      rw [hkept]
      exact hsession
    · intro key result hresult
      by_cases hkey : key = refreshToken
      · exact .inr (hkey ▸ hrenews)
      · exact .inl ((AList.lookup_insert_ne hkey).trans hresult)
    · intro presented _ _ hrenewed hat
      rw [hsame _ hrenewed]
      exact .inr ⟨_, AList.lookup_insert _, hat⟩
    · intro _ other hother
      obtain rfl : tokenSet.kept refreshToken = other := Option.some.inj hother
      rw [hkept]
      exact (Function.update_self refreshToken.session (refreshToken.serial + 1) s.newest).symm

theorem moved_accessed (h : Good cookie s) (hi : s.tasks[i]? = some task)
    {lock : Nat} {since : Int} (hphase : task.phase = .presenting lock since)
    {rest : List Call} (hcalls : task.calls = .userAccessToken :: rest)
    {refreshToken : RefreshToken} (htoken : task.session.oidc = some refreshToken)
    {answer : Option TokenSet} {provided : State}
    (hprovided : provide s refreshToken answer = some provided) :
    Moved cookie s (accessed { provided with held := s.held.erase lock } i task refreshToken since
      answer) i := by
  have hmem : task ∈ s.tasks := List.mem_of_getElem? hi
  have hfits := (h.stands task hmem).fits
  have hhead : task.calls.head? = some .userAccessToken := by
    rw [hcalls]
    rfl
  obtain ⟨hsession, -⟩ := hfits.token refreshToken htoken
  obtain ⟨asked, hasked, haccess, hof⟩ :=
    (h.stands task hmem).accesses ⟨hhead, lock, since, hphase⟩ refreshToken htoken
  have hnever : ∀ key, ¬task.Renews key := fun key hkey => by cases hhead.symm.trans hkey.1
  obtain ⟨rfl, rfl⟩ | ⟨tokenSet, rfl, hunused, hkept, rfl⟩ := provide_cases hprovided
  · refine ⟨h.answered hi hphase hfits.failed rfl (.inl (.inr rfl)) (List.subset_cons_self _ _)
      (fun key result hresult => .inl hresult)
      (fun presented _ _ hrenewed => absurd hrenewed (hnever _)) h.results h.bound, _, rfl, ?_⟩
    intro hsucceeded
    cases hsucceeded.2
  · have hnext : ∀ browser key result, (cookie browser).oidc = some key →
        s.memory.refreshResults.lookup key = some result →
          result.2.oidc = { key with serial := key.serial + 1 } ∧ key.serial <
            Function.update s.newest refreshToken.session (refreshToken.serial + 1) browser := by
      intro browser key result hkey hresult
      obtain ⟨hnext, hused⟩ := h.results browser key result hkey hresult
      exact ⟨hnext, Nat.lt_of_lt_of_le hused (newest_le_update hunused browser)⟩
    have hbound : ∀ browser key, (cookie browser).oidc = some key → Unaccessed s browser →
        Function.update s.newest refreshToken.session (refreshToken.serial + 1) browser ≤
          key.serial + 1 := by
      intro browser key hkey hfree
      have hother : browser ≠ refreshToken.session := by
        rintro rfl
        exact hfree asked hasked haccess (by rw [hof])
      rw [Function.update_of_ne hother]
      exact h.bound browser key hkey hfree
    cases htokens : tokenSet.accessToken with
    | none =>
        simp only [accessed, Option.bind_some, htokens, Option.map_none]
        refine ⟨h.answered hi hphase hfits.failed rfl (.inl (.inr rfl)) (List.Subset.refl _)
          (fun key result hresult => .inl hresult)
          (fun presented _ _ hrenewed => absurd hrenewed (hnever _)) hnext hbound, _, rfl, ?_⟩
        intro hsucceeded
        cases hsucceeded.2
    | some accessToken =>
        simp only [accessed, Option.bind_some, htokens, Option.map_some]
        have hsession' : (tokenSet.kept refreshToken).session = task.browser := by
          rw [hkept]
          exact hsession
        have happly : (task.apply
            { user := tokenSet.claims, oidc := tokenSet.kept refreshToken }).Fits cookie :=
          hfits.apply hsession'
        refine ⟨h.answered hi hphase ⟨happly.calls, happly.token⟩ rfl
          (.inl (.inl ⟨hfits.next_calls hhead, rfl⟩)) (List.Subset.refl _)
          (fun key result hresult => .inl hresult)
          (fun presented _ _ hrenewed => absurd hrenewed (hnever _)) hnext hbound, _, rfl, ?_⟩
        intro _ other hother
        obtain rfl : tokenSet.kept refreshToken = other := Option.some.inj hother
        rw [hkept]
        exact (Function.update_self refreshToken.session (refreshToken.serial + 1) s.newest).symm

/-! ### Every run -/

/-- Before any request: the refresh token of each cookie is unused, and nothing is remembered for
it. -/
structure Begins (cookie : Nat → Session) (s : State) : Prop where
  tasks : s.tasks = []
  presented : s.presented = []
  cookies : ∀ browser, ∀ refreshToken ∈ (cookie browser).oidc,
    Unused s refreshToken ∧ s.memory.refreshResults.lookup refreshToken = none

theorem good_begins (hown : Own cookie) (h : Begins cookie s) : Good cookie s where
  stands := by simp [h.tasks]
  agree := by simp [Agreeing, h.tasks]
  times := by simp [h.presented]
  settled := by simp [h.presented]
  results := by
    intro browser refreshToken result hcookie hresult
    rw [(h.cookies browser refreshToken hcookie).2] at hresult
    cases hresult
  bound := by
    intro browser refreshToken hcookie _
    have hunused := (h.cookies browser refreshToken hcookie).1
    rw [Unused, hown browser refreshToken hcookie] at hunused
    omega
  once := by simp [Once, h.presented]

theorem getElem?_concat_cases {tasks : List Task} {new other : Task} {j : Nat}
    (h : (tasks ++ [new])[j]? = some other) : tasks[j]? = some other ∨ other = new := by
  rw [List.getElem?_append] at h
  split at h
  · exact .inl h
  · exact .inr (List.mem_singleton.1 (List.mem_of_getElem? h))

/-- A request arrives while no session of its browser was renewed for an access token. -/
theorem Good.arrive (hown : Own cookie) (h : Good cookie s) {browser : Nat} {calls : List Call}
    (hcalls : calls ∈ needs) (hforeseen : Unaccessed s browser) :
    Good cookie { s with
      tasks := s.tasks ++ [{ browser, session := cookie browser, calls }] } := by
  have hnew : Stands cookie s { browser, session := cookie browser, calls } := by
    apply Stands.idle _ (Task.idle_of_ready rfl) (.inr hforeseen)
    exact ⟨.inr hcalls, fun refreshToken htoken =>
      ⟨hown browser refreshToken htoken, fun _ => htoken⟩⟩
  refine ⟨?_, ?_, h.times, ?_, h.results, h.bound, h.once⟩
  · intro other hother
    rcases List.mem_append.1 hother with hbefore | hlast
    · exact { h.stands other hbefore with }
    · obtain rfl := List.mem_singleton.1 hlast
      exact { hnew with }
  · intro j k one other hj hk hne
    rcases getElem?_concat_cases hj with hone | rfl
    · rcases getElem?_concat_cases hk with hother | rfl
      · exact h.agree j k one other hone hother hne
      · exact (agree_of_free rfl one).symm
    · exact agree_of_free rfl other
  · intro presented hpresented hcall
    apply (h.settled presented hpresented hcall).mono
    · exact fun other hother hrenews hphase =>
        .inl ⟨other, List.mem_append_left _ hother, hrenews, hphase⟩
    · exact List.Subset.refl _
    · exact fun result hresult hat => .inr (.inr (.inl ⟨result, hresult, hat⟩))
    · exact Int.le_refl _

theorem moved_stepTask (hown : Own cookie) (h : Good cookie s) (hi : s.tasks[i]? = some task)
    {move : Move} (hforeseen : ∀ call rest refreshToken, task.calls = call :: rest →
      task.session.oidc = some refreshToken →
        Undisturbed s i task refreshToken s.clock call move)
    (hstep : stepTask s i task s.clock move = some s') : Moved cookie s s' i := by
  cases move with
  | enter =>
      simp only [stepTask] at hstep
      split at hstep
      next call rest hready hcalls =>
        obtain rfl := Option.some.inj hstep
        exact moved_enter h hi hready hcalls fun refreshToken =>
          hforeseen call rest refreshToken hcalls
      · cases hstep
  | acquire =>
      simp only [stepTask] at hstep
      split at hstep
      next lock call rest refreshToken hwaiting hcalls htoken =>
        split at hstep
        · cases hstep
        · next hlock =>
            obtain rfl := Option.some.inj hstep
            exact moved_acquire h hi hwaiting hlock hcalls htoken
              (hforeseen call rest refreshToken hcalls htoken)
      · cases hstep
  | answer answer =>
      simp only [stepTask] at hstep
      split at hstep
      next lock since call rest refreshToken hphase hcalls htoken =>
        obtain ⟨provided, hprovided, rfl⟩ := Option.map_eq_some_iff.1 hstep
        cases call with
        | refreshSession =>
            exact moved_refreshed hown h hi hphase hcalls htoken
              (hforeseen _ rest refreshToken hcalls htoken) hprovided
        | userAccessToken => exact moved_accessed h hi hphase hcalls htoken hprovided
      · cases hstep

theorem Moved.lawful (h : Moved cookie s s' i) : Lawful s s' := by
  obtain ⟨hgood, moved, htasks, hmoved⟩ := h
  intro j one other hj hbefore hother hsucceeded refreshToken htoken
  have hmem : other ∈ s'.tasks := List.mem_of_getElem? hother
  refine ⟨((hgood.stands other hmem).fits.token refreshToken htoken).1, ?_⟩
  rw [htasks] at hother
  rcases getElem?_set_cases hother with ⟨-, rfl⟩ | ⟨-, hsame⟩
  · exact hmoved hsucceeded refreshToken htoken
  · obtain rfl := Option.some.inj (hj.symm.trans hsame)
    exact absurd hsucceeded hbefore

theorem good_step (hown : Own cookie) (h : Good cookie s) (hforeseen : Foreseen s e)
    (hstep : step cookie s e = some s') : Good cookie s' ∧ Lawful s s' := by
  cases e with
  | arrive browser calls =>
      simp only [step] at hstep
      split at hstep
      · next hcalls =>
          obtain rfl := Option.some.inj hstep
          refine ⟨h.arrive hown hcalls hforeseen, ?_⟩
          intro j one other hj hbefore hother hsucceeded
          rcases getElem?_concat_cases hother with hsame | rfl
          · obtain rfl := Option.some.inj (hj.symm.trans hsame)
            exact absurd hsucceeded hbefore
          · obtain rfl : calls = [] := hsucceeded.1
            exact absurd hcalls (by decide)
      · cases hstep
  | move i now move =>
      simp only [step] at hstep
      split at hstep
      · next hclock =>
          obtain ⟨task, hi, hmove⟩ := Option.bind_eq_some_iff.1 hstep
          have hticked : Good cookie { s with clock := now } :=
            h.forget hclock (fun key result hresult => hresult) fun key result hresult _ => hresult
          have hmoved := moved_stepTask hown hticked hi
            (fun call rest refreshToken hcalls htoken =>
              hforeseen task call rest refreshToken hi hcalls htoken) hmove
          exact ⟨hmoved.1, hmoved.lawful⟩
      · cases hstep

theorem renewal_runs {cookie : Nat → Session} (hown : Own cookie) {start s : State}
    (hstart : Begins cookie start) (h : Runs.Reaches (step cookie) Foreseen start s) :
    Once s ∧ ∀ e s', Foreseen s e → step cookie s e = some s' → Lawful s s' := by
  have hgood : Good cookie s := h.invariant (good_begins hown hstart)
    fun _ _ _ hgood hforeseen hstep => (good_step hown hgood hforeseen hstep).1
  exact ⟨hgood.once, fun e s' hforeseen hstep => (good_step hown hgood hforeseen hstep).2⟩

/-! ### Two requests, and two modules -/

/-- The refresh token of an example, and what the provider answers to it. -/
def exampleToken (serial : Nat) : RefreshToken where
  account := "anna"
  serial := serial

def exampleClaims (exp : Int) : Claims where
  sub := "anna"
  preferredUsername := "anna"
  roles := ["manager-admin"]
  exp := exp

def exampleAnswer (serial : Nat) : TokenSet where
  claims := exampleClaims 2000
  refreshToken := some (exampleToken serial)
  accessToken := some "access"
  accessExpiresAt := 1900 * second

/-- One browser is signed in. -/
def exampleCookie : Nat → Session
  | 0 => { user := some (exampleClaims 1000), oidc := some (exampleToken 0) }
  | _ => {}

theorem exampleCookie_own : Own exampleCookie := by
  intro browser refreshToken htoken
  cases browser with
  | zero =>
      obtain rfl := Option.some.inj htoken
      rfl
  | succ browser => cases htoken

def exampleStart : State where
  newest := fun _ => 0

theorem exampleStart_begins : Begins exampleCookie exampleStart where
  tasks := rfl
  presented := rfl
  cookies := by
    intro browser refreshToken htoken
    cases browser with
    | zero =>
        obtain rfl := Option.some.inj htoken
        exact ⟨rfl, rfl⟩
    | succ browser => cases htoken

/-- Two requests need a renewed session: the second waits for the first. -/
def twoPollers : List Event :=
  [.arrive 0 [.refreshSession], .arrive 0 [.refreshSession],
    .move 0 (980 * second) .enter, .move 0 (980 * second) .acquire,
    .move 1 (981 * second) .enter, .move 0 (982 * second) (.answer (some (exampleAnswer 1))),
    .move 1 (982 * second) .acquire]

/-- One request needs a renewed session, another an access token. -/
def twoModules : List Event :=
  [.arrive 0 [.refreshSession], .arrive 0 [.userAccessToken],
    .move 0 (980 * second) .enter, .move 0 (980 * second) .acquire,
    .move 1 (981 * second) .enter, .move 1 (981 * second) .acquire]

/-- The state a list of events leads to. -/
def afterEvents (events : List Event) : State :=
  (Runs.replay (step exampleCookie) exampleStart events).getD exampleStart

theorem foreseen_move {now : Int} {move : Move} {call : Call} {rest : List Call}
    {refreshToken : RefreshToken} (hi : s.tasks[i]? = some task)
    (hcalls : task.calls = call :: rest) (htoken : task.session.oidc = some refreshToken)
    (h : Undisturbed s i task refreshToken now call move) : Foreseen s (.move i now move) := by
  intro task' call' rest' refreshToken' hi' hcalls' htoken'
  obtain rfl := Option.some.inj (hi.symm.trans hi')
  obtain ⟨rfl, -⟩ := List.cons.inj (hcalls.symm.trans hcalls')
  obtain rfl := Option.some.inj (htoken.symm.trans htoken')
  exact h

theorem twoPollers_foreseen :
    Runs.Permits (step exampleCookie) Foreseen exampleStart twoPollers := by
  refine .cons ?_ rfl (.cons ?_ rfl (.cons (foreseen_move rfl rfl rfl ?_) rfl
    (.cons (foreseen_move rfl rfl rfl ?_) rfl (.cons (foreseen_move rfl rfl rfl ?_) rfl
      (.cons (foreseen_move rfl rfl rfl ?_) rfl (.cons (foreseen_move rfl rfl rfl ?_) rfl
        trivial))))))
  · intro presented hpresented
    cases hpresented
  · intro presented hpresented
    cases hpresented
  · change Kept _ _
    decide
  · exact List.not_mem_nil
  · change Kept _ _
    decide
  · trivial
  · exact List.not_mem_nil

theorem renewal_runs_twoPollers :
    Once (afterEvents twoPollers) ∧
      ∀ e s', Foreseen (afterEvents twoPollers) e →
        step exampleCookie (afterEvents twoPollers) e = some s' →
          Lawful (afterEvents twoPollers) s' :=
  renewal_runs exampleCookie_own exampleStart_begins
    (Runs.reaches_of_replay twoPollers_foreseen rfl)

/-- The provider refuses a refresh token only when it was used. -/
def Provided (s : State) : Event → Prop
  | .move i _ (.answer none) => ∀ task refreshToken, s.tasks[i]? = some task →
      task.session.oidc = some refreshToken → ¬Unused s refreshToken
  | _ => True

theorem twoModules_provided :
    Runs.Permits (step exampleCookie) Provided exampleStart twoModules :=
  .cons trivial rfl (.cons trivial rfl (.cons trivial rfl (.cons trivial rfl
    (.cons trivial rfl (.cons trivial rfl trivial)))))

/-- Two modules present the same refresh token at once. -/
theorem presented_by_both :
    ¬∀ (cookie : Nat → Session) (start s : State), Own cookie → Begins cookie start →
      Runs.Reaches (step cookie) Provided start s →
        Once s ∧ ∀ e s', Provided s e → step cookie s e = some s' → Lawful s s' := by
  intro h
  have honce := (h exampleCookie exampleStart (afterEvents twoModules) exampleCookie_own
    exampleStart_begins (Runs.reaches_of_replay twoModules_provided rfl)).1
  have hapart : refreshResultTtlSeconds * second < 981 * second - 980 * second :=
    (List.pairwise_cons.1 honce).1 _ List.mem_cons_self rfl
  exact absurd hapart (by decide)

end Papaia.Auth.Renewal
