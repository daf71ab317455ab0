/-
Module: Papaia.Proofs.SignOut
Purpose: When a sign-out forgets its session: what it has to find in the memory of the process for no
  cookie of the session to be served from it again.
Trusted boundary: none
Main exports: Forgets, Found, Spent, spent_forget, spent_respond, signOut_forgets_iff
-/
import Papaia.Auth.SignOut
import Papaia.Proofs.Renewal

namespace Papaia.Auth.SignOut

open Renewal

/-! ### The law -/

/-- No request with a cookie of the sign-in is given anything in any run from here. -/
def Forgets (s : State) (signIn : Nat) : Prop :=
  ∀ later, Runs.Reaches step (fun _ _ => True) s later →
    ∀ call session first now answer after,
      step later (.request call session first now answer) = some after →
      ∀ refreshToken ∈ session.oidc, refreshToken.session = signIn →
        (respond later.memory session later.newLock first now answer call).given = none

/-- What a sign-out has to find: every renewal that is remembered for the sign-in is out of its
window, and every access token that would still be served for it is the one under this key. -/
def Found (memory : Memory) (refreshToken : RefreshToken) (now : Int) : Prop :=
  (∀ result ∈ memory.refreshResults.entries, result.1.session = refreshToken.session →
      refreshResultTtlSeconds * second < now - result.2.1) ∧
    ∀ cached ∈ memory.cache.entries, cached.1.session = refreshToken.session →
      skewSeconds * second < cached.2.1 - now →
      (memory.cache.lookup refreshToken).map Prod.snd = some cached.2.2

instance (memory : Memory) (refreshToken : RefreshToken) (now : Int) :
    Decidable (Found memory refreshToken now) :=
  inferInstanceAs (Decidable (_ ∧ _))

/-- Nothing that is remembered for a sign-in will be served. -/
def Spent (memory : Memory) (signIn : Nat) (now : Int) : Prop :=
  ∀ refreshToken : RefreshToken, refreshToken.session = signIn →
    cachedToken memory refreshToken now = none ∧
      ∀ result, memory.refreshResults.lookup refreshToken = some result →
        refreshResultTtlSeconds * second < now - result.1

/-! ### What a sign-out leaves -/

theorem cachedToken_eq_none {memory : Memory} {refreshToken : RefreshToken} {now : Int} :
    cachedToken memory refreshToken now = none ↔
      ∀ cached, memory.cache.lookup refreshToken = some cached →
        cached.1 - now ≤ skewSeconds * second := by
  unfold cachedToken
  cases memory.cache.lookup refreshToken with
  | none => simp
  | some cached => simp

/-- A sign-out leaves what is under another key and is not the token it found. -/
theorem lookup_cache_forget {memory : Memory} {refreshToken other : RefreshToken}
    {cached : Int × String} :
    (forget memory refreshToken).cache.lookup other = some cached ↔
      memory.cache.lookup other = some cached ∧ other ≠ refreshToken ∧
        (memory.cache.lookup refreshToken).map Prod.snd ≠ some cached.2 := by
  have herase : (memory.cache.erase refreshToken).lookup other = some cached ↔
      memory.cache.lookup other = some cached ∧ other ≠ refreshToken := by
    by_cases hother : other = refreshToken
    · subst hother
      simp
    · rw [AList.lookup_erase_ne hother]
      simp [hother]
  unfold forget
  cases hfound : memory.cache.lookup refreshToken with
  | none =>
      dsimp only
      rw [herase]
      simp
  | some found =>
      dsimp only
      rw [lookup_popAll_keysWhere, herase, decide_eq_false_iff_not, and_assoc]
      simp only [Option.map_some, Option.some.injEq, ne_eq, eq_comm]

theorem spent_forget {memory : Memory} {refreshToken : RefreshToken} {now : Int} :
    Spent (forget memory refreshToken) refreshToken.session now ↔
      Found memory refreshToken now := by
  constructor
  · intro h
    constructor
    · intro result hresult hsession
      exact (h result.1 hsession).2 result.2 (AList.mem_lookup_iff.2 hresult)
    · intro cached hcached hsession hlive
      by_contra hother
      have hkept : (forget memory refreshToken).cache.lookup cached.1 = some cached.2 := by
        apply lookup_cache_forget.2
        refine ⟨AList.mem_lookup_iff.2 hcached, ?_, hother⟩
        intro hsame
        apply hother
        rw [← hsame, AList.mem_lookup_iff.2 hcached]
        rfl
      have hspent := cachedToken_eq_none.1 (h cached.1 hsession).1 _ hkept
      omega
  · intro h other hsession
    constructor
    · apply cachedToken_eq_none.2
      intro cached hkept
      obtain ⟨hcached, -, hother⟩ := lookup_cache_forget.1 hkept
      by_contra hlive
      apply hother
      exact h.2 ⟨other, cached⟩ (AList.mem_lookup_iff.1 hcached) hsession (Int.not_le.1 hlive)
    · intro result hresult
      exact h.1 ⟨other, result⟩ (AList.mem_lookup_iff.1 hresult) hsession

/-! ### What is spent stays spent -/

section Spent

variable {memory : Memory} {signIn : Nat} {now later : Int}

theorem Spent.afterwards (h : Spent memory signIn now) (hle : now ≤ later) :
    Spent memory signIn later := by
  intro refreshToken hsession
  obtain ⟨hcache, hresults⟩ := h refreshToken hsession
  constructor
  · apply cachedToken_eq_none.2
    intro cached hcached
    have := cachedToken_eq_none.1 hcache cached hcached
    omega
  · intro result hresult
    have := hresults result hresult
    omega

/-- A memory that holds no more is as spent. -/
theorem Spent.of_le {less : Memory} (h : Spent memory signIn now)
    (hcache : ∀ refreshToken cached, less.cache.lookup refreshToken = some cached →
      refreshToken.session = signIn → memory.cache.lookup refreshToken = some cached)
    (hresults : ∀ refreshToken result, less.refreshResults.lookup refreshToken = some result →
      refreshToken.session = signIn → memory.refreshResults.lookup refreshToken = some result) :
    Spent less signIn now := by
  intro refreshToken hsession
  obtain ⟨hspent, hwindow⟩ := h refreshToken hsession
  constructor
  · apply cachedToken_eq_none.2
    intro cached hcached
    exact cachedToken_eq_none.1 hspent cached (hcache refreshToken cached hcached hsession)
  · intro result hresult
    exact hwindow result (hresults refreshToken result hresult hsession)

theorem lookup_cache_prune {refreshToken : RefreshToken} {cached : Int × String}
    (h : (prune later memory).cache.lookup refreshToken = some cached) :
    memory.cache.lookup refreshToken = some cached :=
  (lookup_popAll_keysWhere.1 h).1

theorem Spent.prune (h : Spent memory signIn now) : Spent (prune later memory) signIn now :=
  h.of_le (fun _ _ hcached _ => lookup_cache_prune hcached) fun _ _ hresult _ => hresult

theorem Spent.pruneRefreshState (h : Spent memory signIn now) :
    Spent (pruneRefreshState later memory) signIn now :=
  h.of_le (fun _ _ hcached _ => hcached) fun _ _ hresult _ =>
    (lookup_pruneRefreshState.1 hresult).1

theorem Spent.forget (h : Spent memory signIn now) (refreshToken : RefreshToken) :
    Spent (forget memory refreshToken) signIn now :=
  h.of_le (fun _ _ hcached _ => (lookup_cache_forget.1 hcached).1) fun _ _ hresult _ => hresult

theorem Spent.logout (h : Spent memory signIn now) (session : Session) (verified : Bool) :
    Spent (logout memory session verified).1 signIn now := by
  unfold SignOut.logout
  split
  · exact h
  · split
    · split
      · exact h.forget _
      · exact h
    · exact h

end Spent

/-! ### A request after the sign-out -/

section Requests

variable {memory : Memory} {session : Session} {newLock signIn : Nat} {clock first now : Int}
  {answer : Option TokenSet}

/-- An access token that a request obtains is remembered for its own sign-in only. -/
theorem spent_userAccessToken (h : Spent memory signIn now)
    (hanswer : ∀ refreshToken ∈ session.oidc, ∀ tokenSet ∈ answer,
      refreshToken.session ≠ signIn ∧ (tokenSet.kept refreshToken).session ≠ signIn) :
    Spent (userAccessToken memory session newLock first now answer).memory signIn now := by
  unfold userAccessToken
  split
  · exact h
  · next refreshToken hheld =>
      split
      · exact h
      · have hbefore : Spent { memory with
            locks := setDefault memory.locks refreshToken newLock } signIn now := h
        have hpruned : Spent (prune now { memory with
            locks := setDefault memory.locks refreshToken newLock }) signIn now := hbefore.prune
        dsimp only
        split
        · exact hpruned
        · split
          · exact hpruned
          · next tokenSet accessToken hanswered =>
              obtain ⟨_, hmem, hpair⟩ := Option.bind_eq_some_iff.1 hanswered
              obtain ⟨_, -, heq⟩ := Option.map_eq_some_iff.1 hpair
              obtain ⟨rfl, rfl⟩ := Prod.mk.inj heq
              obtain ⟨hown, hkept⟩ := hanswer refreshToken hheld _ hmem
              refine hpruned.of_le ?_ fun _ _ hresult _ => hresult
              intro other cached hcached hsession
              rw [AList.lookup_insert_ne, AList.lookup_insert_ne] at hcached
              · exact hcached
              · exact fun hsame => hown (hsame ▸ hsession)
              · exact fun hsame => hkept (hsame ▸ hsession)

theorem spent_refreshSession (h : Spent memory signIn now)
    (hanswer : ∀ refreshToken ∈ session.oidc, ∀ tokenSet ∈ answer, refreshToken.session ≠ signIn) :
    Spent (refreshSession memory session newLock now answer).memory signIn now := by
  unfold refreshSession
  split
  · exact h
  · next refreshToken hheld =>
      have hbefore : Spent { memory with
          refreshLocks := setDefault memory.refreshLocks refreshToken newLock } signIn now := h
      have hpruned : Spent (pruneRefreshState now { memory with
          refreshLocks := setDefault memory.refreshLocks refreshToken newLock }) signIn now :=
        hbefore.pruneRefreshState
      dsimp only
      split
      · exact hpruned
      · split
        · exact hpruned
        · next tokenSet =>
            refine hpruned.of_le (fun _ _ hcached _ => hcached) ?_
            intro other result hresult hsession
            rw [AList.lookup_insert_ne] at hresult
            · exact hresult
            · exact fun hsame => hanswer refreshToken hheld _ rfl (hsame ▸ hsession)

theorem spent_respond (call : Call) (h : Spent memory signIn now)
    (hanswer : ∀ refreshToken ∈ session.oidc, ∀ tokenSet ∈ answer,
      refreshToken.session ≠ signIn ∧ (tokenSet.kept refreshToken).session ≠ signIn) :
    Spent (respond memory session newLock first now answer call).memory signIn now := by
  cases call with
  | refreshSession =>
      exact spent_refreshSession h fun refreshToken hheld tokenSet hmem =>
        (hanswer refreshToken hheld tokenSet hmem).1
  | userAccessToken => exact spent_userAccessToken h hanswer

/-- Where nothing is served from memory, a refused request is given nothing. -/
theorem given_none (call : Call) {refreshToken : RefreshToken} (h : Spent memory signIn clock)
    (hfirst : clock ≤ first) (hnow : first ≤ now) (hheld : session.oidc = some refreshToken)
    (hsession : refreshToken.session = signIn) :
    (respond memory session newLock first now none call).given = none := by
  cases call with
  | refreshSession =>
      have hnone : (pruneRefreshState now { memory with
          refreshLocks := setDefault memory.refreshLocks refreshToken newLock
          }).refreshResults.lookup refreshToken = none := by
        apply Option.eq_none_iff_forall_ne_some.2
        intro result hresult
        obtain ⟨hold, hwindow⟩ := lookup_pruneRefreshState.1 hresult
        have := (h refreshToken hsession).2 result hold
        omega
      simp only [respond, refreshSession, hheld, hnone]
  | userAccessToken =>
      have hbefore : cachedToken memory refreshToken first = none :=
        (h.afterwards hfirst refreshToken hsession).1
      have hunder : cachedToken (prune now { memory with
          locks := setDefault memory.locks refreshToken newLock }) refreshToken now = none := by
        rw [cachedToken_prune]
        exact (h.afterwards (Int.le_trans hfirst hnow) refreshToken hsession).1
      simp only [respond, userAccessToken, hheld, hbefore, hunder, Option.bind_none]

/-- What is remembered for a refresh token is given to a request that carries it. -/
theorem given_of_cached {refreshToken : RefreshToken} {accessToken : String}
    (hcached : cachedToken memory refreshToken now = some accessToken) :
    (respond memory { oidc := some refreshToken } newLock now now none .userAccessToken).given =
      some (.accessToken accessToken) := by
  simp only [respond, userAccessToken, hcached]

theorem given_of_result {refreshToken : RefreshToken} {result : Int × Payload}
    (hresult : memory.refreshResults.lookup refreshToken = some result)
    (hwindow : now - result.1 ≤ refreshResultTtlSeconds * second) :
    (respond memory { oidc := some refreshToken } newLock now now none .refreshSession).given =
      some (.payload result.2) := by
  have hpruned : (pruneRefreshState now { memory with
      refreshLocks := setDefault memory.refreshLocks refreshToken newLock
      }).refreshResults.lookup refreshToken = some result :=
    lookup_pruneRefreshState.2 ⟨hresult, hwindow⟩
  simp only [respond, refreshSession, hpruned]

end Requests

/-! ### Runs -/

/-- Every key of the memory is a refresh token that a cookie carried. -/
structure Known (s : State) : Prop where
  cached : ∀ refreshToken cached, s.memory.cache.lookup refreshToken = some cached →
    refreshToken ∈ s.cookies
  results : ∀ refreshToken result, s.memory.refreshResults.lookup refreshToken = some result →
    refreshToken ∈ s.cookies

theorem known_start : Known {} where
  cached := by
    intro refreshToken cached h
    cases h
  results := by
    intro refreshToken result h
    cases h

/-- A request remembers things under the token it came with and the one it leaves with. -/
theorem lookup_respond {memory : Memory} {session : Session} {newLock : Nat} {first now : Int}
    {answer : Option TokenSet} (call : Call) {other : RefreshToken} :
    (∀ cached, (respond memory session newLock first now answer call).memory.cache.lookup other =
        some cached → memory.cache.lookup other = some cached ∨ session.oidc = some other ∨
          (respond memory session newLock first now answer call).session.oidc = some other) ∧
      ∀ result, (respond memory session newLock first now answer call).memory.refreshResults.lookup
          other = some result →
        memory.refreshResults.lookup other = some result ∨ session.oidc = some other := by
  cases call with
  | refreshSession =>
      simp only [respond]
      unfold refreshSession
      split
      · exact ⟨fun _ h => .inl h, fun _ h => .inl h⟩
      · next refreshToken hheld =>
          dsimp only
          split
          · exact ⟨fun _ h => .inl h, fun _ h => .inl (lookup_pruneRefreshState.1 h).1⟩
          · split
            · exact ⟨fun _ h => .inl h, fun _ h => .inl (lookup_pruneRefreshState.1 h).1⟩
            · refine ⟨fun _ h => .inl h, ?_⟩
              intro result h
              by_cases hsame : other = refreshToken
              · subst hsame
                exact .inr hheld
              · rw [AList.lookup_insert_ne hsame] at h
                exact .inl (lookup_pruneRefreshState.1 h).1
  | userAccessToken =>
      simp only [respond]
      unfold userAccessToken
      split
      · exact ⟨fun _ h => .inl h, fun _ h => .inl h⟩
      · next refreshToken hheld =>
          dsimp only
          split
          · exact ⟨fun _ h => .inl h, fun _ h => .inl h⟩
          · split
            · exact ⟨fun _ h => .inl (lookup_cache_prune h), fun _ h => .inl h⟩
            · split
              · exact ⟨fun _ h => .inl (lookup_cache_prune h), fun _ h => .inl h⟩
              · next tokenSet accessToken _ =>
                  refine ⟨?_, fun _ h => .inl h⟩
                  intro cached h
                  by_cases hrotated : other = tokenSet.kept refreshToken
                  · subst hrotated
                    exact .inr (.inr rfl)
                  · rw [AList.lookup_insert_ne hrotated] at h
                    by_cases hsame : other = refreshToken
                    · subst hsame
                      exact .inr (.inl hheld)
                    · rw [AList.lookup_insert_ne hsame] at h
                      exact .inl (lookup_cache_prune h)

theorem lookup_logout {memory : Memory} {session : Session} {verified : Bool}
    {other : RefreshToken} {cached : Int × String}
    (h : (logout memory session verified).1.cache.lookup other = some cached) :
    memory.cache.lookup other = some cached := by
  unfold logout at h
  split at h
  · exact h
  · split at h
    · split at h
      · exact (lookup_cache_forget.1 h).1
      · exact h
    · exact h

theorem refreshResults_logout (memory : Memory) (session : Session) (verified : Bool) :
    (logout memory session verified).1.refreshResults = memory.refreshResults := by
  unfold logout
  split
  · rfl
  · split
    · split <;> rfl
    · rfl

theorem known_step {s s' : State} {e : Event} (h : Known s) (hstep : step s e = some s') :
    Known s' := by
  cases e with
  | signIn refreshToken now =>
      simp only [step, Option.ite_none_right_eq_some, Option.some.injEq] at hstep
      obtain ⟨-, rfl⟩ := hstep
      constructor
      · exact fun other cached hcached => List.mem_cons_of_mem _ (h.cached other cached hcached)
      · exact fun other result hresult => List.mem_cons_of_mem _ (h.results other result hresult)
  | request call session first now answer =>
      simp only [step, Option.ite_none_right_eq_some, Option.some.injEq] at hstep
      obtain ⟨⟨-, -, hcarried, -⟩, rfl⟩ := hstep
      constructor
      · intro other cached hcached
        apply List.mem_append.2
        rcases (lookup_respond call).1 cached hcached with hold | hheld | hleft
        · exact .inr (h.cached other cached hold)
        · exact .inr (hcarried other hheld)
        · exact .inl (Option.mem_toList.2 hleft)
      · intro other result hresult
        apply List.mem_append.2
        rcases (lookup_respond call).2 result hresult with hold | hheld
        · exact .inr (h.results other result hold)
        · exact .inr (hcarried other hheld)
  | logout session verified endSession now =>
      simp only [step, Option.ite_none_right_eq_some, Option.some.injEq] at hstep
      obtain ⟨-, rfl⟩ := hstep
      constructor
      · exact fun other cached hcached => h.cached other cached (lookup_logout hcached)
      · intro other result hresult
        dsimp only at hresult
        rw [refreshResults_logout] at hresult
        exact h.results other result hresult

/-- The provider ended a sign-in, and nothing is remembered that would be served for it. -/
def Over (signIn : Nat) (s : State) : Prop :=
  signIn ∈ s.ended ∧ Spent s.memory signIn s.clock

theorem over_step {signIn : Nat} {s s' : State} {e : Event} (h : Over signIn s)
    (hstep : step s e = some s') : Over signIn s' := by
  obtain ⟨hended, hspent⟩ := h
  cases e with
  | signIn refreshToken now =>
      simp only [step, Option.ite_none_right_eq_some, Option.some.injEq] at hstep
      obtain ⟨⟨hclock, -⟩, rfl⟩ := hstep
      exact ⟨hended, hspent.afterwards hclock⟩
  | request call session first now answer =>
      simp only [step, Option.ite_none_right_eq_some, Option.some.injEq] at hstep
      obtain ⟨⟨hfirst, hnow, -, hanswers⟩, rfl⟩ := hstep
      refine ⟨hended, spent_respond call (hspent.afterwards (Int.le_trans hfirst hnow)) ?_⟩
      intro refreshToken hheld tokenSet hmem
      obtain ⟨hopen, hkept⟩ := hanswers refreshToken hheld tokenSet hmem
      have hother : refreshToken.session ≠ signIn := fun hsame => hopen (hsame ▸ hended)
      exact ⟨hother, hkept ▸ hother⟩
  | logout session verified endSession now =>
      simp only [step, Option.ite_none_right_eq_some, Option.some.injEq] at hstep
      obtain ⟨⟨hclock, -⟩, rfl⟩ := hstep
      constructor
      · dsimp only
        split
        · exact List.mem_append_right _ hended
        · exact hended
      · exact (hspent.afterwards hclock).logout session verified

theorem forgets_of_over {signIn : Nat} {s : State} (h : Over signIn s) : Forgets s signIn := by
  intro later hlater call session first now answer after hstep refreshToken hheld hsession
  have hover : Over signIn later := hlater.invariant h fun _ _ _ h _ => over_step h
  simp only [step, Option.ite_none_right_eq_some] at hstep
  obtain ⟨⟨hfirst, hnow, -, hanswers⟩, -⟩ := hstep
  cases answer with
  | none => exact given_none call hover.2 hfirst hnow hheld hsession
  | some tokenSet =>
      have hopen := (hanswers refreshToken hheld tokenSet rfl).1
      exact absurd (hsession ▸ hover.1) hopen

/-- What is still remembered for a sign-in is served to whoever carries that cookie. -/
theorem spent_of_forgets {signIn : Nat} {s : State} (hknown : Known s) (h : Forgets s signIn) :
    Spent s.memory signIn s.clock := by
  have hsilent : ∀ (call : Call) (other : RefreshToken), other ∈ s.cookies →
      other.session = signIn → (respond s.memory { oidc := some other } s.newLock s.clock s.clock
        none call).given = none := by
    intro call other hcookie hsession
    obtain ⟨after, htaken⟩ : ∃ after,
        step s (.request call { oidc := some other } s.clock s.clock none) = some after := by
      have hcarried : Carried s { oidc := some other } := by
        intro _ hheld
        obtain rfl := Option.some.inj hheld
        exact hcookie
      have hanswers : Answers s { oidc := some other } none := by
        intro _ _ _ hnone
        cases hnone
      simp only [step]
      rw [if_pos ⟨Int.le_refl _, Int.le_refl _, hcarried, hanswers⟩]
      exact ⟨_, rfl⟩
    exact h s .refl call _ _ _ none after htaken other rfl hsession
  intro other hsession
  constructor
  · apply Option.eq_none_iff_forall_ne_some.2
    intro accessToken hserved
    have hnone := hsilent .userAccessToken other ?_ hsession
    · rw [given_of_cached hserved] at hnone
      cases hnone
    · cases hcached : s.memory.cache.lookup other with
      | none =>
          unfold cachedToken at hserved
          rw [hcached] at hserved
          cases hserved
      | some cached => exact hknown.cached other cached hcached
  · intro result hresult
    by_contra hwindow
    have hnone := hsilent .refreshSession other (hknown.results other result hresult) hsession
    rw [given_of_result hresult (Int.not_lt.1 hwindow)] at hnone
    cases hnone

/-- A sign-out of a session that the provider ends forgets it exactly when everything that would
still be served for it is found. -/
theorem signOut_forgets_iff {s s' : State} (hs : Runs.Reaches step (fun _ _ => True) {} s)
    {session : Session} {refreshToken : RefreshToken} (hheld : session.oidc = some refreshToken)
    {now : Int} (hout : step s (.logout session true .ended now) = some s') :
    Forgets s' refreshToken.session ↔ Found s.memory refreshToken now := by
  have hknown : Known s' :=
    (Runs.Reaches.next hs trivial hout).invariant known_start fun _ _ _ h _ => known_step h
  simp only [step, Option.ite_none_right_eq_some, Option.some.injEq] at hout
  obtain ⟨-, rfl⟩ := hout
  have hforget : (logout s.memory session true).1 = forget s.memory refreshToken := by
    unfold logout
    split
    · next hnone =>
        rw [hheld] at hnone
        cases hnone
    · rw [hheld]
      rfl
  constructor
  · intro h
    have hspent := spent_of_forgets hknown h
    rw [← spent_forget, ← hforget]
    exact hspent
  · intro h
    apply forgets_of_over
    constructor
    · simp [hheld]
    · dsimp only
      rw [hforget]
      exact spent_forget.2 h

/-! ### A session that is forgotten, and one that is not -/

/-- The refresh tokens of one sign-in, in turn. -/
def exampleToken (serial : Nat) : RefreshToken := { account := "anna", session := 1, serial }

def exampleClaims : Claims where
  sub := "anna"
  preferredUsername := "anna"
  roles := ["manager-admin"]
  exp := 9000

/-- A provider that rotates the refresh token it is shown. -/
def exampleTokens (serial : Nat) : TokenSet where
  claims := exampleClaims
  refreshToken := some (exampleToken (serial + 1))
  accessToken := some "access"
  accessExpiresAt := 300 * second

/-- The cookie with a refresh token of the sign-in. -/
def exampleCookie (serial : Nat) : Session where
  user := some exampleClaims
  oidc := some (exampleToken serial)

/-- A session is renewed, and later asks for an access token. -/
def renewedThenAccessed : List Event :=
  [.signIn (exampleToken 0) 0,
    .request .refreshSession (exampleCookie 0) 0 0 (some (exampleTokens 0)),
    .request .userAccessToken (exampleCookie 1) (100 * second) (100 * second)
      (some (exampleTokens 1))]

/-- A session is renewed. -/
def renewedOnly : List Event :=
  [.signIn (exampleToken 0) 0,
    .request .refreshSession (exampleCookie 0) 0 0 (some (exampleTokens 0))]

/-- The state a list of events leads to. -/
def afterEvents (events : List Event) : State :=
  (Runs.replay step {} events).getD {}

theorem signOut_forgets_iff_renewedThenAccessed :
    Forgets (afterEvents (renewedThenAccessed ++
      [.logout (exampleCookie 2) true .ended (120 * second)])) 1 := by
  have hs : Runs.Reaches step (fun _ _ => True) {} (afterEvents renewedThenAccessed) :=
    Runs.reaches_of_replay (Runs.permits_all _ renewedThenAccessed) rfl
  have hheld : (exampleCookie 2).oidc = some (exampleToken 2) := rfl
  have hout : step (afterEvents renewedThenAccessed)
      (.logout (exampleCookie 2) true .ended (120 * second)) = some (afterEvents
        (renewedThenAccessed ++ [.logout (exampleCookie 2) true .ended (120 * second)])) := rfl
  exact (signOut_forgets_iff hs hheld hout).2 (by decide)

/-- The first cookie of a session is served the renewal it led to, after the sign-out with the second
one. -/
theorem renewed_session_not_forgotten :
    ¬∀ (s s' : State), Runs.Reaches step (fun _ _ => True) {} s →
      ∀ (session : Session) (refreshToken : RefreshToken) (now : Int),
        session.oidc = some refreshToken →
        step s (.logout session true .ended now) = some s' → Forgets s' refreshToken.session := by
  intro h
  have hforgets := h (afterEvents renewedOnly)
    (afterEvents (renewedOnly ++ [.logout (exampleCookie 1) true .ended (10 * second)]))
    (Runs.reaches_of_replay (Runs.permits_all _ renewedOnly) rfl) (exampleCookie 1) (exampleToken 1)
    (10 * second) rfl rfl
  have hnone := hforgets _ .refl .refreshSession (exampleCookie 0) (20 * second) (20 * second) none
    _ rfl (exampleToken 0) rfl rfl
  revert hnone
  decide

end Papaia.Auth.SignOut
