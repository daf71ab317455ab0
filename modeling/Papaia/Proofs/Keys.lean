/-
Module: Papaia.Proofs.Keys
Purpose: However many sign in at once, and whatever the provider answers: claims are believed that a key
  of the provider vouches for, from an answer that was young when it was looked into, and the provider is
  asked for its keys by one check at a time and no more often than is needed.
Trusted boundary: none
Main exports: Sound, sound_step, accepted_tokens_were_signed, keys_are_asked_for_sparingly
-/
import Papaia.Proofs.KeyFetches

namespace Papaia.Auth.Keys

open Runs
open SharedRead (getElem?_append_one getElem?_set_eq_some)

variable {jose : Jose} {client : Client} {s s' : State} {i n : Nat} {task task' : Task} {forced : Bool}
  {outcome : Option Jwks} {wall : Int} {jwks : Jwks}

/-! ### What holds in every run -/

structure Sound (jose : Jose) (client : Client) (s : State) : Prop where
  ledger : Ledger s
  cached : Cached client s
  forced : ∀ (n : Nat) (f : Fetch), s.fetches[n]? = some f → f.forced = true →
    ∃ task, s.tasks[f.task]? = some task ∧ Unknown client s task f.began
  stands : ∀ (i : Nat) (task : Task), s.tasks[i]? = some task → Stands jose client s i task

theorem sound_start (clock wall : Int) : Sound jose client { clock := clock, wall := wall } := by
  constructor <;> try constructor
  all_goals simp

/-- What the forced fetches were for stays so. -/
theorem Sound.forced_onward (h : Sound jose client s) (honward : Onward s s') {f : Fetch}
    (hf : s.fetches[n]? = some f) (hforced : f.forced = true) :
    ∃ task, s'.tasks[f.task]? = some task ∧ Unknown client s' task f.began := by
  obtain ⟨task, htask, hunknown⟩ := h.forced n f hf hforced
  obtain ⟨phase, htask'⟩ := honward.tasks f.task task htask
  exact ⟨_, htask', hunknown.mono honward (le_refl _)⟩

theorem Sound.tick (h : Sound jose client s) (d : Nat) (wall : Int) :
    Sound jose client { s with clock := s.clock + d, wall := wall } := by
  have honward : Onward s { s with clock := s.clock + d, wall := wall } :=
    { clock := by dsimp only; omega
      fetches := fun _ f hf => ⟨f.ended, hf, fun _ => id⟩
      tasks := fun _ task htask => ⟨task.phase, htask⟩ }
  constructor
  case ledger => exact h.ledger.tick d wall
  case cached => exact ⟨h.cached.kept, h.cached.newest, h.cached.plain⟩
  case forced => exact fun _ f hf => h.forced_onward honward hf
  case stands => exact fun i task htask => (h.stands i task htask).mono honward

theorem Sound.add (h : Sound jose client s) (hphase : ∀ forced n, task.phase ≠ .fetching forced n)
    (hstands : Stands jose client (s.add task) s.tasks.length task) : Sound jose client (s.add task) := by
  have honward := onward_add s task
  constructor
  case ledger => exact h.ledger.add hphase
  case cached => exact ⟨h.cached.kept, h.cached.newest, h.cached.plain⟩
  case forced => exact fun _ f hf => h.forced_onward honward hf
  case stands =>
    intro i old hold
    rcases getElem?_append_one.1 hold with hold | ⟨rfl, rfl⟩
    · exact (h.stands i old hold).mono honward
    · exact hstands

theorem Sound.setTask (h : Sound jose client s) (htask : s.tasks[i]? = some task)
    (hphase : task.phase = .waiting forced) (hlater : Later task task' forced)
    (hstands : Stands jose client (s.setTask i task') i task') :
    Sound jose client (s.setTask i task') := by
  have honward := onward_setTask htask hlater
  constructor
  case ledger => exact h.ledger.setTask htask hphase hlater
  case cached => exact ⟨h.cached.kept, h.cached.newest, h.cached.plain⟩
  case forced => exact fun _ f hf => h.forced_onward honward hf
  case stands =>
    intro j old hold
    rcases (getElem?_set_eq_some htask).1 hold with ⟨rfl, rfl⟩ | ⟨-, hold⟩
    · exact hstands
    · exact (h.stands j old hold).mono honward

theorem Sound.fetch (h : Sound jose client s) (htask : s.tasks[i]? = some task)
    (hphase : task.phase = .waiting forced) (hfree : s.lock = none)
    (hneeded : forced = true ∨ s.fresh client = none) : Sound jose client (s.fetch i task forced) := by
  have honward : Onward s (s.fetch i task forced) := onward_fetch htask
  have hstands := h.stands i task htask
  have hnew : (s.fetch i task forced).tasks[i]? =
      some { task with phase := .fetching forced s.fetches.length } :=
    (getElem?_set_eq_some htask).2 (.inl ⟨rfl, rfl⟩)
  have hunknown : forced = true → Unknown client s task s.clock := by
    intro hforced
    rw [hforced] at hphase
    exact hstands.unknown (.inl hphase)
  constructor
  case ledger => exact h.ledger.fetch htask hphase hfree hstands.presented
  case cached => exact h.cached.fetch htask hneeded
  case forced =>
    intro n f hf hforced
    rcases getElem?_append_one.1 hf with hf | ⟨rfl, rfl⟩
    · exact h.forced_onward honward hf hforced
    · exact ⟨_, hnew, (hunknown hforced).mono honward (le_refl _)⟩
  case stands =>
    intro j old hold
    rcases (getElem?_set_eq_some htask).1 hold with ⟨rfl, rfl⟩ | ⟨-, hold⟩
    · refine ⟨hstands.presented, fun _ => hstands.kid (by rw [hphase]; exact id), ?_, ?_, ?_⟩
      · intro hforced
        rcases hforced with hforced | ⟨m, hforced⟩
        · cases hforced
        · cases hforced
          exact (hunknown rfl).mono honward (le_refl _)
      · intro claims hended
        cases hended
      · intro hended
        cases hended
    · exact (h.stands j old hold).mono honward

theorem Sound.settled (h : Sound jose client s) (hs : Settled s s' i n outcome task')
    (htask : s.tasks[i]? = some task) (hphase : task.phase = .fetching forced n)
    (hlater : Later task task' forced) (hcached : Cached client s')
    (hstands : Stands jose client s' i task') : Sound jose client s' := by
  obtain ⟨-, own, hown, -, -, hopen, -⟩ := h.ledger.fetching i task forced n htask hphase
  have honward := onward_settled hs htask hlater hown hopen
  constructor
  case ledger => exact h.ledger.settled hs htask hphase hlater
  case cached => exact hcached
  case forced =>
    intro m g hg hforced
    obtain ⟨f, hf, rfl⟩ := hs.getElem?.1 hg
    split at hforced <;>
    next hnm =>
      simp only [hnm, if_true, if_false]
      exact h.forced_onward honward hf hforced
  case stands =>
    intro j old hold
    rw [hs.tasks] at hold
    rcases (getElem?_set_eq_some htask).1 hold with ⟨rfl, rfl⟩ | ⟨-, hold⟩
    · exact hstands
    · exact (h.stands j old hold).mono honward

theorem look_not_fetching {flag : Bool} {m : Nat} :
    (task.look jose client wall forced jwks).phase ≠ .fetching flag m :=
  not_fetching_of_later (later_look jose client task wall forced jwks)

theorem Sound.present (h : Sound jose client s) (idToken : String) (accessToken : Option String) :
    Sound jose client (s.present jose client idToken accessToken) := by
  unfold State.present
  split
  next failure hkid =>
    apply h.add
    · intro forced n hphase
      cases hphase
    · exact stands_fail (le_refl _) (kidOf_error hkid)
  next kid hkid =>
    dsimp only
    split
    next jwks hfresh =>
      apply h.add
      · intro forced n
        exact look_not_fetching
      · apply stands_look (le_refl _) hkid
        · exact (h.cached.saw h.ledger hfresh).mono (onward_add s _)
        · intro hforced
          cases hforced
    next =>
      apply h.add
      · intro forced n hphase
        cases hphase
      · refine ⟨le_refl _, fun _ => hkid, ?_, ?_, ?_⟩
        · intro hforced
          rcases hforced with hforced | ⟨n, hforced⟩ <;> cases hforced
        · intro claims hended
          cases hended
        · intro hended
          cases hended

theorem Sound.acquire (h : Sound jose client s) (htask : s.tasks[i]? = some task)
    (hphase : task.phase = .waiting forced) (hfree : s.lock = none) :
    Sound jose client (s.acquire jose client i task forced) := by
  have hstands := h.stands i task htask
  unfold State.acquire
  split
  next jwks hfresh =>
    cases forced with
    | true => cases hfresh
    | false =>
        have hlater := later_look jose client task s.wall false jwks
        apply h.setTask htask hphase hlater
        apply stands_look (s := s.setTask i _) hstands.presented (hstands.kid (by rw [hphase]; exact id))
        · exact (h.cached.saw h.ledger hfresh).mono (onward_setTask htask hlater)
        · intro hforced
          cases hforced
  next hnone =>
    apply h.fetch htask hphase hfree
    cases forced with
    | true => exact .inl rfl
    | false => exact .inr hnone

/-- A check whose request fails, or that is called off, leaves nothing behind. -/
theorem Sound.leave (h : Sound jose client s) (htask : s.tasks[i]? = some task)
    (hphase : task.phase = .fetching forced n) (hlater : Later task task' forced)
    (hstands : ∀ s', s'.clock = s.clock → Stands jose client s' i task') :
    Sound jose client ((s.leave n none).setTask i task') := by
  have hs : Settled s ((s.leave n none).setTask i task') i n none task' := ⟨rfl, rfl, rfl, rfl⟩
  apply h.settled hs htask hphase hlater
  · exact h.cached.settled h.ledger hs htask hphase hlater (.inl ⟨rfl, rfl, rfl⟩)
  · exact hstands _ rfl

theorem settled_keep (s : State) (i n : Nat) (jwks : Jwks) (task' : Task) :
    Settled s (((s.leave n (some jwks)).keep jwks).setTask i task') i n (some jwks) task' :=
  ⟨rfl, rfl, rfl, rfl⟩

theorem Sound.answered (h : Sound jose client s) (htask : s.tasks[i]? = some task)
    (hphase : task.phase = .fetching forced n) (jwks : Jwks) :
    Sound jose client (((s.leave n (some jwks)).keep jwks).setTask i
      (task.answered jose client s.wall forced jwks)) := by
  have hstands := h.stands i task htask
  obtain ⟨-, own, hown, hi, hforced, hopen, hpresented⟩ := h.ledger.fetching i task forced n htask hphase
  have hs := settled_keep s i n jwks (task.answered jose client s.wall forced jwks)
  have hnew := hs.getElem?.2 ⟨own, hown, (if_pos rfl).symm⟩
  cases hnull : isNull jwks with
  | true =>
      rw [Task.answered, if_pos hnull] at hs hnew ⊢
      have hlater := later_fail task forced .raised
      apply h.settled hs htask hphase hlater
      · apply h.cached.settled h.ledger hs htask hphase hlater
        exact .inr (.inl ⟨congrArg some (isNull_eq_true.1 hnull), if_pos hnull⟩)
      · exact stands_fail hstands.presented (by simp)
  | false =>
      have hsome : ¬isNull jwks = true := by simp [hnull]
      rw [Task.answered, if_neg hsome] at hs hnew ⊢
      have hlater := later_look jose client task s.wall forced jwks
      apply h.settled hs htask hphase hlater
      · apply h.cached.settled h.ledger hs htask hphase hlater
        exact .inr (.inr ⟨jwks, rfl, if_neg hsome, rfl⟩)
      · apply stands_look (s := ((s.leave n (some jwks)).keep jwks).setTask i _) hstands.presented
          (hstands.kid (by rw [hphase]; exact id))
        · exact ⟨n, _, s.clock, hnew, rfl, le_refl _, .inr rfl⟩
        · intro hflag hfind
          exact ⟨n, _, s.clock, jwks, hnew, hi, hforced.trans hflag, rfl, hpresented, hfind⟩

theorem stands_cancelled (hpresented : task.presented ≤ s.clock) :
    Stands jose client s i { task with phase := .cancelled } := by
  refine ⟨hpresented, fun h => absurd trivial h, ?_, ?_, ?_⟩
  · intro h
    rcases h with h | ⟨n, h⟩ <;> cases h
  · intro claims h
    cases h
  · intro h
    cases h

theorem Sound.stepTask {e : Event} (h : Sound jose client s) (htask : s.tasks[i]? = some task)
    (hstep : stepTask jose client s i task e = some s') : Sound jose client s' := by
  have hpresented := (h.stands i task htask).presented
  unfold Keys.stepTask at hstep
  split at hstep
  next =>
    split at hstep
    next forced hphase =>
      split at hstep
      next hfree =>
        obtain rfl := Option.some.inj hstep
        exact h.acquire htask hphase (Option.isNone_iff_eq_none.1 hfree)
      next => cases hstep
    next => cases hstep
  next answered =>
    split at hstep
    next forced n hphase =>
      cases answered with
      | none =>
          obtain rfl := Option.some.inj hstep
          apply h.leave htask hphase (later_fail task forced .raised)
          intro s' hclock
          exact stands_fail (by rw [hclock]; exact hpresented) (by simp)
      | some jwks =>
          obtain rfl := Option.some.inj hstep
          exact h.answered htask hphase jwks
    next => cases hstep
  next =>
    split at hstep
    next forced hphase =>
      obtain rfl := Option.some.inj hstep
      exact h.setTask htask hphase (later_cancelled task forced) (stands_cancelled hpresented)
    next forced n hphase =>
      obtain rfl := Option.some.inj hstep
      apply h.leave htask hphase (later_cancelled task forced)
      intro s' hclock
      exact stands_cancelled (by rw [hclock]; exact hpresented)
    next => cases hstep
  next => cases hstep

theorem sound_step (s : State) (e : Event) (s' : State) (h : Sound jose client s) (_ : True)
    (hstep : step jose client s e = some s') : Sound jose client s' := by
  have htasks : ∀ {i : Nat}, (s.tasks[i]?).bind (fun task => Keys.stepTask jose client s i task e) =
      some s' → Sound jose client s' := by
    intro i hbind
    obtain ⟨task, htask, hmove⟩ := Option.bind_eq_some_iff.1 hbind
    exact h.stepTask htask hmove
  cases e with
  | present idToken accessToken =>
      obtain rfl := Option.some.inj hstep
      exact h.present idToken accessToken
  | tick d wall =>
      obtain rfl := Option.some.inj hstep
      exact h.tick d wall
  | acquire i => exact htasks hstep
  | answer i jwks => exact htasks hstep
  | cancel i => exact htasks hstep

/-- The states that a client reaches from its start at a time. -/
def Reached (jose : Jose) (client : Client) (s : State) : Prop :=
  ∃ clock wall : Int, Reaches (step jose client) (fun _ _ => True) { clock := clock, wall := wall } s

theorem Reached.sound (h : Reached jose client s) : Sound jose client s := by
  obtain ⟨clock, wall, hreaches⟩ := h
  exact hreaches.invariant (sound_start clock wall) sound_step

/-- Whoever is signed in, in whatever order the provider answers: a key of the provider vouches for the
claims, by an algorithm of the key's own, and was answered less than `jwksCacheTtl` before it was looked
into, or for this look. -/
theorem accepted_tokens_were_signed (h : Reached jose client s) {claims : Claims}
    (htask : s.tasks[i]? = some task) (haccepted : task.phase = .ended (.ok claims)) :
    Believed jose client s task claims :=
  (h.sound.stands i task htask).believed claims haccepted

/-! A provider that changes its key between two sign-ins which begin at once. -/

def newKeyOnly : Jose where
  header token := some [(.str "kid", .str (if token = "first" then "old" else "new"))]
  decode _ _ _ _ _ now :=
    if now < 1000 then .ok [(.str "sub", .str "anna"), (.str "exp", .int 1000)]
    else .error .expiredSignature
  unverifiedClaims _ := none
  str _ := ""

def manager : Client where
  clientId := "manager"
  rolePath := ["roles"]
  jwksCacheTtl := 300

def keyOf (kid : String) : Jwk :=
  [(.str "kid", .str kid), (.str "kty", .str "RSA")]

def keysOf (kid : String) : Jwks :=
  .map [(.str "keys", .list [.map (keyOf kid)])]

/-- The second asks after the first, is shown the keys of the first, and asks anew. -/
def twoSignIns : List Event :=
  [.present "first" none, .present "second" none, .acquire 0, .answer 0 (some (keysOf "old")), .tick 5 9,
    .acquire 1, .acquire 1, .tick 1 10, .answer 1 (some (keysOf "new"))]

def afterBoth : State :=
  (replay (step newKeyOnly manager) { clock := 7, wall := 0 } twoSignIns).getD {}

theorem afterBoth_reached : Reached newKeyOnly manager afterBoth :=
  ⟨7, 0, reaches_of_isSome _ (permits_all _ _) rfl⟩

def anna : Claims :=
  { sub := "anna", preferredUsername := "anna", roles := [], exp := 1000 }

def secondSignIn : Task :=
  ⟨"second", none, "new", 7, .ended (.ok anna)⟩

theorem accepted_tokens_were_signed_newKey : Believed newKeyOnly manager afterBoth secondSignIn anna :=
  accepted_tokens_were_signed afterBoth_reached (i := 1) rfl rfl

/-- The provider's keys are asked for by one check at a time. A check asks at most once of itself, when
no answer with keys is younger than `jwksCacheTtl`, and at most once because the keys it was shown do not
name its token's; only then does it fail for want of a key. A check at the lock waits for a fetch that is
open, or can go on. -/
theorem keys_are_asked_for_sparingly (h : Reached jose client s) :
    (∀ (m n : Nat) (f g : Fetch), m < n → s.fetches[m]? = some f → s.fetches[n]? = some g →
      (∃ (e : Int) (answered : Option Jwks), f.ended = some (e, answered) ∧ e ≤ g.began) ∧
      ¬(f.task = g.task ∧ f.forced = g.forced) ∧
      ∀ (e : Int) (jwks : Jwks), f.ended = some (e, some jwks) → jwks ≠ .null → g.forced = false →
        e + client.jwksCacheTtl ≤ g.began ∨ NullBetween s m n) ∧
    (∀ f ∈ s.fetches, f.forced = true →
      ∃ task, s.tasks[f.task]? = some task ∧ Unknown client s task f.began) ∧
    ∀ (i : Nat) (task : Task), s.tasks[i]? = some task →
      (task.phase = .ended (.error (.oidc .keyNotFound)) → InVain s i task) ∧
      ∀ forced, task.phase = .waiting forced →
        (step jose client s (.acquire i)).isSome ∨
        ∃ f ∈ s.fetches, s.lock = some f.task ∧ f.ended = none := by
  have hsound := h.sound
  refine ⟨?_, ?_, ?_⟩
  · intro m n f g hlt hf hg
    refine ⟨hsound.ledger.apart m n f g hlt hf hg, ?_, ?_⟩
    · intro hsame
      exact absurd (hsound.ledger.once m n f g hf hg hsame.1 hsame.2) (Nat.ne_of_lt hlt)
    · intro e jwks hended hne hplain
      exact hsound.cached.plain m n f g e jwks hlt hf hg hended hne hplain
  · intro f hf hforced
    obtain ⟨n, hn⟩ := List.getElem?_of_mem hf
    exact hsound.forced n f hn hforced
  · intro i task htask
    refine ⟨(hsound.stands i task htask).inVain, ?_⟩
    intro forced hphase
    cases hlock : s.lock with
    | none =>
        left
        simp [step, Keys.stepTask, htask, hphase, hlock]
    | some holder =>
        right
        obtain ⟨other, flag, n, hother, hfetching⟩ := hsound.ledger.held holder hlock
        obtain ⟨-, f, hf, hi, -, hopen, -⟩ := hsound.ledger.fetching holder other flag n hother hfetching
        exact ⟨f, List.mem_of_getElem? hf, by rw [hi], hopen⟩

def firstFetch : Fetch :=
  ⟨0, false, 7, some (7, some (keysOf "old"))⟩

def secondFetch : Fetch :=
  ⟨1, true, 12, some (13, some (keysOf "new"))⟩

theorem keys_are_asked_for_sparingly_newKey :
    (∃ (e : Int) (answered : Option Jwks), firstFetch.ended = some (e, answered) ∧ e ≤ 12) ∧
      Unknown manager afterBoth secondSignIn 12 := by
  obtain ⟨hpairs, hforced, -⟩ := keys_are_asked_for_sparingly afterBoth_reached
  have hsecond : afterBoth.fetches[1]? = some secondFetch := rfl
  refine ⟨(hpairs 0 1 firstFetch secondFetch Nat.zero_lt_one rfl hsecond).1, ?_⟩
  obtain ⟨task, htask, hunknown⟩ := hforced secondFetch (List.mem_of_getElem? hsecond) rfl
  obtain rfl : secondSignIn = task := Option.some.inj htask
  exact hunknown

end Papaia.Auth.Keys
