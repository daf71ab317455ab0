/-
Module: Papaia.Proofs.StepUp
Purpose: When a step-up is a real sign-in made for it: the account that a guarded request admits
  requested the step-up, signed in after that, and confirmed it less than five minutes ago.
Trusted boundary: none
Main exports: RealStepUp, Foreseen, Sound, sound_step, stepUp_runs
-/
import Papaia.Auth.StepUp
import Papaia.Lib.Runs

namespace Papaia.Auth

/-! ### The law -/

/-- An account requested a step-up, signed in at the provider after that, and the callback of that
step-up came after the sign-in, in the second `mark`. -/
def Marked (s : State) (sub : String) (mark : Int) : Prop :=
  ∃ asked ∈ s.asked, asked.sub = sub ∧
    ∃ confirmed ∈ s.confirmed, confirmed.verifier = asked.verifier ∧ seconds confirmed.at = mark ∧
      ∃ signIn ∈ s.signIns, signIn.account = sub ∧
        asked.tick < signIn.tick ∧ signIn.tick < confirmed.tick

/-- What admitting an account asks for: the same, with a confirmation that is still good. -/
def RealStepUp (s : State) (user : Claims) (now : Int) : Prop :=
  ∃ asked ∈ s.asked, asked.sub = user.sub ∧
    ∃ confirmed ∈ s.confirmed, confirmed.verifier = asked.verifier ∧
      now - confirmed.at < stepUpSeconds * second ∧
      ∃ signIn ∈ s.signIns, signIn.account = user.sub ∧
        asked.tick < signIn.tick ∧ signIn.tick < confirmed.tick

/-- The clocks of the provider and of this machine differ by no more than the skew. -/
def Clocked (_ : State) : Event → Prop
  | .signIn _ now clock =>
      now - clock ≤ stepUpSkewSeconds * second ∧ clock - now ≤ stepUpSkewSeconds * second
  | _ => True

/-- The sign-in that the provider has open is no news to what the step-up compares with: the time
the session knows, or, when it knows none, the clock of this machine. -/
def Known (user : Claims) (later : Int) (signIn : SignIn) : Prop :=
  if user.authTime ≠ 0 then (signIn.authTime : Int) ≤ user.authTime
  else (signIn.authTime : Int) < seconds later - stepUpSkewSeconds

/-- A step-up is requested while the session knows the last sign-in of its account, and the callback
that ends one leaves a refresh token of the account it signs in. -/
def Foreseen (settings : Settings) (s : State) : Event → Prop
  | .stepUp now later answer _ _ =>
      ∀ user, (requireAdmin settings s.session now later answer).outcome = .ok user →
        ∀ signIn ∈ s.provider, signIn.account = user.sub → Known user later signIn
  | .callback query (some tokenSet) _ =>
      (∃ pending ∈ s.session.stepUpPending, query.verifier = some pending.verifier) →
        tokenSet.refreshToken = none →
          ∀ held ∈ s.session.oidc, held.account = tokenSet.claims.sub
  | _ => True

/-! ### The invariant -/

/-- A sign-in that a step-up may end with is later than its request, or of another account, or not
fresh. -/
def Late (asked : Asked) (pending : Pending) (signIn : SignIn) : Prop :=
  asked.tick < signIn.tick ∨ signIn.account ≠ pending.sub ∨
    (pending.isFresh signIn.authTime = false ∧ pending.isFresh 0 = false)

/-- A sign-in of the run that is over. -/
def Past (s : State) (signIn : SignIn) : Prop :=
  signIn ∈ s.signIns ∧ signIn.tick < s.tick

/-- A step-up that is under way was requested, by the account it names. -/
def Requested (s : State) (pending : Pending) : Prop :=
  pending.verifier ∈ s.issued ∧
    ∃ asked ∈ s.asked, asked.verifier = pending.verifier ∧ asked.sub = pending.sub ∧
      (∀ signIn ∈ s.provider, Late asked pending signIn) ∧
      ∀ code ∈ s.codes, code.verifier = pending.verifier → Late asked pending code.signIn

/-- The mark is one of the account in the session, and a renewal does not change that account. -/
def Owned (s : State) (session : Session) (mark : Int) : Prop :=
  ∃ user ∈ session.user, Marked s user.sub mark ∧ ∀ held ∈ session.oidc, held.account = user.sub

structure Sound (s : State) : Prop where
  provider : ∀ signIn ∈ s.provider, Past s signIn
  codes : ∀ code ∈ s.codes, Past s code.signIn ∧ code.verifier ∈ s.issued
  asked : ∀ asked ∈ s.asked, asked.tick < s.tick
  pending : ∀ pending ∈ s.session.stepUpPending, Requested s pending
  mark : ∀ mark ∈ s.session.stepUpAt, Owned s s.session mark

variable {settings : Settings} {s s' : State} {e : Event}

theorem sound_start : Sound {} where
  provider := by simp
  codes := by simp
  asked := by simp
  pending := by simp
  mark := by simp

/-- What was marked stays marked. -/
theorem Marked.mono {sub : String} {mark : Int} (hasked : s.asked ⊆ s'.asked)
    (hsignIns : s.signIns ⊆ s'.signIns) (hconfirmed : s.confirmed ⊆ s'.confirmed)
    (h : Marked s sub mark) : Marked s' sub mark := by
  obtain ⟨asked, ha, hsub, confirmed, hc, hverifier, hmark, signIn, hs, haccount, hticks⟩ := h
  exact ⟨asked, hasked ha, hsub, confirmed, hconfirmed hc, hverifier, hmark,
    signIn, hsignIns hs, haccount, hticks⟩

theorem Owned.mono {session : Session} {mark : Int} (hasked : s.asked ⊆ s'.asked)
    (hsignIns : s.signIns ⊆ s'.signIns) (hconfirmed : s.confirmed ⊆ s'.confirmed)
    (h : Owned s session mark) : Owned s' session mark := by
  obtain ⟨user, huser, hmarked, hheld⟩ := h
  exact ⟨user, huser, hmarked.mono hasked hsignIns hconfirmed, hheld⟩

/-- A step-up that was requested stays so while the provider keeps its sign-in and its codes. -/
theorem Requested.mono {pending : Pending} (hissued : s.issued ⊆ s'.issued)
    (hasked : s.asked ⊆ s'.asked) (hprovider : s'.provider = s.provider)
    (hcodes : s'.codes = s.codes) (h : Requested s pending) : Requested s' pending := by
  obtain ⟨hverifier, asked, ha, hasks, hsub, hopen, hissue⟩ := h
  refine ⟨hissued hverifier, asked, hasked ha, hasks, hsub, ?_, ?_⟩
  · rw [hprovider]
    exact hopen
  · rw [hcodes]
    exact hissue

/-- A step of the manager: its session changes, and the history grows. -/
theorem Sound.next (h : Sound s) {session : Session} {issued : List String} {asked : List Asked}
    {confirmed : List Confirmed} (hissued : s.issued ⊆ issued)
    (hasked : ∀ other ∈ asked, other ∈ s.asked ∨ other.tick = s.tick)
    (hpending : ∀ pending ∈ session.stepUpPending, Requested { s with issued, asked } pending)
    (hmark : ∀ mark ∈ session.stepUpAt, Owned { s with asked, confirmed } session mark) :
    Sound { s with session, issued, asked, confirmed, tick := s.tick + 1 } where
  provider := fun signIn hsignIn =>
    ⟨(h.provider signIn hsignIn).1, Nat.lt_succ_of_lt (h.provider signIn hsignIn).2⟩
  codes := by
    intro code hcode
    obtain ⟨⟨hmem, htick⟩, hverifier⟩ := h.codes code hcode
    exact ⟨⟨hmem, Nat.lt_succ_of_lt htick⟩, hissued hverifier⟩
  asked := by
    intro other hother
    rcases hasked other hother with hbefore | hnow
    · exact Nat.lt_succ_of_lt (h.asked other hbefore)
    · exact Nat.lt_succ_of_le (Nat.le_of_eq hnow)
  pending := hpending
  mark := hmark

/-! ### Sessions that renewals leave -/

/-- A renewal touches neither the step-up under way nor the mark. -/
theorem Renewed.pending_eq {session session' : Session} (h : Renewed session session')
    {pending : Pending} (hpending : pending ∈ session'.stepUpPending) :
    pending ∈ session.stepUpPending := by
  cases h with
  | same => exact hpending
  | cleared => cases hpending
  | renewed held account rotated => exact hpending

/-- A renewal leaves the mark with its account. -/
theorem Owned.renewed {session session' : Session} (h : Renewed session session')
    (howned : ∀ mark ∈ session.stepUpAt, Owned s session mark) :
    ∀ mark ∈ session'.stepUpAt, Owned s session' mark := by
  cases h with
  | same => exact howned
  | cleared => simp
  | @renewed refreshToken tokenSet held account rotated =>
      intro mark hmark
      obtain ⟨user, huser, hmarked, hheld⟩ := howned mark hmark
      have hsub : tokenSet.claims.sub = user.sub := account.trans (hheld refreshToken held)
      refine ⟨tokenSet.claims, rfl, hsub ▸ hmarked, ?_⟩
      intro other hother
      obtain rfl : tokenSet.kept refreshToken = other := Option.some.inj hother
      exact rotated.trans account.symm

/-- A session that a renewal leaves is as good as the one before it. -/
theorem Sound.renewed (h : Sound s) {session : Session} (hsession : Renewed s.session session) :
    Sound { s with session, tick := s.tick + 1 } := by
  apply h.next (List.Subset.refl _) (fun _ => .inl)
  · intro pending hpending
    exact h.pending pending (hsession.pending_eq hpending)
  · exact Owned.renewed hsession h.mark

/-! ### The callback -/

/-- How a callback ends, and the session it leaves. -/
inductive Landed (session : Session) (query : Query) (answer : Option TokenSet) (later : Int) :
    Session → Except HttpError Landing → Prop where
  | refused {error : HttpError} : Landed session query answer later session (.error error)
  | unconfirmed {error : HttpError} :
      Landed session query answer later { session with stepUpPending := none } (.error error)
  | signedIn {tokenSet : TokenSet} {dest : String} (given : answer = some tokenSet) :
      Landed session query answer later
        { signedIn { session with stepUpAt := none } tokenSet with postLoginRedirect := none }
        (.ok (.signedIn dest))
  | steppedUp {tokenSet : TokenSet} {pending : Pending} (given : answer = some tokenSet)
      (held : session.stepUpPending = some pending)
      (verifier : query.verifier = some pending.verifier)
      (account : tokenSet.claims.sub = pending.sub)
      (fresh : pending.isFresh tokenSet.claims.authTime = true) :
      Landed session query answer later
        (Auth.signedIn
          { session with stepUpPending := none, stepUpAt := some (seconds later) } tokenSet)
        (.ok (.steppedUp pending.next))

/-- A callback ends the step-up that waits for its verifier, and drops the mark when none does. -/
theorem finishStepUp_cases (session : Session) (verifier : String) (claims : Claims)
    (later : Int) :
    finishStepUp session verifier claims later =
        { session := { session with stepUpAt := none }, outcome := .ok none } ∨
      (∃ error, finishStepUp session verifier claims later =
        { session := { session with stepUpPending := none }, outcome := .error error }) ∨
      ∃ pending, session.stepUpPending = some pending ∧ pending.verifier = verifier ∧
        claims.sub = pending.sub ∧ pending.isFresh claims.authTime = true ∧
        finishStepUp session verifier claims later =
          { session :=
              { session with stepUpPending := none, stepUpAt := some (seconds later) }
            outcome := .ok (some pending.next) } := by
  unfold finishStepUp
  cases hpending : session.stepUpPending.filter fun pending => pending.verifier = verifier with
  | none => exact .inl rfl
  | some pending =>
      apply Or.inr
      obtain ⟨held, hmatch⟩ := Option.filter_eq_some_iff.1 hpending
      by_cases hrefused :
          (claims.sub ≠ pending.sub || !pending.isFresh claims.authTime) = true
      · exact .inl ⟨_, if_pos hrefused⟩
      · apply Or.inr
        have hconfirmed := hrefused
        simp only [Bool.or_eq_true, decide_eq_true_eq, Bool.not_eq_true', not_or, not_not,
          Bool.not_eq_false] at hconfirmed
        exact ⟨pending, held, of_decide_eq_true hmatch, hconfirmed.1, hconfirmed.2,
          if_neg hrefused⟩

theorem landed_callback (settings : Settings) (session : Session) (query : Query) (answer : Option TokenSet)
    (later : Int) :
    Landed session query answer later (callback settings session query answer later).session
      (callback settings session query answer later).outcome := by
  unfold callback
  split
  · exact .refused
  · split
    · exact .refused
    · next verifier hverifier =>
        split
        · exact .refused
        · cases answer with
          | none => exact .refused
          | some tokenSet =>
              dsimp only
              split
              · exact .refused
              · obtain hend | ⟨error, hend⟩ | ⟨pending, held, hmatch, haccount, hfresh, hend⟩ :=
                  finishStepUp_cases session verifier tokenSet.claims later
                · simp only [hend]
                  exact .signedIn rfl
                · simp only [hend]
                  exact .unconfirmed
                · simp only [hend]
                  apply Landed.steppedUp rfl held _ haccount hfresh
                  rw [hverifier, hmatch]

/-- An answer to a code leaves in the session a refresh token of its account. -/
theorem held_signedIn {session : Session} {tokenSet : TokenSet} {signIn : SignIn}
    (hanswers : answers tokenSet signIn = true)
    (hkept : tokenSet.refreshToken = none →
      ∀ held ∈ session.oidc, held.account = tokenSet.claims.sub) :
    ∀ held ∈ (signedIn session tokenSet).oidc, held.account = tokenSet.claims.sub := by
  simp only [answers, Bool.and_eq_true, decide_eq_true_eq] at hanswers
  obtain ⟨⟨haccount, -⟩, htoken⟩ := hanswers
  intro held hheld
  cases hrefresh : tokenSet.refreshToken with
  | none =>
      apply hkept hrefresh
      simpa [signedIn, hrefresh] using hheld
  | some refreshToken =>
      obtain rfl : refreshToken = held := by simpa [signedIn, hrefresh] using hheld
      simp only [hrefresh, Option.all_some, decide_eq_true_eq] at htoken
      exact htoken.trans haccount.symm

/-- A step-up that is confirmed was confirmed by a sign-in after its request. -/
theorem Late.confirmed {asked : Asked} {pending : Pending} {signIn : SignIn} {tokenSet : TokenSet}
    (h : Late asked pending signIn) (hanswers : answers tokenSet signIn = true)
    (haccount : tokenSet.claims.sub = pending.sub)
    (hfresh : pending.isFresh tokenSet.claims.authTime = true) : asked.tick < signIn.tick := by
  simp only [answers, Bool.and_eq_true, Bool.or_eq_true, decide_eq_true_eq] at hanswers
  obtain ⟨⟨hsub, htime⟩, -⟩ := hanswers
  rcases h with hlater | hother | ⟨hstale, hzero⟩
  · exact hlater
  · exact absurd (hsub.symm.trans haccount) hother
  · rcases htime with htime | htime
    · rw [htime, hstale] at hfresh
      cases hfresh
    · rw [htime, hzero] at hfresh
      cases hfresh

@[simp] theorem confirms_error {query : Query} {error : HttpError} {later : Int} :
    confirms s query (.error error) later = s.confirmed := by
  cases h : query.verifier <;> simp [confirms, h]

@[simp] theorem confirms_signedIn {query : Query} {path : String} {later : Int} :
    confirms s query (.ok (.signedIn path)) later = s.confirmed := by
  cases h : query.verifier <;> simp [confirms, h]

/-- A callback whose answer is about a code that the provider issued. -/
theorem Sound.called (h : Sound s) {query : Query} {answer : Option TokenSet} {later : Int}
    (hforeseen : Foreseen settings s (.callback query answer later))
    (hanswer : ∀ tokenSet ∈ answer, ∃ code ∈ s.codes,
      query.verifier = some code.verifier ∧ answers tokenSet code.signIn = true) :
    Sound (called settings s query answer later) := by
  have hlanded := landed_callback settings s.session query answer later
  unfold Auth.called
  dsimp only
  generalize (callback settings s.session query answer later).session = session at hlanded
  generalize (callback settings s.session query answer later).outcome = outcome at hlanded
  cases hlanded with
  | refused =>
      rw [confirms_error]
      exact h.renewed .same
  | unconfirmed =>
      rw [confirms_error]
      exact h.next (List.Subset.refl _) (fun _ => .inl) (by simp) h.mark
  | signedIn given =>
      rw [confirms_signedIn]
      exact h.next (List.Subset.refl _) (fun _ => .inl) h.pending (by simp [signedIn])
  | @steppedUp tokenSet pending given held verifier account fresh =>
      subst given
      obtain ⟨code, hcode, hverifier, hanswers⟩ := hanswer tokenSet rfl
      obtain ⟨-, asked, hasked, hasks, hsub, -, hlate⟩ := h.pending pending held
      have hends : code.verifier = pending.verifier :=
        Option.some.inj (hverifier.symm.trans verifier)
      obtain ⟨hpast, htick⟩ := (h.codes code hcode).1
      have hafter := (hlate code hcode hends).confirmed hanswers account fresh
      have haccount : code.signIn.account = tokenSet.claims.sub := by
        simp only [answers, Bool.and_eq_true, decide_eq_true_eq] at hanswers
        exact hanswers.1.1.symm
      apply h.next (List.Subset.refl _) (fun _ => .inl)
      · intro other hother
        cases hother
      · intro mark hmark
        obtain rfl : seconds later = mark := Option.some.inj hmark
        refine ⟨tokenSet.claims, rfl, ?_, ?_⟩
        · have hconfirmed : ({ verifier := pending.verifier, «at» := later, tick := s.tick } :
              Confirmed) ∈ confirms s query (.ok (.steppedUp pending.next)) later := by
            simp only [confirms, verifier]
            exact List.mem_cons_self
          exact ⟨asked, hasked, hsub.trans account.symm, _, hconfirmed, hasks.symm, rfl,
            code.signIn, hpast, haccount, hafter, htick⟩
        · exact held_signedIn hanswers (hforeseen ⟨pending, held, verifier⟩)

/-! ### The other steps -/

theorem login_eq (session : Session) (next : String) :
    ∃ dest, login session next = { session with postLoginRedirect := dest } := by
  unfold login
  split
  · exact ⟨_, rfl⟩
  · exact ⟨session.postLoginRedirect, rfl⟩

theorem Sound.login (h : Sound s) (next verifier : String) :
    Sound { s with
      session := login s.session next, issued := verifier :: s.issued, tick := s.tick + 1 } := by
  obtain ⟨dest, hdest⟩ := login_eq s.session next
  rw [hdest]
  apply h.next (List.subset_cons_self _ _) (fun _ => .inl)
  · intro pending hpending
    exact (h.pending pending hpending).mono (List.subset_cons_self _ _) (List.Subset.refl _) rfl rfl
  · exact h.mark

/-- A request to step up is refused, or leaves the account that asked in the pending entry. -/
theorem stepUp_cases (settings : Settings) (session : Session) (now later : Int)
    (answer : Option TokenSet) (verifier next : String) :
    (∃ error, (stepUp settings session now later answer verifier next).outcome = .error error ∧
      (stepUp settings session now later answer verifier next).session =
        (requireAdmin settings session now later answer).session) ∨
    ∃ user, (requireAdmin settings session now later answer).outcome = .ok user ∧
      (stepUp settings session now later answer verifier next).outcome = .ok user ∧
      (stepUp settings session now later answer verifier next).session =
        { (requireAdmin settings session now later answer).session with
          stepUpPending := some
            { verifier, sub := user.sub, «at» := seconds later, authTime := user.authTime
              next := (safeNext next).getD "/" } } := by
  unfold stepUp
  cases houtcome : (requireAdmin settings session now later answer).outcome with
  | error error => exact .inl ⟨error, by simp [houtcome], by simp [houtcome]⟩
  | ok user => exact .inr ⟨user, rfl, by simp [houtcome], by simp [houtcome]⟩

/-- A sign-in that the session knows does not pass for a new one, nor does an answer that keeps its
time to itself. -/
theorem Known.not_fresh {user : Claims} {later : Int} {signIn : SignIn}
    (h : Known user later signIn) {pending : Pending} (hat : pending.at = seconds later)
    (htime : pending.authTime = user.authTime) :
    pending.isFresh signIn.authTime = false ∧ pending.isFresh 0 = false := by
  unfold Known at h
  unfold Pending.isFresh
  rw [htime, hat]
  split at h
  · next hknown =>
      simp only [if_pos hknown, decide_eq_false_iff_not]
      omega
  · next hunknown =>
      simp only [if_neg hunknown, decide_eq_false_iff_not]
      omega

theorem Sound.stepUp (h : Sound s) {now later : Int} {answer : Option TokenSet}
    {verifier next : String} (hforeseen : Foreseen settings s (.stepUp now later answer verifier next))
    (hnew : verifier ∉ s.issued) (hrenews : renews s.session answer = true) :
    Sound { s with
      session := (stepUp settings s.session now later answer verifier next).session
      issued := verifier :: s.issued
      asked := match (stepUp settings s.session now later answer verifier next).outcome with
        | .ok user => { verifier, sub := user.sub, tick := s.tick } :: s.asked
        | .error _ => s.asked
      tick := s.tick + 1 } := by
  have hrenewed := renewed_requireAdmin settings now later hrenews
  have hmark := Owned.renewed hrenewed h.mark
  obtain ⟨error, houtcome, hsession⟩ | ⟨user, hadmin, houtcome, hsession⟩ :=
    stepUp_cases settings s.session now later answer verifier next
  · rw [hsession, houtcome]
    apply h.next (List.subset_cons_self _ _) (fun _ => .inl)
    · intro pending hpending
      exact (h.pending pending (hrenewed.pending_eq hpending)).mono (List.subset_cons_self _ _)
        (List.Subset.refl _) rfl rfl
    · exact hmark
  · rw [hsession, houtcome]
    apply h.next (List.subset_cons_self _ _)
    · intro other hother
      rcases List.mem_cons.1 hother with rfl | hother
      · exact .inr rfl
      · exact .inl hother
    · intro pending hpending
      obtain rfl := Option.some.inj hpending
      refine ⟨List.mem_cons_self, _, List.mem_cons_self, rfl, rfl, ?_, ?_⟩
      · intro signIn hsignIn
        by_cases haccount : signIn.account = user.sub
        · exact .inr (.inr ((hforeseen user hadmin signIn hsignIn haccount).not_fresh rfl rfl))
        · exact .inr (.inl haccount)
      · intro code hcode hverifier
        change code.verifier = verifier at hverifier
        exact absurd (hverifier ▸ (h.codes code hcode).2) hnew
    · intro mark hmarked
      exact (hmark mark hmarked).mono (List.subset_cons_self _ _) (List.Subset.refl _)
        (List.Subset.refl _)

/-- A request to a guarded page leaves the session of the check that it is an administrator's. -/
theorem requireStepUp_session (session : Session) (now later : Int) (answer : Option TokenSet)
    (path : String) : (requireStepUp settings session now later answer path).session =
      (requireAdmin settings session now later answer).session := by
  unfold requireStepUp
  dsimp only
  split
  · rfl
  · split <;> rfl

theorem renewed_logout (session : Session) (csrf : Bool) :
    Renewed session (logout session csrf) := by
  unfold logout
  split
  · exact .cleared
  · split
    · exact .cleared
    · exact .same

/-- An answer without an access token renews nothing. -/
theorem renews_filter {session : Session} {answer : Option TokenSet} {keep : TokenSet → Bool}
    (h : renews session answer = true) : renews session (answer.filter keep) = true := by
  cases answer with
  | none => exact h
  | some tokenSet =>
      by_cases hkeep : keep tokenSet = true
      · simpa [Option.filter, hkeep] using h
      · simp [Option.filter, hkeep, renews]

/-! ### The provider -/

/-- A step of the provider leaves the session alone: it is enough that no sign-in of an account that
is stepping up is taken for a new one. -/
theorem Sound.provided (h : Sound s) {provider : Option SignIn} {codes : List Code}
    {signIns : List SignIn} (hgrows : s.signIns ⊆ signIns)
    (hprovider : ∀ signIn ∈ provider,
      signIn ∈ s.provider ∨ (signIn ∈ signIns ∧ signIn.tick = s.tick))
    (hcodes : ∀ code ∈ codes,
      code ∈ s.codes ∨ (code.signIn ∈ s.provider ∧ code.verifier ∈ s.issued)) :
    Sound { s with provider, codes, signIns, tick := s.tick + 1 } where
  provider := by
    intro signIn hsignIn
    rcases hprovider signIn hsignIn with hopen | ⟨hnew, htick⟩
    · exact ⟨hgrows (h.provider signIn hopen).1, Nat.lt_succ_of_lt (h.provider signIn hopen).2⟩
    · exact ⟨hnew, Nat.lt_succ_of_le (Nat.le_of_eq htick)⟩
  codes := by
    intro code hcode
    rcases hcodes code hcode with hissued | ⟨hopen, hverifier⟩
    · obtain ⟨⟨hmem, htick⟩, hverifier⟩ := h.codes code hissued
      exact ⟨⟨hgrows hmem, Nat.lt_succ_of_lt htick⟩, hverifier⟩
    · obtain ⟨hmem, htick⟩ := h.provider _ hopen
      exact ⟨⟨hgrows hmem, Nat.lt_succ_of_lt htick⟩, hverifier⟩
  asked := fun asked hasked => Nat.lt_succ_of_lt (h.asked asked hasked)
  pending := by
    intro pending hpending
    obtain ⟨hverifier, asked, hasked, hasks, hsub, hopen, hissue⟩ := h.pending pending hpending
    refine ⟨hverifier, asked, hasked, hasks, hsub, ?_, ?_⟩
    · intro signIn hsignIn
      rcases hprovider signIn hsignIn with hbefore | ⟨-, htick⟩
      · exact hopen signIn hbefore
      · exact .inl (htick ▸ h.asked asked hasked)
    · intro code hcode hends
      rcases hcodes code hcode with hissued | ⟨hnow, -⟩
      · exact hissue code hissued hends
      · exact hopen _ hnow
  mark := by
    intro mark hmark
    exact Owned.mono (s := s) (List.Subset.refl _) hgrows (List.Subset.refl _)
      (h.mark mark hmark)

/-! ### Every step -/

theorem redeemed_some {codes : List Code} {query : Query} {tokenSet : TokenSet} {code : Code}
    (h : redeemed codes query tokenSet = some code) :
    code ∈ codes ∧ query.verifier = some code.verifier ∧ answers tokenSet code.signIn = true := by
  have hfound := List.find?_some h
  simp only [Bool.and_eq_true, decide_eq_true_eq] at hfound
  exact ⟨List.mem_of_find?_eq_some h, hfound.1.2, hfound.2⟩

/-- A code that has been used is gone. -/
theorem Sound.forget (h : Sound s) (code : Code) :
    Sound { s with codes := s.codes.erase code } where
  provider := h.provider
  codes := fun other hother => h.codes other (List.mem_of_mem_erase hother)
  asked := h.asked
  pending := by
    intro pending hpending
    obtain ⟨hverifier, asked, hasked, hasks, hsub, hopen, hissue⟩ := h.pending pending hpending
    exact ⟨hverifier, asked, hasked, hasks, hsub, hopen,
      fun other hother => hissue other (List.mem_of_mem_erase hother)⟩
  mark := h.mark

theorem sound_step (h : Sound s) (hforeseen : Foreseen settings s e)
    (hstep : step settings s e = some s') : Sound s' := by
  cases e with
  | login next verifier =>
      simp only [step] at hstep
      split at hstep
      · cases hstep
      · obtain rfl := Option.some.inj hstep
        exact h.login next verifier
  | stepUp now later answer verifier next =>
      simp only [step] at hstep
      split at hstep
      · cases hstep
      · next hnew =>
          obtain rfl := Option.some.inj hstep
          simp only [Bool.or_eq_true, decide_eq_true_eq, Bool.not_eq_true', not_or,
            Bool.not_eq_false] at hnew
          exact h.stepUp hforeseen hnew.1 hnew.2
  | callback query answer later =>
      cases answer with
      | none =>
          obtain rfl := Option.some.inj hstep
          exact h.called hforeseen (by simp)
      | some tokenSet =>
          obtain ⟨code, hcode, rfl⟩ := Option.map_eq_some_iff.1 hstep
          obtain ⟨hmem, hverifier, hanswers⟩ := redeemed_some hcode
          have hcalled : Sound (called settings s query (some tokenSet) later) := by
            apply h.called hforeseen
            intro other hother
            obtain rfl := Option.some.inj hother
            exact ⟨code, hmem, hverifier, hanswers⟩
          exact hcalled.forget code
  | request now later answer =>
      simp only [step] at hstep
      split at hstep
      · next hrenews =>
          obtain rfl := Option.some.inj hstep
          exact h.renewed (renewed_getCurrentUser now later hrenews)
      · cases hstep
  | guarded now later answer path =>
      simp only [step] at hstep
      split at hstep
      · next hrenews =>
          obtain rfl := Option.some.inj hstep
          rw [requireStepUp_session]
          exact h.renewed (renewed_requireAdmin settings now later hrenews)
      · cases hstep
  | accessToken answer =>
      simp only [step] at hstep
      split at hstep
      · next hrenews =>
          obtain rfl := Option.some.inj hstep
          exact h.renewed (renewed_refreshSession (renews_filter hrenews))
      · cases hstep
  | logout csrf =>
      obtain rfl := Option.some.inj hstep
      exact h.renewed (renewed_logout s.session csrf)
  | signIn account now clock =>
      obtain rfl := Option.some.inj hstep
      apply h.provided (List.subset_cons_self _ _)
      · intro signIn hsignIn
        obtain rfl := Option.some.inj hsignIn
        exact .inr ⟨List.mem_cons_self, rfl⟩
      · exact fun code => .inl
  | signOut =>
      obtain rfl := Option.some.inj hstep
      exact h.provided (List.Subset.refl _) (by simp) (fun code => .inl)
  | authorize verifier code =>
      simp only [step] at hstep
      cases hprovider : s.provider with
      | none => simp [hprovider] at hstep
      | some signIn =>
          simp only [hprovider] at hstep
          split at hstep
          · next hissued =>
              obtain rfl := Option.some.inj hstep
              rw [← hprovider]
              apply h.provided (List.Subset.refl _) (fun signIn => .inl)
              intro other hother
              rcases List.mem_cons.1 hother with rfl | hbefore
              · exact .inr ⟨hprovider, hissued⟩
              · exact .inl hbefore
          · cases hstep

/-! ### Every run -/

/-- A guarded request is admitted for the account in the session it goes on with, under a mark that
is less than five minutes old. -/
theorem requireStepUp_ok {session : Session} {now later : Int} {answer : Option TokenSet}
    {path : String} {user : Claims}
    (h : (requireStepUp settings session now later answer path).outcome = .ok user) :
    (requireAdmin settings session now later answer).session.user = some user ∧
      ∃ mark, (requireAdmin settings session now later answer).session.stepUpAt = some mark ∧
        later - mark * second < stepUpSeconds * second := by
  unfold requireStepUp at h
  dsimp only at h
  split at h
  · next error herror =>
      rw [herror] at h
      cases h
  · next held hheld =>
      split at h
      · next hmark =>
          refine ⟨requireAdmin_ok h, ?_⟩
          unfold steppedUp at hmark
          split at hmark
          · cases hmark
          · next mark hmarked =>
              simp only [Bool.and_eq_true, decide_eq_true_eq] at hmark
              exact ⟨mark, hmarked, hmark.2⟩
      · cases h

/-- A mark counts whole seconds, so it is no younger than the callback that set it. -/
theorem seconds_le (now : Int) : seconds now * second ≤ now :=
  Int.ediv_mul_le now (by decide)

/-- The provider answers a guarded request about the account whose refresh token it presents. -/
theorem renews_of_guarded {now later : Int} {answer : Option TokenSet} {path : String}
    (h : step settings s (.guarded now later answer path) = some s') :
    renews s.session answer = true := by
  simp only [step] at h
  split at h
  · next hrenews => exact hrenews
  · cases h

theorem stepUp_runs (settings : Settings) {s s' : State}
    (h : Runs.Reaches (step settings) (Foreseen settings) {} s) {now later : Int}
    {answer : Option TokenSet} {path : String} {user : Claims}
    (hstep : step settings s (.guarded now later answer path) = some s')
    (hadmitted : (requireStepUp settings s.session now later answer path).outcome = .ok user) :
    RealStepUp s user later := by
  have hsound : Sound s := h.invariant sound_start fun _ _ _ => sound_step
  have hrenewed := renewed_requireAdmin settings now later (renews_of_guarded hstep)
  obtain ⟨huser, mark, hmark, hrecent⟩ := requireStepUp_ok hadmitted
  obtain ⟨holder, hholder, hmarked, -⟩ := Owned.renewed hrenewed hsound.mark mark hmark
  obtain rfl : holder = user := Option.some.inj (hholder.symm.trans huser)
  obtain ⟨asked, hasked, hsub, confirmed, hconfirmed, hverifier, hat, hsignIn⟩ := hmarked
  refine ⟨asked, hasked, hsub, confirmed, hconfirmed, hverifier, ?_, hsignIn⟩
  have hsince := seconds_le confirmed.at
  rw [hat] at hsince
  omega

/-! ### A step-up, and a silent one -/

def exampleSettings : Settings where
  managerAdminRole := "manager-admin"
  managerUserRole := "manager-user"

/-- What the provider answers about an administrator who signed in at a time. -/
def adminTokens (authTime : Int) : TokenSet where
  claims :=
    { sub := "anna", preferredUsername := "anna", roles := ["manager-admin"], exp := 9000, authTime }
  refreshToken := some { account := "anna" }

def adminCallback (verifier : String) (later : Int) (authTime : Int) : Event :=
  .callback { verifier := some verifier, code := verifier } (some (adminTokens authTime)) later

/-- An administrator signs in, asks to step up, signs in again and comes back. -/
def signedInAgain : List Event :=
  [.login "/" "first", .signIn "anna" (1000 * second) (1000 * second), .authorize "first" "first",
    adminCallback "first" (1001 * second) 1000,
    .stepUp (2000 * second) (2000 * second) none "second" "/nodes",
    .signIn "anna" (2010 * second) (2011 * second), .authorize "second" "second",
    adminCallback "second" (2012 * second) 2011]

/-- The administrator signs in again in another client first, and the step-up is answered without
asking for anything. -/
def signedInElsewhere : List Event :=
  [.login "/" "first", .signIn "anna" (1000 * second) (1000 * second), .authorize "first" "first",
    adminCallback "first" (1001 * second) 1000,
    .signIn "anna" (1500 * second) (1500 * second),
    .stepUp (2000 * second) (2000 * second) none "second" "/nodes", .authorize "second" "second",
    adminCallback "second" (2001 * second) 1500]

/-- The state a list of events leads to. -/
def afterEvents (events : List Event) : State :=
  (Runs.replay (step exampleSettings) {} events).getD {}

theorem signedInAgain_foreseen :
    Runs.Permits (step exampleSettings) (Foreseen exampleSettings) {} signedInAgain := by
  refine .cons trivial rfl (.cons trivial rfl (.cons trivial rfl (.cons ?_ rfl (.cons ?_ rfl
    (.cons trivial rfl (.cons trivial rfl (.cons ?_ rfl trivial)))))))
  · intro _ hnone
    cases hnone
  · intro user huser signIn hsignIn _
    obtain rfl : (adminTokens 1000).claims = user := Except.ok.inj huser
    obtain rfl := Option.some.inj hsignIn
    exact Int.le_refl 1000
  · intro _ hnone
    cases hnone

theorem stepUp_runs_signedInAgain :
    RealStepUp (afterEvents signedInAgain) (adminTokens 2011).claims (2020 * second) := by
  have hstep : step exampleSettings (afterEvents signedInAgain)
      (.guarded (2020 * second) (2020 * second) none "/nodes") =
      some (afterEvents
        (signedInAgain ++ [.guarded (2020 * second) (2020 * second) none "/nodes"])) := rfl
  exact stepUp_runs exampleSettings (Runs.reaches_of_replay signedInAgain_foreseen rfl) hstep rfl

theorem signedInElsewhere_clocked :
    Runs.Permits (step exampleSettings) Clocked {} signedInElsewhere := by
  refine .cons trivial rfl (.cons ?_ rfl (.cons trivial rfl (.cons trivial rfl (.cons ?_ rfl
    (.cons trivial rfl (.cons trivial rfl (.cons trivial rfl trivial)))))))
  · exact ⟨by decide, by decide⟩
  · exact ⟨by decide, by decide⟩

/-- A silent sign-in passes for the step-up when the session does not know the last real one. -/
theorem silent_stepUp_admitted :
    ¬∀ (settings : Settings) (s s' : State), Runs.Reaches (step settings) Clocked {} s →
      ∀ (now later : Int) (answer : Option TokenSet) (path : String) (user : Claims),
        step settings s (.guarded now later answer path) = some s' →
        (requireStepUp settings s.session now later answer path).outcome = .ok user →
        RealStepUp s user later := by
  intro h
  obtain ⟨asked, hasked, -, confirmed, -, -, -, signIn, hsignIn, -, hafter, -⟩ :=
    h exampleSettings (afterEvents signedInElsewhere)
      (afterEvents (signedInElsewhere ++ [.guarded (2010 * second) (2010 * second) none "/nodes"]))
      (Runs.reaches_of_replay signedInElsewhere_clocked rfl)
      (2010 * second) (2010 * second) none "/nodes" (adminTokens 1500).claims rfl rfl
  have hnever : ∀ asked ∈ (afterEvents signedInElsewhere).asked,
      ∀ signIn ∈ (afterEvents signedInElsewhere).signIns, ¬asked.tick < signIn.tick := by
    decide
  exact hnever asked hasked signIn hsignIn hafter

end Papaia.Auth
