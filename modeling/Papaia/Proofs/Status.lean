/-
Module: Papaia.Proofs.Status
Purpose: When a reading of the stack or of the nodes is not served after a change: no invalidation
  falls between the start of a query and the moment at which its answer is kept.
Trusted boundary: none
Main exports: Lawful, Foreseen, Sound, sound_step, readings_runs
-/
import Papaia.Stack.Status
import Papaia.Lib.Runs

namespace Papaia.Stack.Status

open Cached

/-- A member of a list with one changed element is an old one, or the changed one. -/
theorem mem_modify {α : Type} {l : List α} {i : Nat} {f : α → α} {a : α} (h : a ∈ l.modify i f) :
    a ∈ l ∨ ∃ old, l[i]? = some old ∧ a = f old := by
  obtain ⟨j, hj, rfl⟩ := List.mem_iff_getElem.1 h
  have hlength : j < l.length := by
    simpa using hj
  rw [List.getElem_modify]
  split
  · next hsame =>
      subst hsame
      exact .inr ⟨l[i], List.getElem?_eq_getElem hlength, rfl⟩
  · exact .inl (List.getElem_mem hlength)

/-! ### The snapshot -/

namespace Snapshot

variable {α : Type}

/-- No call is answered with a reading whose query began before an invalidation that had returned
when the call started. -/
def Lawful (s : State α) : Prop :=
  ∀ call ∈ s.calls, ∀ reading, call.phase = .answered reading →
    Serves s.history call.started reading.begun

/-- What an answer finds that is kept: no invalidation since its query began, or a time stamp that is
too old by now; for a query that failed, no invalidation that also returned. -/
def Kept (h : History) (now : Int) : Phase α → Option α → Prop
  | .querying (some stamp) begun, some _ =>
      Fresh h begun ∨ statusTtlSeconds * second ≤ now - stamp
  | .querying none begun, some _ => Fresh h begun
  | .querying none begun, none => Settled h begun
  | _, _ => True

def Foreseen (s : State α) : Event α → Prop
  | .answer i now output => ∀ call ∈ s.calls[i]?, Kept s.history now call.phase output
  | _ => True

/-- What holds of a call. -/
structure Fits (h : History) (call : Call α) : Prop where
  started : call.started ≤ h.tick
  querying : ∀ stamp begun, call.phase = .querying stamp begun → call.started ≤ begun
  answered : ∀ reading, call.phase = .answered reading → Serves h call.started reading.begun

structure Sound (s : State α) : Prop where
  ordered : s.history.Ordered
  cache : Holds (Fresh s.history) s.cache (statusTtlSeconds * second) s.clock
  failed : Holds (Settled s.history) s.statusFailedAt (statusFailureTtlSeconds * second) s.clock
  calls : ∀ call ∈ s.calls, Fits s.history call

theorem sound_start : Sound ({} : State α) where
  ordered := ordered_start
  cache := holds_none
  failed := holds_none
  calls := by simp

variable {s s' : State α} {i : Nat} {call : Call α} {now : Int}

/-- Time passes. -/
theorem Sound.wait (h : Sound s) (hnow : s.clock ≤ now) : Sound { s with clock := now } where
  ordered := h.ordered
  cache := h.cache.imp (fun _ hbegun => hbegun) hnow
  failed := h.failed.imp (fun _ hbegun => hbegun) hnow
  calls := h.calls

theorem Sound.next (h : Sound s) : Sound { s with history := s.history.next } where
  ordered := h.ordered.next
  cache := h.cache
  failed := h.failed
  calls := fun call hmem =>
    { started := Nat.le_succ_of_le (h.calls call hmem).started
      querying := (h.calls call hmem).querying
      answered := (h.calls call hmem).answered }

/-- A call takes a step; what is kept may change with it. -/
theorem Sound.setPhase (h : Sound s) (hcall : s.calls[i]? = some call) {phase : Phase α}
    (hquerying : ∀ stamp begun, phase = .querying stamp begun → call.started ≤ begun)
    (hanswered : ∀ reading, phase = .answered reading →
      Serves s.history call.started reading.begun) :
    Sound (setPhase s i phase) where
  ordered := h.ordered
  cache := h.cache
  failed := h.failed
  calls := by
    intro other hmem
    rcases mem_modify hmem with hold | ⟨old, hfound, rfl⟩
    · exact h.calls other hold
    · obtain rfl := Option.some.inj (hcall.symm.trans hfound)
      exact ⟨(h.calls call (List.mem_of_getElem? hcall)).started, hquerying, hanswered⟩

/-- A call moves on without a query and without an answer. -/
theorem Sound.move (h : Sound s) (hcall : s.calls[i]? = some call) {phase : Phase α}
    (hquerying : ∀ stamp begun, phase ≠ .querying stamp begun)
    (hanswered : ∀ reading, phase ≠ .answered reading) : Sound (Snapshot.setPhase s i phase) :=
  h.setPhase hcall (fun stamp begun heq => absurd heq (hquerying stamp begun))
    fun reading heq => absurd heq (hanswered reading)

/-- A call is answered. -/
theorem Sound.answer (h : Sound s) (hcall : s.calls[i]? = some call) {reading : Answer α}
    (hserves : Serves s.history call.started reading.begun) :
    Sound (Snapshot.setPhase s i (.answered reading)) := by
  apply h.setPhase hcall
  · intro _ _ heq
    cases heq
  · intro _ heq
    cases heq
    exact hserves

theorem Sound.begin (h : Sound s) (hcall : s.calls[i]? = some call) (stamp : Option Int) :
    Sound (Snapshot.setPhase s i (.querying stamp s.history.tick)) := by
  apply h.setPhase hcall
  · intro _ _ heq
    cases heq
    exact (h.calls call (List.mem_of_getElem? hcall)).started
  · intro _ heq
    cases heq

theorem sound_lookUp (h : Sound s) (hcall : s.calls[i]? = some call) (hnow : s.clock = now)
    (distributed : Bool) : Sound (lookUp s i now distributed) := by
  unfold lookUp
  split
  · next reading hfind =>
      have hcache := h.cache
      rw [hnow] at hcache
      exact h.answer hcall (hcache.find (by decide) hfind).settled.serves
  · apply h.move hcall
    · intro _ _ heq
      cases distributed <;> cases heq
    · intro _ heq
      cases distributed <;> cases heq

theorem sound_acquire (h : Sound s) (hcall : s.calls[i]? = some call) (hnow : s.clock = now) :
    Sound (acquire s i now) := by
  unfold acquire
  split
  · next reading hfind =>
      have hcache := h.cache
      rw [hnow] at hcache
      exact h.answer hcall (hcache.find (Int.le_refl _) hfind).settled.serves
  · split
    · next reading hfind =>
        have hfailed := h.failed
        rw [hnow] at hfailed
        exact h.answer hcall (hfailed.find (Int.le_refl _) hfind).serves
    · have hmoved : Sound (setPhase s i .locked) :=
        h.move hcall (fun _ _ heq => nomatch heq) fun _ heq => nomatch heq
      exact ⟨hmoved.ordered, hmoved.cache, hmoved.failed, hmoved.calls⟩

/-- The answer to its own query serves a call. -/
theorem Sound.own (h : Sound s) (hcall : s.calls[i]? = some call) {stamp : Option Int} {begun : Nat}
    (hphase : call.phase = .querying stamp begun) : Serves s.history call.started begun :=
  serves_own h.ordered ((h.calls call (List.mem_of_getElem? hcall)).querying stamp begun hphase)

theorem sound_stored (h : Sound s) (hcall : s.calls[i]? = some call) {stamp : Int} {begun : Nat}
    (hphase : call.phase = .querying (some stamp) begun) {output : Option α}
    (hkept : Kept s.history s.clock call.phase output) : Sound (stored s i stamp begun output) := by
  have hown := h.own hcall hphase
  rw [hphase] at hkept
  cases output with
  | none => exact h.answer hcall hown
  | some snapshot =>
      have hanswered : Sound (setPhase s i (.answered ⟨begun, some snapshot⟩)) :=
        h.answer hcall hown
      exact ⟨hanswered.ordered, holds_some hkept, hanswered.failed, hanswered.calls⟩

theorem sound_storedDistributed (h : Sound s) (hcall : s.calls[i]? = some call) {begun : Nat}
    (hphase : call.phase = .querying none begun) {output : Option α}
    (hkept : Kept s.history s.clock call.phase output) :
    Sound (storedDistributed s i begun now output) := by
  have hown := h.own hcall hphase
  rw [hphase] at hkept
  cases output with
  | none =>
      have hanswered : Sound (setPhase s i (.answered ⟨begun, none⟩)) := h.answer hcall hown
      exact ⟨hanswered.ordered, hanswered.cache, holds_some (.inl hkept), hanswered.calls⟩
  | some snapshot =>
      have hanswered : Sound (setPhase s i (.answered ⟨begun, some snapshot⟩)) :=
        h.answer hcall hown
      exact ⟨hanswered.ordered, holds_some (.inl hkept), holds_none, hanswered.calls⟩

theorem sound_stepCall {e : Event α} (h : Sound s) (hcall : s.calls[i]? = some call)
    (htarget : e.target s = some (i, now)) (hclock : s.clock ≤ now) (hforeseen : Foreseen s e)
    (htaken : stepCall s i call.phase e = some s') : Sound s' := by
  cases e with
  | call | invalidate | invalidated => cases htarget
  | lookUp _ _ distributed =>
      cases htarget
      simp only [stepCall] at htaken
      split at htaken
      · cases htaken
        exact sound_lookUp (h.wait hclock) hcall rfl distributed
      · cases htaken
  | acquire =>
      cases htarget
      simp only [stepCall] at htaken
      split at htaken
      · simp only [Option.ite_none_left_eq_some] at htaken
        cases htaken.2
        exact sound_acquire (h.wait hclock) hcall rfl
      · cases htaken
  | query =>
      cases htarget
      simp only [stepCall] at htaken
      split at htaken
      · cases htaken
        exact h.begin hcall _
      · cases htaken
        exact h.begin hcall _
      · cases htaken
  | answer _ _ output =>
      cases htarget
      have hkept := hforeseen call hcall
      simp only [stepCall] at htaken
      split at htaken
      · next hphase =>
          cases htaken
          exact sound_stored (h.wait hclock) hcall hphase hkept
      · next hphase =>
          cases htaken
          exact sound_storedDistributed (h.wait hclock) hcall hphase hkept
      · cases htaken

theorem sound_call (h : Sound s) : Sound { s with
    calls := s.calls ++ [{ started := s.history.tick }], history := s.history.next } := by
  have hnext := h.next
  refine ⟨hnext.ordered, hnext.cache, hnext.failed, ?_⟩
  intro call hmem
  rcases List.mem_append.1 hmem with hold | hnew
  · exact hnext.calls call hold
  · obtain rfl := List.mem_singleton.1 hnew
    exact ⟨Nat.le_succ _, fun _ _ heq => (nomatch heq), fun _ heq => (nomatch heq)⟩

/-- The first half of an invalidation leaves nothing in the cache. -/
theorem sound_invalidate (h : Sound s) :
    Sound { s with cache := none, history := s.history.invalidate none } where
  ordered := h.ordered.invalidate fun _ hnone => nomatch hnone
  cache := holds_none
  failed := by
    apply h.failed.imp _ (Int.le_refl _)
    intro begun hsettled invalidation hmem hreturned
    rcases List.mem_cons.1 hmem with rfl | hold
    · cases hreturned
    · exact hsettled invalidation hold hreturned
  calls := fun call hmem =>
    { started := Nat.le_succ_of_le (h.calls call hmem).started
      querying := (h.calls call hmem).querying
      answered := fun reading hphase => ((h.calls call hmem).answered reading hphase).invalidate
        (h.calls call hmem).started fun _ hnone => nomatch hnone }

theorem sound_invalidated (h : Sound s) (k : Nat) :
    Sound { s with statusFailedAt := none, history := s.history.return k } where
  ordered := h.ordered.return
  cache := h.cache.imp (fun _ hfresh => hfresh.return) (Int.le_refl _)
  failed := holds_none
  calls := fun call hmem =>
    { started := Nat.le_succ_of_le (h.calls call hmem).started
      querying := (h.calls call hmem).querying
      answered := fun reading hphase => ((h.calls call hmem).answered reading hphase).return
        (h.calls call hmem).started }

/-- A step that is taken is one of a call, unless a call starts or an invalidation drops things. -/
theorem step_cases {e : Event α} (h : step s e = some s') :
    (e = .call ∧ s' = { s with
        calls := s.calls ++ [{ started := s.history.tick }], history := s.history.next }) ∨
      (e = .invalidate ∧
        s' = { s with cache := none, history := s.history.invalidate none }) ∨
      (∃ k, e = .invalidated k ∧
        s' = { s with statusFailedAt := none, history := s.history.return k }) ∨
      ∃ i now call after, e.target s = some (i, now) ∧ s.clock ≤ now ∧ s.calls[i]? = some call ∧
        stepCall s i call.phase e = some after ∧ s' = { after with history := s.history.next } := by
  unfold step at h
  split at h
  · cases h
    exact .inl ⟨rfl, rfl⟩
  · cases h
    exact .inr (.inl ⟨rfl, rfl⟩)
  · simp only [Option.ite_none_right_eq_some, Option.some.injEq] at h
    exact .inr (.inr (.inl ⟨_, rfl, h.2.symm⟩))
  · obtain ⟨⟨i, now⟩, htarget, h⟩ := Option.bind_eq_some_iff.1 h
    simp only [Option.ite_none_right_eq_some] at h
    obtain ⟨hclock, h⟩ := h
    obtain ⟨call, hcall, h⟩ := Option.bind_eq_some_iff.1 h
    obtain ⟨after, hafter, rfl⟩ := Option.map_eq_some_iff.1 h
    exact .inr (.inr (.inr ⟨i, now, call, after, htarget, hclock, hcall, hafter, rfl⟩))

/-- A step of a call is no moment for an invalidation. -/
theorem history_stepCall {phase : Phase α} {e : Event α} (h : stepCall s i phase e = some s') :
    s'.history = s.history := by
  cases e with
  | call | invalidate | invalidated => cases h
  | lookUp =>
      simp only [stepCall] at h
      split at h
      · cases h
        unfold lookUp
        split <;> rfl
      · cases h
  | acquire =>
      simp only [stepCall] at h
      split at h
      · simp only [Option.ite_none_left_eq_some] at h
        cases h.2
        unfold acquire
        split
        · rfl
        · split <;> rfl
      · cases h
  | query =>
      simp only [stepCall] at h
      split at h <;> cases h <;> rfl
  | answer _ _ output =>
      simp only [stepCall] at h
      split at h <;> cases h <;> cases output <;> rfl

theorem sound_step {e : Event α} (h : Sound s) (hforeseen : Foreseen s e)
    (hstep : step s e = some s') : Sound s' := by
  rcases step_cases hstep with ⟨-, rfl⟩ | ⟨-, rfl⟩ | ⟨k, -, rfl⟩ |
    ⟨i, now, call, after, htarget, hclock, hcall, hafter, rfl⟩
  · exact sound_call h
  · exact sound_invalidate h
  · exact sound_invalidated h k
  · rw [← history_stepCall hafter]
    exact (sound_stepCall h hcall htarget hclock hforeseen hafter).next

theorem lawful_of_sound (h : Sound s) : Lawful s :=
  fun call hmem => (h.calls call hmem).answered

end Snapshot

/-! ### The overview -/

namespace Overview

variable {ν : Type}

def Lawful (s : State ν) : Prop :=
  ∀ call ∈ s.calls, ∀ reading, call.phase = .answered reading →
    Serves s.history call.started reading.begun

/-- No invalidation since the query began whose answer is kept. -/
def Foreseen (s : State ν) : Event ν → Prop
  | .answer i _ (some _) => ∀ call ∈ s.calls[i]?, ∀ begun, call.phase = .querying begun →
      Fresh s.history begun
  | _ => True

structure Fits (h : History) (call : Call ν) : Prop where
  started : call.started ≤ h.tick
  querying : ∀ begun, call.phase = .querying begun → call.started ≤ begun
  answered : ∀ reading, call.phase = .answered reading → Serves h call.started reading.begun

structure Sound (s : State ν) : Prop where
  ordered : s.history.Ordered
  cache : Holds (Fresh s.history) s.overviewCache (overviewTtlSeconds * second) s.clock
  calls : ∀ call ∈ s.calls, Fits s.history call

theorem sound_start : Sound ({} : State ν) where
  ordered := ordered_start
  cache := holds_none
  calls := by simp

variable {s s' : State ν} {i : Nat} {call : Call ν} {now : Int}

theorem Sound.wait (h : Sound s) (hnow : s.clock ≤ now) : Sound { s with clock := now } where
  ordered := h.ordered
  cache := h.cache.imp (fun _ hbegun => hbegun) hnow
  calls := h.calls

theorem Sound.next (h : Sound s) : Sound { s with history := s.history.next } where
  ordered := h.ordered.next
  cache := h.cache
  calls := fun call hmem =>
    { started := Nat.le_succ_of_le (h.calls call hmem).started
      querying := (h.calls call hmem).querying
      answered := (h.calls call hmem).answered }

theorem Sound.setPhase (h : Sound s) (hcall : s.calls[i]? = some call) {phase : Phase ν}
    (hquerying : ∀ begun, phase = .querying begun → call.started ≤ begun)
    (hanswered : ∀ reading, phase = .answered reading →
      Serves s.history call.started reading.begun) :
    Sound (setPhase s i phase) where
  ordered := h.ordered
  cache := h.cache
  calls := by
    intro other hmem
    rcases mem_modify hmem with hold | ⟨old, hfound, rfl⟩
    · exact h.calls other hold
    · obtain rfl := Option.some.inj (hcall.symm.trans hfound)
      exact ⟨(h.calls call (List.mem_of_getElem? hcall)).started, hquerying, hanswered⟩

theorem Sound.answer (h : Sound s) (hcall : s.calls[i]? = some call) {reading : Reading (List ν)}
    (hserves : Serves s.history call.started reading.begun) :
    Sound (Overview.setPhase s i (.answered reading)) := by
  apply h.setPhase hcall
  · intro _ heq
    cases heq
  · intro _ heq
    cases heq
    exact hserves

theorem Sound.miss (h : Sound s) (hcall : s.calls[i]? = some call) :
    Sound (Overview.setPhase s i .missed) :=
  h.setPhase hcall (fun _ heq => nomatch heq) fun _ heq => nomatch heq

theorem sound_lookUp (h : Sound s) (hcall : s.calls[i]? = some call) (hnow : s.clock = now)
    (fresh : Bool) : Sound (lookUp s i fresh now) := by
  unfold lookUp
  split
  · exact h.miss hcall
  · split
    · next reading hfind =>
        have hcache := h.cache
        rw [hnow] at hcache
        exact h.answer hcall (hcache.find (Int.le_refl _) hfind).settled.serves
    · exact h.miss hcall

theorem sound_stored (h : Sound s) (hcall : s.calls[i]? = some call) {begun : Nat}
    (hphase : call.phase = .querying begun) {states : Option (List ν)}
    (hkept : states.isSome → Fresh s.history begun) : Sound (stored s i begun now states) := by
  cases states with
  | none => exact h.setPhase hcall (fun _ heq => nomatch heq) fun _ heq => nomatch heq
  | some states =>
      have hanswered : Sound (setPhase s i (.answered ⟨begun, states⟩)) := h.answer hcall
        (serves_own h.ordered ((h.calls call (List.mem_of_getElem? hcall)).querying begun hphase))
      exact ⟨hanswered.ordered, holds_some (.inl (hkept rfl)), hanswered.calls⟩

theorem sound_stepCall {e : Event ν} (h : Sound s) (hcall : s.calls[i]? = some call)
    (htarget : e.target s = some (i, now)) (hclock : s.clock ≤ now) (hforeseen : Foreseen s e)
    (htaken : stepCall s i call.phase e = some s') : Sound s' := by
  cases e with
  | call | invalidate => cases htarget
  | lookUp =>
      cases htarget
      simp only [stepCall] at htaken
      split at htaken
      · cases htaken
        exact sound_lookUp (h.wait hclock) hcall rfl _
      · cases htaken
  | query =>
      cases htarget
      simp only [stepCall] at htaken
      split at htaken
      · cases htaken
        apply h.setPhase hcall
        · intro _ heq
          cases heq
          exact (h.calls call (List.mem_of_getElem? hcall)).started
        · intro _ heq
          cases heq
      · cases htaken
  | answer _ _ states =>
      cases htarget
      simp only [stepCall] at htaken
      split at htaken
      · next begun hphase =>
          cases htaken
          apply sound_stored (h.wait hclock) hcall hphase
          intro hsome
          cases states with
          | none => cases hsome
          | some states => exact hforeseen call hcall begun hphase
      · cases htaken

theorem history_stepCall {phase : Phase ν} {e : Event ν} (h : stepCall s i phase e = some s') :
    s'.history = s.history := by
  cases e with
  | call | invalidate => cases h
  | lookUp =>
      simp only [stepCall] at h
      split at h
      · cases h
        unfold lookUp
        split
        · rfl
        · split <;> rfl
      · cases h
  | query =>
      simp only [stepCall] at h
      split at h <;> cases h
      rfl
  | answer _ _ states =>
      simp only [stepCall] at h
      split at h
      · cases h
        cases states <;> rfl
      · cases h

theorem sound_step {e : Event ν} (h : Sound s) (hforeseen : Foreseen s e)
    (hstep : step s e = some s') : Sound s' := by
  unfold step at hstep
  split at hstep
  · cases hstep
    have hnext := h.next
    refine ⟨hnext.ordered, hnext.cache, ?_⟩
    intro call hmem
    rcases List.mem_append.1 hmem with hold | hnew
    · exact hnext.calls call hold
    · obtain rfl := List.mem_singleton.1 hnew
      exact ⟨Nat.le_succ _, fun _ heq => (nomatch heq), fun _ heq => (nomatch heq)⟩
  · cases hstep
    have hnow : ∀ moment ∈ some s.history.tick, moment = s.history.tick :=
      fun _ hmoment => (Option.some.inj hmoment).symm
    exact
      { ordered := h.ordered.invalidate hnow
        cache := holds_none
        calls := fun call hmem =>
          { started := Nat.le_succ_of_le (h.calls call hmem).started
            querying := (h.calls call hmem).querying
            answered := fun reading hphase =>
              ((h.calls call hmem).answered reading hphase).invalidate
                (h.calls call hmem).started hnow } }
  · obtain ⟨⟨i, now⟩, htarget, hstep⟩ := Option.bind_eq_some_iff.1 hstep
    simp only [Option.ite_none_right_eq_some] at hstep
    obtain ⟨hclock, hstep⟩ := hstep
    obtain ⟨call, hcall, hstep⟩ := Option.bind_eq_some_iff.1 hstep
    obtain ⟨after, hafter, rfl⟩ := Option.map_eq_some_iff.1 hstep
    rw [← history_stepCall hafter]
    exact (sound_stepCall h hcall htarget hclock hforeseen hafter).next

theorem lawful_of_sound (h : Sound s) : Lawful s :=
  fun call hmem => (h.calls call hmem).answered

end Overview

/-! ### Runs -/

/-- In every run in which no kept reading was overtaken by an invalidation, no call is answered with
one from before an invalidation that it started after. -/
theorem readings_runs {α ν : Type} {s : Snapshot.State α} {o : Overview.State ν}
    (hs : Runs.Reaches Snapshot.step Snapshot.Foreseen {} s)
    (ho : Runs.Reaches Overview.step Overview.Foreseen {} o) :
    Snapshot.Lawful s ∧ Overview.Lawful o :=
  ⟨Snapshot.lawful_of_sound (hs.invariant Snapshot.sound_start fun _ _ _ => Snapshot.sound_step),
    Overview.lawful_of_sound (ho.invariant Overview.sound_start fun _ _ _ => Overview.sound_step)⟩

/-! ### A reading that is kept in time, and one that an invalidation overtakes -/

/-- A reading is kept, dropped by an invalidation, read again and served. -/
def readAgain : List (Snapshot.Event Nat) :=
  [.call, .lookUp 0 0 false, .query 0, .answer 0 second (some 1), .invalidate, .invalidated 0,
    .call, .lookUp 1 (2 * second) true, .acquire 1 (2 * second), .query 1,
    .answer 1 (3 * second) (some 2), .call, .lookUp 2 (4 * second) true]

def listedAgain : List (Overview.Event Nat) :=
  [.call false, .lookUp 0 0, .query 0, .answer 0 second (some [1]), .invalidate, .call false,
    .lookUp 1 (2 * second), .query 1, .answer 1 (3 * second) (some [2]), .call false,
    .lookUp 2 (4 * second)]

/-- A query is under way when an invalidation comes; its answer is kept for the next call. -/
def readBefore : List (Snapshot.Event Nat) :=
  [.call, .lookUp 0 0 false, .query 0, .invalidate, .invalidated 0, .answer 0 second (some 1),
    .call, .lookUp 1 (2 * second) false]

def afterReading (events : List (Snapshot.Event Nat)) : Snapshot.State Nat :=
  (Runs.replay Snapshot.step {} events).getD {}

def afterListing (events : List (Overview.Event Nat)) : Overview.State Nat :=
  (Runs.replay Overview.step {} events).getD {}

theorem readings_runs_again :
    Snapshot.Lawful (afterReading readAgain) ∧ Overview.Lawful (afterListing listedAgain) := by
  have hread : Runs.Permits Snapshot.step Snapshot.Foreseen {} readAgain := by
    refine .cons trivial rfl (.cons trivial rfl (.cons trivial rfl (.cons ?_ rfl (.cons trivial rfl
      (.cons trivial rfl (.cons trivial rfl (.cons trivial rfl (.cons trivial rfl (.cons trivial rfl
        (.cons ?_ rfl (.cons trivial rfl (.cons trivial rfl trivial))))))))))))
    · intro call hcall
      cases hcall
      exact .inl (by decide)
    · intro call hcall
      cases hcall
      show Fresh _ _
      decide
  have hlisted : Runs.Permits Overview.step Overview.Foreseen {} listedAgain := by
    refine .cons trivial rfl (.cons trivial rfl (.cons trivial rfl (.cons ?_ rfl (.cons trivial rfl
      (.cons trivial rfl (.cons trivial rfl (.cons trivial rfl (.cons ?_ rfl (.cons trivial rfl
        (.cons trivial rfl trivial))))))))))
    · intro call hcall begun hphase
      cases hcall
      cases hphase
      decide
    · intro call hcall begun hphase
      cases hcall
      cases hphase
      decide
  exact readings_runs (Runs.reaches_of_replay hread rfl) (Runs.reaches_of_replay hlisted rfl)

/-- A call that starts after an invalidation is served what was read before it. -/
theorem overtaken_reading_served :
    ¬∀ (s : Snapshot.State Nat) (o : Overview.State Nat),
      Runs.Reaches Snapshot.step (fun _ _ => True) {} s →
      Runs.Reaches Overview.step (fun _ _ => True) {} o →
        Snapshot.Lawful s ∧ Overview.Lawful o := by
  intro h
  have hlawful := (h (afterReading readBefore) {}
    (Runs.reaches_of_replay (Runs.permits_all _ readBefore) rfl) .refl).1
  have hserves := hlawful { started := 6, phase := .answered { begun := 2, content := some 1 } }
    (by decide) _ rfl
  revert hserves
  decide

end Papaia.Stack.Status
