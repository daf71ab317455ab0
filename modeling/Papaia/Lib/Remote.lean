/-
Module: Papaia.Lib.Remote
Purpose: Programs that change a remote state by one request after another, where any request may be
  answered with an error instead, and the rules for what such a program leaves: after it returns, and
  after it raises.
Trusted boundary: a request that is answered with an error has no effect; nobody else writes meanwhile
Main exports: World, Call, ask, Triple, Triple.bind, Triple.handle, Triple.each, Triple.ask
-/
import Mathlib.Data.List.Basic

namespace Papaia.Remote

universe u

variable {σ ω ε α β : Type u}

/-- The remote state, and for each request to come the error it is answered with, if any. -/
structure World (σ ω : Type u) where
  state : σ
  outages : List (Option ω)

/-- A program: it returns or raises, and leaves the world as its requests have made it. -/
abbrev Call (σ ω ε : Type u) :=
  ExceptT ε (StateM (World σ ω))

/-- What a program returns or raises, and the world it leaves. -/
def Call.outcome (x : Call σ ω ε α) (w : World σ ω) : Except ε α × World σ ω :=
  StateT.run (ExceptT.run x) w

/-- One request.  When it is answered, what the remote state says is the answer. -/
def ask (fails : ω → ε) (request : σ → Except ε (α × σ)) : Call σ ω ε α :=
  fun w =>
    match w.outages.head?.join with
    | some outage => (.error (fails outage), { w with outages := w.outages.tail })
    | none =>
        match request w.state with
        | .error e => (.error e, { w with outages := w.outages.tail })
        | .ok (a, state) => (.ok a, { state := state, outages := w.outages.tail })

theorem outcome_bind (x : Call σ ω ε α) (f : α → Call σ ω ε β) (w : World σ ω) :
    (x >>= f).outcome w =
      match x.outcome w with
      | (.ok a, w') => (f a).outcome w'
      | (.error e, w') => (.error e, w') := by
  unfold Call.outcome ExceptT.run StateT.run
  simp only [bind, ExceptT.bind, ExceptT.mk, StateT.bind]
  cases x w with
  | mk result w' => cases result <;> rfl

theorem outcome_handle (x : Call σ ω ε α) (handler : ε → Call σ ω ε α) (w : World σ ω) :
    (tryCatch x handler).outcome w =
      match x.outcome w with
      | (.ok a, w') => (.ok a, w')
      | (.error e, w') => (handler e).outcome w' := by
  unfold Call.outcome ExceptT.run StateT.run
  simp only [tryCatch, tryCatchThe, MonadExceptOf.tryCatch, ExceptT.tryCatch, ExceptT.mk, bind,
    StateT.bind]
  cases x w with
  | mk result w' => cases result <;> rfl

theorem outcome_ask (fails : ω → ε) (request : σ → Except ε (α × σ)) (w : World σ ω) :
    (ask fails request).outcome w =
      match w.outages.head?.join with
      | some outage => (.error (fails outage), { w with outages := w.outages.tail })
      | none =>
          match request w.state with
          | .error e => (.error e, { w with outages := w.outages.tail })
          | .ok (a, state) => (.ok a, { state := state, outages := w.outages.tail }) :=
  rfl

/-- From a state with `pre` the program leaves one with `post` when it returns, and one with `raises`
when it raises. -/
def Triple (pre : σ → Prop) (x : Call σ ω ε α) (post : α → σ → Prop) (raises : ε → σ → Prop) :
    Prop :=
  ∀ w, pre w.state →
    match x.outcome w with
    | (.ok a, w') => post a w'.state
    | (.error e, w') => raises e w'.state

namespace Triple

variable {pre : σ → Prop} {x : Call σ ω ε α} {post : α → σ → Prop} {raises : ε → σ → Prop}

theorem returned (h : Triple pre x post raises) {w w' : World σ ω} {a : α} (hpre : pre w.state)
    (hrun : x.outcome w = (.ok a, w')) : post a w'.state := by
  have := h w hpre
  rwa [hrun] at this

theorem raised (h : Triple pre x post raises) {w w' : World σ ω} {e : ε} (hpre : pre w.state)
    (hrun : x.outcome w = (.error e, w')) : raises e w'.state := by
  have := h w hpre
  rwa [hrun] at this

theorem consequence {pre' : σ → Prop} {post' : α → σ → Prop} {raises' : ε → σ → Prop}
    (h : Triple pre x post raises) (hpre : ∀ s, pre' s → pre s)
    (hpost : ∀ a s, post a s → post' a s) (hraises : ∀ e s, raises e s → raises' e s) :
    Triple pre' x post' raises' := by
  intro w hw
  have := h w (hpre _ hw)
  cases hrun : x.outcome w with
  | mk result w' =>
      rw [hrun] at this
      cases result with
      | ok a => exact hpost a _ this
      | error e => exact hraises e _ this

/-- Every program leaves something. -/
theorem anything : Triple pre x (fun _ _ => True) (fun _ _ => True) := by
  intro w _
  cases x.outcome w with
  | mk result w' => cases result <;> trivial

/-- What holds from each state with `pre` holds from all of them. -/
theorem fix (h : ∀ s, pre s → Triple (· = s) x post raises) : Triple pre x post raises :=
  fun w hw => h w.state hw w rfl

theorem pure {a : α} (h : ∀ s, pre s → post a s) :
    Triple pre (Pure.pure a : Call σ ω ε α) post raises :=
  fun w hw => h w.state hw

theorem throw {e : ε} (h : ∀ s, pre s → raises e s) :
    Triple pre (throw e : Call σ ω ε α) post raises :=
  fun w hw => h w.state hw

/-- A check before the requests. -/
theorem ofExcept {checked : Except ε α} (h : ∀ e s, pre s → raises e s) :
    Triple pre (MonadExcept.ofExcept checked : Call σ ω ε α) (fun a s => checked = .ok a ∧ pre s)
      raises := by
  cases checked with
  | ok a => exact pure fun s hs => ⟨rfl, hs⟩
  | error e => exact throw fun s hs => h e s hs

/-- What the first program leaves when it returns is what the second starts from. -/
theorem bind {mid : α → σ → Prop} {f : α → Call σ ω ε β} {post : β → σ → Prop}
    (hx : Triple pre x mid raises) (hf : ∀ a, Triple (mid a) (f a) post raises) :
    Triple pre (x >>= f) post raises := by
  intro w hw
  have hfirst := hx w hw
  rw [outcome_bind]
  cases hrun : x.outcome w with
  | mk result w' =>
      rw [hrun] at hfirst
      cases result with
      | ok a => exact hf a w' hfirst
      | error e => exact hfirst

/-- A handler starts from what was left when the program raised; nothing is rolled back. -/
theorem handle {mid : ε → σ → Prop} {handler : ε → Call σ ω ε α} (hx : Triple pre x post mid)
    (hhandler : ∀ e, Triple (mid e) (handler e) post raises) :
    Triple pre (tryCatch x handler) post raises := by
  intro w hw
  have hfirst := hx w hw
  rw [outcome_handle]
  cases hrun : x.outcome w with
  | mk result w' =>
      rw [hrun] at hfirst
      cases result with
      | ok a => exact hfirst
      | error e => exact hhandler e w' hfirst

theorem ask {fails : ω → ε} {request : σ → Except ε (α × σ)}
    (hanswered : ∀ s, pre s →
      match request s with
      | .ok (a, s') => post a s'
      | .error e => raises e s)
    (hfails : ∀ s outage, pre s → raises (fails outage) s) :
    Triple pre (ask fails request) post raises := by
  intro w hw
  have hrequest := hanswered w.state hw
  rw [outcome_ask]
  cases hhead : w.outages.head?.join with
  | some outage => exact hfails _ outage hw
  | none =>
      cases hanswer : request w.state with
      | error e =>
          rw [hanswer] at hrequest
          exact hrequest
      | ok answer =>
          rw [hanswer] at hrequest
          exact hrequest

/-- What one round of a loop keeps, the loop keeps. -/
theorem each {γ : Type u} {inv : σ → Prop} {xs : List γ} {f : γ → Call σ ω ε PUnit}
    (h : ∀ x ∈ xs, Triple inv (f x) (fun _ => inv) raises) :
    Triple inv (xs.forM f) (fun _ => inv) raises := by
  induction xs with
  | nil => exact fun _ hw => hw
  | cons first rest ih =>
      refine bind (h first List.mem_cons_self) fun _ => ih ?_
      exact fun x hx => h x (List.mem_cons_of_mem _ hx)

end Triple

end Papaia.Remote
