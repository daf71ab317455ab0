/-
Module: Papaia.Lib.Runs
Purpose: The runs of a system that takes one labelled step after another, where some steps are
  allowed and others are not: the states such runs reach, and the rule for what holds of all of
  them.
Trusted boundary: none
Main exports: Reaches, Reaches.invariant, Reaches.mono, replay, Permits, reaches_of_replay
-/
import Mathlib.Data.Option.Basic

namespace Papaia.Runs

variable {σ ε : Type*}

/-- The states that allowed steps lead to. -/
inductive Reaches (step : σ → ε → Option σ) (allowed : σ → ε → Prop) (start : σ) : σ → Prop where
  | refl : Reaches step allowed start start
  | next {s s' : σ} {e : ε} (before : Reaches step allowed start s) (ok : allowed s e)
      (taken : step s e = some s') : Reaches step allowed start s'

variable {step : σ → ε → Option σ} {allowed : σ → ε → Prop} {start : σ}

/-- What holds at the start and is kept by every allowed step holds of every state reached. -/
theorem Reaches.invariant {inv : σ → Prop} (initially : inv start)
    (keeps : ∀ s e s', inv s → allowed s e → step s e = some s' → inv s') {s : σ}
    (h : Reaches step allowed start s) : inv s := by
  induction h with
  | refl => exact initially
  | next _ ok taken ih => exact keeps _ _ _ ih ok taken

/-- Fewer allowed steps, fewer states. -/
theorem Reaches.mono {wider : σ → ε → Prop} (widens : ∀ s e, allowed s e → wider s e) {s : σ}
    (h : Reaches step allowed start s) : Reaches step wider start s := by
  induction h with
  | refl => exact .refl
  | next _ ok taken ih => exact .next ih (widens _ _ ok) taken

/-- The state after a list of steps, when each of them can be taken. -/
def replay (step : σ → ε → Option σ) (s : σ) : List ε → Option σ
  | [] => some s
  | e :: rest => (step s e).bind fun s' => replay step s' rest

/-- The steps of a list are allowed where they are taken. -/
def Permits (step : σ → ε → Option σ) (allowed : σ → ε → Prop) (s : σ) : List ε → Prop
  | [] => True
  | e :: rest => allowed s e ∧ ∀ s', step s e = some s' → Permits step allowed s' rest

/-- Whether a list of steps is allowed can be found out by taking them. -/
def decidePermits [∀ s e, Decidable (allowed s e)] :
    (s : σ) → (events : List ε) → Decidable (Permits step allowed s events)
  | _, [] => .isTrue trivial
  | s, e :: rest =>
      match htaken : step s e with
      | none => decidable_of_iff (allowed s e)
          ⟨fun ok => ⟨ok, fun _ taken => (nomatch htaken.symm.trans taken)⟩, And.left⟩
      | some next =>
          have : Decidable (Permits step allowed next rest) := decidePermits next rest
          decidable_of_iff (allowed s e ∧ Permits step allowed next rest)
            ⟨fun h => ⟨h.1, fun _ taken => Option.some.inj (htaken.symm.trans taken) ▸ h.2⟩,
              fun h => ⟨h.1, h.2 next htaken⟩⟩

instance [∀ s e, Decidable (allowed s e)] (s : σ) (events : List ε) :
    Decidable (Permits step allowed s events) :=
  decidePermits s events

theorem Permits.cons {s s' : σ} {e : ε} {rest : List ε} (ok : allowed s e)
    (taken : step s e = some s') (h : Permits step allowed s' rest) :
    Permits step allowed s (e :: rest) :=
  ⟨ok, fun _ other => Option.some.inj (taken.symm.trans other) ▸ h⟩

theorem Reaches.append {s s' : σ} {events : List ε} (h : Reaches step allowed start s)
    (permits : Permits step allowed s events) (replayed : replay step s events = some s') :
    Reaches step allowed start s' := by
  induction events generalizing s with
  | nil =>
      obtain rfl := Option.some.inj replayed
      exact h
  | cons e rest ih =>
      obtain ⟨next, taken, hrest⟩ := Option.bind_eq_some_iff.1 replayed
      exact ih (.next h permits.1 taken) (permits.2 next taken) hrest

/-- A list of allowed steps leads to a state that is reached. -/
theorem reaches_of_replay {s : σ} {events : List ε} (permits : Permits step allowed start events)
    (replayed : replay step start events = some s) : Reaches step allowed start s :=
  Reaches.append .refl permits replayed

/-- When every step of a list can be taken, the state it leads to is reached. -/
theorem reaches_of_isSome {events : List ε} (other : σ)
    (permits : Permits step allowed start events)
    (taken : (replay step start events).isSome = true) :
    Reaches step allowed start ((replay step start events).getD other) := by
  obtain ⟨s, replayed⟩ := Option.isSome_iff_exists.1 taken
  rw [replayed]
  exact reaches_of_replay permits replayed

theorem permits_all (s : σ) (events : List ε) : Permits step (fun _ _ => True) s events := by
  induction events generalizing s with
  | nil => trivial
  | cons e rest ih => exact ⟨trivial, fun s' _ => ih s'⟩

end Papaia.Runs
