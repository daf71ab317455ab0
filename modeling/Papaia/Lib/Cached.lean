/-
Module: Papaia.Lib.Cached
Purpose: A value that is read from elsewhere and kept for a while: when its reading began, until when
  it may be served, and which invalidations lie between the two.
Trusted boundary: none
Main exports: Reading, Slot, Slot.find, Invalidation, History, Fresh, Serves, Holds
-/
import Mathlib.Data.Option.Basic
import Mathlib.Data.List.Basic

namespace Papaia.Cached

variable {α : Type*}

/-! ### A slot for one reading -/

/-- What was read, and the moment at which its query began. -/
structure Reading (α : Type*) where
  begun : Nat
  content : α
deriving DecidableEq, Repr

/-- A place that holds a reading with the time it counts from. -/
abbrev Slot (α : Type*) := Option (Int × Reading α)

/-- The reading of a slot, while it is young enough. -/
def Slot.find (slot : Slot α) (ttl now : Int) : Option (Reading α) :=
  match slot with
  | some (stamp, reading) => if now - stamp < ttl then some reading else none
  | none => none

theorem Slot.find_eq_some {slot : Slot α} {ttl now : Int} {reading : Reading α}
    (h : slot.find ttl now = some reading) :
    ∃ stamp, slot = some (stamp, reading) ∧ now - stamp < ttl := by
  unfold Slot.find at h
  split at h
  · next stamp held =>
      simp only [Option.ite_none_right_eq_some, Option.some.injEq] at h
      obtain ⟨hyoung, rfl⟩ := h
      exact ⟨stamp, rfl, hyoung⟩
  · cases h

/-! ### Moments -/

/-- An invalidation: the moment at which it begins to drop things, and the one at which it returns. -/
structure Invalidation where
  began : Nat
  returned : Option Nat := none
deriving DecidableEq, Repr

/-- The moment a run is at, and the invalidations so far. -/
structure History where
  tick : Nat := 0
  invalidations : List Invalidation := []
deriving DecidableEq, Repr

def History.next (h : History) : History :=
  { h with tick := h.tick + 1 }

/-- An invalidation begins now. -/
def History.invalidate (h : History) (returned : Option Nat) : History :=
  { tick := h.tick + 1, invalidations := ⟨h.tick, returned⟩ :: h.invalidations }

/-- An invalidation returns now. -/
def History.return (h : History) (k : Nat) : History :=
  { tick := h.tick + 1
    invalidations := h.invalidations.modify k fun invalidation =>
      { invalidation with returned := some h.tick } }

/-- No invalidation lies behind the moments of a history. -/
structure History.Ordered (h : History) : Prop where
  began : ∀ invalidation ∈ h.invalidations, invalidation.began < h.tick
  returned : ∀ invalidation ∈ h.invalidations, ∀ moment ∈ invalidation.returned,
    invalidation.began ≤ moment ∧ moment < h.tick

/-- A query that began after every invalidation did. -/
def Fresh (h : History) (begun : Nat) : Prop :=
  ∀ invalidation ∈ h.invalidations, invalidation.began < begun

/-- A query that began after every invalidation that returned. -/
def Settled (h : History) (begun : Nat) : Prop :=
  ∀ invalidation ∈ h.invalidations, invalidation.returned.isSome → invalidation.began < begun

/-- A call may be answered with what a query read: no invalidation that had returned when the call
started began after the query. -/
def Serves (h : History) (started begun : Nat) : Prop :=
  ∀ invalidation ∈ h.invalidations, ∀ moment ∈ invalidation.returned, moment < started →
    invalidation.began < begun

instance (h : History) (begun : Nat) : Decidable (Fresh h begun) :=
  inferInstanceAs (Decidable (∀ invalidation ∈ h.invalidations, invalidation.began < begun))

instance (h : History) (begun : Nat) : Decidable (Settled h begun) :=
  inferInstanceAs (Decidable (∀ invalidation ∈ h.invalidations, invalidation.returned.isSome →
    invalidation.began < begun))

instance (h : History) (started begun : Nat) : Decidable (Serves h started begun) :=
  inferInstanceAs (Decidable (∀ invalidation ∈ h.invalidations, ∀ moment ∈ invalidation.returned,
    moment < started → invalidation.began < begun))

section

variable {h : History} {started begun k : Nat} {returned : Option Nat}

theorem Settled.serves (hbegun : Settled h begun) : Serves h started begun := by
  intro invalidation hmem moment hmoment _
  exact hbegun invalidation hmem (Option.isSome_iff_exists.2 ⟨moment, hmoment⟩)

theorem Fresh.settled (hbegun : Fresh h begun) : Settled h begun :=
  fun invalidation hmem _ => hbegun invalidation hmem

/-- A query that a call makes itself serves it. -/
theorem serves_own (ordered : h.Ordered) (hown : started ≤ begun) : Serves h started begun := by
  intro invalidation hmem moment hmoment hbefore
  have := (ordered.returned invalidation hmem moment hmoment).1
  omega

/-! ### What a moment changes -/

theorem ordered_start : ({} : History).Ordered where
  began := by simp
  returned := by simp

theorem History.Ordered.next (ordered : h.Ordered) : h.next.Ordered where
  began := fun invalidation hmem => Nat.lt_succ_of_lt (ordered.began invalidation hmem)
  returned := by
    intro invalidation hmem moment hmoment
    obtain ⟨hle, hlt⟩ := ordered.returned invalidation hmem moment hmoment
    exact ⟨hle, Nat.lt_succ_of_lt hlt⟩

theorem History.Ordered.invalidate (ordered : h.Ordered)
    (hreturned : ∀ moment ∈ returned, moment = h.tick) : (h.invalidate returned).Ordered where
  began := by
    intro invalidation hmem
    rcases List.mem_cons.1 hmem with rfl | hold
    · exact Nat.lt_succ_self _
    · exact Nat.lt_succ_of_lt (ordered.began invalidation hold)
  returned := by
    intro invalidation hmem moment hmoment
    rcases List.mem_cons.1 hmem with rfl | hold
    · obtain rfl := hreturned moment hmoment
      exact ⟨Nat.le_refl _, Nat.lt_succ_self _⟩
    · obtain ⟨hle, hlt⟩ := ordered.returned invalidation hold moment hmoment
      exact ⟨hle, Nat.lt_succ_of_lt hlt⟩

/-- An invalidation of a history in which one returns is an earlier one, or that one. -/
theorem mem_return {invalidation : Invalidation}
    (hmem : invalidation ∈ (h.return k).invalidations) :
    ∃ earlier ∈ h.invalidations, invalidation.began = earlier.began ∧
      (invalidation = earlier ∨ invalidation.returned = some h.tick) := by
  obtain ⟨i, hi, rfl⟩ := List.mem_iff_getElem.1 hmem
  have hlength : i < h.invalidations.length := by
    simpa [History.return] using hi
  refine ⟨h.invalidations[i], List.getElem_mem hlength, ?_⟩
  simp only [History.return, List.getElem_modify]
  split
  · exact ⟨rfl, .inr rfl⟩
  · exact ⟨rfl, .inl rfl⟩

theorem History.Ordered.return (ordered : h.Ordered) : (h.return k).Ordered where
  began := by
    intro invalidation hmem
    obtain ⟨earlier, hearlier, hbegan, -⟩ := mem_return hmem
    rw [hbegan]
    exact Nat.lt_succ_of_lt (ordered.began earlier hearlier)
  returned := by
    intro invalidation hmem moment hmoment
    obtain ⟨earlier, hearlier, hbegan, rfl | hreturned⟩ := mem_return hmem
    · obtain ⟨hle, hlt⟩ := ordered.returned invalidation hearlier moment hmoment
      exact ⟨hle, Nat.lt_succ_of_lt hlt⟩
    · obtain rfl := Option.some.inj (hreturned.symm.trans hmoment)
      rw [hbegan]
      exact ⟨Nat.le_of_lt (ordered.began earlier hearlier), Nat.lt_succ_self _⟩

/-- What has been served stays served: an invalidation that returns now returns after the start. -/
theorem Serves.invalidate (hserves : Serves h started begun) (hstarted : started ≤ h.tick)
    (hreturned : ∀ moment ∈ returned, moment = h.tick) :
    Serves (h.invalidate returned) started begun := by
  intro invalidation hmem moment hmoment hbefore
  rcases List.mem_cons.1 hmem with rfl | hold
  · obtain rfl := hreturned moment hmoment
    omega
  · exact hserves invalidation hold moment hmoment hbefore

theorem Serves.return (hserves : Serves h started begun) (hstarted : started ≤ h.tick) :
    Serves (h.return k) started begun := by
  intro invalidation hmem moment hmoment hbefore
  obtain ⟨earlier, hearlier, hbegan, rfl | hreturned⟩ := mem_return hmem
  · exact hserves invalidation hearlier moment hmoment hbefore
  · obtain rfl := Option.some.inj (hreturned.symm.trans hmoment)
    omega

theorem Fresh.return (hbegun : Fresh h begun) : Fresh (h.return k) begun := by
  intro invalidation hmem
  obtain ⟨earlier, hearlier, hbegan, -⟩ := mem_return hmem
  rw [hbegan]
  exact hbegun earlier hearlier

end

/-! ### What a slot holds -/

/-- A slot whose reading passes a test, or is too old to be found. -/
def Holds (good : Nat → Prop) (slot : Slot α) (ttl now : Int) : Prop :=
  ∀ stamp reading, slot = some (stamp, reading) → good reading.begun ∨ ttl ≤ now - stamp

section

variable {good better : Nat → Prop} {slot : Slot α} {ttl now later : Int}

theorem holds_none : Holds good (none : Slot α) ttl now := by
  intro _ _ hnone
  cases hnone

theorem holds_some {stamp : Int} {reading : Reading α}
    (h : good reading.begun ∨ ttl ≤ now - stamp) : Holds good (some (stamp, reading)) ttl now := by
  intro _ _ hsome
  obtain ⟨rfl, rfl⟩ := Prod.mk.inj (Option.some.inj hsome)
  exact h

theorem Holds.imp (h : Holds good slot ttl now) (hgood : ∀ begun, good begun → better begun)
    (hlater : now ≤ later) : Holds better slot ttl later := by
  intro stamp reading hslot
  rcases h stamp reading hslot with hbegun | hold
  · exact .inl (hgood _ hbegun)
  · exact .inr (by omega)

/-- What is found in a slot passes the test. -/
theorem Holds.find {shorter : Int} (h : Holds good slot ttl now) (hshorter : shorter ≤ ttl)
    {reading : Reading α} (hfind : slot.find shorter now = some reading) : good reading.begun := by
  obtain ⟨stamp, hslot, hyoung⟩ := Slot.find_eq_some hfind
  rcases h stamp reading hslot with hbegun | hold
  · exact hbegun
  · omega

end

end Papaia.Cached
