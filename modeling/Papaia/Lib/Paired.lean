/-
Module: Papaia.Lib.Paired
Purpose: Lists whose elements correspond one by one, and functions that fail taken over a list.
Trusted boundary: none
Main exports: exists_left, exists_right, pairwise_right, bind_eq_ok, mapM_eq_ok_iff,
  exists_mapM_eq_ok_iff, foldlM_map, mem_mapM, exists_of_mapM, mapM_map
-/
import Mathlib.Data.List.Forall2

namespace Papaia.Paired

/-! ### Elements that correspond -/

theorem exists_left {α β : Type} {r : α → β → Prop} {inputs : List α} {outputs : List β}
    (h : List.Forall₂ r inputs outputs) : ∀ input ∈ inputs, ∃ output ∈ outputs, r input output := by
  induction h with
  | nil => simp
  | cons hhead _ ih =>
      rw [List.forall_mem_cons]
      refine ⟨⟨_, List.mem_cons_self, hhead⟩, ?_⟩
      intro input hinput
      obtain ⟨output, houtput, hr⟩ := ih input hinput
      exact ⟨output, List.mem_cons_of_mem _ houtput, hr⟩

theorem exists_right {α β : Type} {r : α → β → Prop} {inputs : List α} {outputs : List β}
    (h : List.Forall₂ r inputs outputs) : ∀ output ∈ outputs, ∃ input ∈ inputs, r input output :=
  exists_left h.flip

/-- What holds between any two elements carries over to what corresponds to them. -/
theorem pairwise_right {α β : Type} {r : α → β → Prop} {p : α → α → Prop} {q : β → β → Prop}
    {inputs : List α} {outputs : List β} (h : List.Forall₂ r inputs outputs) (hp : inputs.Pairwise p)
    (hq : ∀ one other out out', r one out → r other out' → p one other → q out out') :
    outputs.Pairwise q := by
  induction h with
  | nil => exact .nil
  | cons hhead htail ih =>
      rw [List.pairwise_cons] at hp ⊢
      refine ⟨?_, ih hp.2⟩
      intro out hout
      obtain ⟨other, hother, hr⟩ := exists_right htail out hout
      exact hq _ _ _ _ hhead hr (hp.1 other hother)

/-! ### Functions that fail -/

theorem bind_eq_ok {ε α β : Type} {x : Except ε α} {f : α → Except ε β} {b : β} :
    x >>= f = .ok b ↔ ∃ a, x = .ok a ∧ f a = .ok b := by
  cases x <;> simp [bind, Except.bind]

theorem mapM_eq_ok_iff {α β ε : Type} {f : α → Except ε β} {inputs : List α} {outputs : List β} :
    inputs.mapM f = .ok outputs ↔ List.Forall₂ (fun input output => f input = .ok output) inputs outputs := by
  induction inputs generalizing outputs with
  | nil => cases outputs <;> simp [pure, Except.pure]
  | cons first rest ih =>
      rw [List.mapM_cons]
      cases hfirst : f first with
      | error raised =>
          refine iff_of_false (by simp [bind, Except.bind]) ?_
          intro h
          cases h with
          | cons hhead _ => rw [hfirst] at hhead; cases hhead
      | ok output =>
          cases hrest : rest.mapM f with
          | error raised =>
              refine iff_of_false (by simp [bind, Except.bind]) ?_
              intro h
              cases h with
              | cons _ htail => rw [← ih, hrest] at htail; cases htail
          | ok more =>
              simp only [bind, Except.bind, pure, Except.pure, Except.ok.injEq]
              constructor
              · rintro rfl
                exact .cons hfirst (ih.1 hrest)
              · intro h
                cases h with
                | cons hhead htail =>
                    rw [← ih, hrest] at htail
                    rw [hfirst] at hhead
                    rw [Except.ok.inj hhead, Except.ok.inj htail]

/-- What every input has, the inputs have together. -/
theorem exists_mapM_eq_ok {α β ε : Type} {f : α → Except ε β} {inputs : List α}
    (h : ∀ input ∈ inputs, ∃ output, f input = .ok output) :
    ∃ outputs, inputs.mapM f = .ok outputs := by
  induction inputs with
  | nil => exact ⟨[], rfl⟩
  | cons first rest ih =>
      rw [List.forall_mem_cons] at h
      obtain ⟨output, hfirst⟩ := h.1
      obtain ⟨outputs, hrest⟩ := ih h.2
      exact ⟨output :: outputs, mapM_eq_ok_iff.2 (.cons hfirst (mapM_eq_ok_iff.1 hrest))⟩

theorem exists_mapM_eq_ok_iff {α β ε : Type} {f : α → Except ε β} {inputs : List α} :
    (∃ outputs, inputs.mapM f = .ok outputs) ↔ ∀ input ∈ inputs, ∃ output, f input = .ok output := by
  constructor
  · rintro ⟨outputs, houtputs⟩ input hinput
    obtain ⟨output, -, houtput⟩ := exists_left (mapM_eq_ok_iff.1 houtputs) input hinput
    exact ⟨output, houtput⟩
  · exact exists_mapM_eq_ok

/-- A fold that only asks a function that fails for each input. -/
theorem foldlM_map {α β σ ε : Type} (f : α → Except ε β) (step : σ → β → σ) (inputs : List α)
    (start : σ) :
    inputs.foldlM (fun state input => (f input).map (step state)) start =
      (inputs.mapM f).map fun outputs => outputs.foldl step start := by
  induction inputs generalizing start with
  | nil => rfl
  | cons first rest ih =>
      rw [List.foldlM_cons, List.mapM_cons]
      cases f first with
      | error raised => rfl
      | ok output =>
          refine (ih (step start output)).trans ?_
          cases rest.mapM f <;> rfl

/-! ### Functions that have no value -/

theorem mem_mapM {α β : Type} {f : α → Option β} {xs : List α} {ys : List β}
    (h : xs.mapM f = some ys) {y : β} : y ∈ ys ↔ ∃ x ∈ xs, f x = some y := by
  induction xs generalizing ys with
  | nil =>
      obtain rfl : ys = [] := by simpa using h.symm
      simp
  | cons x xs ih =>
      simp only [List.mapM_cons, Option.bind_eq_bind, Option.bind_eq_some_iff] at h
      obtain ⟨first, hfirst, rest, hrest, hys⟩ := h
      obtain rfl : first :: rest = ys := by simpa using hys
      simp [ih hrest, hfirst, eq_comm]

theorem exists_of_mapM {α β : Type} {f : α → Option β} {xs : List α} {ys : List β}
    (h : xs.mapM f = some ys) {x : α} (hx : x ∈ xs) : ∃ y ∈ ys, f x = some y := by
  induction xs generalizing ys with
  | nil => cases hx
  | cons first xs ih =>
      simp only [List.mapM_cons, Option.bind_eq_bind, Option.bind_eq_some_iff] at h
      obtain ⟨y, hy, rest, hrest, hys⟩ := h
      obtain rfl : y :: rest = ys := by simpa using hys
      rcases List.mem_cons.mp hx with rfl | hmem
      · exact ⟨y, List.mem_cons_self, hy⟩
      · obtain ⟨z, hz, hfz⟩ := ih hrest hmem
        exact ⟨z, List.mem_cons_of_mem _ hz, hfz⟩

theorem mapM_map {α β γ : Type} (f : α → Option β) (g : β → γ) (l : List α) :
    (l.mapM fun a => (f a).map g) = (l.mapM f).map (List.map g) := by
  induction l with
  | nil => rfl
  | cons a rest ih =>
      rw [List.mapM_cons, List.mapM_cons, ih]
      cases f a with
      | none => rfl
      | some b => cases rest.mapM f <;> rfl

end Papaia.Paired
