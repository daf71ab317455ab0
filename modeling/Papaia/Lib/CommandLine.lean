/-
Module: Papaia.Lib.CommandLine
Purpose: Command lines of options in front of operands, as programs read them that stop at the first
  operand: writing options and reading them back, and the values of an option.
Trusted boundary: none
Main exports: Opt, parse, render, Fits, parse_render, valuesOf
-/
import Mathlib.Data.List.Basic

namespace Papaia.CommandLine

variable {α : Type*}

/-- An option with its value, if it takes one. -/
abbrev Opt (α : Type*) := α × Option α

/-- What the words of a command line may be: `arity` knows the options and whether they take a value,
and `isOption` tells an option from an operand by its spelling. -/
structure Grammar (α : Type*) where
  isOption : α → Bool
  arity : α → Option Bool

/-- Reads options up to the first operand; none for an unknown option or a value that is missing. -/
def parse (g : Grammar α) : List α → Option (List (Opt α) × List α)
  | [] => some ([], [])
  | [word] =>
      if g.isOption word then
        if g.arity word = some false then some ([(word, none)], []) else none
      else some ([], [word])
  | word :: value :: rest =>
      if g.isOption word then
        if g.arity word = some true then
          (parse g rest).map fun read => ((word, some value) :: read.1, read.2)
        else if g.arity word = some false then
          (parse g (value :: rest)).map fun read => ((word, none) :: read.1, read.2)
        else none
      else some ([], word :: value :: rest)

def render (options : List (Opt α)) (operands : List α) : List α :=
  (options.flatMap fun option => option.1 :: option.2.toList) ++ operands

/-- An option that the grammar knows, with a value exactly when it takes one. -/
def Fits (g : Grammar α) (option : Opt α) : Prop :=
  g.isOption option.1 = true ∧ g.arity option.1 = some option.2.isSome

variable {g : Grammar α}

theorem render_cons (option : Opt α) (options : List (Opt α)) (operands : List α) :
    render (option :: options) operands =
      option.1 :: (option.2.toList ++ render options operands) := by
  simp [render]

/-- Options in front of an operand are read back, whatever their values look like. -/
theorem parse_render {options : List (Opt α)} {operand : α} {operands : List α}
    (fits : ∀ option ∈ options, Fits g option) (plain : g.isOption operand = false) :
    parse g (render options (operand :: operands)) = some (options, operand :: operands) := by
  induction options with
  | nil =>
      cases operands with
      | nil => simp [render, parse, plain]
      | cons other rest => simp [render, parse, plain]
  | cons option rest ih =>
      have hrest := ih fun other hother => fits other (List.mem_cons_of_mem _ hother)
      obtain ⟨hoption, harity⟩ := fits option List.mem_cons_self
      obtain ⟨word, value⟩ := option
      rw [render_cons]
      cases value with
      | some value => simp [parse, hoption, harity, hrest]
      | none =>
          obtain ⟨next, more, hnext⟩ : ∃ next more, render rest (operand :: operands) = next :: more := by
            cases rest with
            | nil => exact ⟨operand, operands, rfl⟩
            | cons other others => exact ⟨_, _, render_cons ..⟩
          simp only [Option.toList_none, List.nil_append]
          rw [hnext] at hrest ⊢
          simp [parse, hoption, harity, hrest]

/-! ### The values of an option -/

variable [DecidableEq α]

/-- The values an option is given, in order. -/
def valuesOf (word : α) (options : List (Opt α)) : List α :=
  options.filterMap fun option => if option.1 = word then option.2 else none

theorem valuesOf_append (word : α) (options more : List (Opt α)) :
    valuesOf word (options ++ more) = valuesOf word options ++ valuesOf word more :=
  List.filterMap_append ..

theorem valuesOf_map_self (word : α) (values : List α) :
    valuesOf word (values.map fun value => (word, some value)) = values := by
  simp [valuesOf, List.filterMap_map]

theorem valuesOf_map_other {word other : α} (h : other ≠ word) (values : List α) :
    valuesOf word (values.map fun value => (other, some value)) = [] := by
  simp [valuesOf, List.filterMap_map, h]

end Papaia.CommandLine
