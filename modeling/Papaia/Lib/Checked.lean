/-
Module: Papaia.Lib.Checked
Purpose: Validation that reports every fault instead of the first one.  A fault names where it is
  by the path of keys that leads to it; a checked value is the value or a non-empty list of faults.
Trusted boundary: none
Main exports: Fault, Faults, Checked, Checked.both, Checked.also, Checked.within, Checked.each,
  Checked.faultsOf
-/
import Mathlib.Data.List.Forall2

namespace Papaia

/-- One fault: the path to it, its kind and the text that explains it. -/
structure Fault where
  loc : List String
  kind : String
  msg : String
deriving DecidableEq, Repr

/-- At least one fault, in the order they were found. -/
structure Faults where
  first : Fault
  rest : List Fault
deriving DecidableEq, Repr

namespace Faults

def toList (faults : Faults) : List Fault :=
  faults.first :: faults.rest

def append (one two : Faults) : Faults :=
  { first := one.first, rest := one.rest ++ two.toList }

def map (f : Fault → Fault) (faults : Faults) : Faults :=
  { first := f faults.first, rest := faults.rest.map f }

theorem toList_ne_nil (faults : Faults) : faults.toList ≠ [] := by
  simp [toList]

end Faults

/-- A value that passed its checks, or what is wrong with it. -/
abbrev Checked (α : Type*) := Except Faults α

namespace Checked

variable {α β : Type*}

/-- A single fault at the place where the check stands. -/
def fault (kind msg : String) : Checked α :=
  .error { first := { loc := [], kind := kind, msg := msg }, rest := [] }

/-- Apply a checked function to a checked argument; the faults of both are kept. -/
def both (f : Checked (α → β)) (x : Checked α) : Checked β :=
  match f, x with
  | .ok g, .ok a => .ok (g a)
  | .ok _, .error faults => .error faults
  | .error faults, .ok _ => .error faults
  | .error one, .error two => .error (one.append two)

/-- A value that needs no check. -/
def of (a : α) : Checked α :=
  .ok a

/-- A further check whose value is not needed. -/
def also (x : Checked α) (further : Checked Unit) : Checked α :=
  both (both (of fun a _ => a) x) further

/-- The same check one key further down. -/
def within (key : String) : Checked α → Checked α
  | .ok a => .ok a
  | .error faults => .error (faults.map fun fault => { fault with loc := key :: fault.loc })

/-- A check of every element, with the index of an element in the path of its faults. -/
def each (check : α → Checked β) : Nat → List α → Checked (List β)
  | _, [] => .ok []
  | index, x :: xs =>
      both (both (of List.cons) (within (toString index) (check x))) (each check (index + 1) xs)

@[simp] theorem both_eq_ok {f : Checked (α → β)} {x : Checked α} {b : β} :
    both f x = .ok b ↔ ∃ g a, f = .ok g ∧ x = .ok a ∧ g a = b := by
  cases f <;> cases x <;> simp [both]

@[simp] theorem of_eq_ok {a b : α} : of a = .ok b ↔ a = b := by
  simp [of]

@[simp] theorem also_eq_ok {x : Checked α} {further : Checked Unit} {a : α} :
    also x further = .ok a ↔ x = .ok a ∧ further = .ok () := by
  cases further <;> simp [also]

@[simp] theorem within_eq_ok {key : String} {x : Checked α} {a : α} :
    within key x = .ok a ↔ x = .ok a := by
  cases x <;> simp [within]

@[simp] theorem fault_ne_ok {kind msg : String} {a : α} : fault kind msg ≠ .ok a := by
  simp [fault]

/-- The faults of a checked value; none when it passed. -/
def faultsOf : Checked α → List Fault
  | .ok _ => []
  | .error faults => faults.toList

@[simp] theorem faultsOf_ok (a : α) : faultsOf (.ok a) = [] := rfl

@[simp] theorem faultsOf_error (faults : Faults) :
    faultsOf (.error faults : Checked α) = faults.toList := rfl

@[simp] theorem faultsOf_of (a : α) : faultsOf (of a) = [] := rfl

@[simp] theorem faultsOf_both (f : Checked (α → β)) (x : Checked α) :
    faultsOf (both f x) = faultsOf f ++ faultsOf x := by
  cases f <;> cases x <;> simp [both, faultsOf, Faults.toList, Faults.append]

@[simp] theorem faultsOf_also (x : Checked α) (further : Checked Unit) :
    faultsOf (also x further) = faultsOf x ++ faultsOf further := by
  simp [also]

/-- A list passes exactly when each of its elements does. -/
theorem each_eq_ok {check : α → Checked β} {index : Nat} {xs : List α} {ys : List β} :
    each check index xs = .ok ys ↔ List.Forall₂ (fun x y => check x = .ok y) xs ys := by
  induction xs generalizing index ys with
  | nil => cases ys <;> simp [each]
  | cons x xs ih =>
      cases ys with
      | nil => simp [each]
      | cons y ys => simp [each, ih]

end Checked

end Papaia
