/-
Module: Papaia.Data.Value
Purpose: The values a YAML document holds, as `yaml.safe_load` hands them to the manager, with the
  Python operations the manager applies to them: key look-up, assignment, truth, equality.
Trusted boundary: the constructors stand for Python's own types (`stamp` for a date or a datetime)
Main exports: PyFloat, Scalar, Val, Mapping, Mapping.get?, Mapping.put, Val.truthy, Val.eqv
-/
import Mathlib.Data.Rat.Defs
import Mathlib.Algebra.Order.Ring.Unbundled.Rat

namespace Papaia

/-- A Python float.  The finite ones are exact dyadic numbers, so a rational holds each of them. -/
inductive PyFloat where
  | finite (value : Rat)
  | infinite (negative : Bool)
  | nan
deriving DecidableEq, Repr, Inhabited

/-- What can stand as a value of its own or key a mapping. -/
inductive Scalar where
  | null
  | bool (value : Bool)
  | int (value : Int)
  | float (value : PyFloat)
  | str (text : String)
  | bytes (raw : List UInt8)
  | stamp (iso : String)
deriving DecidableEq, Repr, Inhabited

/-- A parsed YAML value.  A mapping keeps the order of its keys, as a Python dict does. -/
inductive Val where
  | scalar (s : Scalar)
  | list (items : List Val)
  | set (items : List Scalar)
  | map (entries : List (Scalar × Val))
deriving Repr, Inhabited

/-- A Python dict. -/
abbrev Mapping := List (Scalar × Val)

namespace Val

@[match_pattern] abbrev null : Val := .scalar .null
@[match_pattern] abbrev bool (value : Bool) : Val := .scalar (.bool value)
@[match_pattern] abbrev int (value : Int) : Val := .scalar (.int value)
@[match_pattern] abbrev float (value : PyFloat) : Val := .scalar (.float value)
@[match_pattern] abbrev str (text : String) : Val := .scalar (.str text)
@[match_pattern] abbrev bytes (raw : List UInt8) : Val := .scalar (.bytes raw)

/-- `isinstance(value, dict)`, with the mapping. -/
def mapping? : Val → Option Mapping
  | .map entries => some entries
  | _ => none

/-- `isinstance(value, list)`, with the items. -/
def list? : Val → Option (List Val)
  | .list items => some items
  | _ => none

/-- `isinstance(value, str)`, with the text. -/
def str? : Val → Option String
  | .str text => some text
  | _ => none

@[simp] theorem mapping?_map (entries : Mapping) : (Val.map entries).mapping? = some entries := rfl
@[simp] theorem list?_list (items : List Val) : (Val.list items).list? = some items := rfl
@[simp] theorem str?_str (text : String) : (Val.str text).str? = some text := rfl

theorem mapping?_eq_some {v : Val} {m : Mapping} : v.mapping? = some m ↔ v = .map m := by
  cases v <;> simp [mapping?]

theorem list?_eq_some {v : Val} {items : List Val} : v.list? = some items ↔ v = .list items := by
  cases v <;> simp [list?]

theorem str?_eq_some {v : Val} {text : String} : v.str? = some text ↔ v = .str text := by
  cases v with
  | scalar s => cases s <;> simp [str?]
  | list | set | map => simp [str?]

/-- `bool(value)`: what `value or default` and `if value` ask. -/
def truthy : Val → Bool
  | .null => false
  | .bool b => b
  | .int i => i != 0
  | .float (.finite q) => q != 0
  | .float _ => true
  | .str text => text != ""
  | .bytes raw => !raw.isEmpty
  | .scalar (.stamp _) => true
  | .list items => !items.isEmpty
  | .set items => !items.isEmpty
  | .map entries => !entries.isEmpty

end Val

namespace Scalar

/-- The number Python compares for `True == 1 == 1.0`. -/
def number? : Scalar → Option Rat
  | .bool b => some (if b then 1 else 0)
  | .int i => some i
  | .float (.finite q) => some q
  | _ => none

/-- `==` on scalars.  A `nan` equals nothing. -/
def eqv (a b : Scalar) : Bool :=
  match a.number?, b.number? with
  | some x, some y => x == y
  | none, none => a == b && a != .float .nan
  | _, _ => false

end Scalar

namespace Mapping

/-- `mapping.get(key)` for a text key. -/
def get? (m : Mapping) (key : String) : Option Val :=
  m.lookup (.str key)

/-- `mapping.get(key)` where an absent key and a null read the same. -/
def getD (m : Mapping) (key : String) : Val :=
  (m.get? key).getD .null

/-- `mapping[key] = value`: in place for a key that is there, at the end for a new one. -/
def put (m : Mapping) (key : Scalar) (value : Val) : Mapping :=
  match m with
  | [] => [(key, value)]
  | (k, v) :: rest => if k = key then (k, value) :: rest else (k, v) :: put rest key value

/-- `mapping.pop(key, None)`. -/
def pop (m : Mapping) (key : String) : Mapping :=
  m.filter fun entry => entry.1 != .str key

theorem lookup_put_self (m : Mapping) (key : Scalar) (value : Val) :
    (m.put key value).lookup key = some value := by
  induction m with
  | nil => simp [put]
  | cons entry rest ih =>
      obtain ⟨k, v⟩ := entry
      by_cases hk : k = key
      · simp [put, hk]
      · have hne : (key == k) = false := by simpa using fun h => hk h.symm
        simp [put, hk, List.lookup_cons, hne, ih]

theorem lookup_put_of_ne (m : Mapping) {key other : Scalar} (value : Val) (h : other ≠ key) :
    (m.put key value).lookup other = m.lookup other := by
  induction m with
  | nil =>
      have hne : (other == key) = false := by simpa using h
      simp [put, List.lookup_cons, hne]
  | cons entry rest ih =>
      obtain ⟨k, v⟩ := entry
      by_cases hk : k = key
      · have hne : (other == k) = false := by simpa [hk] using h
        simp [put, hk, List.lookup_cons, hk ▸ hne]
      · simp only [put, if_neg hk, List.lookup_cons]
        cases other == k <;> simp [ih]

@[simp] theorem get?_put_self (m : Mapping) (key : String) (value : Val) :
    get? (m.put (.str key) value) key = some value :=
  lookup_put_self m _ value

@[simp] theorem get?_put_of_ne (m : Mapping) {key other : String} (value : Val) (h : other ≠ key) :
    get? (m.put (.str key) value) other = m.get? other :=
  lookup_put_of_ne m value (by simpa using h)

theorem get?_pop_self (m : Mapping) (key : String) : (m.pop key).get? key = none := by
  rw [get?, List.lookup_eq_none_iff]
  intro entry hentry
  have hne : entry.1 ≠ .str key := by simpa using (List.mem_filter.mp hentry).2
  simpa using Ne.symm hne

theorem lookup_pop_of_ne (m : Mapping) {key : String} {other : Scalar} (h : other ≠ .str key) :
    (m.pop key).lookup other = m.lookup other := by
  induction m with
  | nil => rfl
  | cons entry rest ih =>
      obtain ⟨k, v⟩ := entry
      by_cases hk : k = .str key
      · have hne : (other == k) = false := by simpa [hk] using h
        rw [pop] at ih ⊢
        simp [hk, List.lookup_cons, hk ▸ hne, ih]
      · rw [pop] at ih ⊢
        simp only [List.filter_cons, bne_iff_ne, ne_eq, hk, not_false_eq_true, if_true,
          List.lookup_cons, ih]

theorem keys_put (m : Mapping) (key : Scalar) (value : Val) :
    (m.put key value).map Prod.fst =
      if key ∈ m.map Prod.fst then m.map Prod.fst else m.map Prod.fst ++ [key] := by
  induction m with
  | nil => simp [put]
  | cons entry rest ih =>
      obtain ⟨k, v⟩ := entry
      by_cases hk : k = key
      · simp [put, hk]
      · have hne : key ≠ k := fun h => hk h.symm
        by_cases hmem : key ∈ rest.map Prod.fst <;> simp_all [put]

/-- An assignment keeps the keys of a mapping distinct. -/
theorem nodup_put {m : Mapping} {key : Scalar} {value : Val} (h : (m.map Prod.fst).Nodup) :
    ((m.put key value).map Prod.fst).Nodup := by
  rw [keys_put]
  split
  next => exact h
  next hmem =>
    refine List.nodup_append.mpr ⟨h, by simp, ?_⟩
    intro k hk other hother heq
    rw [List.mem_singleton.mp hother] at heq
    exact hmem (heq ▸ hk)

end Mapping

mutual

/-- `==` on values: numbers by what they count, lists in order, mappings whatever the order. -/
def Val.eqv : Val → Val → Bool
  | .scalar a, .scalar b => a.eqv b
  | .list xs, .list ys => Val.eqvList xs ys
  | .set xs, .set ys => xs.all (fun x => ys.any x.eqv) && ys.all (fun y => xs.any y.eqv)
  | .map xs, .map ys => xs.length == ys.length && Val.eqvEntries xs ys
  | _, _ => false

/-- `==` on lists. -/
def Val.eqvList : List Val → List Val → Bool
  | [], [] => true
  | x :: xs, y :: ys => x.eqv y && Val.eqvList xs ys
  | _, _ => false

/-- Every entry of the first mapping is in the second, with an equal value. -/
def Val.eqvEntries : List (Scalar × Val) → List (Scalar × Val) → Bool
  | [], _ => true
  | (k, v) :: rest, ys =>
      (match ys.find? (fun entry => entry.1.eqv k) with
        | some (_, w) => v.eqv w
        | none => false) && Val.eqvEntries rest ys

end

/-- One object, or two that are equal. -/
def Scalar.alike (a b : Scalar) : Bool :=
  a == b || a.eqv b

mutual

/-- `==` between a changed deep copy and what it was copied from.  A copy holds the very floats of
the original, and a list or a mapping takes an object to equal itself, a `nan` included. -/
def Val.alike : Val → Val → Bool
  | .scalar a, .scalar b => a.alike b
  | .list xs, .list ys => Val.alikeList xs ys
  | .set xs, .set ys => xs.all (fun x => ys.any x.alike) && ys.all (fun y => xs.any y.alike)
  | .map xs, .map ys => xs.length == ys.length && Val.alikeEntries xs ys
  | _, _ => false

/-- The same on lists. -/
def Val.alikeList : List Val → List Val → Bool
  | [], [] => true
  | x :: xs, y :: ys => x.alike y && Val.alikeList xs ys
  | _, _ => false

/-- Every entry of the first mapping is in the second, which has one entry at most for a key. -/
def Val.alikeEntries : List (Scalar × Val) → List (Scalar × Val) → Bool
  | [], _ => true
  | (k, v) :: rest, ys =>
      ys.any (fun entry => k.alike entry.1 && v.alike entry.2) && Val.alikeEntries rest ys

end

@[simp] theorem Scalar.alike_refl (s : Scalar) : s.alike s = true := by
  simp [Scalar.alike]

mutual

/-- A value equals its copy. -/
@[simp] theorem Val.alike_refl : ∀ v : Val, v.alike v = true
  | .scalar s => by simp [Val.alike]
  | .list items => by rw [Val.alike, Val.alikeList_refl]
  | .set items => by
      have hall : (items.all fun x => items.any x.alike) = true := by
        rw [List.all_eq_true]
        exact fun x hx => List.any_eq_true.2 ⟨x, hx, Scalar.alike_refl x⟩
      rw [Val.alike, hall, Bool.and_self]
  | .map entries => by
      rw [Val.alike, beq_self_eq_true, Bool.true_and]
      exact Val.alikeEntries_of_subset entries entries fun _ h => h

theorem Val.alikeList_refl : ∀ items : List Val, Val.alikeList items items = true
  | [] => by rw [Val.alikeList]
  | item :: rest => by
      rw [Val.alikeList, Val.alike_refl item, Val.alikeList_refl rest, Bool.and_self]

theorem Val.alikeEntries_of_subset : ∀ entries ys : List (Scalar × Val), entries ⊆ ys →
    Val.alikeEntries entries ys = true
  | [], _, _ => by rw [Val.alikeEntries]
  | (k, v) :: rest, ys, h => by
      have hhead : (ys.any fun entry => k.alike entry.1 && v.alike entry.2) = true :=
        List.any_eq_true.2 ⟨(k, v), h List.mem_cons_self, by
          rw [Scalar.alike_refl, Val.alike_refl v, Bool.and_self]⟩
      rw [Val.alikeEntries, hhead, Bool.true_and]
      exact Val.alikeEntries_of_subset rest ys fun _ hmem => h (List.mem_cons_of_mem _ hmem)

end

mutual

/-- Every mapping in a value has each of its keys once, as a Python dict does. -/
def Val.wellKeyed : Val → Bool
  | .map entries => decide (entries.map Prod.fst).Nodup && Val.wellKeyedEntries entries
  | .list items => Val.wellKeyedItems items
  | _ => true

def Val.wellKeyedItems : List Val → Bool
  | [] => true
  | item :: rest => item.wellKeyed && Val.wellKeyedItems rest

def Val.wellKeyedEntries : List (Scalar × Val) → Bool
  | [] => true
  | (_, v) :: rest => v.wellKeyed && Val.wellKeyedEntries rest

end

theorem Val.wellKeyed_list {items : List Val} :
    (Val.list items).wellKeyed = true ↔ ∀ item ∈ items, item.wellKeyed = true := by
  rw [Val.wellKeyed]
  induction items with
  | nil => simp [Val.wellKeyedItems]
  | cons item rest ih => simp [Val.wellKeyedItems, ih]

theorem Val.wellKeyed_map {entries : List (Scalar × Val)} :
    (Val.map entries).wellKeyed = true ↔
      (entries.map Prod.fst).Nodup ∧ ∀ entry ∈ entries, entry.2.wellKeyed = true := by
  rw [Val.wellKeyed, Bool.and_eq_true, decide_eq_true_eq]
  refine and_congr Iff.rfl ?_
  induction entries with
  | nil => simp [Val.wellKeyedEntries]
  | cons entry rest ih =>
      obtain ⟨k, v⟩ := entry
      simp [Val.wellKeyedEntries, ih]

theorem Scalar.eqv_str {s : Scalar} {text : String} : s.eqv (.str text) = true ↔ s = .str text := by
  cases s <;> simp [Scalar.eqv, Scalar.number?]
  split <;> simp_all

/-- Only a text equals a text. -/
theorem Mapping.getD_eqv_str {m : Mapping} {key text : String} :
    (m.getD key).eqv (.str text) = true ↔ m.get? key = some (.str text) := by
  cases hget : m.get? key with
  | none => simp [Mapping.getD, hget, Val.eqv, Scalar.eqv_str]
  | some value => cases value <;> simp [Mapping.getD, hget, Val.eqv, Scalar.eqv_str]

end Papaia
