/-
Module: Papaia.Data.VersionKey
Purpose: How versions are compared: each text becomes a key of nested tuples, and the keys are
  compared as Python compares tuples and lists.
Trusted boundary: the Unicode table of decimal digits
Main exports: VersionMatch, matchVersion, Key, key, compareKeys, compare, isNewer
-/
import Papaia.Data.Semver
import Papaia.Data.Numerals

namespace Papaia.Versions

open Text Semver

/-- The groups of `_VERSION_RE`; the identifiers of a pre-release are cut at its dots. -/
structure VersionMatch where
  major : List Char
  minor : List Char
  patch : List Char
  pre : Option (List (List Char))
deriving DecidableEq, Repr

/-- `\d+`. -/
def isNumber (chars : List Char) : Bool :=
  !chars.isEmpty && chars.all fun c => (decimalOf c).isSome

/-- `(\d+)\.(\d+)\.(\d+)` and the group after a minus sign. -/
def matchNumbers (numbers : List (List Char)) (pre : Option (List Char)) : Option VersionMatch :=
  match numbers with
  | [major, minor, patch] =>
      if isNumber major && isNumber minor && isNumber patch then
        match pre with
        | none => some { major, minor, patch, pre := none }
        | some pre =>
            (readIdentifiers pre).map fun identifiers =>
              { major, minor, patch, pre := some identifiers }
      else none
  | _ => none

/-- `_VERSION_RE.match`; the build after a plus sign is matched by no group. -/
def matchVersion (chars : List Char) : Option VersionMatch := do
  let (version, build) := cutAt '+' chars
  if let some build := build then
    let _ ← readIdentifiers build
  let (numbers, pre) := cutAt '-' version
  matchNumbers (numbers.splitOn '.') pre

/-- `int(digits)` of a run of digits; none where it has more than Python reads. -/
def readNumber (digits : List Char) : Option Nat :=
  if Numerals.maxDigits < digits.length then none else readDecimal digits

/-- `_Key`. -/
structure Key where
  triple : Nat × Nat × Nat
  release : Bool
  identifiers : List (Nat × Nat × String)
deriving DecidableEq, Repr

def identifierKey (identifier : List Char) : Option (Nat × Nat × String) :=
  if identifier.all Char.isDigit then (readNumber identifier).map fun n => (0, n, "")
  else some (1, 0, String.ofList identifier)

/-- The key of a match; none where a number is too long for `int`. -/
def keyOf (m : VersionMatch) : Option Key := do
  let identifiers ← (m.pre.getD []).mapM identifierKey
  let major ← readNumber m.major
  let minor ← readNumber m.minor
  let patch ← readNumber m.patch
  return { triple := (major, minor, patch), release := m.pre.isNone, identifiers }

/-- `_key`: none for a text that is not SemVer, and nothing at all where it raises. -/
def key (text : String) : Option (Option Key) :=
  match matchVersion (strip text).toList with
  | none => some none
  | some m => (keyOf m).map some

/-! ### Tuples and lists -/

/-- `<` of two triples of numbers. -/
def tripleLt (a b : Nat × Nat × Nat) : Bool :=
  if a.1 ≠ b.1 then a.1 < b.1
  else if a.2.1 ≠ b.2.1 then a.2.1 < b.2.1
  else a.2.2 < b.2.2

/-- `<` of two identifiers. -/
def identifierLt (a b : Nat × Nat × String) : Bool :=
  if a.1 ≠ b.1 then a.1 < b.1
  else if a.2.1 ≠ b.2.1 then a.2.1 < b.2.1
  else a.2.2 < b.2.2

/-- `<` of two lists of identifiers: the first place where they differ decides. -/
def identifiersLt : List (Nat × Nat × String) → List (Nat × Nat × String) → Bool
  | [], [] => false
  | [], _ :: _ => true
  | _ :: _, [] => false
  | a :: rest, b :: others => if a = b then identifiersLt rest others else identifierLt a b

def compareKeys (ka kb : Key) : Int :=
  if ka.triple ≠ kb.triple then if tripleLt ka.triple kb.triple then -1 else 1
  else if ka.release ≠ kb.release then if kb.release then -1 else 1
  else if ka.identifiers = kb.identifiers then 0
  else if identifiersLt ka.identifiers kb.identifiers then -1
  else 1

/-- `compare`: none where one of the texts is not SemVer, and nothing at all where a key raises. -/
def compare (a b : String) : Option (Option Int) := do
  let ka ← key a
  let kb ← key b
  match ka, kb with
  | some ka, some kb => return some (compareKeys ka kb)
  | _, _ => return none

/-- `is_newer`. -/
def isNewer (candidate installed : String) : Option (Option Bool) :=
  (compare candidate installed).map (Option.map (0 < ·))

example : compare "1.0.0-rc.1" "1.0.0+build" = some (some (-1)) := by decide

end Papaia.Versions
