/-
Module: Papaia.Data.Semver
Purpose: The precedence of two versions, for texts that are SemVer.
Trusted boundary: the Unicode table of decimal digits
Main exports: Version, readVersion, compareVersions, isNewer
-/
import Papaia.Data.Text

namespace Papaia.Semver

open Text

/-- An identifier of a pre-release. -/
inductive Identifier where
  | number (value : Nat)
  | text (value : String)
deriving DecidableEq, Repr

/-- `_Key`: the three numbers, and the identifiers of a pre-release. -/
structure Version where
  major : Nat
  minor : Nat
  patch : Nat
  pre : Option (List Identifier)
deriving DecidableEq, Repr

def isIdentifierChar (c : Char) : Bool :=
  c.isAlphanum || c = '-'

/-- `[0-9A-Za-z-]+(\.[0-9A-Za-z-]+)*`, cut at the dots. -/
def readIdentifiers (chars : List Char) : Option (List (List Char)) :=
  let parts := chars.splitOn '.'
  if parts.all fun part => !part.isEmpty && part.all isIdentifierChar then some parts else none

def readIdentifier (chars : List Char) : Identifier :=
  if chars.all Char.isDigit then .number ((readDecimal chars).getD 0)
  else .text (String.ofList chars)

/-- The text before the first of a sign, and the text after it when the sign is there. -/
def cutAt (sign : Char) (chars : List Char) : List Char × Option (List Char) :=
  match chars.dropWhile (· ≠ sign) with
  | [] => (chars, none)
  | _ :: rest => (chars.takeWhile (· ≠ sign), some rest)

/-- `_key`.  The build after a plus sign is checked and left out. -/
def readVersion (text : String) : Option Version := do
  let (version, build) := cutAt '+' (strip text).toList
  if let some build := build then
    let _ ← readIdentifiers build
  let (numbers, pre) := cutAt '-' version
  match numbers.splitOn '.' with
  | [major, minor, patch] =>
      let major ← readDecimal major
      let minor ← readDecimal minor
      let patch ← readDecimal patch
      match pre with
      | none => return { major, minor, patch, pre := none }
      | some pre =>
          let parts ← readIdentifiers pre
          return { major, minor, patch, pre := some (parts.map readIdentifier) }
  | _ => none

/-- A number ranks below a text. -/
def Identifier.compare : Identifier → Identifier → Ordering
  | .number m, .number n => Ord.compare m n
  | .number _, .text _ => .lt
  | .text _, .number _ => .gt
  | .text s, .text t => Ord.compare s t

def compareIdentifiers : List Identifier → List Identifier → Ordering
  | [], [] => .eq
  | [], _ :: _ => .lt
  | _ :: _, [] => .gt
  | one :: rest, other :: others => (one.compare other).then (compareIdentifiers rest others)

/-- A pre-release ranks below its release. -/
def comparePre : Option (List Identifier) → Option (List Identifier) → Ordering
  | none, none => .eq
  | none, some _ => .gt
  | some _, none => .lt
  | some one, some other => compareIdentifiers one other

/-- `compare`; none when one of the texts is not SemVer. -/
def compareVersions (one other : String) : Option Ordering := do
  let a ← readVersion one
  let b ← readVersion other
  return ((Ord.compare a.major b.major).then (Ord.compare a.minor b.minor)).then
    (Ord.compare a.patch b.patch) |>.then (comparePre a.pre b.pre)

/-- `is_newer`. -/
def isNewer (candidate installed : String) : Option Bool :=
  (compareVersions candidate installed).map (· == .gt)

example : isNewer "1.10.0" "1.9.3" = some true := by decide

example : isNewer "1.0.0-rc.2" "1.0.0" = some false := by decide

end Papaia.Semver
