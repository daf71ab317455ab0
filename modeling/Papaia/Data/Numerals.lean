/-
Module: Papaia.Data.Numerals
Purpose: The numbers Python reads from a text with `int` and with `Decimal`, and how decimals
  compare.
Trusted boundary: the Unicode table of decimal digits
Main exports: readInteger, Decimal, readDecimalNumber, Decimal.value?, Decimal.lt
-/
import Papaia.Data.Text
import Mathlib.Algebra.Field.Rat
import Mathlib.Data.Nat.Log

namespace Papaia.Numerals

open Text

/-- A sign in front of a number: whether it is a minus, and the characters after it. -/
def cutSign : List Char → Bool × List Char
  | '-' :: rest => (true, rest)
  | '+' :: rest => (false, rest)
  | chars => (false, chars)

/-! ### `int` -/

/-- The most digits `int` reads. -/
def maxDigits : Nat := 4300

/-- Whether every underscore stands between two digits. -/
def underscoresBetween : List Char → Bool
  | [] => true
  | '_' :: _ => false
  | [_] => true
  | _ :: '_' :: '_' :: _ => false
  | [_, '_'] => false
  | _ :: '_' :: rest => underscoresBetween rest
  | _ :: rest => underscoresBetween rest

/-- `int(text)`; none where it raises a `ValueError`. -/
def readInteger (text : String) : Option Int :=
  let (negative, body) := cutSign (strip text).toList
  let digits := body.filter (· ≠ '_')
  if underscoresBetween body && digits.length ≤ maxDigits then
    (readDecimal digits).map fun n => if negative then -(n : Int) else n
  else none

/-! ### `Decimal` -/

inductive Decimal where
  | finite (negative : Bool) (coefficient : Nat) (exponent : Int)
  | infinite (negative : Bool)
  | nan (signalling : Bool)
deriving DecidableEq, Repr

/-- The largest exponent, and the smallest one of a digit. -/
def maxExponent : Int := 999999999999999999

def minExponent : Int := -1999999999999999997

/-- A coefficient and an exponent that `Decimal` holds without rounding. -/
def exponentFits (coefficient : Nat) (exponent : Int) : Bool :=
  minExponent ≤ exponent && exponent + Nat.log 10 coefficient ≤ maxExponent

/-- The exponent after an `e`, zero where there is none. -/
def readExponent : List Char → Option Int
  | [] => some 0
  | e :: rest =>
      if e = 'e' || e = 'E' then
        let (negative, digits) := cutSign rest
        (readDecimal digits).map fun n => if negative then -(n : Int) else n
      else none

/-- Digits, a point with digits, and an exponent. -/
def readFinite (negative : Bool) (chars : List Char) : Option Decimal :=
  let whole := chars.takeWhile fun c => (decimalOf c).isSome
  let rest := chars.drop whole.length
  let fraction :=
    match rest with
    | '.' :: tail => tail.takeWhile fun c => (decimalOf c).isSome
    | _ => []
  let behind :=
    match rest with
    | '.' :: tail => tail.drop fraction.length
    | _ => rest
  (readDecimal (whole ++ fraction)).bind fun coefficient =>
    (readExponent behind).bind fun written =>
      let exponent := written - fraction.length
      if exponentFits coefficient exponent then
        some (.finite negative coefficient exponent)
      else none

/-- `Decimal(text)`; none where it raises `InvalidOperation`.  Underscores count for nothing. -/
def readDecimalNumber (text : String) : Option Decimal :=
  let (negative, body) := cutSign ((strip text).toList.filter (· ≠ '_'))
  let word := lower (String.ofList body)
  if word = "inf" || word = "infinity" then some (.infinite negative)
  else if startsWith word "nan" && (word.toList.drop 3).all fun c => (decimalOf c).isSome then
    some (.nan false)
  else if startsWith word "snan" && (word.toList.drop 4).all fun c => (decimalOf c).isSome then
    some (.nan true)
  else readFinite negative body

/-- The number a finite decimal is. -/
def Decimal.value? : Decimal → Option Rat
  | .finite negative coefficient exponent =>
      let size := (coefficient : Rat) * 10 ^ exponent
      some (if negative then -size else size)
  | _ => none

/-- `one < other`; none where Python raises, as it does for what is no number. -/
def Decimal.lt (one other : Decimal) : Option Bool :=
  match one, other with
  | .nan _, _ | _, .nan _ => none
  | .infinite negative, .infinite negative' => some (negative && !negative')
  | .infinite negative, .finite .. => some negative
  | .finite .., .infinite negative => some !negative
  | one, other => (one.value?.bind fun a => other.value?.map fun b => decide (a < b))

example : readInteger "-1_000" = some (-1000) := by decide

example : readDecimalNumber "1.10" = some (.finite false 110 (-2)) := by decide

theorem readDecimalNumber_nan : readDecimalNumber "nan" = some (.nan false) := by decide

-- the readings are used by what they accept, never by how they look for it
attribute [irreducible] readInteger readDecimalNumber

end Papaia.Numerals
