/-
Module: Papaia.Host.Numbers
Purpose: The numbers of `doctor`'s document as Python computes with them and prints them: which
  conversions raise, what a floating point operation gives, and the texts of sizes.
Trusted boundary: none
Main exports: Raised, toFloat, PyFloat.times, truncate, textOf, fixed, formatBytes
-/
import Papaia.Data.Text
import Papaia.Data.Value
import Papaia.Lib.Binary64

namespace Papaia.Host

open Text Binary64

/-- What Python raises over a number: it is too large, or it is no number that can be read. -/
inductive Raised where
  | overflow
  | value
deriving DecidableEq, Repr

/-- A computation that ends without an exception. -/
def Returns {α : Type} (computed : Except Raised α) : Prop :=
  ∃ a, computed = .ok a

/-! ### Conversions -/

/-- The float of a rational result, an infinity where there is none. -/
def ofExact (q : Rat) : PyFloat :=
  if Overflows q then .infinite (decide (q < 0)) else .finite (nearest q)

/-- The float of a rational result where Python raises if there is none: of a whole number, or of
the quotient of two. -/
def checkedFloat (q : Rat) : Except Raised PyFloat :=
  if Overflows q then .error .overflow else .ok (.finite (nearest q))

/-- `float(number)`. -/
def toFloat (number : Int) : Except Raised PyFloat :=
  checkedFloat number

/-- `x * factor` for a positive factor. -/
def times (x : PyFloat) (factor : Rat) : PyFloat :=
  match x with
  | .finite q => ofExact (q * factor)
  | other => other

/-- `int(x)`. -/
def truncate : PyFloat → Except Raised Int
  | .finite q => .ok (q.num.tdiv q.den)
  | .infinite _ => .error .overflow
  | .nan => .error .value

/-- `_int`. -/
def int? : Val → Option Int
  | .int i => some i
  | _ => none

/-- `_number`. -/
def number? : Val → Except Raised (Option PyFloat)
  | .int i => (toFloat i).map some
  | .float f => .ok (some f)
  | _ => .ok none

/-! ### Texts -/

/-- A whole number that Python turns into a text: it has at most 4300 digits. -/
def printableInt (number : Int) : Bool :=
  decide (Nat.log 10 number.natAbs < 4300)

mutual

/-- A value that Python turns into a text. -/
def printable : Val → Bool
  | .int i => printableInt i
  | .list items => printableItems items
  | .map entries => printableEntries entries
  | _ => true

def printableItems : List Val → Bool
  | [] => true
  | item :: rest => printable item && printableItems rest

def printableEntries : List (Scalar × Val) → Bool
  | [] => true
  | (_, value) :: rest => printable value && printableEntries rest

end

/-- `str(number)`. -/
def textOf (number : Int) : Except Raised String :=
  if printableInt number then .ok (renderInt number) else .error .value

/-- `number` with `digits` digits after the point, from the digits without one. -/
def pointed (digits : Nat) (scaled : Nat) : String :=
  if digits = 0 then toString scaled
  else
    let tail := toString (scaled % 10 ^ digits)
    toString (scaled / 10 ^ digits) ++ "." ++
      String.ofList (List.replicate (digits - tail.length) '0') ++ tail

/-- `f"\x7bx:.\x7bdigits\x7df\x7d"`. -/
def fixed (digits : Nat) : PyFloat → String
  | .nan => "nan"
  | .infinite negative => if negative then "-inf" else "inf"
  | .finite q =>
      let scaled := (roundHalfEven (q * 10 ^ digits)).natAbs
      if q < 0 then "-" ++ pointed digits scaled else pointed digits scaled

/-- The size in the first unit it is small enough for. -/
def sizeText : List String → PyFloat → String
  | [], size => fixed (if large size then 0 else 1) size ++ " TiB"
  | unit :: rest, size =>
      match size with
      | .finite q =>
          if q < 1024 then fixed (if unit = "B" ∨ 100 ≤ q then 0 else 1) size ++ " " ++ unit
          else sizeText rest (ofExact (q / 1024))
      | other => sizeText rest other
where
  /-- `size >= 100`. -/
  large : PyFloat → Bool
    | .finite q => decide (100 ≤ q)
    | .infinite negative => !negative
    | .nan => false

/-- `format_bytes`. -/
def formatBytes (value : Int) : Except Raised String :=
  (toFloat value).map (sizeText ["B", "KiB", "MiB", "GiB"])

/-- `round(min(max(x, 0.0), 100.0), 1)`. -/
def clamped : PyFloat → PyFloat
  | .nan => .nan
  | .infinite negative => .finite (if negative then 0 else 100)
  | .finite q => .finite (nearest (roundHalfEven (min (max q 0) 100 * 10) / 10))

end Papaia.Host
