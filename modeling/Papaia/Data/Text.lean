/-
Module: Papaia.Data.Text
Purpose: Python's `str` methods as far as the manager calls them, over the characters of a text.
Trusted boundary: the Unicode tables (white space, decimal digits, other digits)
Main exports: strip, words, splitLines, joinWith, decimalOf, readDecimal, isSlug, renderInt
-/
import Mathlib.Data.List.Basic

namespace Papaia.Text

/-- The characters `str.isspace` accepts, which are the ones `str.strip` removes. -/
def isSpace (c : Char) : Bool :=
  (0x9 ≤ c.toNat && c.toNat ≤ 0xd) || (0x1c ≤ c.toNat && c.toNat ≤ 0x20) ||
    [0x85, 0xa0, 0x1680, 0x2028, 0x2029, 0x202f, 0x205f, 0x3000].contains c.toNat ||
    (0x2000 ≤ c.toNat && c.toNat ≤ 0x200a)

/-- `text.lstrip()`. -/
def lstrip (chars : List Char) : List Char :=
  chars.dropWhile isSpace

/-- `text.rstrip()`. -/
def rstrip (chars : List Char) : List Char :=
  (chars.reverse.dropWhile isSpace).reverse

/-- `text.strip()`. -/
def strip (text : String) : String :=
  String.ofList (rstrip (lstrip text.toList))

/-- Whether a text has nothing but white space. -/
def isBlank (text : String) : Bool :=
  text.toList.all isSpace

/-- `text.split()`: the runs of characters between white space. -/
def words (text : String) : List String :=
  ((text.toList.splitOnP isSpace).filter fun word => !word.isEmpty).map String.ofList

/-- The characters `str.splitlines` ends a line at. -/
def isLineBreak (c : Char) : Bool :=
  [0xa, 0xb, 0xc, 0xd, 0x1c, 0x1d, 0x1e, 0x85, 0x2028, 0x2029].contains c.toNat

/-- The lines of a text; `line` is the one that was begun, backwards. -/
def linesFrom (line : List Char) : List Char → List String
  | [] => if line.isEmpty then [] else [String.ofList line.reverse]
  | '\r' :: '\n' :: rest => String.ofList line.reverse :: linesFrom [] rest
  | c :: rest =>
      if isLineBreak c then String.ofList line.reverse :: linesFrom [] rest
      else linesFrom (c :: line) rest

/-- `text.splitlines()`. -/
def splitLines (text : String) : List String :=
  linesFrom [] text.toList

/-- `separator.join(parts)`. -/
def joinWith (separator : String) : List String → String
  | [] => ""
  | [part] => part
  | part :: rest => part ++ separator ++ joinWith separator rest

/-- The code points of the zeros; each is followed by the other nine digits of its script. -/
def decimalZeros : List Nat :=
  [0x30, 0x660, 0x6f0, 0x7c0, 0x966, 0x9e6, 0xa66, 0xae6, 0xb66, 0xbe6, 0xc66, 0xce6, 0xd66,
    0xde6, 0xe50, 0xed0, 0xf20, 0x1040, 0x1090, 0x17e0, 0x1810, 0x1946, 0x19d0, 0x1a80, 0x1a90,
    0x1b50, 0x1bb0, 0x1c40, 0x1c50, 0xa620, 0xa8d0, 0xa900, 0xa9d0, 0xa9f0, 0xaa50, 0xabf0,
    0xff10, 0x104a0, 0x10d30, 0x11066, 0x110f0, 0x11136, 0x111d0, 0x112f0, 0x11450, 0x114d0,
    0x11650, 0x116c0, 0x11730, 0x118e0, 0x11950, 0x11c50, 0x11d50, 0x11da0, 0x16a60, 0x16ac0,
    0x16b50, 0x1d7ce, 0x1d7d8, 0x1d7e2, 0x1d7ec, 0x1d7f6, 0x1e140, 0x1e2f0, 0x1e950, 0x1fbf0]

/-- The value of a decimal digit: what `\d` matches and `int` reads. -/
def decimalOf (c : Char) : Option Nat :=
  (decimalZeros.find? fun base => base ≤ c.toNat && c.toNat < base + 10).map (c.toNat - ·)

/-- Digits that are not decimal (superscripts, circled numbers): `str.isdigit` accepts them and
`int` does not read them. -/
def otherDigitRanges : List (Nat × Nat) :=
  [(0xb2, 0xb3), (0xb9, 0xb9), (0x1369, 0x1371), (0x19da, 0x19da), (0x2070, 0x2070),
    (0x2074, 0x2079), (0x2080, 0x2089), (0x2460, 0x2468), (0x2474, 0x247c), (0x2488, 0x2490),
    (0x24ea, 0x24ea), (0x24f5, 0x24fd), (0x24ff, 0x24ff), (0x2776, 0x277e), (0x2780, 0x2788),
    (0x278a, 0x2792), (0x10a40, 0x10a43), (0x10e60, 0x10e68), (0x11052, 0x1105a),
    (0x1f100, 0x1f10a)]

/-- `char.isdigit()`. -/
def isDigit (c : Char) : Bool :=
  (decimalOf c).isSome || otherDigitRanges.any fun range => range.1 ≤ c.toNat && c.toNat ≤ range.2

/-- The number a run of decimal digits spells; `none` for an empty run and for anything else. -/
def readDecimal (chars : List Char) : Option Nat :=
  if chars.isEmpty then none
  else chars.foldlM (fun value c => (decimalOf c).map (value * 10 + ·)) 0

/-- `text.lower()` for the ASCII letters, the only ones the manager's tables hold. -/
def lower (text : String) : String :=
  String.ofList (text.toList.map Char.toLower)

/-- `str(number)`. -/
def renderInt (value : Int) : String :=
  if value < 0 then "-" ++ toString value.natAbs else toString value.natAbs

/-- `text.startswith(start)`. -/
def startsWith (text start : String) : Bool :=
  start.toList.isPrefixOf text.toList

/-- `text.endswith(ending)`. -/
def endsWith (text ending : String) : Bool :=
  ending.toList.reverse.isPrefixOf text.toList.reverse

/-- `part in text`. -/
def contains (text part : String) : Bool :=
  (text.toList.tails).any part.toList.isPrefixOf

/-- `^[a-z0-9][a-z0-9_-]{0,63}$`, the rule for the names of jobs, labels and connections. -/
def isSlug (text : String) : Bool :=
  match text.toList with
  | [] => false
  | first :: rest =>
      let plain := fun c : Char => c.isLower || c.isDigit
      plain first && rest.length ≤ 63 && rest.all fun c => plain c || c == '_' || c == '-'

end Papaia.Text
