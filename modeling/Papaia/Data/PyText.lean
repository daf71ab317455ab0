/-
Module: Papaia.Data.PyText
Purpose: Python texts as lists of code points, lone surrogates included, and their bytes in UTF-8.
Trusted boundary: none
Main exports: CodePoint, PyText, PyText.of, PyText.encode, PyText.encode_isSome_iff
-/
import Mathlib.Algebra.GroupWithZero.Nat
import Mathlib.Data.Fin.Basic

namespace Papaia

/-- A character of a Python text. -/
abbrev CodePoint := Fin 0x110000

/-- A Python text.  A YAML escape may stand for half of a surrogate pair, which no encoding holds. -/
abbrev PyText := List CodePoint

namespace PyText

instance neZeroCodePoints : NeZero 0x110000 :=
  ⟨by decide⟩

instance lawfulTexts : LawfulBEq PyText :=
  inferInstance

/-- The text that a literal is. -/
def of (text : String) : PyText :=
  text.toList.map fun c => Fin.ofNat 0x110000 c.toNat

def surrogate (c : CodePoint) : Bool :=
  0xd800 ≤ c.val && c.val < 0xe000

/-- The bytes of a code point. -/
def bytesOf (n : Nat) : List UInt8 :=
  if n < 0x80 then [n.toUInt8]
  else if n < 0x800 then [(0xc0 + n / 0x40).toUInt8, (0x80 + n % 0x40).toUInt8]
  else if n < 0x10000 then
    [(0xe0 + n / 0x1000).toUInt8, (0x80 + n / 0x40 % 0x40).toUInt8, (0x80 + n % 0x40).toUInt8]
  else
    [(0xf0 + n / 0x40000).toUInt8, (0x80 + n / 0x1000 % 0x40).toUInt8,
      (0x80 + n / 0x40 % 0x40).toUInt8, (0x80 + n % 0x40).toUInt8]

/-- The bytes of a character that has any. -/
def utf8 (c : CodePoint) : Option (List UInt8) :=
  if surrogate c then none else some (bytesOf c.val)

/-- `text.encode()`; none where it raises. -/
def encode : PyText → Option (List UInt8)
  | [] => some []
  | c :: rest => do
      let first ← utf8 c
      let more ← encode rest
      pure (first ++ more)

theorem utf8_isSome_iff (c : CodePoint) : (utf8 c).isSome = true ↔ surrogate c = false := by
  unfold utf8
  cases surrogate c <;> simp

/-- Lone surrogates, and they alone, cannot be encoded. -/
theorem encode_isSome_iff (text : PyText) :
    (encode text).isSome = true ↔ ∀ c ∈ text, surrogate c = false := by
  induction text with
  | nil => simp [encode]
  | cons c rest ih =>
      rw [List.forall_mem_cons, ← utf8_isSome_iff, ← ih, encode]
      cases utf8 c with
      | none => simp
      | some first => cases encode rest <;> simp

/-- A literal has no lone surrogates. -/
theorem surrogate_of (text : String) : ∀ c ∈ of text, surrogate c = false := by
  intro c hc
  obtain ⟨char, -, rfl⟩ := List.mem_map.1 hc
  have hvalid : char.toNat < 0xd800 ∨ 0xdfff < char.toNat ∧ char.toNat < 0x110000 := char.valid
  have hval : (Fin.ofNat 0x110000 char.toNat).val = char.toNat := Nat.mod_eq_of_lt (by omega)
  simp only [surrogate, hval, Bool.and_eq_false_iff, decide_eq_false_iff_not]
  omega

theorem encode_append (text more : PyText) :
    encode (text ++ more) = (encode text).bind fun raw => (encode more).map (raw ++ ·) := by
  induction text with
  | nil =>
      rw [List.nil_append, encode, Option.bind_some]
      cases encode more <;> rfl
  | cons c rest ih =>
      rw [List.cons_append, encode, encode, ih]
      cases utf8 c with
      | none => rfl
      | some first =>
          cases encode rest with
          | none => rfl
          | some raw => cases encode more <;> simp

end PyText

end Papaia
