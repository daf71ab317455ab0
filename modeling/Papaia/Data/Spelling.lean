/-
Module: Papaia.Data.Spelling
Purpose: Texts that are put together and taken apart again: words with blanks between them, parts
  with a separator between them, and numbers in decimal digits.
Trusted boundary: none
Main exports: startsWith_iff, startsWith_append, words_joinWith, clean_of_mem_words,
  splitOn_joinWith, readDecimal_toDigits, readDecimal_ascii
-/
import Papaia.Data.Text

namespace Papaia.Text

/-! ### Texts that begin alike -/

theorem startsWith_iff {text start : String} :
    startsWith text start = true ↔ start.toList <+: text.toList := by
  simp [startsWith]

theorem startsWith_iff_exists {text start : String} :
    startsWith text start = true ↔ ∃ rest, text = start ++ rest := by
  rw [startsWith_iff]
  constructor
  · rintro ⟨rest, hrest⟩
    exact ⟨String.ofList rest, by rw [← String.toList_inj, String.toList_append, ← hrest]; simp⟩
  · rintro ⟨rest, rfl⟩
    exact ⟨rest.toList, by simp⟩

theorem startsWith_append (start rest : String) : startsWith (start ++ rest) start = true :=
  startsWith_iff_exists.2 ⟨rest, rfl⟩

/-! ### Words -/

/-- A word: some characters, none of them white space. -/
def IsWord (word : String) : Prop :=
  word ≠ "" ∧ ∀ c ∈ word.toList, isSpace c = false

theorem toList_ne_nil {text : String} (h : text ≠ "") : text.toList ≠ [] := by
  intro hnil
  apply h
  rw [← String.ofList_toList (s := text), hnil]

/-- The runs between separators are made of what is no separator. -/
theorem forall_mem_splitOnP {α : Type*} (p : α → Bool) (xs : List α) :
    ∀ run ∈ xs.splitOnP p, ∀ x ∈ run, p x = false ∧ x ∈ xs := by
  induction xs with
  | nil => simp
  | cons x xs ih =>
      intro run hrun y hy
      rw [List.splitOnP_cons_eq_if_modifyHead] at hrun
      split at hrun
      next =>
        rcases List.mem_cons.1 hrun with rfl | hrun
        · cases hy
        · exact (ih run hrun y hy).imp id (List.mem_cons_of_mem x)
      next hx =>
        obtain ⟨first, rest, hsplit⟩ := List.exists_cons_of_ne_nil (List.splitOnP_ne_nil p xs)
        rw [hsplit] at hrun ih
        rcases List.mem_cons.1 hrun with rfl | hrun
        · rcases List.mem_cons.1 hy with rfl | hy
          · exact ⟨by simpa using hx, List.mem_cons_self⟩
          · exact (ih first List.mem_cons_self y hy).imp id (List.mem_cons_of_mem x)
        · exact (ih run (List.mem_cons_of_mem _ hrun) y hy).imp id (List.mem_cons_of_mem x)

theorem clean_of_mem_words {text word : String} (h : word ∈ words text) : IsWord word := by
  simp only [words, List.mem_map, List.mem_filter] at h
  obtain ⟨run, ⟨hrun, hfilled⟩, rfl⟩ := h
  constructor
  · intro hempty
    have hnil : run = [] := by simpa using congrArg String.toList hempty
    simp [hnil] at hfilled
  · rw [String.toList_ofList]
    exact fun c hc => (forall_mem_splitOnP isSpace _ run hrun c hc).1

theorem words_of_isWord {word : String} (h : IsWord word) : words word = [word] := by
  have hfilled : word.toList.isEmpty = false := by simpa using toList_ne_nil h.1
  simp [words, List.splitOnP_eq_singleton h.2, hfilled]

theorem words_append {word rest : String} (h : IsWord word) :
    words (word ++ " " ++ rest) = word :: words rest := by
  have hfilled : word.toList.isEmpty = false := by simpa using toList_ne_nil h.1
  have hsplit : (word ++ " " ++ rest).toList.splitOnP isSpace =
      word.toList :: rest.toList.splitOnP isSpace := by
    rw [String.toList_append, String.toList_append, List.append_assoc]
    exact List.splitOnP_append_cons_of_forall_mem h.2 ' ' (by decide) _
  rw [words, hsplit]
  simp [words, hfilled]

/-- Words with blanks between them are the words of the text. -/
theorem words_joinWith {parts : List String} (h : ∀ part ∈ parts, IsWord part) :
    words (joinWith " " parts) = parts := by
  induction parts with
  | nil => decide
  | cons part rest ih =>
      rw [List.forall_mem_cons] at h
      cases rest with
      | nil => exact words_of_isWord h.1
      | cons next rest =>
          rw [joinWith, words_append h.1, ih h.2]
          exact List.cons_ne_nil _ _

/-! ### Parts -/

theorem toList_joinWith (separator : String) (parts : List String) :
    (joinWith separator parts).toList =
      separator.toList.intercalate (parts.map String.toList) := by
  induction parts with
  | nil => rfl
  | cons part rest ih =>
      cases rest with
      | nil => simp [joinWith]
      | cons next rest =>
          rw [joinWith, String.toList_append, String.toList_append, ih]
          · simp [List.intercalate_cons_of_ne_nil]
          · exact List.cons_ne_nil _ _

/-- What holds of the characters of the parts and of the separator holds of the whole text. -/
theorem forall_mem_joinWith {p : Char → Prop} {separator : String} {parts : List String}
    (hseparator : ∀ c ∈ separator.toList, p c) (h : ∀ part ∈ parts, ∀ c ∈ part.toList, p c) :
    ∀ c ∈ (joinWith separator parts).toList, p c := by
  induction parts with
  | nil => simp [joinWith]
  | cons part rest ih =>
      rw [List.forall_mem_cons] at h
      cases rest with
      | nil => exact h.1
      | cons next rest =>
          rw [joinWith, String.toList_append, String.toList_append, List.forall_mem_append,
            List.forall_mem_append]
          · exact ⟨⟨h.1, hseparator⟩, ih h.2⟩
          · exact List.cons_ne_nil _ _

/-- Parts with a separator between them, which none of them has, are what it splits them into. -/
theorem splitOn_joinWith {separator : Char} {parts : List String} (hparts : parts ≠ [])
    (h : ∀ part ∈ parts, separator ∉ part.toList) :
    (joinWith (String.singleton separator) parts).toList.splitOn separator =
      parts.map String.toList := by
  rw [toList_joinWith, String.toList_singleton]
  apply List.splitOn_intercalate
  · intro chars hchars
    obtain ⟨part, hpart, rfl⟩ := List.mem_map.1 hchars
    exact h part hpart
  · simpa using hparts

/-- Filled parts without the separator can be told from the text they are joined to. -/
theorem joinWith_inj {separator : Char} {parts others : List String}
    (hparts : ∀ part ∈ parts, separator ∉ part.toList ∧ part ≠ "")
    (hothers : ∀ part ∈ others, separator ∉ part.toList ∧ part ≠ "")
    (h : joinWith (String.singleton separator) parts = joinWith (String.singleton separator) others) :
    parts = others := by
  have hfilled : ∀ {part : String} {rest : List String}, part ≠ "" →
      joinWith (String.singleton separator) (part :: rest) ≠ "" := by
    intro part rest hne hempty
    cases rest with
    | nil => exact hne hempty
    | cons next rest =>
        apply hne
        rw [joinWith, String.append_eq_empty_iff, String.append_eq_empty_iff] at hempty
        · exact hempty.1.1
        · exact List.cons_ne_nil _ _
  cases parts with
  | nil =>
      cases others with
      | nil => rfl
      | cons part rest => exact absurd h.symm (hfilled (hothers part List.mem_cons_self).2)
  | cons part rest =>
      cases others with
      | nil => exact absurd h (hfilled (hparts part List.mem_cons_self).2)
      | cons other more =>
          have hsplit := splitOn_joinWith (List.cons_ne_nil part rest) fun p hp => (hparts p hp).1
          rw [h, splitOn_joinWith (List.cons_ne_nil other more) fun p hp => (hothers p hp).1]
            at hsplit
          exact List.map_injective_iff.2 (fun _ _ => String.toList_inj.1) hsplit.symm

/-- The text before the first separator, and the one behind it. -/
theorem takeWhile_append_separator {separator : Char} {first : List Char} (h : separator ∉ first)
    (rest : List Char) :
    (first ++ separator :: rest).takeWhile (· ≠ separator) = first := by
  induction first with
  | nil => simp
  | cons c first ih =>
      rw [List.mem_cons, not_or] at h
      have hc : decide (c ≠ separator) = true := by simpa using Ne.symm h.1
      rw [List.cons_append, List.takeWhile_cons, if_pos hc, ih h.2]

theorem takeWhile_of_not_mem {separator : Char} {chars : List Char} (h : separator ∉ chars) :
    chars.takeWhile (· ≠ separator) = chars := by
  induction chars with
  | nil => rfl
  | cons c chars ih =>
      rw [List.mem_cons, not_or] at h
      have hc : decide (c ≠ separator) = true := by simpa using Ne.symm h.1
      rw [List.takeWhile_cons, if_pos hc, ih h.2]

/-- A text with a separator in it, at the first one. -/
theorem exists_first_separator {separator : Char} {chars : List Char} (h : separator ∈ chars) :
    ∃ first rest, chars = first ++ separator :: rest ∧ separator ∉ first := by
  induction chars with
  | nil => cases h
  | cons c chars ih =>
      by_cases hc : c = separator
      · exact ⟨[], chars, by rw [hc, List.nil_append], List.not_mem_nil⟩
      · obtain ⟨first, rest, rfl, hfirst⟩ := ih ((List.mem_cons.1 h).resolve_left (Ne.symm hc))
        exact ⟨c :: first, rest, rfl, by simp [Ne.symm hc, hfirst]⟩

/-! ### Numbers -/

/-- The ASCII digits are decimal digits. -/
theorem decimalOf_ascii {c : Char} (h : c.isDigit = true) : decimalOf c = some (c.toNat - 48) := by
  have hrange : 48 ≤ c.toNat ∧ c.toNat ≤ 57 := by
    simpa [Char.isDigit, Char.le_def, UInt32.le_iff_toNat_le] using h
  have hfirst : (decide (0x30 ≤ c.toNat) && decide (c.toNat < 0x30 + 10)) = true := by
    simp only [Bool.and_eq_true, decide_eq_true_eq]
    omega
  simp [decimalOf, decimalZeros, hfirst]

theorem decimalOf_lt {c : Char} {digit : Nat} (h : decimalOf c = some digit) : digit < 10 := by
  obtain ⟨base, hbase, rfl⟩ := Option.map_eq_some_iff.1 h
  have hrange := List.find?_some hbase
  simp only [Bool.and_eq_true, decide_eq_true_eq] at hrange
  omega

/-- Between the ASCII digits and those of the other scripts stands no decimal digit. -/
theorem decimalOf_eq_none {c : Char} (hlow : 58 ≤ c.toNat) (hhigh : c.toNat < 0x660) :
    decimalOf c = none := by
  have hzeros : ∀ base ∈ decimalZeros, base = 0x30 ∨ 0x660 ≤ base := by decide
  rw [decimalOf, Option.map_eq_none_iff, List.find?_eq_none]
  intro base hbase
  rcases hzeros base hbase with rfl | hscript
  · simp only [Bool.and_eq_true, decide_eq_true_eq]
    omega
  · simp only [Bool.and_eq_true, decide_eq_true_eq]
    omega

/-- A character that is a letter in lower case was one before. -/
theorem letter_of_toLower {c : Char} (hlow : 97 ≤ c.toLower.toNat) (hhigh : c.toLower.toNat ≤ 122) :
    65 ≤ c.toNat ∧ c.toNat ≤ 122 := by
  by_cases hupper : c.val ≥ 'A'.val ∧ c.val ≤ 'Z'.val
  · simp only [ge_iff_le, UInt32.le_iff_toNat_le] at hupper
    change 65 ≤ c.toNat ∧ c.toNat ≤ 90 at hupper
    omega
  · have hsame : c.toLower = c := dif_neg hupper
    rw [hsame] at hlow hhigh
    omega

/-- A run of ASCII digits spells a number. -/
theorem readDecimal_ascii {chars : List Char} (hchars : chars ≠ [])
    (h : ∀ c ∈ chars, c.isDigit = true) :
    readDecimal chars = some (Nat.ofDigitChars 10 chars 0) := by
  have hrun : ∀ (start : Nat), chars.foldlM (fun value c => (decimalOf c).map (value * 10 + ·)) start
      = some (Nat.ofDigitChars 10 chars start) := by
    clear hchars
    induction chars with
    | nil => simp
    | cons c rest ih =>
        rw [List.forall_mem_cons] at h
        intro start
        rw [List.foldlM_cons, decimalOf_ascii h.1, Nat.ofDigitChars_cons, Nat.mul_comm 10 start]
        exact ih h.2 _
  simp [readDecimal, hchars, hrun]

theorem readDecimal_toDigits (n : Nat) : readDecimal (Nat.toDigits 10 n) = some n := by
  rw [readDecimal_ascii Nat.toDigits_ne_nil fun c hc =>
    Nat.isDigit_of_mem_toDigits (by decide) (by decide) hc]
  rw [Nat.ofDigitChars_ten_toDigits]

theorem renderInt_ne_empty (i : Int) : renderInt i ≠ "" := by
  unfold renderInt
  split
  · simp
  · exact Nat.repr_ne_empty

theorem toList_renderInt (n : Nat) : (renderInt n).toList = Nat.toDigits 10 n := by
  have hsign : ¬ (n : Int) < 0 := by omega
  rw [renderInt, if_neg hsign, Int.natAbs_natCast, Nat.toString_eq_ofList_toDigits,
    String.toList_ofList]

theorem readDecimal_renderInt (n : Nat) : readDecimal (renderInt n).toList = some n := by
  rw [toList_renderInt, readDecimal_toDigits]

end Papaia.Text
