/-
Module: Papaia.Lib.Lines
Purpose: Texts as lines and as trimmed parts: what a split gives back of lines that were joined, and
  what a strip leaves of a text that begins and ends with no white space.
Trusted boundary: none
Main exports: Unbroken, Trimmed, splitLines_join, unbroken_of_mem_splitLines, strip_eq_iff
-/
import Papaia.Data.Text
import Mathlib.Data.List.TakeWhile

namespace Papaia.Lines

open Text

/-! ### Lines -/

/-- A text without an end of a line. -/
def Unbroken (text : String) : Prop :=
  ∀ c ∈ text.toList, isLineBreak c = false

instance (text : String) : Decidable (Unbroken text) :=
  List.decidableBAll (fun c => isLineBreak c = false) text.toList

theorem linesFrom_of_not_break {line rest : List Char} {c : Char} (h : isLineBreak c = false) :
    linesFrom line (c :: rest) = linesFrom (c :: line) rest := by
  conv_lhs => unfold linesFrom
  split
  · next heq => cases heq
  · next heq =>
      cases heq
      cases h
  · next heq =>
      obtain ⟨rfl, rfl⟩ := List.cons.inj heq
      simp only [h, Bool.false_eq_true, if_false]

theorem linesFrom_newline (line rest : List Char) :
    linesFrom line ('\n' :: rest) = String.ofList line.reverse :: linesFrom [] rest := by
  rfl

/-- The end of a line, when its second character does not follow. -/
theorem linesFrom_of_break {line rest : List Char} {c : Char} (h : isLineBreak c = true)
    (hsingle : ∀ behind, c = '\r' → rest = '\n' :: behind → False) :
    linesFrom line (c :: rest) = String.ofList line.reverse :: linesFrom [] rest := by
  conv_lhs => unfold linesFrom
  split
  · next heq => cases heq
  · next heq =>
      obtain ⟨rfl, rfl⟩ := List.cons.inj heq
      exact (hsingle _ rfl rfl).elim
  · next heq =>
      obtain ⟨rfl, rfl⟩ := List.cons.inj heq
      simp only [h, if_true]

/-- Characters that end no line belong to the line that was begun. -/
theorem linesFrom_append {line chars rest : List Char} (h : ∀ c ∈ chars, isLineBreak c = false) :
    linesFrom line (chars ++ rest) = linesFrom (chars.reverse ++ line) rest := by
  induction chars generalizing line with
  | nil => rfl
  | cons c chars ih =>
      rw [List.cons_append, linesFrom_of_not_break (h c List.mem_cons_self),
        ih fun other hother => h other (List.mem_cons_of_mem _ hother)]
      simp

/-- A line that is ended comes back before the lines that follow. -/
theorem linesFrom_line {line : String} {rest : List Char} (h : Unbroken line) :
    linesFrom [] (line.toList ++ '\n' :: rest) = line :: linesFrom [] rest := by
  rw [linesFrom_append h, linesFrom_newline]
  simp

/-- Lines that are joined and ended come back. -/
theorem splitLines_join {lines : List String} (hsome : lines ≠ [])
    (h : ∀ line ∈ lines, Unbroken line) : splitLines (joinWith "\n" lines ++ "\n") = lines := by
  unfold splitLines
  induction lines with
  | nil => exact absurd rfl hsome
  | cons first rest ih =>
      have hfirst := h first List.mem_cons_self
      cases rest with
      | nil =>
          have hchars : (joinWith "\n" [first] ++ "\n").toList = first.toList ++ '\n' :: [] := by
            simp [joinWith]
          rw [hchars, linesFrom_line hfirst]
          rfl
      | cons second rest =>
          have hchars : (joinWith "\n" (first :: second :: rest) ++ "\n").toList =
              first.toList ++ '\n' :: (joinWith "\n" (second :: rest) ++ "\n").toList := by
            simp [joinWith]
          rw [hchars, linesFrom_line hfirst,
            ih (List.cons_ne_nil _ _) fun line hline => h line (List.mem_cons_of_mem _ hline)]

/-- The end of a line gives the line that was begun. -/
theorem linesFrom_break (line rest : List Char) {c : Char} (h : isLineBreak c = true) :
    [String.ofList line.reverse] <+: linesFrom line (c :: rest) := by
  by_cases hsingle : ∀ behind, c = '\r' → rest = '\n' :: behind → False
  · rw [linesFrom_of_break h hsingle]
    exact List.prefix_append [_] _
  · push Not at hsingle
    obtain ⟨behind, rfl, rfl, -⟩ := hsingle
    exact List.prefix_append [_] (linesFrom [] behind)

/-- What is written behind the end of a line leaves the lines before it. -/
theorem linesFrom_extends {line chars rest : List Char} {c : Char} (h : isLineBreak c = true) :
    linesFrom line chars <+: linesFrom line (chars ++ c :: rest) := by
  fun_induction linesFrom line chars with
  | case1 line hempty => exact List.nil_prefix
  | case2 line hempty => exact linesFrom_break line rest h
  | case3 line behind ih => exact List.cons_prefix_cons.2 ⟨rfl, ih⟩
  | case4 line first behind hnot hbreak ih =>
      cases behind with
      | nil => exact linesFrom_break line (c :: rest) hbreak
      | cons second behind =>
          rw [List.cons_append, linesFrom_of_break hbreak]
          · exact List.cons_prefix_cons.2 ⟨rfl, ih⟩
          · intro others hreturn hbehind
            exact hnot behind hreturn (by rw [(List.cons.inj hbehind).1])
  | case5 line first behind hnot hbreak ih =>
      rw [List.cons_append, linesFrom_of_not_break (by simpa using hbreak)]
      exact ih

theorem unbroken_of_mem_linesFrom {chars line : List Char}
    (hline : ∀ c ∈ line, isLineBreak c = false) :
    ∀ text ∈ linesFrom line chars, Unbroken text := by
  have hself : ∀ line : List Char, (∀ c ∈ line, isLineBreak c = false) →
      Unbroken (String.ofList line.reverse) := by
    intro line hline c hc
    exact hline c (by simpa using hc)
  fun_induction linesFrom line chars with
  | case1 line hempty => simp
  | case2 line hempty =>
      intro text htext
      obtain rfl := List.mem_singleton.1 htext
      exact hself line hline
  | case3 line rest ih =>
      intro text htext
      rcases List.mem_cons.1 htext with rfl | hrest
      · exact hself line hline
      · exact ih (by simp) text hrest
  | case4 line c rest _ hbreak ih =>
      intro text htext
      rcases List.mem_cons.1 htext with rfl | hrest
      · exact hself line hline
      · exact ih (by simp) text hrest
  | case5 line c rest _ hbreak ih =>
      apply ih
      intro other hother
      rcases List.mem_cons.1 hother with rfl | hold
      · simpa using hbreak
      · exact hline other hold

theorem unbroken_of_mem_splitLines {text line : String} (h : line ∈ splitLines text) :
    Unbroken line :=
  unbroken_of_mem_linesFrom (by simp) line h

/-! ### White space at the ends -/

/-- Characters that neither begin nor end with white space. -/
structure Trimmed (chars : List Char) : Prop where
  head : ∀ c ∈ chars.head?, isSpace c = false
  last : ∀ c ∈ chars.getLast?, isSpace c = false

theorem lstrip_of_head {chars : List Char} (h : ∀ c ∈ chars.head?, isSpace c = false) :
    lstrip chars = chars := by
  cases chars with
  | nil => rfl
  | cons c rest =>
      have hc := h c rfl
      simp [lstrip, hc]

theorem rstrip_of_last {chars : List Char} (h : ∀ c ∈ chars.getLast?, isSpace c = false) :
    rstrip chars = chars := by
  have hhead : lstrip chars.reverse = chars.reverse := by
    apply lstrip_of_head
    rwa [List.head?_reverse]
  unfold lstrip at hhead
  rw [rstrip, hhead, List.reverse_reverse]

theorem head_lstrip (chars : List Char) : ∀ c ∈ (lstrip chars).head?, isSpace c = false := by
  intro c hc
  induction chars with
  | nil => cases hc
  | cons first rest ih =>
      unfold lstrip at hc ih
      rw [List.dropWhile_cons] at hc
      split at hc
      · exact ih hc
      · next hfirst =>
          obtain rfl := Option.some.inj hc
          simpa using hfirst

theorem last_rstrip (chars : List Char) : ∀ c ∈ (rstrip chars).getLast?, isSpace c = false := by
  intro c hc
  rw [rstrip, List.getLast?_reverse] at hc
  exact head_lstrip chars.reverse c hc

/-- A strip at the end leaves the beginning. -/
theorem rstrip_start (chars : List Char) : rstrip chars <+: chars := by
  unfold rstrip
  have hsuffix := List.dropWhile_suffix isSpace (l := chars.reverse)
  rw [← List.reverse_prefix, List.reverse_reverse] at hsuffix
  exact hsuffix

theorem head?_of_start {chars short : List Char} (h : short <+: chars) {c : Char}
    (hc : c ∈ short.head?) : c ∈ chars.head? := by
  obtain ⟨rest, rfl⟩ := h
  cases short with
  | nil => cases hc
  | cons first short => exact hc

/-- A strip begins with what is left after the white space at the beginning. -/
theorem head?_strip {text : String} {c : Char} (h : c ∈ (strip text).toList.head?) :
    c ∈ (lstrip text.toList).head? := by
  unfold strip at h
  rw [String.toList_ofList] at h
  exact head?_of_start (rstrip_start _) h

theorem trimmed_strip (text : String) : Trimmed (strip text).toList := by
  unfold strip
  rw [String.toList_ofList]
  constructor
  · intro c hc
    exact head_lstrip text.toList c (head?_of_start (rstrip_start _) hc)
  · exact last_rstrip _

theorem strip_of_trimmed {text : String} (h : Trimmed text.toList) : strip text = text := by
  unfold strip
  rw [lstrip_of_head h.head, rstrip_of_last h.last, String.ofList_toList]

/-- A text that a strip leaves as it is. -/
theorem strip_eq_iff {text : String} : strip text = text ↔ Trimmed text.toList := by
  constructor
  · intro h
    rw [← h]
    exact trimmed_strip text
  · exact strip_of_trimmed

theorem strip_strip (text : String) : strip (strip text) = strip text :=
  strip_of_trimmed (trimmed_strip text)

theorem mem_of_mem_strip {text : String} {c : Char} (h : c ∈ (strip text).toList) :
    c ∈ text.toList := by
  unfold strip at h
  rw [String.toList_ofList] at h
  have hleft := (rstrip_start _).subset h
  exact (List.dropWhile_suffix _).subset hleft

theorem Unbroken.strip {text : String} (h : Unbroken text) : Unbroken (strip text) :=
  fun c hc => h c (mem_of_mem_strip hc)

theorem isBlank_iff {text : String} : isBlank text = true ↔ strip text = "" := by
  unfold isBlank
  constructor
  · intro h
    have hlstrip : lstrip text.toList = [] := by
      unfold lstrip
      exact List.dropWhile_eq_nil_iff.2 (by simpa using h)
    unfold strip
    rw [hlstrip]
    rfl
  · intro h
    by_contra hblank
    rw [List.all_eq_true] at hblank
    have hleft : lstrip text.toList ≠ [] := by
      intro hnil
      exact hblank fun c hc => List.dropWhile_eq_nil_iff.1 hnil c hc
    obtain ⟨c, rest, hcons⟩ := List.exists_cons_of_ne_nil hleft
    have hhead := head_lstrip text.toList c (by rw [hcons]; rfl)
    have hempty := congrArg String.toList h
    unfold strip at hempty
    rw [String.toList_ofList, rstrip] at hempty
    have hspaces : ∀ x ∈ (lstrip text.toList).reverse, isSpace x = true := by
      rw [← List.dropWhile_eq_nil_iff]
      simpa using hempty
    have := hspaces c (by simp [hcons])
    rw [hhead] at this
    cases this

end Papaia.Lines
