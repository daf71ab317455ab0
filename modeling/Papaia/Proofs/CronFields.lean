/-
Module: Papaia.Proofs.CronFields
Purpose: The weekday field of a cron expression means what standard cron means by it, and is
  spelled so that it stays as it is.  The code ends in an error of its own for everything else,
  unless it meets a number that `int` refuses.
Trusted boundary: none
Main exports: standardDays, namedDays, FieldStumbles, weekday_fields_settle_iff
-/
import Mathlib.Data.Finset.Card
import Papaia.Backup.Cron
import Papaia.Data.Spelling

namespace Papaia.Backup

open Text

/-! ### Standard cron -/

/-- The number of a weekday: a name, or a number up to 7. -/
def standardNumber (token : List Char) : Option Nat :=
  (weekdayNumbers.lookup (lower (String.ofList token))).or
    ((readDecimal token).filter fun number => decide (number ≤ 7))

/-- The days a range runs over.  Sunday is its first day or its last. -/
inductive Span : List Char → Nat → Nat → Prop where
  | week : Span ['*'] 0 6
  | range {first last : List Char} {low high : Nat} (hlow : standardNumber first = some low)
      (hhigh : standardNumber last = some high) (hle : low ≤ high) :
      Span (first ++ '-' :: last) low high
  | toSunday {first last : List Char} {low : Nat} (hlow : standardNumber first = some low)
      (hhigh : standardNumber last = some 0) (hpos : 0 < low) :
      Span (first ++ '-' :: last) low 7

/-- The days of one part of a weekday field; the steps of a range count from its first day. -/
inductive PartDay : List Char → Nat → Prop where
  | single {token : List Char} {number : Nat} (h : standardNumber token = some number) :
      PartDay token (number % 7)
  | span {body : List Char} {low high number : Nat} (h : Span body low high) (hlow : low ≤ number)
      (hhigh : number ≤ high) : PartDay body (number % 7)
  | stepped {body digits : List Char} {low high number step : Nat} (h : Span body low high)
      (hstep : readDecimal digits = some step) (hpos : 0 < step) (hlow : low ≤ number)
      (hhigh : number ≤ high) (hdvd : step ∣ number - low) :
      PartDay (body ++ '/' :: digits) (number % 7)

/-- The days standard cron assigns to a weekday field. -/
def standardDays (field : String) : Set Nat :=
  { day | ∃ part ∈ field.toList.splitOn ',', PartDay part day }

/-- The days that a list of names, or the star, names. -/
def namedDays (field : String) : Set Nat :=
  if field = "*" then { day | day < 7 }
  else { day | ∃ part ∈ field.toList.splitOn ',',
    weekdayNumbers.lookup (String.ofList part) = some day }

/-! ### Numbers that are refused -/

/-- Digits that `int` does not read. -/
def Unreadable (text : List Char) : Prop :=
  isDigits text = true ∧ readNumeral text = none

/-- A range the code gives up on at the first day or at the last. -/
inductive RangeStumbles : List Char → Prop where
  | first {first last : List Char} (h : Unreadable first) (hfirst : '-' ∉ first) :
      RangeStumbles (first ++ '-' :: last)
  | last {first last : List Char} {low : Nat} (hlow : standardNumber first = some low)
      (h : Unreadable last) : RangeStumbles (first ++ '-' :: last)

/-- A part of a weekday field in which the code meets a number that `int` refuses. -/
inductive PartStumbles : List Char → Prop where
  | day {token : List Char} (h : Unreadable token) : PartStumbles token
  | step {body digits : List Char} (hbody : '/' ∉ body) (h : Unreadable digits) :
      PartStumbles (body ++ '/' :: digits)
  | range {body : List Char} (hbody : '/' ∉ body) (h : RangeStumbles body) : PartStumbles body
  | stepped {body digits : List Char} {step : Nat} (hbody : '/' ∉ body)
      (hdigits : isDigits digits = true) (hstep : readDecimal digits = some step) (hpos : 0 < step)
      (h : RangeStumbles body) : PartStumbles (body ++ '/' :: digits)

/-- The parts before the first such part all name a day. -/
def FieldStumbles (field : String) : Prop :=
  field ≠ "*" ∧ ∃ before part after, field.toList.splitOn ',' = before ++ part :: after ∧
    (∀ earlier ∈ before, ∃ day, PartDay earlier day) ∧ PartStumbles part

/-- An expression whose weekday field is looked at and stumbles. -/
def Stumbles (expression : String) : Prop :=
  ∃ minute hour day month weekday, words expression = [minute, hour, day, month, weekday] ∧
    (∀ part ∈ [minute, hour, day, month], isPlainField part = true) ∧ FieldStumbles weekday

/-! ### Tokens -/

/-- How the reading of a text ends: with a value, with a refusal, or with an error nobody expects. -/
inductive Reads {α : Type} (good : α → Prop) (bad stumbles : Prop) : Except Raised α → Prop where
  | ok {a : α} (h : good a) (hreadable : ¬ stumbles) : Reads good bad stumbles (.ok a)
  | refused {message : String} (h : bad) (hreadable : ¬ stumbles) :
      Reads good bad stumbles (.error (.schedule message))
  | stumbled (h : stumbles) : Reads good bad stumbles (.error .value)

/-- The names of the weekdays are letters. -/
theorem letters_of_lookup {token : List Char} {number : Nat}
    (h : weekdayNumbers.lookup (lower (String.ofList token)) = some number) :
    token ≠ [] ∧ ∀ c ∈ token, 65 ≤ c.toNat ∧ c.toNat ≤ 122 := by
  have hnames : ∀ entry ∈ weekdayNumbers, entry.1 ≠ "" ∧
      (entry.1.toList.all fun c => decide (97 ≤ c.toNat) && decide (c.toNat ≤ 122)) = true := by
    decide
  obtain ⟨before, after, hentries, -⟩ := List.lookup_eq_some_iff.1 h
  have hmem : (lower (String.ofList token), number) ∈ weekdayNumbers := by
    rw [hentries]
    exact List.mem_append_right _ List.mem_cons_self
  obtain ⟨hfilled, hletters⟩ := hnames _ hmem
  simp only [lower, String.toList_ofList, List.all_map, List.all_eq_true, Function.comp_apply,
    Bool.and_eq_true, decide_eq_true_eq] at hletters hfilled
  constructor
  · rintro rfl
    exact hfilled rfl
  · intro c hc
    exact letter_of_toLower (hletters c hc).1 (hletters c hc).2

theorem decimalOf_letter {c : Char} (h : 65 ≤ c.toNat ∧ c.toNat ≤ 122) : decimalOf c = none :=
  decimalOf_eq_none (by omega) (by omega)

theorem isDigit_letter {c : Char} (h : 65 ≤ c.toNat ∧ c.toNat ≤ 122) : isDigit c = false := by
  have hother : ∀ range ∈ otherDigitRanges, 122 < range.1 := by decide
  rw [isDigit, decimalOf_letter h, Option.isSome_none, Bool.false_or, List.any_eq_false]
  intro range hrange
  have := hother range hrange
  simp only [Bool.and_eq_true, decide_eq_true_eq, not_and]
  omega

theorem not_isDigits_of_lookup {token : List Char} {number : Nat}
    (h : weekdayNumbers.lookup (lower (String.ofList token)) = some number) :
    isDigits token = false := by
  obtain ⟨hfilled, hletters⟩ := letters_of_lookup h
  obtain ⟨c, rest, rfl⟩ := List.exists_cons_of_ne_nil hfilled
  simp [isDigits, isDigit_letter (hletters c List.mem_cons_self)]

/-- The digits of a number that is read are digits. -/
theorem isDigits_of_readDecimal {chars : List Char} {number : Nat}
    (h : readDecimal chars = some number) :
    isDigits chars = true ∧ ∀ c ∈ chars, (decimalOf c).isSome = true := by
  have hrun : ∀ (start : Nat) (value : Nat),
      chars.foldlM (fun value c => (decimalOf c).map (value * 10 + ·)) start = some value →
      ∀ c ∈ chars, (decimalOf c).isSome = true := by
    clear h
    induction chars with
    | nil => simp
    | cons c rest ih =>
        intro start value hvalue
        rw [List.foldlM_cons, Option.bind_eq_bind, Option.bind_eq_some_iff] at hvalue
        obtain ⟨next, hnext, hrest⟩ := hvalue
        rw [List.forall_mem_cons]
        refine ⟨?_, ih next value hrest⟩
        obtain ⟨digit, hdigit, -⟩ := Option.map_eq_some_iff.1 hnext
        rw [hdigit, Option.isSome_some]
  unfold readDecimal at h
  split at h
  next => cases h
  next hfilled =>
    have hall := hrun 0 number h
    constructor
    · rw [isDigits, Bool.and_eq_true, List.all_eq_true]
      refine ⟨by simpa using hfilled, ?_⟩
      intro c hc
      rw [isDigit, hall c hc, Bool.true_or]
    · exact hall

/-- No weekday has one of the characters between weekdays. -/
theorem separators_of_standardNumber {token : List Char} {number : Nat}
    (h : standardNumber token = some number) : '/' ∉ token ∧ '-' ∉ token ∧ token ≠ ['*'] := by
  have hchar : ∀ c ∈ token, c ≠ '/' ∧ c ≠ '-' ∧ c ≠ '*' := by
    intro c hc
    cases hname : weekdayNumbers.lookup (lower (String.ofList token)) with
    | some known =>
        have hletter := (letters_of_lookup hname).2 c hc
        refine ⟨?_, ?_, ?_⟩
        all_goals
          rintro rfl
          revert hletter
          decide
    | none =>
        rw [standardNumber, hname, Option.none_or, Option.filter_eq_some_iff] at h
        have hdecimal := (isDigits_of_readDecimal h.1).2 c hc
        refine ⟨?_, ?_, ?_⟩
        all_goals
          rintro rfl
          revert hdecimal
          decide
  refine ⟨fun hc => (hchar _ hc).1 rfl, fun hc => (hchar _ hc).2.1 rfl, ?_⟩
  rintro rfl
  exact (hchar '*' List.mem_cons_self).2.2 rfl

theorem standardNumber_le {token : List Char} {number : Nat}
    (h : standardNumber token = some number) : number ≤ 7 := by
  rw [standardNumber, Option.or_eq_some_iff] at h
  rcases h with hname | ⟨-, hdigits⟩
  · have hsmall : ∀ entry ∈ weekdayNumbers, entry.2 ≤ 7 := by decide
    obtain ⟨before, after, hentries, -⟩ := List.lookup_eq_some_iff.1 hname
    apply hsmall (lower (String.ofList token), number)
    rw [hentries]
    exact List.mem_append_right _ List.mem_cons_self
  · simpa using (Option.filter_eq_some_iff.1 hdigits).2

theorem separators_of_unreadable {text : List Char} (h : Unreadable text) :
    '/' ∉ text ∧ '-' ∉ text ∧ text ≠ ['*'] := by
  have hall := List.all_eq_true.1 ((Bool.and_eq_true _ _).mp h.1).2
  refine ⟨fun hc => ?_, fun hc => ?_, ?_⟩
  · exact absurd (hall _ hc) (by decide)
  · exact absurd (hall _ hc) (by decide)
  · rintro rfl
    exact absurd (hall '*' List.mem_cons_self) (by decide)

variable (pkg : CronPackage)

theorem weekdayNumber_reads (token : List Char) :
    Reads (fun number => standardNumber token = some number) (standardNumber token = none)
      (Unreadable token) (weekdayNumber pkg token) := by
  unfold weekdayNumber
  split
  next number hname =>
    apply Reads.ok
    · rw [standardNumber, hname, Option.some_or]
    · intro hbad
      rw [Unreadable, not_isDigits_of_lookup hname] at hbad
      exact Bool.false_ne_true hbad.1
  next hname =>
    have hstandard : standardNumber token =
        (readDecimal token).filter fun number => decide (number ≤ 7) := by
      rw [standardNumber, hname, Option.none_or]
    split
    next hdigits =>
      split
      next hnone => exact .stumbled ⟨hdigits, hnone⟩
      next number hnumber =>
        have hread : readDecimal token = some number := by
          rw [readNumeral] at hnumber
          split at hnumber
          next => cases hnumber
          next => exact hnumber
        have hreadable : ¬ Unreadable token := by
          intro hbad
          rw [Unreadable, hnumber] at hbad
          cases hbad.2
        split
        next hle =>
          apply Reads.ok _ hreadable
          rw [hstandard, hread]
          simp [Option.filter, hle]
        next hgt =>
          apply Reads.refused _ hreadable
          rw [hstandard, hread]
          simp [Option.filter, hgt]
    next hdigits =>
      apply Reads.refused
      · rw [hstandard]
        cases hread : readDecimal token with
        | none => rfl
        | some number => exact absurd (isDigits_of_readDecimal hread).1 hdigits
      · exact fun hbad => hdigits hbad.1

/-! ### Parts -/

/-- A text has one first separator. -/
theorem separator_inj {separator : Char} {first first' rest rest' : List Char}
    (hfirst : separator ∉ first) (hfirst' : separator ∉ first')
    (h : first ++ separator :: rest = first' ++ separator :: rest') :
    first = first' ∧ rest = rest' := by
  have hsame : first = first' := by
    rw [← takeWhile_append_separator hfirst rest, h, takeWhile_append_separator hfirst' rest']
  subst hsame
  simpa using h

theorem Span.no_slash {body : List Char} {low high : Nat} (h : Span body low high) : '/' ∉ body := by
  cases h with
  | week => decide
  | range hlow hhigh =>
      have hfirst := (separators_of_standardNumber hlow).1
      have hlast := (separators_of_standardNumber hhigh).1
      simp [hfirst, hlast]
  | toSunday hlow hhigh =>
      have hfirst := (separators_of_standardNumber hlow).1
      have hlast := (separators_of_standardNumber hhigh).1
      simp [hfirst, hlast]

/-- A range is read at its first dash. -/
theorem Span.of_dash {first last : List Char} {low high : Nat} (hfirst : '-' ∉ first)
    (h : Span (first ++ '-' :: last) low high) :
    standardNumber first = some low ∧ low ≤ high ∧
      (standardNumber last = some high ∨ standardNumber last = some 0 ∧ 0 < low ∧ high = 7) := by
  generalize hbody : first ++ '-' :: last = body at h
  cases h with
  | week =>
      have hmem : '-' ∈ ['*'] := by simp [← hbody]
      exact absurd hmem (by decide)
  | range hlow hhigh hle =>
      obtain ⟨rfl, rfl⟩ := separator_inj hfirst (separators_of_standardNumber hlow).2.1 hbody
      exact ⟨hlow, hle, .inl hhigh⟩
  | toSunday hlow hhigh hpos =>
      obtain ⟨rfl, rfl⟩ := separator_inj hfirst (separators_of_standardNumber hlow).2.1 hbody
      refine ⟨hlow, ?_, .inr ⟨hhigh, hpos, rfl⟩⟩
      exact standardNumber_le hlow

theorem RangeStumbles.of_dash {first last : List Char} (hfirst : '-' ∉ first)
    (h : RangeStumbles (first ++ '-' :: last)) :
    Unreadable first ∨ (standardNumber first).isSome ∧ Unreadable last := by
  generalize hbody : first ++ '-' :: last = body at h
  cases h with
  | first h hother =>
      obtain ⟨rfl, rfl⟩ := separator_inj hfirst hother hbody
      exact .inl h
  | last hlow h =>
      obtain ⟨rfl, rfl⟩ := separator_inj hfirst (separators_of_standardNumber hlow).2.1 hbody
      exact .inr ⟨by simp [hlow], h⟩

theorem Span.dash {body : List Char} {low high : Nat} (h : Span body low high) :
    body = ['*'] ∨ '-' ∈ body := by
  cases h with
  | week => exact .inl rfl
  | range => exact .inr (by simp)
  | toSunday => exact .inr (by simp)

theorem RangeStumbles.dash {body : List Char} (h : RangeStumbles body) : '-' ∈ body := by
  cases h <;> simp

/-- A part of a range of days: its first day is read, then its last one. -/
theorem partBounds_reads_dash {part first last : List Char}
    (hbody : part.takeWhile (· ≠ '/') = first ++ '-' :: last) (hfirst : '-' ∉ first) :
    Reads (fun bounds => Span (first ++ '-' :: last) bounds.1 bounds.2)
      (∀ low high, ¬ Span (first ++ '-' :: last) low high)
      (RangeStumbles (first ++ '-' :: last)) (partBounds pkg part) := by
  have hstar : first ++ '-' :: last ≠ ['*'] := by
    intro heq
    have hmem : '-' ∈ ['*'] := by simp [← heq]
    exact absurd hmem (by decide)
  have hlast : (first ++ '-' :: last).drop (first.length + 1) = last := by
    rw [← List.drop_drop, List.drop_left, List.drop_one, List.tail_cons]
  have hdash : (first ++ '-' :: last).contains '-' = true := by simp
  simp only [partBounds, hbody, if_neg hstar, if_pos hdash, takeWhile_append_separator hfirst, hlast]
  have hreads := weekdayNumber_reads pkg first
  generalize weekdayNumber pkg first = found at hreads ⊢
  cases hreads with
  | stumbled h => exact .stumbled (.first h hfirst)
  | refused h hreadable =>
      apply Reads.refused
      · intro low high hspan
        rw [(hspan.of_dash hfirst).1] at h
        cases h
      · intro hrange
        rcases hrange.of_dash hfirst with hbad | ⟨hsome, -⟩
        · exact hreadable hbad
        · simp [h] at hsome
  | @ok low hlow hreadable =>
      have hreads := weekdayNumber_reads pkg last
      generalize weekdayNumber pkg last = found at hreads ⊢
      cases hreads with
      | stumbled h => exact .stumbled (.last hlow h)
      | refused h hlastReadable =>
          apply Reads.refused
          · intro low high hspan
            rcases (hspan.of_dash hfirst).2.2 with hhigh | ⟨hhigh, -⟩
            · rw [h] at hhigh
              cases hhigh
            · rw [h] at hhigh
              cases hhigh
          · intro hrange
            rcases hrange.of_dash hfirst with hbad | ⟨-, hbad⟩
            · exact hreadable hbad
            · exact hlastReadable hbad
      | @ok last' hhigh hlastReadable =>
          have hrange : ¬ RangeStumbles (first ++ '-' :: last) := by
            intro hrange
            rcases hrange.of_dash hfirst with hbad | ⟨-, hbad⟩
            · exact hreadable hbad
            · exact hlastReadable hbad
          dsimp only
          split
          next hsunday =>
            have hle : ¬ 7 < low := by
              have := standardNumber_le hlow
              omega
            rw [if_neg hle]
            exact .ok (.toSunday hlow (hsunday.1 ▸ hhigh) hsunday.2) hrange
          next hordinary =>
            split
            next hback =>
              apply Reads.refused _ hrange
              intro low₁ high₁ hspan
              obtain ⟨hlow₁, hle, hends⟩ := hspan.of_dash hfirst
              obtain rfl : low = low₁ := Option.some.inj (hlow.symm.trans hlow₁)
              rcases hends with hsame | ⟨hzero, hpos, -⟩
              · obtain rfl : last' = high₁ := Option.some.inj (hhigh.symm.trans hsame)
                omega
              · exact hordinary ⟨Option.some.inj (hhigh.symm.trans hzero), hpos⟩
            next hforward => exact .ok (.range hlow hhigh (Nat.le_of_not_lt hforward)) hrange

/-- The bounds of a part whose text before a slash is known. -/
theorem partBounds_reads {part body : List Char} (hbody : part.takeWhile (· ≠ '/') = body) :
    Reads (fun bounds => Span body bounds.1 bounds.2 ∨
        '/' ∉ part ∧ bounds.1 = bounds.2 ∧ standardNumber body = some bounds.1)
      ((∀ low high, ¬ Span body low high) ∧ ('/' ∉ part → standardNumber body = none))
      (RangeStumbles body ∨ '/' ∉ part ∧ Unreadable body) (partBounds pkg part) := by
  by_cases hdash : '-' ∈ body
  · obtain ⟨first, last, rfl, hfirst⟩ := exists_first_separator hdash
    have hplain : ¬ ('/' ∉ part ∧ Unreadable (first ++ '-' :: last)) := by
      rintro ⟨-, hunreadable⟩
      exact (separators_of_unreadable hunreadable).2.1 hdash
    have hnone : standardNumber (first ++ '-' :: last) = none := by
      rw [Option.eq_none_iff_forall_ne_some]
      intro number hnumber
      exact (separators_of_standardNumber hnumber).2.1 hdash
    have hreads := partBounds_reads_dash pkg hbody hfirst
    generalize partBounds pkg part = found at hreads ⊢
    cases hreads with
    | stumbled h => exact .stumbled (.inl h)
    | refused h hreadable =>
        exact .refused ⟨h, fun _ => hnone⟩ fun hbad => hbad.elim hreadable hplain
    | ok h hreadable => exact .ok (.inl h) fun hbad => hbad.elim hreadable hplain
  · have hrange : ¬ RangeStumbles body := fun h => hdash h.dash
    by_cases hstar : body = ['*']
    · subst hstar
      simp only [partBounds, hbody, if_true]
      refine .ok (.inl .week) ?_
      rintro (h | ⟨-, hunreadable⟩)
      · exact hrange h
      · exact (separators_of_unreadable hunreadable).2.2 rfl
    · have hspan : ∀ low high, ¬ Span body low high := by
        intro low high h
        exact h.dash.elim hstar hdash
      have hcontains : ¬ body.contains '-' = true := by simpa using hdash
      simp only [partBounds, hbody, if_neg hstar, if_neg hcontains]
      split
      next hslash =>
        have hmem : '/' ∈ part := List.contains_iff_mem.1 hslash
        refine .refused ⟨hspan, fun h => absurd hmem h⟩ ?_
        rintro (h | ⟨hno, -⟩)
        · exact hrange h
        · exact hno hmem
      next hslash =>
        have hno : '/' ∉ part := fun h => hslash (List.contains_iff_mem.2 h)
        have hreads := weekdayNumber_reads pkg body
        generalize weekdayNumber pkg body = found at hreads ⊢
        cases hreads with
        | stumbled h => exact .stumbled (.inr ⟨hno, h⟩)
        | refused h hreadable =>
            exact .refused ⟨hspan, fun _ => h⟩ fun hbad => hbad.elim hrange fun h => hreadable h.2
        | ok h hreadable =>
            exact .ok (.inr ⟨hno, rfl, h⟩) fun hbad => hbad.elim hrange fun h => hreadable h.2

/-- A range is no weekday. -/
theorem Span.not_number {body : List Char} {low high : Nat} (h : Span body low high)
    (number : Nat) : standardNumber body ≠ some number := by
  intro hnumber
  rcases h.dash with hstar | hdash
  · exact (separators_of_standardNumber hnumber).2.2 hstar
  · exact (separators_of_standardNumber hnumber).2.1 hdash

theorem Span.unique {body : List Char} {low high low' high' : Nat} (h : Span body low high)
    (h' : Span body low' high') : low = low' ∧ high = high' := by
  rcases h.dash with rfl | hdash
  · have hweek : ∀ {a b}, Span ['*'] a b → a = 0 ∧ b = 6 := by
      intro a b hab
      generalize hbody : ['*'] = body at hab
      cases hab with
      | week => exact ⟨rfl, rfl⟩
      | range =>
          have hmem : '-' ∈ ['*'] := by simp [hbody]
          exact absurd hmem (by decide)
      | toSunday =>
          have hmem : '-' ∈ ['*'] := by simp [hbody]
          exact absurd hmem (by decide)
    exact ⟨(hweek h).1.trans (hweek h').1.symm, (hweek h).2.trans (hweek h').2.symm⟩
  · obtain ⟨first, last, rfl, hfirst⟩ := exists_first_separator hdash
    obtain ⟨hlow, hle, hends⟩ := h.of_dash hfirst
    obtain ⟨hlow', hle', hends'⟩ := h'.of_dash hfirst
    obtain rfl : low = low' := Option.some.inj (hlow.symm.trans hlow')
    refine ⟨rfl, ?_⟩
    rcases hends with hlast | ⟨hlast, hpos, rfl⟩
    · rcases hends' with hlast' | ⟨hlast', hpos', rfl⟩
      · exact Option.some.inj (hlast.symm.trans hlast')
      · have := Option.some.inj (hlast.symm.trans hlast')
        omega
    · rcases hends' with hlast' | ⟨hlast', hpos', rfl⟩
      · have := Option.some.inj (hlast.symm.trans hlast')
        omega
      · rfl

theorem Span.le {body : List Char} {low high : Nat} (h : Span body low high) : low ≤ high := by
  cases h with
  | week => decide
  | range _ _ hle => exact hle
  | toSunday hlow => exact standardNumber_le hlow

/-- What a part without a slash names. -/
theorem partDay_plain {part : List Char} (hslash : '/' ∉ part) {day : Nat} :
    PartDay part day ↔ (∃ number, standardNumber part = some number ∧ number % 7 = day) ∨
      ∃ low high number, Span part low high ∧ low ≤ number ∧ number ≤ high ∧ number % 7 = day := by
  constructor
  · intro h
    cases h with
    | @single _ number h => exact .inl ⟨number, h, rfl⟩
    | @span _ low high number h hlow hhigh => exact .inr ⟨low, high, number, h, hlow, hhigh, rfl⟩
    | stepped => exact absurd (by simp) hslash
  · rintro (⟨number, h, rfl⟩ | ⟨low, high, number, h, hlow, hhigh, rfl⟩)
    · exact .single h
    · exact .span h hlow hhigh

/-- What a part with a slash names. -/
theorem partDay_stepped {body digits : List Char} (hbody : '/' ∉ body) {day : Nat} :
    PartDay (body ++ '/' :: digits) day ↔ ∃ low high number step, Span body low high ∧
      readDecimal digits = some step ∧ 0 < step ∧ low ≤ number ∧ number ≤ high ∧
        step ∣ number - low ∧ number % 7 = day := by
  constructor
  · intro h
    generalize hpart : body ++ '/' :: digits = part at h
    cases h with
    | single h => exact absurd (by simp [← hpart]) (separators_of_standardNumber h).1
    | span h => exact absurd (by simp [← hpart]) h.no_slash
    | @stepped body' digits' low high number step h hstep hpos hlow hhigh hdvd =>
        obtain ⟨rfl, rfl⟩ := separator_inj hbody h.no_slash hpart
        exact ⟨low, high, number, step, h, hstep, hpos, hlow, hhigh, hdvd, rfl⟩
  · rintro ⟨low, high, number, step, h, hstep, hpos, hlow, hhigh, hdvd, rfl⟩
    exact .stepped h hstep hpos hlow hhigh hdvd

theorem partStumbles_plain {part : List Char} (hslash : '/' ∉ part) :
    PartStumbles part ↔ RangeStumbles part ∨ Unreadable part := by
  constructor
  · intro h
    cases h with
    | day h => exact .inr h
    | step => exact absurd (by simp) hslash
    | range _ h => exact .inl h
    | stepped => exact absurd (by simp) hslash
  · rintro (h | h)
    · exact .range hslash h
    · exact .day h

theorem partStumbles_stepped {body digits : List Char} (hbody : '/' ∉ body) :
    PartStumbles (body ++ '/' :: digits) ↔ Unreadable digits ∨
      isDigits digits = true ∧ (∃ step, readDecimal digits = some step ∧ 0 < step) ∧
        RangeStumbles body := by
  constructor
  · intro h
    generalize hpart : body ++ '/' :: digits = part at h
    cases h with
    | day h => exact absurd (by simp [← hpart]) (separators_of_unreadable h).1
    | step hbody' h =>
        obtain ⟨rfl, rfl⟩ := separator_inj hbody hbody' hpart
        exact .inl h
    | range hno => exact absurd (by simp [← hpart]) hno
    | @stepped _ _ step hbody' hdigits hstep hpos h =>
        obtain ⟨rfl, rfl⟩ := separator_inj hbody hbody' hpart
        exact .inr ⟨hdigits, ⟨step, hstep, hpos⟩, h⟩
  · rintro (h | ⟨hdigits, ⟨step, hstep, hpos⟩, h⟩)
    · exact .step hbody h
    · exact .stepped hbody hdigits hstep hpos h

theorem readDecimal_of_readNumeral {chars : List Char} {number : Nat}
    (h : readNumeral chars = some number) : readDecimal chars = some number := by
  rw [readNumeral] at h
  split at h
  next => cases h
  next => exact h

/-- The step behind a slash. -/
theorem partStep_reads {body : List Char} (digits : List Char) (hbody : '/' ∉ body) :
    Reads (fun step => isDigits digits = true ∧ readDecimal digits = some step ∧ 0 < step)
      (∀ step, readDecimal digits = some step → step = 0) (Unreadable digits)
      (partStep pkg (body ++ '/' :: digits)) := by
  have hslash : (!(body ++ '/' :: digits).contains '/') = false := by simp
  have hdrop : (body ++ '/' :: digits).drop (body.length + 1) = digits := by
    rw [← List.drop_drop, List.drop_left, List.drop_one, List.tail_cons]
  simp only [partStep, takeWhile_append_separator hbody, hdrop, hslash, Bool.false_eq_true,
    if_false]
  split
  next hdigits =>
    have hno : isDigits digits = false := by simpa using hdigits
    apply Reads.refused
    · intro step hstep
      rw [(isDigits_of_readDecimal hstep).1] at hno
      cases hno
    · intro hbad
      rw [hbad.1] at hno
      cases hno
  next hdigits =>
    have hyes : isDigits digits = true := by simpa using hdigits
    split
    next hnone => exact .stumbled ⟨hyes, hnone⟩
    next step hstep =>
      have hread := readDecimal_of_readNumeral hstep
      have hreadable : ¬ Unreadable digits := by
        intro hbad
        rw [hbad.2] at hstep
        cases hstep
      split
      next hzero =>
        apply Reads.refused _ hreadable
        intro other hother
        rw [hread] at hother
        obtain rfl := Option.some.inj hother
        omega
      next hpos => exact .ok ⟨hyes, hread, by omega⟩ hreadable

/-- The days of a stepped range. -/
theorem mem_steps {low high step day : Nat} (hle : low ≤ high) (hpos : 0 < step) :
    day ∈ (List.range' low ((high - low) / step + 1) step).map (· % 7) ↔
      ∃ number, low ≤ number ∧ number ≤ high ∧ step ∣ number - low ∧ number % 7 = day := by
  rw [List.mem_map]
  constructor
  · rintro ⟨number, hnumber, rfl⟩
    obtain ⟨i, hi, rfl⟩ := List.mem_range'.1 hnumber
    have hbound : step * i ≤ high - low := by
      have hdiv : i ≤ (high - low) / step := Nat.lt_succ_iff.1 hi
      rw [Nat.mul_comm]
      exact (Nat.le_div_iff_mul_le hpos).1 hdiv
    exact ⟨low + step * i, by omega, by omega, ⟨i, by omega⟩, rfl⟩
  · rintro ⟨number, hlow, hhigh, ⟨i, hi⟩, rfl⟩
    refine ⟨number, List.mem_range'.2 ⟨i, ?_, by omega⟩, rfl⟩
    rw [Nat.lt_succ_iff, Nat.le_div_iff_mul_le hpos, Nat.mul_comm]
    omega

theorem steps_ne_nil {low count step : Nat} :
    (List.range' low (count + 1) step).map (· % 7) ≠ [] := by
  simp [List.range'_succ]

theorem partDays_reads (part : List Char) :
    Reads (fun days => (∀ day, day ∈ days ↔ PartDay part day) ∧ days ≠ [])
      (∀ day, ¬ PartDay part day) (PartStumbles part) (partDays pkg part) := by
  by_cases hslash : '/' ∈ part
  · obtain ⟨body, digits, rfl, hbody⟩ := exists_first_separator hslash
    have hstep := partStep_reads pkg digits hbody
    have hbounds := partBounds_reads pkg (takeWhile_append_separator hbody digits)
    unfold partDays
    generalize partStep pkg (body ++ '/' :: digits) = step at hstep ⊢
    generalize partBounds pkg (body ++ '/' :: digits) = bounds at hbounds ⊢
    cases hstep with
    | stumbled h => exact .stumbled ((partStumbles_stepped hbody).2 (.inl h))
    | refused h hreadable =>
        apply Reads.refused
        · intro day hday
          obtain ⟨_, _, _, step, _, hread, hpos, _⟩ := (partDay_stepped hbody).1 hday
          have := h step hread
          omega
        · intro hbad
          rcases (partStumbles_stepped hbody).1 hbad with hstep | ⟨_, ⟨step, hread, hpos⟩, _⟩
          · exact hreadable hstep
          · have := h step hread
            omega
    | @ok step hgood hreadable =>
        obtain ⟨hdigits, hread, hpos⟩ := hgood
        have hstumbles : PartStumbles (body ++ '/' :: digits) ↔ RangeStumbles body := by
          rw [partStumbles_stepped hbody]
          constructor
          · exact fun h => h.elim (fun h => absurd h hreadable) fun h => h.2.2
          · exact fun h => .inr ⟨hdigits, ⟨step, hread, hpos⟩, h⟩
        cases hbounds with
        | stumbled h =>
            rcases h with h | ⟨hno, -⟩
            · exact .stumbled (hstumbles.2 h)
            · exact absurd hslash hno
        | refused h hbounded =>
            apply Reads.refused
            · intro day hday
              obtain ⟨low, high, _, _, hspan, _⟩ := (partDay_stepped hbody).1 hday
              exact h.1 low high hspan
            · exact fun hbad => hbounded (.inl (hstumbles.1 hbad))
        | @ok bounds h hbounded =>
            have hspan : Span body bounds.1 bounds.2 := by
              rcases h with h | ⟨hno, -⟩
              · exact h
              · exact absurd hslash hno
            refine .ok ⟨?_, steps_ne_nil⟩ fun hbad => hbounded (.inl (hstumbles.1 hbad))
            intro day
            rw [mem_steps hspan.le hpos, partDay_stepped hbody]
            constructor
            · rintro ⟨number, hlow, hhigh, hdvd, hday⟩
              exact ⟨_, _, number, step, hspan, hread, hpos, hlow, hhigh, hdvd, hday⟩
            · rintro ⟨low, high, number, step', hother, hread', _, hlow, hhigh, hdvd, hday⟩
              obtain ⟨rfl, rfl⟩ := hspan.unique hother
              obtain rfl : step = step' := Option.some.inj (hread.symm.trans hread')
              exact ⟨number, hlow, hhigh, hdvd, hday⟩
  · have hone : partStep pkg part = .ok 1 := by
      have hno : (!part.contains '/') = true := by simpa using hslash
      simp only [partStep, hno, if_true]
    have hbounds := partBounds_reads pkg (takeWhile_of_not_mem hslash)
    unfold partDays
    rw [hone]
    generalize partBounds pkg part = bounds at hbounds ⊢
    cases hbounds with
    | stumbled h =>
        refine .stumbled ((partStumbles_plain hslash).2 (h.imp_right And.right))
    | refused h hbounded =>
        apply Reads.refused
        · intro day hday
          rcases (partDay_plain hslash).1 hday with ⟨number, hnumber, -⟩ | ⟨low, high, _, hspan, -⟩
          · rw [h.2 hslash] at hnumber
            cases hnumber
          · exact h.1 low high hspan
        · intro hbad
          exact hbounded (((partStumbles_plain hslash).1 hbad).imp_right fun h => ⟨hslash, h⟩)
    | @ok bounds h hbounded =>
        have hreadable : ¬ PartStumbles part := by
          intro hbad
          exact hbounded (((partStumbles_plain hslash).1 hbad).imp_right fun h => ⟨hslash, h⟩)
        refine .ok ⟨?_, steps_ne_nil⟩ hreadable
        intro day
        rw [partDay_plain hslash]
        rcases h with hspan | ⟨-, hsame, hnumber⟩
        · rw [mem_steps hspan.le (Nat.one_pos)]
          constructor
          · rintro ⟨number, hlow, hhigh, -, hday⟩
            exact .inr ⟨_, _, number, hspan, hlow, hhigh, hday⟩
          · rintro (⟨number, hnumber, -⟩ | ⟨low, high, number, hother, hlow, hhigh, hday⟩)
            · exact absurd hnumber (hspan.not_number number)
            · obtain ⟨rfl, rfl⟩ := hspan.unique hother
              exact ⟨number, hlow, hhigh, Nat.one_dvd _, hday⟩
        · rw [mem_steps (Nat.le_of_eq hsame) (Nat.one_pos)]
          constructor
          · rintro ⟨number, hlow, hhigh, -, hday⟩
            obtain rfl : bounds.1 = number := by omega
            exact .inl ⟨_, hnumber, hday⟩
          · rintro (⟨number, hother, hday⟩ | ⟨low, high, number, hspan, -⟩)
            · obtain rfl : bounds.1 = number := Option.some.inj (hnumber.symm.trans hother)
              exact ⟨_, Nat.le_refl _, by omega, Nat.one_dvd _, hday⟩
            · exact absurd hnumber (hspan.not_number _)

/-! ### Fields -/

theorem PartDay.lt {part : List Char} {day : Nat} (h : PartDay part day) : day < 7 := by
  cases h <;> exact Nat.mod_lt _ (by decide)

theorem chosenDays_reads (parts : List (List Char)) :
    Reads (fun days => (∀ day, day ∈ days ↔ ∃ part ∈ parts, PartDay part day) ∧
        (parts ≠ [] → days ≠ []))
      (∃ part ∈ parts, ∀ day, ¬ PartDay part day)
      (∃ before part after, parts = before ++ part :: after ∧
        (∀ earlier ∈ before, ∃ day, PartDay earlier day) ∧ PartStumbles part)
      (chosenDays pkg parts) := by
  induction parts with
  | nil =>
      refine .ok (by simp) ?_
      rintro ⟨before, part, after, hparts, -⟩
      simp at hparts
  | cons part rest ih =>
      have hpart := partDays_reads pkg part
      unfold chosenDays
      generalize partDays pkg part = found at hpart ⊢
      generalize chosenDays pkg rest = others at ih ⊢
      cases hpart with
      | stumbled h => exact .stumbled ⟨[], part, rest, rfl, by simp, h⟩
      | refused h hreadable =>
          refine .refused ⟨part, List.mem_cons_self, h⟩ ?_
          rintro ⟨before, bad, after, hparts, hbefore, hbad⟩
          cases before with
          | nil =>
              obtain ⟨rfl, -⟩ := List.cons.inj hparts
              exact hreadable hbad
          | cons first before =>
              obtain ⟨rfl, -⟩ := List.cons.inj hparts
              obtain ⟨day, hday⟩ := hbefore part List.mem_cons_self
              exact h day hday
      | @ok days h hreadable =>
          obtain ⟨hdays, hfilled⟩ := h
          obtain ⟨first, hfirst⟩ := List.exists_mem_of_ne_nil days hfilled
          have hnames : ∃ day, PartDay part day := ⟨first, (hdays first).1 hfirst⟩
          -- A part that stumbles behind this one is the part that stumbles of the rest.
          have htail : (∃ before bad after, part :: rest = before ++ bad :: after ∧
                (∀ earlier ∈ before, ∃ day, PartDay earlier day) ∧ PartStumbles bad) →
              ∃ before bad after, rest = before ++ bad :: after ∧
                (∀ earlier ∈ before, ∃ day, PartDay earlier day) ∧ PartStumbles bad := by
            rintro ⟨before, bad, after, hparts, hbefore, hbad⟩
            cases before with
            | nil =>
                obtain ⟨rfl, -⟩ := List.cons.inj hparts
                exact absurd hbad hreadable
            | cons first before =>
                obtain ⟨-, hrest⟩ := List.cons.inj hparts
                exact ⟨before, bad, after, hrest,
                  fun earlier h => hbefore earlier (List.mem_cons_of_mem _ h), hbad⟩
          cases ih with
          | stumbled h =>
              obtain ⟨before, bad, after, rfl, hbefore, hbad⟩ := h
              refine .stumbled ⟨part :: before, bad, after, rfl, ?_, hbad⟩
              rw [List.forall_mem_cons]
              exact ⟨hnames, hbefore⟩
          | refused h hrest =>
              obtain ⟨bad, hbad, hnone⟩ := h
              exact .refused ⟨bad, List.mem_cons_of_mem _ hbad, hnone⟩ fun h => hrest (htail h)
          | @ok more h hrest =>
              refine .ok ⟨?_, ?_⟩ fun h => hrest (htail h)
              · intro day
                rw [List.mem_append, hdays day, h.1 day]
                simp
              · intro _
                simp [hfilled]

/-- The number of a name. -/
theorem exists_name {day : Nat} (h : day < 7) :
    ∃ name ∈ weekdayNames, weekdayNumbers.lookup name = some day := by
  have hall : ∀ day < 7, ∃ name ∈ weekdayNames, weekdayNumbers.lookup name = some day := by decide
  exact hall day h

theorem mem_namesOf {days : List Nat} {name : String} :
    name ∈ namesOf days ↔
      name ∈ weekdayNames ∧ ∃ day ∈ days, weekdayNumbers.lookup name = some day := by
  rw [namesOf, List.mem_filter, and_congr_right_iff]
  intro _
  rw [Option.any_eq_true]
  constructor
  · rintro ⟨day, hlookup, hday⟩
    exact ⟨day, List.contains_iff_mem.1 hday, hlookup⟩
  · rintro ⟨day, hday, hlookup⟩
    exact ⟨day, hlookup, List.contains_iff_mem.2 hday⟩

theorem namesOf_ne_nil {days : List Nat} (h : ∀ day ∈ days, day < 7) (hfilled : days ≠ []) :
    namesOf days ≠ [] := by
  obtain ⟨first, hfirst⟩ := List.exists_mem_of_ne_nil days hfilled
  obtain ⟨known, hknown, hnumber⟩ := exists_name (h first hfirst)
  exact List.ne_nil_of_mem (mem_namesOf.2 ⟨hknown, first, hfirst, hnumber⟩)

theorem splitOn_names {names : List String} (hnames : names ≠ [])
    (h : ∀ name ∈ names, name ∈ weekdayNames) :
    (joinWith "," names).toList.splitOn ',' = names.map String.toList := by
  have hplain : ∀ name ∈ weekdayNames, ',' ∉ name.toList := by decide
  exact splitOn_joinWith hnames fun name hname => hplain name (h name hname)

/-- A list of names is no other text without a comma. -/
theorem joinWith_names_ne {names : List String} {text : String} (hnames : names ≠ [])
    (h : ∀ name ∈ names, name ∈ weekdayNames)
    (htext : text ∉ weekdayNames ∧ text.toList ∈ text.toList.splitOn ',') :
    joinWith "," names ≠ text := by
  rintro rfl
  have hmem := htext.2
  rw [splitOn_names hnames h] at hmem
  obtain ⟨name, hname, heq⟩ := List.mem_map.1 hmem
  rw [String.toList_inj] at heq
  exact htext.1 (heq ▸ h name hname)

/-- The seven days are all there is. -/
theorem dedup_length_eq_seven {days : List Nat} (h : ∀ day ∈ days, day < 7) :
    days.dedup.length = 7 ↔ ∀ day < 7, day ∈ days := by
  rw [← List.card_toFinset]
  have hsub : days.toFinset ⊆ Finset.range 7 := by
    intro day hday
    exact Finset.mem_range.2 (h day (List.mem_toFinset.1 hday))
  constructor
  · intro hcard day hday
    have heq : days.toFinset = Finset.range 7 :=
      Finset.eq_of_subset_of_card_le hsub (by simp [hcard])
    rw [← List.mem_toFinset, heq]
    exact Finset.mem_range.2 hday
  · intro hall
    have heq : days.toFinset = Finset.range 7 := by
      apply hsub.antisymm
      intro day hday
      exact List.mem_toFinset.2 (hall day (Finset.mem_range.1 hday))
    rw [heq, Finset.card_range]

/-- How the code spells a set of days. -/
def spelled (days : List Nat) : String :=
  if days.dedup.length = 7 then "*" else joinWith "," (namesOf days)

theorem namedDays_spelled {days : List Nat} (h : ∀ day ∈ days, day < 7) (hfilled : days ≠ []) :
    namedDays (spelled days) = { day | day ∈ days } ∧ spelled days ≠ "" := by
  by_cases hseven : days.dedup.length = 7
  · rw [spelled, if_pos hseven, namedDays, if_pos rfl]
    refine ⟨?_, by decide⟩
    ext day
    exact ⟨fun hday => (dedup_length_eq_seven h).1 hseven day hday, h day⟩
  · have hnames : ∀ name ∈ namesOf days, name ∈ weekdayNames := fun name h => (mem_namesOf.1 h).1
    have hsome : namesOf days ≠ [] := namesOf_ne_nil h hfilled
    have hstar : joinWith "," (namesOf days) ≠ "*" := joinWith_names_ne hsome hnames (by decide)
    have hempty : joinWith "," (namesOf days) ≠ "" := joinWith_names_ne hsome hnames (by decide)
    rw [spelled, if_neg hseven, namedDays, if_neg hstar,
      splitOn_names hsome hnames]
    refine ⟨?_, hempty⟩
    ext day
    simp only [List.mem_map, Set.mem_ofPred_eq, exists_exists_and_eq_and, String.ofList_toList,
      mem_namesOf]
    constructor
    · rintro ⟨name, ⟨-, day', hday', hlookup'⟩, hlookup⟩
      obtain rfl : day' = day := Option.some.inj (hlookup'.symm.trans hlookup)
      exact hday'
    · intro hday
      obtain ⟨name, hname, hlookup⟩ := exists_name (h day hday)
      exact ⟨name, ⟨hname, day, hday, hlookup⟩, hlookup⟩

/-- The days of a list of names, as they are read again. -/
theorem chosenDays_names {names : List String} (h : ∀ name ∈ names, name ∈ weekdayNames) :
    chosenDays pkg (names.map String.toList) =
      .ok (names.map fun name => (weekdayNumbers.lookup name).getD 0) := by
  have hone : ∀ name ∈ weekdayNames,
      partDays pkg name.toList = .ok [(weekdayNumbers.lookup name).getD 0] := by
    simp only [weekdayNames, List.forall_mem_cons]
    exact ⟨rfl, rfl, rfl, rfl, rfl, rfl, rfl, fun _ h => absurd h List.not_mem_nil⟩
  induction names with
  | nil => rfl
  | cons name rest ih =>
      rw [List.forall_mem_cons] at h
      rw [List.map_cons, chosenDays, hone name h.1, ih h.2]
      rfl

theorem spelled_congr {days days' : List Nat} (h : ∀ day, day ∈ days ↔ day ∈ days') :
    spelled days = spelled days' := by
  have hlength : days.dedup.length = days'.dedup.length := by
    apply List.Perm.length_eq
    rw [List.perm_ext_iff_of_nodup (List.nodup_dedup _) (List.nodup_dedup _)]
    intro day
    rw [List.mem_dedup, List.mem_dedup, h day]
  have hnames : namesOf days = namesOf days' := by
    apply List.filter_congr
    intro name _
    cases weekdayNumbers.lookup name with
    | none => rfl
    | some day => simp [h day]
  rw [spelled, spelled, hlength, hnames]

/-- What the code spells is spelled the same again. -/
theorem normaliseWeekdays_spelled {days : List Nat} (h : ∀ day ∈ days, day < 7)
    (hfilled : days ≠ []) : normaliseWeekdays pkg (spelled days) = .ok (spelled days) := by
  by_cases hseven : days.dedup.length = 7
  · simp [spelled, hseven, normaliseWeekdays]
  · have hnames : ∀ name ∈ namesOf days, name ∈ weekdayNames := fun name h => (mem_namesOf.1 h).1
    have hsome : namesOf days ≠ [] := namesOf_ne_nil h hfilled
    have hstar : joinWith "," (namesOf days) ≠ "*" := joinWith_names_ne hsome hnames (by decide)
    have hsame : spelled ((namesOf days).map fun name => (weekdayNumbers.lookup name).getD 0) =
        spelled days := by
      apply spelled_congr
      intro day
      rw [List.mem_map]
      constructor
      · rintro ⟨name, hname, rfl⟩
        obtain ⟨-, day, hday, hlookup⟩ := mem_namesOf.1 hname
        rw [hlookup, Option.getD_some]
        exact hday
      · intro hday
        obtain ⟨name, hname, hlookup⟩ := exists_name (h day hday)
        exact ⟨name, mem_namesOf.2 ⟨hname, day, hday, hlookup⟩, by rw [hlookup, Option.getD_some]⟩
    have hspelled : spelled days = joinWith "," (namesOf days) := if_neg hseven
    rw [hspelled, normaliseWeekdays, if_neg hstar, splitOn_names hsome hnames,
      chosenDays_names pkg hnames, ← hspelled]
    exact congrArg Except.ok hsame

/-- The outcome of the normalisation of a weekday field. -/
theorem normaliseWeekdays_reads (field : String) :
    Reads (fun out => namedDays out = standardDays field ∧ out ≠ "" ∧
        normaliseWeekdays pkg out = .ok out)
      True (FieldStumbles field) (normaliseWeekdays pkg field) := by
  by_cases hstar : field = "*"
  · subst hstar
    have hkept : normaliseWeekdays pkg "*" = .ok "*" := if_pos rfl
    have hsplit : "*".toList.splitOn ',' = [['*']] := by decide
    rw [hkept]
    refine .ok ⟨?_, by decide, hkept⟩ fun h => h.1 rfl
    rw [namedDays, if_pos rfl, standardDays, hsplit]
    ext day
    simp only [Set.mem_ofPred_eq, List.mem_singleton, exists_eq_left]
    constructor
    · intro hday
      have hspan : PartDay ['*'] (day % 7) := .span .week (Nat.zero_le day) (by omega)
      rwa [Nat.mod_eq_of_lt hday] at hspan
    · exact fun hday => hday.lt
  · have hreads := chosenDays_reads pkg (field.toList.splitOn ',')
    rw [normaliseWeekdays, if_neg hstar]
    generalize chosenDays pkg (field.toList.splitOn ',') = found at hreads ⊢
    cases hreads with
    | stumbled h => exact .stumbled ⟨hstar, h⟩
    | refused h hreadable => exact .refused trivial fun hbad => hreadable hbad.2
    | @ok days h hreadable =>
        obtain ⟨hdays, hfilled⟩ := h
        have hsome := hfilled (List.splitOn_ne_nil _ _)
        have hlt : ∀ day ∈ days, day < 7 := by
          intro day hday
          obtain ⟨part, -, hpart⟩ := (hdays day).1 hday
          exact hpart.lt
        obtain ⟨hnamed, hempty⟩ := namedDays_spelled hlt hsome
        refine .ok ⟨?_, hempty, normaliseWeekdays_spelled pkg hlt hsome⟩
          fun hbad => hreadable hbad.2
        change namedDays (spelled days) = _
        rw [hnamed]
        ext day
        exact hdays day

theorem isWord_spelled {days : List Nat} (h : spelled days ≠ "") : IsWord (spelled days) := by
  refine ⟨h, ?_⟩
  unfold spelled
  split
  next => simp [isSpace]
  next =>
    apply forall_mem_joinWith
    · simp [isSpace]
    · have hnames : ∀ name ∈ weekdayNames, (name.toList.all fun c => !isSpace c) = true := by decide
      intro name hname c hc
      have hall := List.all_eq_true.1 (hnames name (mem_namesOf.1 hname).1) c hc
      simpa using hall

/-- What the code makes of a field is the spelling of some days. -/
theorem spelled_of_normaliseWeekdays {field out : String}
    (h : normaliseWeekdays pkg field = .ok out) :
    ∃ days : List Nat, (∀ day ∈ days, day < 7) ∧ days ≠ [] ∧ out = spelled days := by
  by_cases hstar : field = "*"
  · rw [normaliseWeekdays, if_pos hstar] at h
    obtain rfl := Except.ok.inj h
    exact ⟨List.range 7, fun day hday => List.mem_range.1 hday, by decide, by decide⟩
  · have hreads := chosenDays_reads pkg (field.toList.splitOn ',')
    rw [normaliseWeekdays, if_neg hstar] at h
    cases hchosen : chosenDays pkg (field.toList.splitOn ',') with
    | error => simp [hchosen, Except.map] at h
    | ok days =>
        rw [hchosen] at h hreads
        obtain rfl : spelled days = out := Except.ok.inj h
        cases hreads with
        | ok hgood =>
            refine ⟨days, ?_, hgood.2 (List.splitOn_ne_nil _ _), rfl⟩
            intro day hday
            obtain ⟨part, -, hpart⟩ := (hgood.1 day).1 hday
            exact hpart.lt

/-- What the code makes of a field is a word again. -/
theorem isWord_of_normaliseWeekdays {field out : String} (h : normaliseWeekdays pkg field = .ok out) :
    IsWord out := by
  have hempty : out ≠ "" := by
    have hreads := normaliseWeekdays_reads pkg field
    rw [h] at hreads
    cases hreads with
    | ok hgood => exact hgood.2.1
  obtain ⟨days, -, -, rfl⟩ := spelled_of_normaliseWeekdays pkg h
  exact isWord_spelled hempty

/-- The fields of an expression that is accepted, and the checks they pass. -/
theorem parseFields_eq_ok {expression : String} {fields : CronFields}
    (h : parseFields pkg expression = .ok fields) :
    ∃ weekday, words expression = [fields.minute, fields.hour, fields.day, fields.month, weekday] ∧
      plainFault pkg [("minute", fields.minute), ("hour", fields.hour),
        ("day of the month", fields.day), ("month", fields.month)] = none ∧
      normaliseWeekdays pkg weekday = .ok fields.dayOfWeek ∧
      ¬ (fields.day ≠ "*" ∧ fields.dayOfWeek ≠ "*") ∧ triggerFault pkg fields = none := by
  unfold parseFields at h
  split at h
  next minute hour day month weekday hwords =>
    split at h
    next => cases h
    next hplain =>
      split at h
      next => cases h
      next dayOfWeek hnormal =>
        dsimp only at h
        split at h
        next => cases h
        next hdays =>
          split at h
          next => cases h
          next htrigger =>
            obtain rfl := Except.ok.inj h
            exact ⟨weekday, hwords, hplain, hnormal, hdays, htrigger⟩
  next => cases h

/-- The fields of an accepted expression are words. -/
theorem isWord_of_parseFields {expression : String} {fields : CronFields}
    (h : parseFields pkg expression = .ok fields) :
    ∀ part ∈ [fields.minute, fields.hour, fields.day, fields.month, fields.dayOfWeek],
      IsWord part := by
  obtain ⟨weekday, hwords, -, hnormal, -, -⟩ := parseFields_eq_ok pkg h
  intro part hpart
  rcases List.mem_append.1
    (show part ∈ [fields.minute, fields.hour, fields.day, fields.month] ++ [fields.dayOfWeek]
      from hpart) with hplainPart | hdayOfWeek
  · have hmem : part ∈ words expression := by
      rw [hwords]
      exact List.mem_append_left [weekday] hplainPart
    exact clean_of_mem_words hmem
  · rw [List.mem_singleton.1 hdayOfWeek]
    exact isWord_of_normaliseWeekdays pkg hnormal

/-- An accepted expression, spelled out, is accepted with the same fields. -/
theorem parseFields_expression {expression : String} {fields : CronFields}
    (h : parseFields pkg expression = .ok fields) :
    parseFields pkg fields.expression = .ok fields := by
  obtain ⟨weekday, hwords, hplain, hnormal, hdays, htrigger⟩ := parseFields_eq_ok pkg h
  have hsettled : normaliseWeekdays pkg fields.dayOfWeek = .ok fields.dayOfWeek := by
    have hreads := normaliseWeekdays_reads pkg weekday
    rw [hnormal] at hreads
    cases hreads with
    | ok hgood => exact hgood.2.2
  unfold parseFields
  rw [CronFields.expression, words_joinWith (isWord_of_parseFields pkg h)]
  simp only [hplain, hsettled, if_neg hdays, htrigger]

theorem triggerFault_ne_value (fields : CronFields) : triggerFault pkg fields ≠ some .value := by
  intro h
  obtain ⟨entry, -, hentry⟩ := List.exists_of_findSome?_eq_some h
  cases hread : pkg.reads entry.1 entry.2 <;> simp [hread, fieldFault] at hentry

/-- An expression is read and stays as it is, or is refused by the code's own error. -/
def Settles (expression : String) : Prop :=
  (∃ fields, parseFields pkg expression = .ok fields ∧
    parseFields pkg fields.expression = .ok fields) ∨
  ∃ message, parseFields pkg expression = .error (.schedule message)

theorem parseFields_value_iff (expression : String) :
    parseFields pkg expression = .error .value ↔ Stumbles expression := by
  constructor
  · intro h
    unfold parseFields at h
    split at h
    next minute hour day month weekday hwords =>
      split at h
      next raised hplain =>
        obtain rfl : raised = .value := by simpa using h
        simp [plainFault] at hplain
      next hplain =>
        have hreads := normaliseWeekdays_reads pkg weekday
        split at h
        next raised hnormal =>
          obtain rfl : raised = .value := by simpa using h
          rw [hnormal] at hreads
          cases hreads with
          | stumbled hbad =>
              refine ⟨minute, hour, day, month, weekday, hwords, ?_, hbad⟩
              simpa [plainFault, List.find?_eq_none] using hplain
        next dayOfWeek hnormal =>
          dsimp only at h
          split at h
          next => cases h
          next =>
            split at h
            next raised htrigger =>
              obtain rfl : raised = .value := by simpa using h
              exact absurd htrigger (triggerFault_ne_value pkg _)
            next => cases h
    next => cases h
  · rintro ⟨minute, hour, day, month, weekday, hwords, hplain, hbad⟩
    have hnone : plainFault pkg [("minute", minute), ("hour", hour), ("day of the month", day),
        ("month", month)] = none := by
      simpa [plainFault, List.find?_eq_none] using hplain
    have hreads := normaliseWeekdays_reads pkg weekday
    unfold parseFields
    simp only [hwords, hnone]
    generalize normaliseWeekdays pkg weekday = found at hreads ⊢
    cases hreads with
    | stumbled => rfl
    | ok _ hreadable => exact absurd hbad hreadable
    | refused _ hreadable => exact absurd hbad hreadable

/-- An accepted weekday field names the days standard cron assigns to it and stays as it is; and
every expression is read to something that stays, or is refused by an error of the code's own, if
and only if the code meets no number in the weekday field that `int` refuses. -/
theorem weekday_fields_settle_iff :
    (∀ field out, normaliseWeekdays pkg field = .ok out →
      namedDays out = standardDays field ∧ out ≠ "" ∧ normaliseWeekdays pkg out = .ok out) ∧
    ∀ expression, Settles pkg expression ↔ ¬ Stumbles expression := by
  constructor
  · intro field out h
    have hreads := normaliseWeekdays_reads pkg field
    rw [h] at hreads
    cases hreads with
    | ok hgood => exact hgood
  · intro expression
    rw [← parseFields_value_iff pkg]
    constructor
    · rintro (⟨fields, h, -⟩ | ⟨message, h⟩)
      · simp [h]
      · simp [h]
    · intro hvalue
      cases h : parseFields pkg expression with
      | ok fields => exact .inl ⟨fields, h, parseFields_expression pkg h⟩
      | error raised =>
          cases raised with
          | schedule message => exact .inr ⟨message, h⟩
          | value => exact absurd h hvalue

/-- `0 3 * * ²`: the superscript is a digit to `isdigit`, and no number to `int`. -/
theorem superscript_weekday_raises :
    parseFields plainPackage "0 3 * * ²" = .error .value ∧
      ¬ Settles plainPackage "0 3 * * ²" := by
  have hraises : parseFields plainPackage "0 3 * * ²" = .error .value := by decide
  refine ⟨hraises, ?_⟩
  rintro (⟨fields, h, -⟩ | ⟨message, h⟩)
  · rw [hraises] at h
    cases h
  · rw [hraises] at h
    cases h

end Papaia.Backup
