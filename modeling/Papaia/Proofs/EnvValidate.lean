/-
Module: Papaia.Proofs.EnvValidate
Purpose: When the check of an add-on's settings answers and enforces the declared types: which values
  pass, which are refused, and which make a conversion raise that nothing catches.
Trusted boundary: how Python splits URLs and matches patterns
Main exports: Passes, Stumbles, coerceDeclared_ok_iff, Enforced, Answerable,
  declared_types_enforced_iff
-/
import Papaia.Addons.EnvValidate
import Papaia.Proofs.EnvRoundTrip

namespace Papaia.Addons

open Text Numerals

/-! ### One check -/

section Bounds

variable {α : Type}

/-- A bound that is read and not exceeded, if there is one. -/
def BoundHolds (bound : Option String) (read : String → Option α) (exceeds : α → Option Bool) :
    Prop :=
  ∀ text, bound = some text → ∃ limit, read text = some limit ∧ exceeds limit = some false

/-- A bound that cannot be read, or not be compared with. -/
def BoundStumbles (bound : Option String) (read : String → Option α)
    (exceeds : α → Option Bool) : Prop :=
  ∃ text, bound = some text ∧ ∀ limit, read text = some limit → exceeds limit = none

variable {bound : Option String} {read : String → Option α} {exceeds : α → Option Bool}
  {key : String} {message : String → String}

theorem checkBound_ok_iff :
    checkBound bound read exceeds key message = .ok () ↔ BoundHolds bound read exceeds := by
  unfold BoundHolds
  cases bound with
  | none => simp [checkBound]
  | some text =>
      cases hread : read text with
      | none => simp [checkBound, orUncaught, hread, bind, Except.bind]
      | some limit =>
          cases hexceeds : exceeds limit with
          | none => simp [checkBound, orUncaught, hread, hexceeds, bind, Except.bind]
          | some beyond =>
              cases beyond <;>
                simp [checkBound, orUncaught, hread, hexceeds, bind, Except.bind]

theorem checkBound_uncaught_iff :
    checkBound bound read exceeds key message = .error .uncaught ↔
      BoundStumbles bound read exceeds := by
  unfold BoundStumbles
  cases bound with
  | none => simp [checkBound]
  | some text =>
      cases hread : read text with
      | none => simp [checkBound, orUncaught, hread, bind, Except.bind]
      | some limit =>
          cases hexceeds : exceeds limit with
          | none => simp [checkBound, orUncaught, hread, hexceeds, bind, Except.bind]
          | some beyond =>
              cases beyond <;>
                simp [checkBound, orUncaught, hread, hexceeds, bind, Except.bind]

end Bounds

/-- Both bounds of a number hold. -/
def Within {α : Type} (f : EnvField) (read : String → Option α) (below above : α → Option Bool) :
    Prop :=
  BoundHolds f.minValue read below ∧ BoundHolds f.maxValue read above

/-- The first bound that does not hold stumbles. -/
def BoundsStumble {α : Type} (f : EnvField) (read : String → Option α)
    (below above : α → Option Bool) : Prop :=
  BoundStumbles f.minValue read below ∨
    (BoundHolds f.minValue read below ∧ BoundStumbles f.maxValue read above)

theorem both_ok_iff {one other : Except EnvFailure Unit} :
    (one >>= fun _ => other) = .ok () ↔ one = .ok () ∧ other = .ok () := by
  cases one <;> simp [bind, Except.bind]

theorem both_uncaught_iff {one other : Except EnvFailure Unit} :
    (one >>= fun _ => other) = .error .uncaught ↔
      one = .error .uncaught ∨ (one = .ok () ∧ other = .error .uncaught) := by
  cases one <;> simp [bind, Except.bind]

section Both

variable {α : Type} {f : EnvField} {read : String → Option α} {below above : α → Option Bool}
  {key : String} {tooLow tooHigh : String → String}

theorem checkBounds_ok_iff :
    (checkBound f.minValue read below key tooLow >>= fun _ =>
      checkBound f.maxValue read above key tooHigh) = .ok () ↔ Within f read below above := by
  rw [both_ok_iff, checkBound_ok_iff, checkBound_ok_iff]
  rfl

theorem checkBounds_uncaught_iff :
    (checkBound f.minValue read below key tooLow >>= fun _ =>
      checkBound f.maxValue read above key tooHigh) = .error .uncaught ↔
        BoundsStumble f read below above := by
  rw [both_uncaught_iff, checkBound_ok_iff, checkBound_uncaught_iff, checkBound_uncaught_iff]
  rfl

end Both

/-- What passes the check of its declared type. -/
def Passes (rt : ValueRuntime) (f : EnvField) (value : String) : Prop :=
  if value = "" then f.required = false
  else
    match f.valueType with
    | .integer => ∃ number, rt.int value = some number ∧
        Within f rt.int (fun limit => some (number < limit)) fun limit => some (limit < number)
    | .decimal => ∃ number, rt.decimal (commasToPoints value) = some number ∧
        Within f rt.decimal (rt.decimalLt number) fun limit => rt.decimalLt limit number
    | .url => ∃ scheme netloc, rt.urlsplit value = some (scheme, netloc) ∧
        (scheme = "http" ∨ scheme = "https") ∧ netloc ≠ ""
    | .text => f.pattern = "" ∨ rt.fullmatch f.pattern value = some true

/-- What makes its check raise: a bound that is no number or cannot be compared with, a text
`urlsplit` refuses, a pattern that is none. -/
def Stumbles (rt : ValueRuntime) (f : EnvField) (value : String) : Prop :=
  value ≠ "" ∧
    match f.valueType with
    | .integer => ∃ number, rt.int value = some number ∧
        BoundsStumble f rt.int (fun limit => some (number < limit))
          fun limit => some (limit < number)
    | .decimal => ∃ number, rt.decimal (commasToPoints value) = some number ∧
        BoundsStumble f rt.decimal (rt.decimalLt number) fun limit => rt.decimalLt limit number
    | .url => rt.urlsplit value = none
    | .text => f.pattern ≠ "" ∧ rt.fullmatch f.pattern value = none

/-- The value that is written for one that passes. -/
def writtenValue (f : EnvField) (value : String) : String :=
  if value ≠ "" ∧ f.valueType = .decimal then commasToPoints value else value

/-! ### One value -/

section Value

variable {rt : ValueRuntime} {f : EnvField} {value : String}

theorem checkInteger_ok_iff :
    checkInteger rt f value = .ok () ↔ ∃ number, rt.int value = some number ∧
      Within f rt.int (fun limit => some (number < limit)) fun limit => some (limit < number) := by
  unfold checkInteger
  cases rt.int value with
  | none => simp
  | some number =>
      simp only [Option.some.injEq, exists_eq_left']
      exact checkBounds_ok_iff

theorem checkInteger_uncaught_iff :
    checkInteger rt f value = .error .uncaught ↔ ∃ number, rt.int value = some number ∧
      BoundsStumble f rt.int (fun limit => some (number < limit))
        fun limit => some (limit < number) := by
  unfold checkInteger
  cases rt.int value with
  | none => simp
  | some number =>
      simp only [Option.some.injEq, exists_eq_left']
      exact checkBounds_uncaught_iff

theorem checkDecimal_ok_iff {normalised : String} :
    checkDecimal rt f value normalised = .ok () ↔
      ∃ number, rt.decimal normalised = some number ∧
        Within f rt.decimal (rt.decimalLt number) fun limit => rt.decimalLt limit number := by
  unfold checkDecimal
  cases rt.decimal normalised with
  | none => simp
  | some number =>
      simp only [Option.some.injEq, exists_eq_left']
      exact checkBounds_ok_iff

theorem checkDecimal_uncaught_iff {normalised : String} :
    checkDecimal rt f value normalised = .error .uncaught ↔
      ∃ number, rt.decimal normalised = some number ∧
        BoundsStumble f rt.decimal (rt.decimalLt number)
          fun limit => rt.decimalLt limit number := by
  unfold checkDecimal
  cases rt.decimal normalised with
  | none => simp
  | some number =>
      simp only [Option.some.injEq, exists_eq_left']
      exact checkBounds_uncaught_iff

theorem checkUrl_ok_iff :
    checkUrl rt f value = .ok () ↔
      ∃ scheme netloc, rt.urlsplit value = some (scheme, netloc) ∧
        (scheme = "http" ∨ scheme = "https") ∧ netloc ≠ "" := by
  cases hsplit : rt.urlsplit value with
  | none => simp [checkUrl, hsplit, orUncaught, bind, Except.bind]
  | some parts =>
      obtain ⟨scheme, netloc⟩ := parts
      simp only [checkUrl, hsplit, orUncaught, bind, Except.bind]
      by_cases hbad : (scheme ≠ "http" ∧ scheme ≠ "https") ∨ netloc = ""
      · rw [if_pos hbad]
        refine iff_of_false (by simp) ?_
        rintro ⟨_, _, hparts, hscheme, hnetloc⟩
        obtain ⟨rfl, rfl⟩ := Prod.mk.inj (Option.some.inj hparts)
        rcases hbad with ⟨hhttp, hhttps⟩ | hempty
        · exact hscheme.elim hhttp hhttps
        · exact hnetloc hempty
      · rw [if_neg hbad]
        refine iff_of_true rfl ⟨scheme, netloc, rfl, ?_⟩
        rw [not_or, not_and_or, not_not, not_not] at hbad
        exact hbad

theorem checkUrl_uncaught_iff :
    checkUrl rt f value = .error .uncaught ↔
      rt.urlsplit value = none := by
  cases hsplit : rt.urlsplit value with
  | none => simp [checkUrl, hsplit, orUncaught, bind, Except.bind]
  | some parts =>
      obtain ⟨scheme, netloc⟩ := parts
      simp only [checkUrl, hsplit, orUncaught, bind, Except.bind]
      split <;> simp

theorem checkPattern_ok_iff :
    checkPattern rt f value = .ok () ↔
      f.pattern = "" ∨ rt.fullmatch f.pattern value = some true := by
  unfold checkPattern
  by_cases hpattern : f.pattern = ""
  · simp [hpattern]
  · rw [if_neg hpattern]
    cases hmatch : rt.fullmatch f.pattern value with
    | none => simp [hpattern, orUncaught, bind, Except.bind]
    | some matched =>
        cases matched <;>
          simp [hpattern, orUncaught, bind, Except.bind]

theorem checkPattern_uncaught_iff :
    checkPattern rt f value = .error .uncaught ↔
      f.pattern ≠ "" ∧ rt.fullmatch f.pattern value = none := by
  unfold checkPattern
  by_cases hpattern : f.pattern = ""
  · simp [hpattern]
  · rw [if_neg hpattern]
    cases hmatch : rt.fullmatch f.pattern value with
    | none => simp [hpattern, orUncaught, bind, Except.bind]
    | some matched =>
        cases matched <;>
          simp [hpattern, orUncaught, bind, Except.bind]

theorem then_ok_iff {check : Except EnvFailure Unit} {a b : String} :
    (check >>= fun _ => (pure a : Except EnvFailure String)) = .ok b ↔ check = .ok () ∧ a = b := by
  cases check <;> simp [bind, Except.bind, pure, Except.pure]

theorem then_uncaught_iff {check : Except EnvFailure Unit} {a : String} :
    (check >>= fun _ => (pure a : Except EnvFailure String)) = .error .uncaught ↔
      check = .error .uncaught := by
  cases check <;> simp [bind, Except.bind, pure, Except.pure]

/-- A declared field takes what passes, and writes it. -/
theorem coerceDeclared_ok_iff {written : String} :
    coerceDeclared rt f value = .ok written ↔
      Passes rt f value ∧ writtenValue f value = written := by
  unfold coerceDeclared Passes writtenValue
  by_cases hempty : value = ""
  · rw [if_pos hempty, if_pos hempty]
    cases f.required <;> simp [hempty]
  · rw [if_neg hempty, if_neg hempty]
    cases f.valueType with
    | integer =>
        dsimp only
        rw [then_ok_iff, checkInteger_ok_iff]
        simp
    | decimal =>
        dsimp only
        rw [then_ok_iff, checkDecimal_ok_iff]
        simp [hempty]
    | url =>
        dsimp only
        rw [then_ok_iff, checkUrl_ok_iff]
        simp
    | text =>
        dsimp only
        rw [then_ok_iff, checkPattern_ok_iff]
        simp

theorem coerceDeclared_uncaught_iff :
    coerceDeclared rt f value = .error .uncaught ↔ Stumbles rt f value := by
  unfold coerceDeclared Stumbles
  by_cases hempty : value = ""
  · rw [if_pos hempty]
    cases f.required <;> simp [hempty]
  · rw [if_neg hempty]
    cases f.valueType with
    | integer =>
        dsimp only
        rw [then_uncaught_iff, checkInteger_uncaught_iff, and_iff_right hempty]
    | decimal =>
        dsimp only
        rw [then_uncaught_iff, checkDecimal_uncaught_iff, and_iff_right hempty]
    | url =>
        dsimp only
        rw [then_uncaught_iff, checkUrl_uncaught_iff, and_iff_right hempty]
    | text =>
        dsimp only
        rw [then_uncaught_iff, checkPattern_uncaught_iff, and_iff_right hempty]

end Value

/-! ### All values -/

/-- The field of a key: of several the last one counts. -/
def fieldFor (fields : List EnvField) (key : String) : Option EnvField :=
  fields.reverse.find? fun f => f.key = key

/-- Whether a value would set more than its own line. -/
def BreaksLine (value : String) : Prop :=
  '\n' ∈ value.toList ∨ '\r' ∈ value.toList

/-- An entry that is taken. -/
def ItemPasses (rt : ValueRuntime) (fields : List EnvField) (item : String × String) : Prop :=
  ¬BreaksLine (strip item.2) ∧
    ∀ f, fieldFor fields item.1 = some f → f.typeDeclared = true → Passes rt f (strip item.2)

/-- An entry that nothing catches the exception of. -/
def ItemStumbles (rt : ValueRuntime) (fields : List EnvField) (item : String × String) : Prop :=
  ¬BreaksLine (strip item.2) ∧
    ∃ f, fieldFor fields item.1 = some f ∧ f.typeDeclared = true ∧ Stumbles rt f (strip item.2)

section Items

variable {rt : ValueRuntime} {fields : List EnvField}

/-- What is taken of an entry: the value of a declared field as its check writes it, any other as it
is without the white space around it. -/
def takenValue (fields : List EnvField) (item : String × String) : String :=
  match fieldFor fields item.1 with
  | some f => if f.typeDeclared then writtenValue f (strip item.2) else strip item.2
  | none => strip item.2

theorem coerceItem_eq (key raw : String) :
    coerceItem rt fields key raw =
      if '\n' ∈ (strip raw).toList ∨ '\r' ∈ (strip raw).toList then
        .error (.invalid key "value must not contain newline or carriage-return characters")
      else
        match fieldFor fields key with
        | none =>
            .ok (strip raw, ["[warn] " ++ key ++ ": not in .env.example — written as-is"])
        | some f =>
            if f.typeDeclared then
              (coerceDeclared rt f (strip raw)).map fun coerced => (coerced, [])
            else .ok (strip raw, inferredWarning rt f key (strip raw)) := by
  unfold coerceItem fieldFor
  dsimp only
  split
  next => rfl
  next =>
    cases fields.reverse.find? fun f => decide (f.key = key) with
    | none => rfl
    | some f =>
        dsimp only
        split
        next => cases coerceDeclared rt f (strip raw) <;> rfl
        next => rfl

theorem passes_of_coerceItem {item : String × String} {value : String} {warnings : List String}
    (h : coerceItem rt fields item.1 item.2 = .ok (value, warnings)) :
    ItemPasses rt fields item ∧ takenValue fields item = value := by
  rw [coerceItem_eq] at h
  unfold ItemPasses takenValue BreaksLine
  split at h
  next => cases h
  next hline =>
    split at h
    next hnone =>
      rw [hnone]
      obtain ⟨rfl, -⟩ := Prod.mk.inj (Except.ok.inj h)
      exact ⟨⟨hline, fun f hf => by cases hf⟩, rfl⟩
    next f hfield =>
      rw [hfield]
      split at h
      next hdeclared =>
        cases hcoerced : coerceDeclared rt f (strip item.2) with
        | error failure => rw [hcoerced] at h; cases h
        | ok coerced =>
            rw [hcoerced] at h
            obtain ⟨rfl, -⟩ := Prod.mk.inj (Except.ok.inj h)
            obtain ⟨hpasses, hwritten⟩ := coerceDeclared_ok_iff.1 hcoerced
            refine ⟨⟨hline, ?_⟩, by simp [hdeclared, hwritten]⟩
            intro f' hf' _
            obtain rfl := Option.some.inj hf'
            exact hpasses
      next hdeclared =>
        obtain ⟨rfl, -⟩ := Prod.mk.inj (Except.ok.inj h)
        refine ⟨⟨hline, ?_⟩, by simp [hdeclared]⟩
        intro f' hf' hdeclared'
        rw [← Option.some.inj hf'] at hdeclared'
        exact absurd hdeclared' hdeclared

theorem coerceItem_of_passes {item : String × String} (h : ItemPasses rt fields item) :
    ∃ warnings, coerceItem rt fields item.1 item.2 = .ok (takenValue fields item, warnings) := by
  obtain ⟨hline, hpasses⟩ := h
  unfold BreaksLine at hline
  rw [coerceItem_eq, if_neg hline]
  unfold takenValue
  cases hfield : fieldFor fields item.1 with
  | none => exact ⟨_, rfl⟩
  | some f =>
      dsimp only
      cases hdeclared : f.typeDeclared with
      | false => exact ⟨_, rfl⟩
      | true =>
          have hcoerced := coerceDeclared_ok_iff.2 ⟨hpasses f hfield hdeclared, rfl⟩
          refine ⟨[], ?_⟩
          rw [if_pos rfl, if_pos rfl, hcoerced]
          rfl

theorem coerceItem_uncaught_iff {item : String × String} :
    coerceItem rt fields item.1 item.2 = .error .uncaught ↔ ItemStumbles rt fields item := by
  rw [coerceItem_eq]
  unfold ItemStumbles BreaksLine
  split
  next hline => exact iff_of_false (by simp) fun h => h.1 hline
  next hline =>
    rw [and_iff_right hline]
    cases hfield : fieldFor fields item.1 with
    | none => simp
    | some f =>
        cases hdeclared : f.typeDeclared with
        | false => simp [hdeclared]
        | true =>
            have hcoerced : coerceDeclared rt f (strip item.2) = .error .uncaught ↔
                Stumbles rt f (strip item.2) := coerceDeclared_uncaught_iff
            simp only [if_true, Option.some.injEq, exists_eq_left', hdeclared, true_and, ← hcoerced]
            cases coerceDeclared rt f (strip item.2) <;> simp [Except.map]

/-- The loop of `coerce_env_values` over some of the entries. -/
def coerceItems (rt : ValueRuntime) (fields : List EnvField) (taken : Env × List String)
    (items : List (String × String)) : Except EnvFailure (Env × List String) :=
  items.foldlM (fun (out, warnings) (key, rawValue) => do
    let (value, more) ← coerceItem rt fields key rawValue
    pure (out.set (key, value), warnings ++ more)) taken

theorem coerceItems_cons (out : Env) (warnings : List String) (item : String × String)
    (rest : List (String × String)) :
    coerceItems rt fields (out, warnings) (item :: rest) =
      match coerceItem rt fields item.1 item.2 with
      | .error failure => .error failure
      | .ok (value, more) =>
          coerceItems rt fields (out.set (item.1, value), warnings ++ more) rest := by
  obtain ⟨key, raw⟩ := item
  rw [coerceItems, List.foldlM_cons]
  dsimp only
  cases coerceItem rt fields key raw with
  | error failure => rfl
  | ok written => rfl

/-- The loop ends with an exception at the first entry that does not pass, where that stumbles. -/
theorem coerceItems_uncaught_iff {taken : Env × List String} {items : List (String × String)} :
    coerceItems rt fields taken items = .error .uncaught ↔
      ∃ before item behind, items = before ++ item :: behind ∧
        (∀ passed ∈ before, ItemPasses rt fields passed) ∧ ItemStumbles rt fields item := by
  induction items generalizing taken with
  | nil =>
      refine iff_of_false (by simp [coerceItems, pure, Except.pure]) ?_
      rintro ⟨before, item, behind, hsplit, -⟩
      simp at hsplit
  | cons first rest ih =>
      obtain ⟨out, warnings⟩ := taken
      rw [coerceItems_cons]
      cases hitem : coerceItem rt fields first.1 first.2 with
      | ok written =>
          obtain ⟨value, more⟩ := written
          have hpasses := (passes_of_coerceItem hitem).1
          have hsteady : ¬ItemStumbles rt fields first := by
            rw [← coerceItem_uncaught_iff, hitem]
            simp
          dsimp only
          rw [ih]
          constructor
          · rintro ⟨before, item, behind, rfl, hbefore, hstumbles⟩
            refine ⟨first :: before, item, behind, rfl, ?_, hstumbles⟩
            exact List.forall_mem_cons.2 ⟨hpasses, hbefore⟩
          · rintro ⟨before, item, behind, hsplit, hbefore, hstumbles⟩
            cases before with
            | nil =>
                obtain ⟨rfl, -⟩ := List.cons.inj hsplit
                exact absurd hstumbles hsteady
            | cons passed before =>
                obtain ⟨rfl, rfl⟩ := List.cons.inj hsplit
                exact ⟨before, item, behind, rfl, (List.forall_mem_cons.1 hbefore).2, hstumbles⟩
      | error failure =>
          dsimp only
          have hfirst : ¬ItemPasses rt fields first := by
            intro hpasses
            obtain ⟨_, hok⟩ := coerceItem_of_passes hpasses
            rw [hitem] at hok
            cases hok
          constructor
          · intro hfailure
            refine ⟨[], first, rest, rfl, by simp, ?_⟩
            rw [← coerceItem_uncaught_iff, hitem]
            obtain rfl := Except.error.inj hfailure
            rfl
          · rintro ⟨before, item, behind, hsplit, hbefore, hstumbles⟩
            cases before with
            | nil =>
                obtain ⟨rfl, -⟩ := List.cons.inj hsplit
                rw [← coerceItem_uncaught_iff, hitem] at hstumbles
                obtain rfl := Except.error.inj hstumbles
                rfl
            | cons passed before =>
                obtain ⟨rfl, -⟩ := List.cons.inj hsplit
                exact absurd (hbefore _ List.mem_cons_self) hfirst

/-- Where every entry passes, what is taken of each is written under its key. -/
theorem coerceItems_of_passes {out : Env} {warnings : List String} {items : List (String × String)}
    (hdistinct : Keyed.Distinct Prod.fst (out.entries ++ items))
    (h : ∀ item ∈ items, ItemPasses rt fields item) :
    ∃ written more, coerceItems rt fields (out, warnings) items = .ok (written, more) ∧
      written.entries = out.entries ++ items.map fun item => (item.1, takenValue fields item) := by
  induction items generalizing out warnings with
  | nil => exact ⟨out, warnings, rfl, by simp⟩
  | cons first rest ih =>
      rw [List.forall_mem_cons] at h
      obtain ⟨more, hitem⟩ := coerceItem_of_passes h.1
      have hsplit := hdistinct
      rw [Keyed.Distinct, List.map_append, List.map_cons, List.nodup_append] at hsplit
      have hnew : first.1 ∉ out.entries.map Prod.fst :=
        fun hmem => hsplit.2.2 first.1 hmem first.1 List.mem_cons_self rfl
      have hset : (out.set (first.1, takenValue fields first)).entries =
          out.entries ++ [(first.1, takenValue fields first)] := entries_set_of_new hnew
      have hrest : Keyed.Distinct Prod.fst
          ((out.set (first.1, takenValue fields first)).entries ++ rest) := by
        rw [hset]
        simpa [Keyed.Distinct] using hdistinct
      obtain ⟨written, all, hok, hentries⟩ := @ih _ (warnings ++ more) hrest h.2
      refine ⟨written, all, ?_, ?_⟩
      · rw [coerceItems_cons, hitem]
        exact hok
      · rw [hentries, hset]
        simp

/-- The whole set is written when every entry passes. -/
theorem coerceItems_of_forall_passes {env : Env}
    (h : ∀ item ∈ env.entries, ItemPasses rt fields item) :
    ∃ written more, coerceItems rt fields (Env.empty, []) env.entries = .ok (written, more) ∧
      written.entries = env.entries.map fun item => (item.1, takenValue fields item) := by
  have hdistinct : Keyed.Distinct Prod.fst (Env.empty.entries ++ env.entries) := by
    simpa [Env.empty] using env.distinct
  obtain ⟨written, more, hok, hentries⟩ := @coerceItems_of_passes rt fields Env.empty [] _ hdistinct h
  exact ⟨written, more, hok, by simpa [Env.empty] using hentries⟩

theorem passes_of_coerceItems_ok {taken written : Env × List String}
    {items : List (String × String)} (h : coerceItems rt fields taken items = .ok written) :
    ∀ item ∈ items, ItemPasses rt fields item := by
  induction items generalizing taken with
  | nil => simp
  | cons first rest ih =>
      obtain ⟨out, warnings⟩ := taken
      rw [coerceItems_cons] at h
      cases hitem : coerceItem rt fields first.1 first.2 with
      | error failure => rw [hitem] at h; cases h
      | ok taken =>
          obtain ⟨value, more⟩ := taken
          rw [hitem] at h
          exact List.forall_mem_cons.2 ⟨(passes_of_coerceItem hitem).1, ih h⟩

end Items

/-! ### What the check is for -/

/-- A value of an integer field: empty only if the field is optional, otherwise a whole number within
the declared bounds that is the one the operator typed. -/
def IntegerFits (f : EnvField) (raw value : String) : Prop :=
  (value = "" ∧ f.required = false) ∨
    ∃ number, readInteger value = some number ∧ readInteger (strip raw) = some number ∧
      (∀ text, f.minValue = some text → ∃ limit, readInteger text = some limit ∧ limit ≤ number) ∧
      ∀ text, f.maxValue = some text → ∃ limit, readInteger text = some limit ∧ number ≤ limit

/-- The same of a decimal field, where a comma is read as a point and the bounds may be infinite. -/
def DecimalFits (f : EnvField) (raw value : String) : Prop :=
  (value = "" ∧ f.required = false) ∨
    ∃ number quantity, readDecimalNumber value = some number ∧ number.value? = some quantity ∧
      readDecimalNumber (commasToPoints (strip raw)) = some number ∧
      (∀ text, f.minValue = some text →
        ∃ limit, readDecimalNumber text = some limit ∧ number.lt limit = some false) ∧
      ∀ text, f.maxValue = some text →
        ∃ limit, readDecimalNumber text = some limit ∧ limit.lt number = some false

/-- The check answers, and what it takes for a declared number is one. -/
structure Enforced (rt : ValueRuntime) (fields : List EnvField) (env : Env) : Prop where
  answers : coerceEnvValues rt fields env ≠ .error .uncaught
  typed : ∀ out warnings, coerceEnvValues rt fields env = .ok (out, warnings) →
    ∀ key value, (key, value) ∈ out.entries → ∃ raw, (key, raw) ∈ env.entries ∧
      ∀ f, fieldFor fields key = some f → f.typeDeclared = true →
        (f.valueType = .integer → IntegerFits f raw value) ∧
          (f.valueType = .decimal → DecimalFits f raw value)

/-- The first value that does not pass is refused, and where all pass no decimal is an infinity or
no number at all. -/
structure Answerable (rt : ValueRuntime) (fields : List EnvField) (env : Env) : Prop where
  refused : ∀ before item behind, env.entries = before ++ item :: behind →
    (∀ passed ∈ before, ItemPasses rt fields passed) → ¬ItemStumbles rt fields item
  finite : (∀ item ∈ env.entries, ItemPasses rt fields item) → ∀ key raw, (key, raw) ∈ env.entries →
    ∀ f, fieldFor fields key = some f → f.typeDeclared = true → f.valueType = .decimal →
      strip raw ≠ "" → ∃ number quantity,
        readDecimalNumber (commasToPoints (strip raw)) = some number ∧
          number.value? = some quantity

theorem coerceEnvValues_eq (rt : ValueRuntime) (fields : List EnvField) (env : Env) :
    coerceEnvValues rt fields env = coerceItems rt fields (Env.empty, []) env.entries := rfl

section Python

variable (urlsplit : String → Option (String × String)) (fullmatch : String → String → Option Bool)
  (repr : String → String) (showDecimal : Decimal → String)

/-- What passes as an integer fits. -/
theorem integerFits_of_passes {f : EnvField} {raw : String} (htype : f.valueType = .integer)
    (h : Passes (.ofPython urlsplit fullmatch repr showDecimal) f (strip raw)) :
    IntegerFits f raw (writtenValue f (strip raw)) := by
  have hwritten : writtenValue f (strip raw) = strip raw := by simp [writtenValue, htype]
  rw [hwritten]
  unfold Passes at h
  by_cases hempty : strip raw = ""
  · rw [if_pos hempty] at h
    exact .inl ⟨hempty, h⟩
  · rw [if_neg hempty, htype] at h
    obtain ⟨number, hread, hmin, hmax⟩ := h
    refine .inr ⟨number, hread, hread, ?_, ?_⟩
    · intro text htext
      obtain ⟨limit, hlimit, hholds⟩ := hmin text htext
      exact ⟨limit, hlimit, by simpa using hholds⟩
    · intro text htext
      obtain ⟨limit, hlimit, hholds⟩ := hmax text htext
      exact ⟨limit, hlimit, by simpa using hholds⟩

theorem commasToPoints_ne_empty {value : String} (h : value ≠ "") : commasToPoints value ≠ "" := by
  intro hempty
  have hlist := congrArg String.toList hempty
  rw [commasToPoints, String.toList_ofList] at hlist
  have hnil : value.toList = [] := by simpa using hlist
  apply h
  rw [← String.ofList_toList (s := value), hnil]

/-- What passes as a decimal fits where it is a number. -/
theorem decimalFits_of_passes {f : EnvField} {raw : String} (htype : f.valueType = .decimal)
    (h : Passes (.ofPython urlsplit fullmatch repr showDecimal) f (strip raw))
    (hfinite : strip raw ≠ "" → ∃ number quantity,
      readDecimalNumber (commasToPoints (strip raw)) = some number ∧
        number.value? = some quantity) :
    DecimalFits f raw (writtenValue f (strip raw)) := by
  unfold Passes at h
  by_cases hempty : strip raw = ""
  · rw [if_pos hempty] at h
    refine .inl ⟨?_, h⟩
    simp [writtenValue, hempty]
  · rw [if_neg hempty, htype] at h
    obtain ⟨number, hread, hmin, hmax⟩ := h
    obtain ⟨found, quantity, hfound, hquantity⟩ := hfinite hempty
    have hsame : number = found := Option.some.inj (hread.symm.trans hfound)
    rw [← hsame] at hquantity
    have hwritten : writtenValue f (strip raw) = commasToPoints (strip raw) := by
      simp [writtenValue, htype, hempty]
    rw [hwritten]
    exact .inr ⟨number, quantity, hread, hquantity, hread, hmin, hmax⟩

/-- The check answers and enforces the declared types exactly where no value makes it stumble before
another one is refused, and no infinity or `nan` is given for a decimal. -/
theorem declared_types_enforced_iff (fields : List EnvField) (env : Env) :
    Enforced (.ofPython urlsplit fullmatch repr showDecimal) fields env ↔
      Answerable (.ofPython urlsplit fullmatch repr showDecimal) fields env := by
  constructor
  · intro h
    constructor
    case refused =>
      intro before item behind hsplit hbefore hstumbles
      apply h.answers
      rw [coerceEnvValues_eq, coerceItems_uncaught_iff]
      exact ⟨before, item, behind, hsplit, hbefore, hstumbles⟩
    case finite =>
      intro hpass key raw hmem f hfield hdeclared htype hfilled
      obtain ⟨out, warnings, hok, hentries⟩ := coerceItems_of_forall_passes hpass
      have hwritten : takenValue fields (key, raw) = commasToPoints (strip raw) := by
        simp [takenValue, hfield, hdeclared, writtenValue, htype, hfilled]
      have hout : (key, commasToPoints (strip raw)) ∈ out.entries := by
        rw [hentries, ← hwritten]
        exact List.mem_map.2 ⟨(key, raw), hmem, rfl⟩
      obtain ⟨raw', hraw', hfits⟩ := h.typed out warnings hok key _ hout
      have hsame : (key, raw') = (key, raw) := env.distinct.eq hraw' hmem rfl
      obtain ⟨-, rfl⟩ := Prod.mk.inj hsame
      rcases (hfits f hfield hdeclared).2 htype with ⟨hempty, -⟩ | ⟨number, quantity, hread, hvalue, -⟩
      · exact absurd hempty (commasToPoints_ne_empty hfilled)
      · exact ⟨number, quantity, hread, hvalue⟩
  · intro h
    constructor
    case answers =>
      rw [coerceEnvValues_eq]
      intro huncaught
      obtain ⟨before, item, behind, hsplit, hbefore, hstumbles⟩ := coerceItems_uncaught_iff.1 huncaught
      exact h.refused before item behind hsplit hbefore hstumbles
    case typed =>
      intro out warnings hok key value hmem
      have hpass := passes_of_coerceItems_ok hok
      obtain ⟨written, more, hok', hentries⟩ := coerceItems_of_forall_passes hpass
      rw [coerceEnvValues_eq] at hok
      obtain ⟨rfl, -⟩ := Prod.mk.inj (Except.ok.inj (hok.symm.trans hok'))
      rw [hentries] at hmem
      obtain ⟨⟨key', raw⟩, hraw, heq⟩ := List.mem_map.1 hmem
      obtain ⟨rfl, rfl⟩ := Prod.mk.inj heq
      refine ⟨raw, hraw, ?_⟩
      intro f hfield hdeclared
      have hpasses := (hpass _ hraw).2 f hfield hdeclared
      have htaken : takenValue fields (key', raw) = writtenValue f (strip raw) := by
        simp only [takenValue, hfield, hdeclared, if_true]
      rw [htaken]
      constructor
      · exact fun htype => integerFits_of_passes _ _ _ _ htype hpasses
      · exact fun htype => decimalFits_of_passes _ _ _ _ htype hpasses
          (h.finite hpass key' raw hraw f hfield hdeclared htype)

end Python

/-- A field that is declared a decimal of at least 0. -/
def ratioField : EnvField where
  key := "RATIO"
  label := "Ratio"
  default := "0.5"
  required := false
  isSecret := false
  valueType := .decimal
  typeDeclared := true
  minValue := some "0"

/-- `nan` is a `Decimal`, and comparing it with the minimum raises. -/
theorem nan_is_not_answered :
    coerceEnvValues (.ofPython (fun _ => none) (fun _ _ => none) id fun _ => "") [ratioField]
      (Env.single "RATIO" "nan") = .error .uncaught := by
  rw [coerceEnvValues_eq, coerceItems_uncaught_iff]
  refine ⟨[], ("RATIO", "nan"), [], rfl, by simp, ?_, ratioField, by decide, rfl, by decide, ?_⟩
  · simp only [BreaksLine]
    decide
  · have hnan : readDecimalNumber (commasToPoints (strip "nan")) = some (.nan false) := by
      have htext : commasToPoints (strip "nan") = "nan" := by decide
      rw [htext, readDecimalNumber_nan]
    exact ⟨.nan false, hnan, .inl ⟨"0", rfl, fun limit _ => rfl⟩⟩

end Papaia.Addons
