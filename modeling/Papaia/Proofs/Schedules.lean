/-
Module: Papaia.Proofs.Schedules
Purpose: What a plan of the schedule builder compiles to and what its block holds.
Trusted boundary: none
Main exports: clock_twoDigits, compilePlan_eq_ok, scheduleBlock_eq_ok
-/
import Papaia.Data.Spelling
import Papaia.Ingest.Schedules

namespace Papaia.Ingest

open Text

/-! ### Clock times -/

theorem strip_of_isWord {text : String} (h : IsWord text) : strip text = text := by
  have hdrop : ∀ {chars : List Char}, (∀ c ∈ chars, isSpace c = false) →
      chars.dropWhile isSpace = chars := by
    intro chars hchars
    cases chars with
    | nil => rfl
    | cons c rest =>
        rw [List.dropWhile_cons_of_neg]
        simp [hchars c List.mem_cons_self]
  have hreverse : ∀ c ∈ text.toList.reverse, isSpace c = false := by simpa using h.2
  rw [strip, lstrip, rstrip, hdrop h.2, hdrop hreverse, List.reverse_reverse,
    String.ofList_toList]

theorem twoDigits_eq {n : Nat} (h : n < 100) :
    twoDigits n = String.ofList [Nat.digitChar (n / 10), Nat.digitChar (n % 10)] := by
  have hall : ∀ n < 100, twoDigits n =
      String.ofList [Nat.digitChar (n / 10), Nat.digitChar (n % 10)] := by decide
  exact hall n h

/-- A clock time, spelled out, is read back. -/
theorem clock_twoDigits {hour minute : Nat} (hhour : hour ≤ 23) (hminute : minute ≤ 59) :
    clock (twoDigits hour ++ ":" ++ twoDigits minute) = .ok (hour, minute) := by
  have hours : ∀ hour < 24,
      (if (Nat.digitChar (hour / 10) = '0' || Nat.digitChar (hour / 10) = '1') = true then
        (decimalOf (Nat.digitChar (hour % 10))).map
          ((if Nat.digitChar (hour / 10) = '1' then 10 else 0) + ·)
      else if (Nat.digitChar (hour / 10) = '2' &&
          "0123".toList.contains (Nat.digitChar (hour % 10))) = true then
        (decimalOf (Nat.digitChar (hour % 10))).map (20 + ·)
      else none) = some hour := by decide
  have minutes : ∀ minute < 60,
      "012345".toList.contains (Nat.digitChar (minute / 10)) = true ∧
        decimalOf (Nat.digitChar (minute / 10)) = some (minute / 10) ∧
        decimalOf (Nat.digitChar (minute % 10)) = some (minute % 10) := by decide
  have hdigits : ∀ n < 100, isSpace (Nat.digitChar (n / 10)) = false ∧
      isSpace (Nat.digitChar (n % 10)) = false := by decide
  have hlist : (twoDigits hour ++ ":" ++ twoDigits minute).toList =
      [Nat.digitChar (hour / 10), Nat.digitChar (hour % 10), ':',
        Nat.digitChar (minute / 10), Nat.digitChar (minute % 10)] := by
    rw [twoDigits_eq (by omega), twoDigits_eq (by omega)]
    simp
  have hword : IsWord (twoDigits hour ++ ":" ++ twoDigits minute) := by
    constructor
    · intro hempty
      rw [hempty] at hlist
      cases hlist
    · rw [hlist]
      have hcolon : isSpace ':' = false := by decide
      obtain ⟨htens, hones⟩ := hdigits hour (by omega)
      obtain ⟨htens', hones'⟩ := hdigits minute (by omega)
      simp only [List.forall_mem_cons]
      exact ⟨htens, hones, hcolon, htens', hones', fun _ h => absurd h List.not_mem_nil⟩
  obtain ⟨hcontains, htens, hones⟩ := minutes minute (by omega)
  have hparts : clockParts [Nat.digitChar (hour / 10), Nat.digitChar (hour % 10), ':',
      Nat.digitChar (minute / 10), Nat.digitChar (minute % 10)] = some (hour, minute) := by
    have htotal : 10 * (minute / 10) + minute % 10 = minute := by omega
    have hhours := hours hour (by omega)
    simp only [clockParts, hhours, hcontains, htens, hones, Option.bind_some, Option.map_some,
      htotal]
  rw [clock, strip_of_isWord hword, hlist, hparts]

/-- A clock shows 23 hours and 59 minutes at most. -/
theorem clock_le {value : String} {parts : Nat × Nat} (h : clock value = .ok parts) :
    parts.1 ≤ 23 ∧ parts.2 ≤ 59 := by
  have hparts : clockParts (strip value).toList = some parts := by
    unfold clock at h
    split at h
    next found hfound =>
      obtain rfl := Except.ok.inj h
      exact hfound
    next => cases h
  have htens : ∀ c ∈ "012345".toList, ∀ digit ∈ decimalOf c, digit ≤ 5 := by
    have hall : "012345".toList.all (fun c => (decimalOf c).all (· ≤ 5)) = true := by decide
    intro c hc digit hdigit
    have hbound := List.all_eq_true.1 hall c hc
    rw [Option.mem_def.1 hdigit] at hbound
    exact of_decide_eq_true hbound
  have hsmall : ∀ c ∈ "0123".toList, ∀ digit ∈ decimalOf c, digit ≤ 3 := by
    have hall : "0123".toList.all (fun c => (decimalOf c).all (· ≤ 3)) = true := by decide
    intro c hc digit hdigit
    have hbound := List.all_eq_true.1 hall c hc
    rw [Option.mem_def.1 hdigit] at hbound
    exact of_decide_eq_true hbound
  have hminutes : ∀ {tens ones : Char} {a b minute : Nat},
      "012345".toList.contains tens = true → decimalOf tens = some a → decimalOf ones = some b →
        some (10 * a + b) = some minute → minute ≤ 59 := by
    intro tens ones a b minute hmem ha hb hminute
    obtain rfl := Option.some.inj hminute
    have hfive := htens tens (List.contains_iff_mem.1 hmem) a ha
    have := decimalOf_lt hb
    omega
  unfold clockParts at hparts
  dsimp only at hparts
  split at hparts
  next hour tens ones =>
    obtain ⟨h₁, hhour, hrest⟩ := Option.bind_eq_some_iff.1 hparts
    obtain ⟨minute, hminute, rfl⟩ := Option.map_eq_some_iff.1 hrest
    have := decimalOf_lt hhour
    refine ⟨by dsimp only; omega, ?_⟩
    split at hminute
    next hmem ha hb => exact hminutes hmem ha hb hminute
    next => cases hminute
  next first second tens ones =>
    obtain ⟨h₁, hhour, hrest⟩ := Option.bind_eq_some_iff.1 hparts
    obtain ⟨minute, hminute, rfl⟩ := Option.map_eq_some_iff.1 hrest
    constructor
    swap
    · split at hminute
      next hmem ha hb => exact hminutes hmem ha hb hminute
      next => cases hminute
    dsimp only
    split at hhour
    next =>
      obtain ⟨digit, hdigit, rfl⟩ := Option.map_eq_some_iff.1 hhour
      have := decimalOf_lt hdigit
      split <;> omega
    next =>
      split at hhour
      next htwo =>
        obtain ⟨digit, hdigit, rfl⟩ := Option.map_eq_some_iff.1 hhour
        simp only [Bool.and_eq_true] at htwo
        have := hsmall _ (List.contains_iff_mem.1 htwo.2) digit hdigit
        omega
      next => cases hhour
  next => cases hparts

/-! ### Compiled plans -/

/-- A compiled plan has one key at most, with a text in it, and none for the mode `manual`. -/
theorem compilePlan_eq_ok {rt : Runtime} {plan : Plan} {compiled : Compiled}
    (h : compilePlan rt plan = .ok compiled) :
    (plan.mode = .manual ∧ compiled = {}) ∨
      (plan.mode ≠ .manual ∧ ∃ text, text ≠ "" ∧
        (compiled = { cron := some text } ∨ compiled = { every := some text })) := by
  unfold compilePlan at h
  cases hmode : plan.mode with
  | manual =>
      simp only [hmode, Except.ok.injEq] at h
      exact .inl ⟨rfl, h.symm⟩
  | interval =>
      simp only [hmode] at h
      split at h
      next => cases h
      next hunit =>
        split at h
        next => cases h
        next =>
          obtain rfl := Except.ok.inj h
          refine .inr ⟨by simp, _, ?_, .inr rfl⟩
          intro hblank
          simp [String.append_eq_empty_iff.mp hblank] at hunit
  | hourly =>
      simp only [hmode] at h
      split at h
      next => cases h
      next =>
        obtain rfl := Except.ok.inj h
        exact .inr ⟨by simp, _, by simp, .inl rfl⟩
  | cron =>
      simp only [hmode] at h
      split at h
      next => cases h
      next hfilled =>
        obtain rfl := Except.ok.inj h
        exact .inr ⟨by simp, _, hfilled, .inl rfl⟩
  | daily =>
      simp only [hmode] at h
      cases hclock : clock plan.time with
      | error => simp [hclock, Except.map] at h
      | ok parts =>
          rw [hclock] at h
          obtain rfl := Except.ok.inj h
          exact .inr ⟨by simp, _, by simp, .inl rfl⟩
  | weekly =>
      simp only [hmode] at h
      split at h
      next => cases h
      next =>
        split at h
        next => cases h
        next =>
          split at h
          next => cases h
          next =>
            obtain rfl := Except.ok.inj h
            exact .inr ⟨by simp, _, by simp, .inl rfl⟩
  | monthly =>
      simp only [hmode] at h
      split at h
      next => cases h
      next =>
        split at h
        next => cases h
        next =>
          obtain rfl := Except.ok.inj h
          exact .inr ⟨by simp, _, by simp, .inl rfl⟩

/-! ### The block -/

theorem nodup_putSome {m : Mapping} {key : String} {value : Option Val}
    (h : (m.map Prod.fst).Nodup) : ((putSome m key value).map Prod.fst).Nodup := by
  cases value with
  | none => exact h
  | some v => exact Mapping.nodup_put h

theorem get?_putSome (m : Mapping) (key other : String) (value : Option Val) :
    (putSome m key value).get? other =
      if other = key then value.or (m.get? key) else m.get? other := by
  cases value with
  | none =>
      by_cases h : other = key
      · simp [putSome, h]
      · simp [putSome, h]
  | some v =>
      by_cases h : other = key
      · simp [putSome, h]
      · simp [putSome, h, Mapping.get?_put_of_ne]

/-- The keys of the block of a plan that carries none of its own. -/
structure Block (plan : Plan) (compiled : Compiled) (block : Mapping) : Prop where
  nodup : (block.map Prod.fst).Nodup
  cron : block.get? "cron" = compiled.cron.map .str
  every : block.get? "every" = compiled.every.map .str
  timezone : block.get? "timezone" = plan.timezone.map .str
  runOnStartup : block.get? "run_on_startup" = some (.str plan.runOnStartup)
  jitterSeconds : block.get? "jitter_seconds" = some (.int plan.jitterSeconds)
  misfireGraceSeconds : block.get? "misfire_grace_seconds" = some (.int plan.misfireGraceSeconds)

theorem scheduleBlock_eq_ok {rt : Runtime} {plan : Plan} {block : Mapping}
    (hextra : plan.extra = []) (h : scheduleBlock rt plan = .ok block) :
    ∃ compiled, compilePlan rt plan = .ok compiled ∧ Block plan compiled block := by
  unfold scheduleBlock at h
  cases hcompiled : compilePlan rt plan with
  | error => simp [hcompiled, Except.map] at h
  | ok compiled =>
      rw [hcompiled] at h
      obtain rfl := Except.ok.inj h
      have hnil : Mapping.get? [] = fun _ => none := rfl
      refine ⟨compiled, rfl, ?_⟩
      constructor
      case nodup =>
        apply Mapping.nodup_put
        apply Mapping.nodup_put
        apply Mapping.nodup_put
        apply nodup_putSome
        apply nodup_putSome
        apply nodup_putSome
        simp [hextra]
      all_goals simp [get?_putSome, hextra, hnil, Mapping.get?_put_of_ne]

end Papaia.Ingest
