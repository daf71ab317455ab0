/-
Module: Papaia.Proofs.VersionOrder
Purpose: The comparison of versions by their keys is the precedence of SemVer, and which versions it
  takes for equal.
Trusted boundary: the Unicode table of decimal digits
Main exports: encode, exists_version_of_key, compareKeys_encode_lt, dropZeros_ascii, Alike,
  DigitsAgree, VersionLaw, version_law_iff
-/
import Papaia.Data.VersionKey
import Papaia.Proofs.Upgrades
import Papaia.Data.Spelling
import Mathlib.Data.List.Induction
import Mathlib.Data.List.Forall2

namespace Papaia.Semver

/-! ### The precedence is an order -/

theorem Identifier.not_precedes_self (one : Identifier) : ¬one.Precedes one := by
  intro h
  cases h with
  | numbers h => exact lt_irrefl _ h
  | texts h => exact lt_irrefl _ h

theorem Identifier.Precedes.trans {one two three : Identifier} (h : one.Precedes two)
    (h' : two.Precedes three) : one.Precedes three := by
  cases h with
  | numbers h =>
      cases h' with
      | numbers h' => exact .numbers (h.trans h')
      | kinds => exact .kinds _ _
  | kinds m text =>
      cases h' with
      | texts h' => exact .kinds _ _
  | texts h =>
      cases h' with
      | texts h' => exact .texts (h.trans h')

theorem Identifier.precedes_or_eq (one other : Identifier) :
    one.Precedes other ∨ one = other ∨ other.Precedes one := by
  cases one with
  | number m =>
      cases other with
      | number n =>
          rcases lt_trichotomy m n with h | rfl | h
          · exact .inl (.numbers h)
          · exact .inr (.inl rfl)
          · exact .inr (.inr (.numbers h))
      | text t => exact .inl (.kinds m t)
  | text s =>
      cases other with
      | number n => exact .inr (.inr (.kinds n s))
      | text t =>
          rcases lt_trichotomy s t with h | rfl | h
          · exact .inl (.texts h)
          · exact .inr (.inl rfl)
          · exact .inr (.inr (.texts h))

theorem not_identifiersPrecede_self (identifiers : List Identifier) :
    ¬IdentifiersPrecede identifiers identifiers := by
  induction identifiers with
  | nil => intro h; cases h
  | cons first rest ih =>
      intro h
      cases h with
      | first h => exact first.not_precedes_self h
      | later h => exact ih h

theorem IdentifiersPrecede.trans {one two three : List Identifier} (h : IdentifiersPrecede one two)
    (h' : IdentifiersPrecede two three) : IdentifiersPrecede one three := by
  induction h generalizing three with
  | shorter other others =>
      cases h' with
      | first => exact .shorter _ _
      | later => exact .shorter _ _
  | first h =>
      cases h' with
      | first h' => exact .first (h.trans h')
      | later => exact .first h
  | later h ih =>
      cases h' with
      | first h' => exact .first h'
      | later h' => exact .later (ih h')

theorem identifiersPrecede_or_eq (one other : List Identifier) :
    IdentifiersPrecede one other ∨ one = other ∨ IdentifiersPrecede other one := by
  induction one generalizing other with
  | nil =>
      cases other with
      | nil => exact .inr (.inl rfl)
      | cons second others => exact .inl (.shorter second others)
  | cons first rest ih =>
      cases other with
      | nil => exact .inr (.inr (.shorter first rest))
      | cons second others =>
          rcases first.precedes_or_eq second with h | rfl | h
          · exact .inl (.first h)
          · rcases ih others with h | rfl | h
            · exact .inl (.later h)
            · exact .inr (.inl rfl)
            · exact .inr (.inr (.later h))
          · exact .inr (.inr (.first h))

theorem not_prePrecedes_self (pre : Option (List Identifier)) : ¬PrePrecedes pre pre := by
  intro h
  cases h with
  | both h => exact not_identifiersPrecede_self _ h

theorem PrePrecedes.trans {one two three : Option (List Identifier)} (h : PrePrecedes one two)
    (h' : PrePrecedes two three) : PrePrecedes one three := by
  cases h with
  | release => cases h'
  | both h =>
      cases h' with
      | release => exact .release _
      | both h' => exact .both (h.trans h')

theorem prePrecedes_or_eq (one other : Option (List Identifier)) :
    PrePrecedes one other ∨ one = other ∨ PrePrecedes other one := by
  cases one with
  | none =>
      cases other with
      | none => exact .inr (.inl rfl)
      | some pre => exact .inr (.inr (.release pre))
  | some pre =>
      cases other with
      | none => exact .inl (.release pre)
      | some other =>
          rcases identifiersPrecede_or_eq pre other with h | rfl | h
          · exact .inl (.both h)
          · exact .inr (.inl rfl)
          · exact .inr (.inr (.both h))

end Papaia.Semver

namespace Papaia.Versions

open Text Semver

/-! ### Keys of versions -/

def encodeIdentifier : Identifier → Nat × Nat × String
  | .number value => (0, value, "")
  | .text value => (1, 0, value)

/-- The key of a version. -/
def encode (v : Version) : Key where
  triple := (v.major, v.minor, v.patch)
  release := v.pre.isNone
  identifiers := (v.pre.getD []).map encodeIdentifier

theorem encodeIdentifier_injective : Function.Injective encodeIdentifier := by
  intro one other h
  cases one with
  | number m =>
      cases other with
      | number n => simpa [encodeIdentifier] using h
      | text t => simp [encodeIdentifier] at h
  | text s =>
      cases other with
      | number n => simp [encodeIdentifier] at h
      | text t => simpa [encodeIdentifier] using h

theorem encode_injective : Function.Injective encode := by
  intro v w h
  obtain ⟨major, minor, patch, pre⟩ := v
  obtain ⟨major', minor', patch', pre'⟩ := w
  simp only [encode, Key.mk.injEq, Prod.mk.injEq] at h
  obtain ⟨⟨rfl, rfl, rfl⟩, hrelease, hidentifiers⟩ := h
  have hpre := (List.map_injective_iff.2 encodeIdentifier_injective) hidentifiers
  cases pre with
  | none =>
      cases pre' with
      | none => rfl
      | some identifiers => cases hrelease
  | some identifiers =>
      cases pre' with
      | none => cases hrelease
      | some identifiers' => rw [show identifiers = identifiers' from hpre]

/-! ### What a text stands for -/

/-- A fold that reads each digit gives a number when each of them is one. -/
theorem isSome_foldlM_decimal (chars : List Char) (start : Nat) :
    (chars.foldlM (fun value c => (decimalOf c).map (value * 10 + ·)) start).isSome =
      chars.all fun c => (decimalOf c).isSome := by
  induction chars generalizing start with
  | nil => rfl
  | cons c rest ih =>
      rw [List.foldlM_cons, List.all_cons]
      cases hc : decimalOf c with
      | none => rfl
      | some digit => exact (ih _).trans (Bool.true_and _).symm

theorem isSome_readDecimal (chars : List Char) : (readDecimal chars).isSome = isNumber chars := by
  unfold readDecimal isNumber
  cases hempty : chars.isEmpty with
  | true => rfl
  | false =>
      rw [if_neg (by simp), isSome_foldlM_decimal]
      simp

/-- The version of a match. -/
def VersionMatch.read (m : VersionMatch) : Option Version := do
  let major ← readDecimal m.major
  let minor ← readDecimal m.minor
  let patch ← readDecimal m.patch
  return { major, minor, patch, pre := m.pre.map (List.map readIdentifier) }

/-- The numbers and the pre-release of a text without its build. -/
def readNumbers (numbers : List (List Char)) (pre : Option (List Char)) : Option Version :=
  match numbers with
  | [major, minor, patch] => do
      let major ← readDecimal major
      let minor ← readDecimal minor
      let patch ← readDecimal patch
      match pre with
      | none => return { major, minor, patch, pre := none }
      | some pre =>
          let parts ← readIdentifiers pre
          return { major, minor, patch, pre := some (parts.map readIdentifier) }
  | _ => none

theorem readNumbers_eq (numbers : List (List Char)) (pre : Option (List Char)) :
    readNumbers numbers pre = (matchNumbers numbers pre).bind VersionMatch.read := by
  match numbers with
  | [] | [_] | [_, _] | _ :: _ :: _ :: _ :: _ => rfl
  | [major, minor, patch] =>
      unfold readNumbers matchNumbers
      cases hmajor : readDecimal major with
      | none => simp [← isSome_readDecimal, hmajor]
      | some a =>
          cases hminor : readDecimal minor with
          | none => simp [← isSome_readDecimal, hminor]
          | some b =>
              cases hpatch : readDecimal patch with
              | none => simp [← isSome_readDecimal, hpatch]
              | some c =>
                  have hnumbers : (isNumber major && isNumber minor && isNumber patch) = true := by
                    simp [← isSome_readDecimal, hmajor, hminor, hpatch]
                  simp only [hnumbers, if_true]
                  cases pre with
                  | none => simp [VersionMatch.read, hmajor, hminor, hpatch]
                  | some pre =>
                      cases hparts : readIdentifiers pre with
                      | none => simp [hparts]
                      | some parts => simp [VersionMatch.read, hmajor, hminor, hpatch, hparts]

theorem readVersion_eq (text : String) :
    readVersion text = (matchVersion (strip text).toList).bind VersionMatch.read := by
  unfold readVersion matchVersion
  obtain ⟨version, build⟩ := cutAt '+' (strip text).toList
  cases build with
  | none => exact readNumbers_eq _ _
  | some build =>
      cases hbuild : readIdentifiers build with
      | none => simp [hbuild]
      | some parts =>
          simp only [hbuild]
          exact readNumbers_eq _ _

theorem readDecimal_of_readNumber {digits : List Char} {n : Nat} (h : readNumber digits = some n) :
    readDecimal digits = some n := by
  unfold readNumber at h
  split at h
  · cases h
  · exact h

theorem identifierKey_eq {identifier : List Char} {found : Nat × Nat × String}
    (h : identifierKey identifier = some found) :
    found = encodeIdentifier (readIdentifier identifier) := by
  unfold identifierKey at h
  unfold readIdentifier
  split at h
  next hdigits =>
    obtain ⟨n, hn, rfl⟩ := Option.map_eq_some_iff.1 h
    rw [if_pos hdigits, readDecimal_of_readNumber hn]
    rfl
  next hdigits =>
    obtain rfl := Option.some.inj h
    rw [if_neg hdigits]
    rfl

theorem mapM_identifierKey {identifiers : List (List Char)} {found : List (Nat × Nat × String)}
    (h : identifiers.mapM identifierKey = some found) :
    found = (identifiers.map readIdentifier).map encodeIdentifier := by
  induction identifiers generalizing found with
  | nil => exact (Option.some.inj h).symm
  | cons first rest ih =>
      simp only [List.mapM_cons, Option.bind_eq_bind, Option.bind_eq_some_iff] at h
      obtain ⟨one, hone, others, hothers, hfound⟩ := h
      obtain rfl := Option.some.inj hfound
      rw [identifierKey_eq hone, ih hothers]
      rfl

/-- The key of a match is the key of the version it stands for. -/
theorem read_of_keyOf {m : VersionMatch} {k : Key} (h : keyOf m = some k) :
    ∃ v, m.read = some v ∧ k = encode v := by
  unfold keyOf at h
  simp only [Option.bind_eq_bind, Option.bind_eq_some_iff] at h
  obtain ⟨identifiers, hidentifiers, major, hmajor, minor, hminor, patch, hpatch, hk⟩ := h
  obtain rfl := Option.some.inj hk
  refine ⟨{ major, minor, patch, pre := m.pre.map (List.map readIdentifier) }, ?_, ?_⟩
  · simp [VersionMatch.read, readDecimal_of_readNumber hmajor, readDecimal_of_readNumber hminor,
      readDecimal_of_readNumber hpatch]
  · rw [mapM_identifierKey hidentifiers]
    cases m.pre <;> rfl

/-- A text that is accepted stands for a version, whose key it has. -/
theorem exists_version_of_key {text : String} {k : Key} (h : key text = some (some k)) :
    ∃ m v, matchVersion (strip text).toList = some m ∧ m.read = some v ∧
      readVersion text = some v ∧ k = encode v := by
  unfold key at h
  cases hmatch : matchVersion (strip text).toList with
  | none => simp [hmatch] at h
  | some m =>
      simp only [hmatch, Option.map_eq_some_iff, Option.some.injEq, exists_eq_right] at h
      obtain ⟨v, hread, rfl⟩ := read_of_keyOf h
      exact ⟨m, v, rfl, hread, by rw [readVersion_eq, hmatch]; exact hread, rfl⟩

/-! ### The order of the keys -/

theorem identifierLt_iff {a b : Nat × Nat × String} :
    identifierLt a b = true ↔
      a.1 < b.1 ∨ (a.1 = b.1 ∧ (a.2.1 < b.2.1 ∨ (a.2.1 = b.2.1 ∧ a.2.2 < b.2.2))) := by
  unfold identifierLt
  by_cases hkind : a.1 = b.1
  · by_cases hnumber : a.2.1 = b.2.1
    · simp [hkind, hnumber]
    · simp [hkind, hnumber]
  · simp [hkind]

theorem identifierLt_encode {one other : Identifier} :
    identifierLt (encodeIdentifier one) (encodeIdentifier other) = true ↔ one.Precedes other := by
  rw [identifierLt_iff]
  cases one with
  | number m =>
      cases other with
      | number n =>
          simp only [encodeIdentifier, lt_irrefl, true_and, false_or, and_false, or_false]
          constructor
          · exact .numbers
          · intro h
            cases h with
            | numbers h => exact h
      | text t => exact iff_of_true (.inl Nat.zero_lt_one) (.kinds m t)
  | text s =>
      cases other with
      | number n =>
          refine iff_of_false (by simp [encodeIdentifier]) (fun h => by cases h)
      | text t =>
          simp only [encodeIdentifier, lt_irrefl, true_and, false_or]
          constructor
          · exact .texts
          · intro h
            cases h with
            | texts h => exact h

theorem identifiersLt_encode {one other : List Identifier} :
    identifiersLt (one.map encodeIdentifier) (other.map encodeIdentifier) = true ↔
      IdentifiersPrecede one other := by
  induction one generalizing other with
  | nil =>
      cases other with
      | nil => exact iff_of_false (by simp [identifiersLt]) (fun h => by cases h)
      | cons first rest => exact iff_of_true rfl (.shorter first rest)
  | cons first rest ih =>
      cases other with
      | nil => exact iff_of_false (by simp [identifiersLt]) (fun h => by cases h)
      | cons second others =>
          rw [List.map_cons, List.map_cons, identifiersLt]
          by_cases hsame : first = second
          · subst hsame
            rw [if_pos rfl, ih]
            constructor
            · exact .later
            · intro h
              cases h with
              | first h => exact absurd h (Identifier.not_precedes_self first)
              | later h => exact h
          · rw [if_neg (encodeIdentifier_injective.ne hsame), identifierLt_encode]
            constructor
            · exact .first
            · intro h
              cases h with
              | first h => exact h
              | later => exact absurd rfl hsame

/-! ### The numbers -/

def numbers (v : Version) : Nat × Nat × Nat := (v.major, v.minor, v.patch)

theorem tripleLt_iff {a b : Nat × Nat × Nat} :
    tripleLt a b = true ↔
      a.1 < b.1 ∨ (a.1 = b.1 ∧ (a.2.1 < b.2.1 ∨ (a.2.1 = b.2.1 ∧ a.2.2 < b.2.2))) := by
  unfold tripleLt
  by_cases hmajor : a.1 = b.1
  · by_cases hminor : a.2.1 = b.2.1
    · simp [hmajor, hminor]
    · simp [hmajor, hminor]
  · simp [hmajor]

theorem tripleLt_or_eq (a b : Nat × Nat × Nat) :
    tripleLt a b = true ∨ a = b ∨ tripleLt b a = true := by
  obtain ⟨major, minor, patch⟩ := a
  obtain ⟨major', minor', patch'⟩ := b
  simp only [tripleLt_iff, Prod.mk.injEq]
  omega

theorem tripleLt_trans {a b c : Nat × Nat × Nat} (h : tripleLt a b = true)
    (h' : tripleLt b c = true) : tripleLt a c = true := by
  rw [tripleLt_iff] at h h' ⊢
  omega

theorem not_tripleLt_self (a : Nat × Nat × Nat) : tripleLt a a = false := by
  simp [tripleLt]

/-- The precedence of two versions: by their numbers, then by their pre-releases. -/
theorem precedes_iff {v w : Version} :
    Precedes v w ↔
      tripleLt (numbers v) (numbers w) = true ∨ (numbers v = numbers w ∧ PrePrecedes v.pre w.pre) := by
  rw [tripleLt_iff, numbers, numbers, Prod.mk.injEq, Prod.mk.injEq]
  constructor
  · intro h
    cases h with
    | major h => exact .inl (.inl h)
    | minor hmajor h => exact .inl (.inr ⟨hmajor, .inl h⟩)
    | patch hmajor hminor h => exact .inl (.inr ⟨hmajor, .inr ⟨hminor, h⟩⟩)
    | pre hmajor hminor hpatch h => exact .inr ⟨⟨hmajor, hminor, hpatch⟩, h⟩
  · rintro ((h | ⟨hmajor, h | ⟨hminor, h⟩⟩) | ⟨⟨hmajor, hminor, hpatch⟩, h⟩)
    · exact .major h
    · exact .minor hmajor h
    · exact .patch hmajor hminor h
    · exact .pre hmajor hminor hpatch h

theorem not_precedes_self (v : Version) : ¬Precedes v v := by
  rw [precedes_iff, not_tripleLt_self]
  rintro (h | ⟨-, h⟩)
  · cases h
  · exact not_prePrecedes_self _ h

theorem precedes_trans {u v w : Version} (h : Precedes u v) (h' : Precedes v w) :
    Precedes u w := by
  rw [precedes_iff] at h h' ⊢
  rcases h with h | ⟨heq, h⟩
  · rcases h' with h' | ⟨heq', -⟩
    · exact .inl (tripleLt_trans h h')
    · exact .inl (heq' ▸ h)
  · rcases h' with h' | ⟨heq', h'⟩
    · exact .inl (heq ▸ h')
    · exact .inr ⟨heq.trans heq', h.trans h'⟩

theorem precedes_or_eq (v w : Version) : Precedes v w ∨ v = w ∨ Precedes w v := by
  rcases tripleLt_or_eq (numbers v) (numbers w) with h | heq | h
  · exact .inl (precedes_iff.2 (.inl h))
  · rcases prePrecedes_or_eq v.pre w.pre with h | hpre | h
    · exact .inl (precedes_iff.2 (.inr ⟨heq, h⟩))
    · obtain ⟨major, minor, patch, pre⟩ := v
      obtain ⟨major', minor', patch', pre'⟩ := w
      simp only [numbers, Prod.mk.injEq] at heq
      obtain ⟨rfl, rfl, rfl⟩ := heq
      obtain rfl : pre = pre' := hpre
      exact .inr (.inl rfl)
    · exact .inr (.inr (precedes_iff.2 (.inr ⟨heq.symm, h⟩)))
  · exact .inr (.inr (precedes_iff.2 (.inl h)))

theorem not_precedes_of_precedes {v w : Version} (h : Precedes v w) : ¬Precedes w v :=
  fun h' => not_precedes_self v (precedes_trans h h')

/-! ### The comparison of keys -/

theorem compareKeys_of_triple {ka kb : Key} (h : ka.triple ≠ kb.triple) :
    compareKeys ka kb = if tripleLt ka.triple kb.triple then -1 else 1 :=
  if_pos h

theorem compareKeys_of_release {ka kb : Key} (htriple : ka.triple = kb.triple)
    (h : ka.release ≠ kb.release) : compareKeys ka kb = if kb.release then -1 else 1 := by
  rw [compareKeys, if_neg (not_not.2 htriple), if_pos h]

theorem compareKeys_of_identifiers {ka kb : Key} (htriple : ka.triple = kb.triple)
    (hrelease : ka.release = kb.release) (h : ka.identifiers ≠ kb.identifiers) :
    compareKeys ka kb = if identifiersLt ka.identifiers kb.identifiers then -1 else 1 := by
  rw [compareKeys, if_neg (not_not.2 htriple), if_neg (not_not.2 hrelease), if_neg h]

theorem compareKeys_self (k : Key) : compareKeys k k = 0 := by
  simp [compareKeys]

/-- Keys that differ compare as less or as more. -/
theorem compareKeys_of_ne {ka kb : Key} (h : ka ≠ kb) :
    ∃ less : Bool, compareKeys ka kb = if less then -1 else 1 := by
  by_cases htriple : ka.triple = kb.triple
  · by_cases hrelease : ka.release = kb.release
    · refine ⟨_, compareKeys_of_identifiers htriple hrelease ?_⟩
      intro hidentifiers
      apply h
      cases ka
      cases kb
      congr
    · exact ⟨_, compareKeys_of_release htriple hrelease⟩
  · exact ⟨_, compareKeys_of_triple htriple⟩

theorem compareKeys_range (ka kb : Key) :
    compareKeys ka kb = -1 ∨ compareKeys ka kb = 0 ∨ compareKeys ka kb = 1 := by
  by_cases h : ka = kb
  · subst h
    exact .inr (.inl (compareKeys_self ka))
  · obtain ⟨less, hless⟩ := compareKeys_of_ne h
    rw [hless]
    cases less
    · exact .inr (.inr rfl)
    · exact .inl rfl

theorem compareKeys_eq_zero {ka kb : Key} : compareKeys ka kb = 0 ↔ ka = kb := by
  constructor
  · intro hzero
    by_contra h
    obtain ⟨less, hless⟩ := compareKeys_of_ne h
    rw [hless] at hzero
    cases less <;> cases hzero
  · rintro rfl
    exact compareKeys_self ka

theorem minus_iff {less : Bool} : (if less then (-1 : Int) else 1) = -1 ↔ less = true := by
  cases less <;> decide

/-- The pre-releases by the flag and the identifiers of the keys. -/
theorem prePrecedes_iff {v w : Version} :
    PrePrecedes v.pre w.pre ↔
      ((encode v).release = false ∧ (encode w).release = true) ∨
        ((encode v).release = (encode w).release ∧
          identifiersLt (encode v).identifiers (encode w).identifiers = true) := by
  simp only [encode, identifiersLt_encode]
  cases v.pre with
  | none =>
      refine iff_of_false (fun h => by cases h) ?_
      cases w.pre with
      | none =>
          rintro (⟨h, -⟩ | ⟨-, h⟩)
          · cases h
          · cases h
      | some other => simp
  | some pre =>
      cases w.pre with
      | none => exact iff_of_true (.release pre) (.inl ⟨rfl, rfl⟩)
      | some other =>
          constructor
          · intro h
            cases h with
            | both h => exact .inr ⟨rfl, h⟩
          · rintro (⟨-, h⟩ | ⟨-, h⟩)
            · cases h
            · exact .both h

/-- The keys of two versions compare as the versions do. -/
theorem compareKeys_encode_lt {v w : Version} :
    compareKeys (encode v) (encode w) = -1 ↔ Precedes v w := by
  rw [precedes_iff, prePrecedes_iff]
  change _ ↔ tripleLt (encode v).triple (encode w).triple = true ∨
    ((encode v).triple = (encode w).triple ∧ _)
  by_cases htriple : (encode v).triple = (encode w).triple
  · have hlt : tripleLt (encode v).triple (encode w).triple = false := by
      rw [htriple, not_tripleLt_self]
    simp only [hlt, Bool.false_eq_true, false_or, and_iff_right htriple]
    by_cases hrelease : (encode v).release = (encode w).release
    · have hflags : ¬((encode v).release = false ∧ (encode w).release = true) := by
        rintro ⟨hv, hw⟩
        rw [hv, hw] at hrelease
        cases hrelease
      simp only [hflags, false_or, and_iff_right hrelease]
      by_cases hidentifiers : (encode v).identifiers = (encode w).identifiers
      · have hself : identifiersLt (encode v).identifiers (encode w).identifiers = false := by
          rw [← hidentifiers, ← Bool.not_eq_true, encode, identifiersLt_encode]
          exact not_identifiersPrecede_self _
        have hsame : encode v = encode w := by
          rw [Key.mk.injEq]
          exact ⟨htriple, hrelease, hidentifiers⟩
        rw [hself, hsame, compareKeys_self]
        decide
      · rw [compareKeys_of_identifiers htriple hrelease hidentifiers, minus_iff]
    · rw [compareKeys_of_release htriple hrelease, minus_iff]
      cases hv : (encode v).release <;> cases hw : (encode w).release <;>
        simp [hv, hw] at hrelease ⊢
  · rw [compareKeys_of_triple htriple, minus_iff]
    simp [htriple]

theorem compareKeys_encode_eq {v w : Version} :
    compareKeys (encode v) (encode w) = 0 ↔ v = w := by
  rw [compareKeys_eq_zero]
  exact encode_injective.eq_iff

theorem compareKeys_encode_gt {v w : Version} :
    compareKeys (encode v) (encode w) = 1 ↔ Precedes w v := by
  constructor
  · intro h
    rcases precedes_or_eq v w with hvw | rfl | hwv
    · rw [compareKeys_encode_lt.2 hvw] at h
      cases h
    · rw [compareKeys_self] at h
      cases h
    · exact hwv
  · intro h
    rcases compareKeys_range (encode v) (encode w) with hless | hzero | hmore
    · exact absurd (compareKeys_encode_lt.1 hless) (not_precedes_of_precedes h)
    · obtain rfl := compareKeys_encode_eq.1 hzero
      exact absurd h (not_precedes_self v)
    · exact hmore

/-! ### Digits -/

/-- A number without its leading zeros. -/
def dropZeros (digits : List Char) : List Char :=
  digits.dropWhile (· = '0')

/-- The digits of a number, none for zero. -/
def plainDigits (n : Nat) : List Char :=
  if n = 0 then [] else Nat.toDigits 10 n

theorem plainDigits_injective : Function.Injective plainDigits := by
  intro m n h
  unfold plainDigits at h
  split at h
  next hm =>
    split at h
    next hn => rw [hm, hn]
    next hn => exact absurd h.symm Nat.toDigits_ne_nil
  next hm =>
    split at h
    next hn => exact absurd h Nat.toDigits_ne_nil
    next hn =>
      have hvalue := congrArg (fun digits => Nat.ofDigitChars 10 digits 0) h
      simpa using hvalue

theorem dropZeros_append {digits : List Char} {c : Char} :
    dropZeros (digits ++ [c]) =
      if dropZeros digits = [] then dropZeros [c] else dropZeros digits ++ [c] := by
  unfold dropZeros
  rw [List.dropWhile_append]
  simp only [List.isEmpty_iff]

theorem toNat_of_isDigit {c : Char} (h : c.isDigit = true) : 48 ≤ c.toNat ∧ c.toNat < 58 := by
  have hrange : 48 ≤ c.toNat ∧ c.toNat ≤ 57 := by
    simpa [Char.isDigit, Char.le_def, UInt32.le_iff_toNat_le] using h
  omega

theorem digitChar_of_isDigit {c : Char} (h : c.isDigit = true) :
    (c.toNat - 48).digitChar = c := by
  obtain ⟨hlow, hhigh⟩ := toNat_of_isDigit h
  rw [← Char.toNat_inj, Nat.toNat_digitChar_of_lt_ten (by omega)]
  omega

/-- ASCII digits without the leading zeros are the digits of their number. -/
theorem dropZeros_ascii {digits : List Char} (h : ∀ c ∈ digits, c.isDigit = true) :
    dropZeros digits = plainDigits (Nat.ofDigitChars 10 digits 0) := by
  induction digits using List.reverseRecOn with
  | nil => rfl
  | append_singleton digits c ih =>
      rw [List.forall_mem_append] at h
      have hc : c.isDigit = true := h.2 c List.mem_cons_self
      obtain ⟨hlow, hhigh⟩ := toNat_of_isDigit hc
      have hdigit : Nat.toDigits 10 (c.toNat - 48) = [c] := by
        rw [Nat.toDigits_of_lt_base (by omega), digitChar_of_isDigit hc]
      have hvalue : Nat.ofDigitChars 10 (digits ++ [c]) 0 =
          10 * Nat.ofDigitChars 10 digits 0 + (c.toNat - 48) := by
        rw [Nat.ofDigitChars_append, Nat.ofDigitChars_cons, Nat.ofDigitChars_nil]
        rfl
      rw [dropZeros_append, ih h.1, hvalue]
      by_cases hzero : Nat.ofDigitChars 10 digits 0 = 0
      · rw [hzero, if_pos (by rfl), Nat.mul_zero, Nat.zero_add]
        by_cases hc0 : c = '0'
        · subst hc0
          rfl
        · have hpos : c.toNat - 48 ≠ 0 := by
            intro hsame
            apply hc0
            rw [← Char.toNat_inj]
            have : '0'.toNat = 48 := rfl
            omega
          rw [plainDigits, if_neg hpos, hdigit, dropZeros,
            List.dropWhile_cons_of_neg (by simpa using hc0)]
      · have hpos : 0 < Nat.ofDigitChars 10 digits 0 := Nat.pos_of_ne_zero hzero
        rw [plainDigits, if_neg hzero, if_neg Nat.toDigits_ne_nil, plainDigits,
          if_neg (by omega), ← Nat.toDigits_append_toDigits (by decide) hpos (by omega), hdigit]

/-- Leading zeros do not count. -/
theorem foldlM_dropZeros (digits : List Char) :
    (dropZeros digits).foldlM (fun value c => (decimalOf c).map (value * 10 + ·)) 0 =
      digits.foldlM (fun value c => (decimalOf c).map (value * 10 + ·)) 0 := by
  induction digits with
  | nil => rfl
  | cons c rest ih =>
      by_cases hc : c = '0'
      · subst hc
        rw [dropZeros, List.dropWhile_cons_of_pos (by decide), List.foldlM_cons]
        have hzero : (decimalOf '0').map (0 * 10 + ·) = some 0 := by decide
        rw [hzero]
        exact ih
      · rw [dropZeros, List.dropWhile_cons_of_neg (by simpa using hc)]

theorem readDecimal_eq_of_dropZeros {digits others : List Char}
    (h : dropZeros digits = dropZeros others) {m n : Nat} (hm : readDecimal digits = some m)
    (hn : readDecimal others = some n) : m = n := by
  unfold readDecimal at hm hn
  split at hm
  · cases hm
  · split at hn
    · cases hn
    · rw [← foldlM_dropZeros, h, foldlM_dropZeros, hn] at hm
      exact (Option.some.inj hm).symm

/-! ### Texts that differ in nothing that counts -/

/-- Identifiers that differ at most in the leading zeros of a number. -/
def IdentifierAlike (one other : List Char) : Prop :=
  one = other ∨ (one.all Char.isDigit = true ∧ other.all Char.isDigit = true ∧
    dropZeros one = dropZeros other)

/-- The three numbers are written in the same digits, but for leading zeros. -/
def SameDigits (m m' : VersionMatch) : Prop :=
  dropZeros m.major = dropZeros m'.major ∧ dropZeros m.minor = dropZeros m'.minor ∧
    dropZeros m.patch = dropZeros m'.patch

/-- Versions that differ at most in the build, in the white space around them and in the leading zeros
of their numbers. -/
def Alike (a b : String) : Prop :=
  ∃ m m', matchVersion (strip a).toList = some m ∧ matchVersion (strip b).toList = some m' ∧
    SameDigits m m' ∧ m.pre.isSome = m'.pre.isSome ∧
      List.Forall₂ IdentifierAlike (m.pre.getD []) (m'.pre.getD [])

theorem getD_readDecimal {digits : List Char} (h : digits.all Char.isDigit = true) :
    (readDecimal digits).getD 0 = Nat.ofDigitChars 10 digits 0 := by
  cases digits with
  | nil => rfl
  | cons c rest =>
      rw [readDecimal_ascii (List.cons_ne_nil c rest) (List.all_eq_true.1 h)]
      rfl

theorem identifierAlike_iff {one other : List Char} :
    IdentifierAlike one other ↔ readIdentifier one = readIdentifier other := by
  unfold IdentifierAlike readIdentifier
  by_cases hone : one.all Char.isDigit = true
  · by_cases hother : other.all Char.isDigit = true
    · rw [if_pos hone, if_pos hother, getD_readDecimal hone, getD_readDecimal hother,
        dropZeros_ascii (List.all_eq_true.1 hone), dropZeros_ascii (List.all_eq_true.1 hother),
        plainDigits_injective.eq_iff, Identifier.number.injEq]
      constructor
      · rintro (rfl | ⟨-, -, h⟩)
        · rfl
        · exact h
      · intro h
        exact .inr ⟨hone, hother, h⟩
    · rw [if_pos hone, if_neg hother]
      refine iff_of_false ?_ (by simp)
      rintro (rfl | ⟨-, h, -⟩)
      · exact hother hone
      · exact hother h
  · by_cases hother : other.all Char.isDigit = true
    · rw [if_neg hone, if_pos hother]
      refine iff_of_false ?_ (by simp)
      rintro (rfl | ⟨h, -, -⟩)
      · exact hone hother
      · exact hone h
    · rw [if_neg hone, if_neg hother, Identifier.text.injEq, String.ofList_inj]
      constructor
      · rintro (rfl | ⟨h, -, -⟩)
        · rfl
        · exact absurd h hone
      · exact .inl

theorem forall₂_identifierAlike {one other : List (List Char)} :
    List.Forall₂ IdentifierAlike one other ↔ one.map readIdentifier = other.map readIdentifier := by
  have hsame : IdentifierAlike = fun one other => readIdentifier one = readIdentifier other := by
    funext one other
    exact propext identifierAlike_iff
  rw [← List.forall₂_eq_eq_eq, List.forall₂_map_left_iff, List.forall₂_map_right_iff, hsame]

/-- Texts that are alike are those of one version that is written in the same digits. -/
theorem alike_iff {m m' : VersionMatch} {v w : Version} (hread : m.read = some v)
    (hread' : m'.read = some w) :
    (SameDigits m m' ∧ m.pre.isSome = m'.pre.isSome ∧
      List.Forall₂ IdentifierAlike (m.pre.getD []) (m'.pre.getD [])) ↔
        v = w ∧ SameDigits m m' := by
  simp only [VersionMatch.read, Option.bind_eq_bind, Option.bind_eq_some_iff] at hread hread'
  obtain ⟨major, hmajor, minor, hminor, patch, hpatch, hv⟩ := hread
  obtain ⟨major', hmajor', minor', hminor', patch', hpatch', hw⟩ := hread'
  obtain rfl := Option.some.inj hv
  obtain rfl := Option.some.inj hw
  have hpre : (m.pre.isSome = m'.pre.isSome ∧
      List.Forall₂ IdentifierAlike (m.pre.getD []) (m'.pre.getD [])) ↔
        m.pre.map (List.map readIdentifier) = m'.pre.map (List.map readIdentifier) := by
    rw [forall₂_identifierAlike]
    cases m.pre <;> cases m'.pre <;> simp
  rw [hpre, Version.mk.injEq]
  constructor
  · rintro ⟨hdigits, hsame⟩
    exact ⟨⟨readDecimal_eq_of_dropZeros hdigits.1 hmajor hmajor',
      readDecimal_eq_of_dropZeros hdigits.2.1 hminor hminor',
      readDecimal_eq_of_dropZeros hdigits.2.2 hpatch hpatch', hsame⟩, hdigits⟩
  · rintro ⟨⟨-, -, -, hsame⟩, hdigits⟩
    exact ⟨hdigits, hsame⟩

/-! ### The law -/

/-- A text `_key` makes a key of. -/
def Accepted (text : String) : Prop :=
  ∃ k, key text = some (some k)

instance (text : String) : Decidable (Accepted text) :=
  decidable_of_iff ((key text).any Option.isSome = true) <| by
    unfold Accepted
    cases key text with
    | none => simp
    | some found => cases found <;> simp

/-- The comparison of two texts is the precedence of their versions, an order, and zero for those
that differ in nothing that counts. -/
structure VersionLaw (a b : String) : Prop where
  precedence : ∀ v w, readVersion a = some v → readVersion b = some w →
    (compare a b = some (some (-1)) ↔ Precedes v w) ∧
    (compare a b = some (some 1) ↔ Precedes w v) ∧
    (compare a b = some (some 0) ↔ ¬Precedes v w ∧ ¬Precedes w v)
  total : compare a b = some (some (-1)) ∨ compare a b = some (some 0) ∨ compare a b = some (some 1)
  antisymmetric : ∀ order, compare a b = some (some order) → compare b a = some (some (-order))
  transitive : ∀ c one two, compare a b = some (some one) → compare b c = some (some two) →
    one ≤ 0 → two ≤ 0 → ∃ three ≤ 0, compare a c = some (some three)
  newerIrreflexive : isNewer a a = some (some false)
  newerAsymmetric : isNewer a b = some (some true) → isNewer b a = some (some false)
  newerTransitive : ∀ c, isNewer a b = some (some true) → isNewer b c = some (some true) →
    isNewer a c = some (some true)
  alike : compare a b = some (some 0) ↔ Alike a b

/-- Where the two texts stand for one version their numbers are written in the same digits. -/
def DigitsAgree (a b : String) : Prop :=
  readVersion a = readVersion b → ∀ m m', matchVersion (strip a).toList = some m →
    matchVersion (strip b).toList = some m' → SameDigits m m'

theorem compare_of_keys {a b : String} {ka kb : Key} (ha : key a = some (some ka))
    (hb : key b = some (some kb)) : compare a b = some (some (compareKeys ka kb)) := by
  simp [compare, ha, hb]

/-- What is compared stands for two versions. -/
theorem exists_of_compare {a b : String} {order : Int} (h : compare a b = some (some order)) :
    ∃ v w, key a = some (some (encode v)) ∧ key b = some (some (encode w)) ∧
      order = compareKeys (encode v) (encode w) := by
  cases ha : key a with
  | none => simp [compare, ha] at h
  | some found =>
      cases found with
      | none =>
          cases hb : key b <;> simp [compare, ha, hb] at h
      | some ka =>
          cases hb : key b with
          | none => simp [compare, ha, hb] at h
          | some found =>
              cases found with
              | none => simp [compare, ha, hb] at h
              | some kb =>
                  rw [compare_of_keys ha hb] at h
                  obtain ⟨-, v, -, -, -, rfl⟩ := exists_version_of_key ha
                  obtain ⟨-, w, -, -, -, rfl⟩ := exists_version_of_key hb
                  exact ⟨v, w, rfl, rfl, (Option.some.inj (Option.some.inj h)).symm⟩

theorem compareKeys_nonpos {v w : Version} :
    compareKeys (encode v) (encode w) ≤ 0 ↔ ¬Precedes w v := by
  rw [← compareKeys_encode_gt]
  rcases compareKeys_range (encode v) (encode w) with h | h | h <;> rw [h] <;> decide

theorem compareKeys_swap (v w : Version) :
    compareKeys (encode w) (encode v) = -compareKeys (encode v) (encode w) := by
  rcases precedes_or_eq v w with h | rfl | h
  · rw [compareKeys_encode_lt.2 h, compareKeys_encode_gt.2 h]
    rfl
  · rw [compareKeys_self]
    rfl
  · rw [compareKeys_encode_lt.2 h, compareKeys_encode_gt.2 h]

/-- A version is newer when its comparison is one. -/
theorem isNewer_eq_true {a b : String} :
    isNewer a b = some (some true) ↔ compare a b = some (some 1) := by
  unfold isNewer
  constructor
  · intro h
    obtain ⟨found, hfound, hnewer⟩ := Option.map_eq_some_iff.1 h
    obtain ⟨order, rfl, hpos⟩ := Option.map_eq_some_iff.1 hnewer
    obtain ⟨v, w, -, -, rfl⟩ := exists_of_compare hfound
    rcases compareKeys_range (encode v) (encode w) with hrange | hrange | hrange
    · rw [hrange] at hpos
      cases hpos
    · rw [hrange] at hpos
      cases hpos
    · rw [hfound, hrange]
  · intro h
    rw [h]
    rfl

theorem not_precedes_trans {u v w : Version} (h : ¬Precedes v u) (h' : ¬Precedes w v) :
    ¬Precedes w u := by
  intro hback
  rcases precedes_or_eq u v with huv | rfl | hvu
  · exact h' (precedes_trans hback huv)
  · exact h' hback
  · exact h hvu

/-- All but the last clause holds of any two versions. -/
theorem versionLaw_of_alike {a b : String} {v w : Version} (ha : key a = some (some (encode v)))
    (hb : key b = some (some (encode w))) (hv : readVersion a = some v)
    (hw : readVersion b = some w) (halike : compare a b = some (some 0) ↔ Alike a b) :
    VersionLaw a b := by
  have hab := compare_of_keys ha hb
  constructor
  case precedence =>
    intro v' w' hv' hw'
    obtain rfl := Option.some.inj (hv.symm.trans hv')
    obtain rfl := Option.some.inj (hw.symm.trans hw')
    rw [hab]
    simp only [Option.some.injEq]
    refine ⟨compareKeys_encode_lt, compareKeys_encode_gt, ?_⟩
    rw [← compareKeys_encode_lt, ← compareKeys_encode_gt]
    rcases compareKeys_range (encode v) (encode w) with h | h | h
    · exact iff_of_false (by rw [h]; decide) (fun hnot => hnot.1 h)
    · exact iff_of_true h (by rw [h]; decide)
    · exact iff_of_false (by rw [h]; decide) (fun hnot => hnot.2 h)
  case total =>
    rw [hab]
    simpa using compareKeys_range (encode v) (encode w)
  case antisymmetric =>
    intro order h
    rw [hab] at h
    rw [compare_of_keys hb ha, compareKeys_swap, Option.some.inj (Option.some.inj h)]
  case transitive =>
    intro c one two hone htwo hle hle'
    obtain ⟨v', w', hav, hbw, rfl⟩ := exists_of_compare hone
    obtain ⟨w'', u, hbw', hcu, rfl⟩ := exists_of_compare htwo
    obtain rfl := encode_injective (Option.some.inj (Option.some.inj (hbw.symm.trans hbw')))
    refine ⟨_, ?_, compare_of_keys hav hcu⟩
    rw [compareKeys_nonpos] at hle hle' ⊢
    exact not_precedes_trans hle hle'
  case newerIrreflexive =>
    rw [isNewer, compare_of_keys ha ha, compareKeys_self]
    rfl
  case newerAsymmetric =>
    intro h
    rw [isNewer_eq_true, hab] at h
    rw [isNewer, compare_of_keys hb ha, compareKeys_swap, Option.some.inj (Option.some.inj h)]
    rfl
  case newerTransitive =>
    intro c hone htwo
    rw [isNewer_eq_true] at hone htwo ⊢
    obtain ⟨v', w', hav, hbw, horder⟩ := exists_of_compare hone
    obtain ⟨w'', u, hbw', hcu, horder'⟩ := exists_of_compare htwo
    obtain rfl := encode_injective (Option.some.inj (Option.some.inj (hbw.symm.trans hbw')))
    rw [compare_of_keys hav hcu]
    have hnewer := compareKeys_encode_gt.1 horder.symm
    have hnewer' := compareKeys_encode_gt.1 horder'.symm
    rw [compareKeys_encode_gt.2 (precedes_trans hnewer' hnewer)]
  case alike => exact halike

/-- The comparison of two accepted texts follows the law exactly when their digits agree. -/
theorem version_law_iff {a b : String} (ha : Accepted a) (hb : Accepted b) :
    VersionLaw a b ↔ DigitsAgree a b := by
  obtain ⟨ka, hka⟩ := ha
  obtain ⟨kb, hkb⟩ := hb
  obtain ⟨m, v, hm, hread, hv, rfl⟩ := exists_version_of_key hka
  obtain ⟨m', w, hm', hread', hw, rfl⟩ := exists_version_of_key hkb
  have halike : Alike a b ↔ v = w ∧ SameDigits m m' := by
    rw [← alike_iff hread hread']
    constructor
    · rintro ⟨n, n', hn, hn', hsame⟩
      obtain rfl := Option.some.inj (hm.symm.trans hn)
      obtain rfl := Option.some.inj (hm'.symm.trans hn')
      exact hsame
    · intro hsame
      exact ⟨m, m', hm, hm', hsame⟩
  have hzero : compare a b = some (some 0) ↔ v = w := by
    rw [compare_of_keys hka hkb]
    simpa using compareKeys_encode_eq
  constructor
  · intro law hsame n n' hn hn'
    obtain rfl := Option.some.inj (hm.symm.trans hn)
    obtain rfl := Option.some.inj (hm'.symm.trans hn')
    rw [hv, hw] at hsame
    exact (halike.1 (law.alike.1 (hzero.2 (Option.some.inj hsame)))).2
  · intro hdigits
    apply versionLaw_of_alike hka hkb hv hw
    rw [hzero, halike]
    constructor
    · intro hsame
      exact ⟨hsame, hdigits (by rw [hv, hw, hsame]) m m' hm hm'⟩
    · exact And.left

theorem dropZeros_of_readDecimal {digits : List Char} {n : Nat} (h : readDecimal digits = some n)
    (hascii : ∀ c ∈ digits, c.isDigit = true) : dropZeros digits = plainDigits n := by
  have hfilled : digits ≠ [] := by
    rintro rfl
    cases h
  rw [readDecimal_ascii hfilled hascii] at h
  rw [dropZeros_ascii hascii, Option.some.inj h]

/-- Whether the three numbers of a version are written in ASCII digits. -/
def PlainNumbers (text : String) : Prop :=
  ∀ m, matchVersion (strip text).toList = some m →
    (∀ c ∈ m.major, c.isDigit = true) ∧ (∀ c ∈ m.minor, c.isDigit = true) ∧
      ∀ c ∈ m.patch, c.isDigit = true

/-- Numbers in ASCII digits agree. -/
theorem digitsAgree_of_plain {a b : String} (ha : Accepted a) (hb : Accepted b)
    (hplain : PlainNumbers a) (hplain' : PlainNumbers b) : DigitsAgree a b := by
  obtain ⟨ka, hka⟩ := ha
  obtain ⟨kb, hkb⟩ := hb
  intro hsame n n' hn hn'
  obtain ⟨m, v, hm, hread, hv, rfl⟩ := exists_version_of_key hka
  obtain ⟨m', w, hm', hread', hw, rfl⟩ := exists_version_of_key hkb
  obtain rfl := Option.some.inj (hm.symm.trans hn)
  obtain rfl := Option.some.inj (hm'.symm.trans hn')
  rw [hv, hw] at hsame
  obtain rfl := Option.some.inj hsame
  simp only [VersionMatch.read, Option.bind_eq_bind, Option.bind_eq_some_iff] at hread hread'
  obtain ⟨major, hmajor, minor, hminor, patch, hpatch, hv⟩ := hread
  obtain ⟨major', hmajor', minor', hminor', patch', hpatch', hw⟩ := hread'
  obtain rfl := Option.some.inj hv
  obtain ⟨rfl, rfl, rfl, -⟩ := Version.mk.inj (Option.some.inj hw)
  obtain ⟨hascii, hascii2, hascii3⟩ := hplain m hm
  obtain ⟨hascii', hascii2', hascii3'⟩ := hplain' m' hm'
  exact ⟨(dropZeros_of_readDecimal hmajor hascii).trans
      (dropZeros_of_readDecimal hmajor' hascii').symm,
    (dropZeros_of_readDecimal hminor hascii2).trans
      (dropZeros_of_readDecimal hminor' hascii2').symm,
    (dropZeros_of_readDecimal hpatch hascii3).trans
      (dropZeros_of_readDecimal hpatch' hascii3').symm⟩

theorem version_law_of_release_candidate : VersionLaw "1.2.0-rc.1" "1.02.0-rc.01+build" :=
  (version_law_iff (by decide) (by decide)).2 (by
    intro _ m m' hm hm'
    have hmatch : matchVersion (strip "1.2.0-rc.1").toList =
        some ⟨['1'], ['2'], ['0'], some [['r', 'c'], ['1']]⟩ := by decide
    have hmatch' : matchVersion (strip "1.02.0-rc.01+build").toList =
        some ⟨['1'], ['0', '2'], ['0'], some [['r', 'c'], ['0', '1']]⟩ := by decide
    obtain rfl := Option.some.inj (hmatch.symm.trans hm)
    obtain rfl := Option.some.inj (hmatch'.symm.trans hm')
    exact ⟨by decide, by decide, by decide⟩)

/-- The digits of another script make a version of the same precedence that is not the same text. -/
theorem fullwidth_digit_compares_equal :
    ¬∀ a b, Accepted a → Accepted b → VersionLaw a b := by
  intro h
  have law := h "\uff11.0.0" "1.0.0" (by decide) (by decide)
  obtain ⟨m, m', hm, hm', hdigits, -⟩ := law.alike.1 (by decide)
  have hmatch : matchVersion (strip "\uff11.0.0").toList =
      some ⟨['\uff11'], ['0'], ['0'], none⟩ := by decide
  have hmatch' : matchVersion (strip "1.0.0").toList = some ⟨['1'], ['0'], ['0'], none⟩ := by decide
  obtain rfl := Option.some.inj (hmatch.symm.trans hm)
  obtain rfl := Option.some.inj (hmatch'.symm.trans hm')
  exact absurd hdigits.1 (by decide)

end Papaia.Versions
