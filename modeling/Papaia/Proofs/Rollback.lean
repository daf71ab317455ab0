/-
Module: Papaia.Proofs.Rollback
Purpose: When the rollback of a write leaves other people's changes alone.  What it compares with is
  a second read of the file, so the write has to be undisturbed until that read.
Trusted boundary: HashInjective (the revision tells different contents apart)
Main exports: HashInjective, Undisturbed, RollsBackOwn, restore_respects_others
-/
import Papaia.Ingest.JobsFile
import Papaia.Lib.Runs

namespace Papaia.Ingest

open Runs

/-- Different contents have different hashes, and no hash is empty. -/
structure HashInjective (yaml : Yaml) : Prop where
  injective : ∀ a b, yaml.sha256 a = yaml.sha256 b → a = b
  ne_empty : ∀ a, yaml.sha256 a ≠ ""

theorem revision_eq_empty_iff {yaml : Yaml} (h : HashInjective yaml) {raw : Bytes} :
    yaml.revision raw = "" ↔ raw = [] := by
  cases raw with
  | nil => simp [Yaml.revision]
  | cons byte rest => simp [Yaml.revision, h.ne_empty]

theorem revision_injective {yaml : Yaml} (h : HashInjective yaml) {a b : Bytes}
    (heq : yaml.revision a = yaml.revision b) : a = b := by
  cases a with
  | nil => exact ((revision_eq_empty_iff h).1 (heq.symm.trans (by simp [Yaml.revision]))).symm
  | cons x xs =>
      cases b with
      | nil => exact (revision_eq_empty_iff h).1 (heq.trans (by simp [Yaml.revision]))
      | cons y ys => exact h.injective _ _ (by simpa [Yaml.revision] using heq)

/-! ### The promise and its condition -/

/-- The rollback a phase is in: what it undoes, and what the manager's own write put there. -/
def Phase.rollback : Phase → Option (Written × Bytes)
  | .returned written data | .checking written data | .unlinking written data
  | .restaging written data | .reswapping written data => some (written, data)
  | _ => none

/-- A step of a rollback leaves the file alone, and then it does not report success unless there was
nothing to undo; or the file holds the manager's own bytes, and gets back what it held before. -/
def RollsBackOwn (s s' : State) : Prop :=
  ∀ written data, s.phase.rollback = some (written, data) →
    (s'.file = s.file ∧ (s'.phase = .restored true → written.changed = false)) ∨
      (written.changed = true ∧ s'.phase = .restored true ∧ s.file = some data ∧
        s'.file = if written.existed then some written.before else none)

/-- Nobody else gets between a rename and the read after it, which succeeds, nor between the
comparison and the removal of a rollback; and a file the manager left empty is not removed between
the staging and the comparison of a rollback. -/
def Undisturbed (s : State) (e : Event) : Prop :=
  match s.phase, e with
  | .rereading _ data, .foreign content => content = some data
  | .rereading _ _, .manager fails => fails = false
  | .unlinking _ data, .foreign content => content = some data
  | .reswapping _ data, .foreign content => data = [] → content ≠ none
  | _, _ => True

/-- What the phases know about the file and the write. -/
def Knows (yaml : Yaml) (s : State) : Prop :=
  match s.phase with
  | .rereading _ data => s.file = some data
  | .returned written data =>
      written.changed = true → written.afterRevision = yaml.revision data
  | .checking written data =>
      written.changed = true ∧ written.existed = false ∧
        written.afterRevision = yaml.revision data
  | .unlinking written data =>
      written.changed = true ∧ written.existed = false ∧ s.file = some data
  | .restaging written data =>
      written.changed = true ∧ written.existed = true ∧
        written.afterRevision = yaml.revision data
  | .reswapping written data =>
      written.changed = true ∧ written.existed = true ∧
        written.afterRevision = yaml.revision data ∧ (data = [] → s.file ≠ none)
  | _ => True

variable {rt : Runtime} {yaml : Yaml} {call : Call}

theorem knows_started (file : Option Bytes) : Knows yaml (started call file) :=
  trivial

/-- Somebody else's step keeps what is known. -/
theorem knows_foreign {s : State} {content : Option Bytes} (h : Knows yaml s)
    (ok : Undisturbed s (.foreign content)) : Knows yaml { s with file := content } := by
  unfold Knows Undisturbed at *
  cases hphase : s.phase with
  | rereading | unlinking => simp_all
  | reswapping written data =>
      rw [hphase] at h ok
      exact ⟨h.1, h.2.1, h.2.2.1, ok⟩
  | reading | staging | swapping | refused | returned | checking | restaging | restored =>
      rw [hphase] at h
      exact h

/-- The manager's step keeps what is known. -/
theorem knows_manager (hash : HashInjective yaml) {s s' : State} {fails : Bool}
    (h : Knows yaml s) (ok : Undisturbed s (.manager fails))
    (taken : step rt yaml call s (.manager fails) = some s') : Knows yaml s' := by
  obtain ⟨file, phase⟩ := s
  obtain ⟨result, hresult, rfl⟩ := Option.map_eq_some_iff.1 taken
  cases phase with
  | refused | restored => cases hresult
  | reading attempts =>
      simp only [managerStep] at hresult
      split at hresult <;> obtain rfl := Option.some.inj hresult <;> simp [Knows]
  | staging attempts snapshot data =>
      simp only [managerStep] at hresult
      split at hresult <;> obtain rfl := Option.some.inj hresult <;> trivial
  | swapping attempts snapshot data =>
      simp only [managerStep] at hresult
      split at hresult
      · obtain rfl := Option.some.inj hresult
        trivial
      · split at hresult
        · obtain rfl := Option.some.inj hresult
          rfl
        · split at hresult <;> obtain rfl := Option.some.inj hresult <;> trivial
  | rereading snapshot data =>
      obtain rfl := Option.some.inj hresult
      obtain rfl : file = some data := h
      obtain rfl : fails = false := ok
      exact fun _ => rfl
  | returned written data =>
      simp only [managerStep] at hresult
      cases hchanged : written.changed with
      | false =>
          rw [hchanged] at hresult
          obtain rfl := Option.some.inj hresult
          trivial
      | true =>
          rw [hchanged] at hresult
          cases hexisted : written.existed <;> rw [hexisted] at hresult <;>
            obtain rfl := Option.some.inj hresult <;> exact ⟨hchanged, hexisted, h hchanged⟩
  | checking written data =>
      obtain ⟨hchanged, hexisted, hrevision⟩ := h
      simp only [managerStep] at hresult
      split at hresult
      · obtain rfl := Option.some.inj hresult
        trivial
      · split at hresult
        · obtain rfl := Option.some.inj hresult
          trivial
        · split at hresult
          · rename_i raw _ hsame
            obtain rfl := Option.some.inj hresult
            exact ⟨hchanged, hexisted,
              congrArg some (revision_injective hash (hsame.trans hrevision))⟩
          · obtain rfl := Option.some.inj hresult
            trivial
  | unlinking written data =>
      simp only [managerStep] at hresult
      split at hresult <;> obtain rfl := Option.some.inj hresult <;> trivial
  | restaging written data =>
      obtain ⟨hchanged, hexisted, hrevision⟩ := h
      simp only [managerStep] at hresult
      split at hresult
      · obtain rfl := Option.some.inj hresult
        trivial
      · rename_i hthere
        obtain rfl := Option.some.inj hresult
        refine ⟨hchanged, hexisted, hrevision, fun _ hnone => hthere ?_⟩
        simp only at hnone
        simp [hnone]
  | reswapping written data =>
      simp only [managerStep] at hresult
      split at hresult
      · obtain rfl := Option.some.inj hresult
        trivial
      · split at hresult <;> obtain rfl := Option.some.inj hresult <;> trivial

/-- Where the phases know what they have to, a step of a rollback undoes the manager's own write or
nothing. -/
theorem rollsBackOwn_of_knows (hash : HashInjective yaml) {s s' : State} {fails : Bool}
    (h : Knows yaml s) (taken : step rt yaml call s (.manager fails) = some s') :
    RollsBackOwn s s' := by
  obtain ⟨file, phase⟩ := s
  obtain ⟨result, hresult, rfl⟩ := Option.map_eq_some_iff.1 taken
  intro written data hrollback
  cases phase with
  | reading | staging | swapping | rereading | refused | restored => cases hrollback
  | returned undo own =>
      obtain ⟨rfl, rfl⟩ := Prod.mk.inj (Option.some.inj hrollback)
      simp only [managerStep] at hresult
      left
      split at hresult
      · rename_i hchanged
        obtain rfl := Option.some.inj hresult
        exact ⟨rfl, fun _ => by simpa using hchanged⟩
      · split at hresult <;> obtain rfl := Option.some.inj hresult <;>
          exact ⟨rfl, fun hdone => by cases hdone⟩
  | checking undo own =>
      obtain ⟨rfl, rfl⟩ := Prod.mk.inj (Option.some.inj hrollback)
      simp only [managerStep] at hresult
      left
      split at hresult
      · obtain rfl := Option.some.inj hresult
        exact ⟨rfl, fun hdone => by cases hdone⟩
      · split at hresult
        · obtain rfl := Option.some.inj hresult
          exact ⟨rfl, fun hdone => by cases hdone⟩
        · split at hresult <;> obtain rfl := Option.some.inj hresult <;>
            exact ⟨rfl, fun hdone => by cases hdone⟩
  | unlinking undo own =>
      obtain ⟨rfl, rfl⟩ := Prod.mk.inj (Option.some.inj hrollback)
      obtain ⟨hchanged, hexisted, hfile⟩ := h
      simp only [managerStep] at hresult
      split at hresult
      · obtain rfl := Option.some.inj hresult
        exact .inl ⟨rfl, fun hdone => by cases hdone⟩
      · obtain rfl := Option.some.inj hresult
        exact .inr ⟨hchanged, rfl, hfile, by simp [hexisted]⟩
  | restaging undo own =>
      obtain ⟨rfl, rfl⟩ := Prod.mk.inj (Option.some.inj hrollback)
      simp only [managerStep] at hresult
      left
      split at hresult <;> obtain rfl := Option.some.inj hresult <;>
        exact ⟨rfl, fun hdone => by cases hdone⟩
  | reswapping undo own =>
      obtain ⟨rfl, rfl⟩ := Prod.mk.inj (Option.some.inj hrollback)
      obtain ⟨hchanged, hexisted, hrevision, hthere⟩ := h
      simp only [managerStep] at hresult
      split at hresult
      · obtain rfl := Option.some.inj hresult
        exact .inl ⟨rfl, fun hdone => by cases hdone⟩
      · split at hresult
        · rename_i hsame
          obtain rfl := Option.some.inj hresult
          have hown : file.getD [] = own := revision_injective hash (hsame.trans hrevision)
          refine .inr ⟨hchanged, rfl, ?_, by simp [hexisted]⟩
          cases file with
          | none => exact absurd rfl (hthere hown.symm)
          | some raw => exact congrArg some hown
        · obtain rfl := Option.some.inj hresult
          exact .inl ⟨rfl, fun hdone => by cases hdone⟩

/-- In every run whose steps are undisturbed, a rollback changes the file only while it holds the
bytes of the manager's own write, and then puts back what was there; otherwise it leaves the file
alone and does not report success. -/
theorem restore_respects_others (rt : Runtime) (yaml : Yaml) (hash : HashInjective yaml)
    (call : Call) (file : Option Bytes) (s s' : State) (fails : Bool)
    (reached : Reaches (step rt yaml call) Undisturbed (started call file) s)
    (taken : step rt yaml call s (.manager fails) = some s') : RollsBackOwn s s' := by
  refine rollsBackOwn_of_knows hash ?_ taken
  refine reached.invariant (knows_started file) ?_
  rintro s e s' hknows ok taken
  cases e with
  | foreign content =>
      obtain rfl := Option.some.inj taken
      exact knows_foreign hknows ok
  | manager fails => exact knows_manager hash hknows ok taken

/-- How many steps of the manager a rollback still takes. -/
def Phase.rank : Phase → Nat
  | .returned _ _ => 3
  | .checking _ _ | .restaging _ _ => 2
  | .unlinking _ _ | .reswapping _ _ => 1
  | _ => 0

/-- A rollback can always go on, and it ends. -/
theorem rollback_ends (s : State) (fails : Bool) (h : s.phase.rollback.isSome = true) :
    ∃ s', step rt yaml call s (.manager fails) = some s' ∧ s'.phase.rank < s.phase.rank ∧
      (s'.phase.rollback.isSome = true ∨ ∃ result, s'.phase = .restored result) := by
  obtain ⟨file, phase⟩ := s
  cases phase with
  | reading | staging | swapping | rereading | refused | restored => cases h
  | returned written data =>
      simp only [step, managerStep]
      cases written.changed <;> cases written.existed <;> simp [Phase.rank, Phase.rollback]
  | checking written data | unlinking written data | restaging written data
  | reswapping written data =>
      simp only [step, managerStep]
      split <;> try split
      all_goals first
        | (split <;> simp [Phase.rank, Phase.rollback])
        | simp [Phase.rank, Phase.rollback]

/-! ### A write between the rename and the second read -/

theorem byteChar_injective : ∀ x y : UInt8, Char.ofNat x.toNat = Char.ofNat y.toNat → x = y := by
  intro x y h
  have hvalid : ∀ n : Nat, n < 256 → (Char.ofNat n).toNat = n := by
    intro n hn
    rw [Char.ofNat, dif_pos (show n.isValidChar from .inl (by omega))]
    rfl
  have hnat := congrArg Char.toNat h
  rw [hvalid _ x.toNat_lt, hvalid _ y.toNat_lt] at hnat
  exact UInt8.toNat_inj.1 hnat

theorem oneFileYaml_hashInjective (text : String) (document : Mapping) :
    HashInjective (oneFileYaml text document) where
  injective a b h := by
    have hchars := (List.cons.inj (String.ofList_injective h)).2
    refine List.map_injective_iff.2 (fun x y hxy => ?_) hchars
    exact byteChar_injective x y hxy
  ne_empty a h := by
    have hchars := congrArg String.toList h
    simp [oneFileYaml] at hchars

def operatorBefore : Bytes := asciiBytes "jobs: []\n"
def operatorAfter : Bytes := asciiBytes "jobs: [] # mine\n"
def managerBytes : Bytes := asciiBytes "version: 1\n"

/-- The raw editor, opened on the operator's file. -/
def operatorCall : Call :=
  .replaceRaw managerBytes ((oneFileYaml "" []).revision operatorBefore)

/-- The operator writes right after the rename; the second read takes that for the manager's write,
and the rollback removes it. -/
theorem rollback_destroys_other_write :
    ¬ ∀ (rt : Runtime) (yaml : Yaml), HashInjective yaml → ∀ (call : Call) (file : Option Bytes)
      (s s' : State) (fails : Bool),
      Reaches (step rt yaml call) (fun _ _ => True) (started call file) s →
        step rt yaml call s (.manager fails) = some s' → RollsBackOwn s s' := by
  intro h
  have hreached : Reaches (step plainRuntime (oneFileYaml "" []) operatorCall) (fun _ _ => True)
      (started operatorCall (some operatorBefore))
      ⟨some operatorAfter, .reswapping ⟨operatorBefore, true,
        (oneFileYaml "" []).revision operatorAfter, true⟩ managerBytes⟩ :=
    reaches_of_replay (permits_all _ [.manager false, .manager false, .manager false,
      .foreign (some operatorAfter), .manager false, .manager false, .manager false]) rfl
  rcases h plainRuntime _ (oneFileYaml_hashInjective "" []) _ _ _ _ false hreached rfl _ _ rfl with ⟨hsame, _⟩ | ⟨_, _, hown, _⟩
  · exact absurd hsame (by decide)
  · exact absurd hown (by decide)

theorem operatorCall_undisturbed :
    Permits (step plainRuntime (oneFileYaml "" []) operatorCall) Undisturbed
      (started operatorCall (some operatorBefore))
      [.manager false, .manager false, .manager false, .manager false, .manager false,
        .manager false] := by
  refine .cons trivial rfl (.cons trivial rfl (.cons trivial rfl ?_))
  exact .cons rfl rfl (.cons trivial rfl (.cons trivial rfl trivial))

/-- Left to itself, the rollback puts the operator's file back. -/
theorem rollback_of_undisturbed_write :
    RollsBackOwn
      ⟨some managerBytes, .reswapping ⟨operatorBefore, true,
        (oneFileYaml "" []).revision managerBytes, true⟩ managerBytes⟩
      ⟨some operatorBefore, .restored true⟩ :=
  restore_respects_others plainRuntime _ (oneFileYaml_hashInjective "" []) operatorCall
    (some operatorBefore) _ _ false (reaches_of_replay operatorCall_undisturbed rfl) rfl

end Papaia.Ingest
