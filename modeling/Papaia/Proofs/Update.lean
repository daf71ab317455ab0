/-
Module: Papaia.Proofs.Update
Purpose: A write of `jobs.yaml` with other writers in between: it changes the file at one instant or
  not at all, and what it puts there is the change of the document that was there.
Trusted boundary: HashInjective, LoadsEmpty (an empty file parses to nothing)
Main exports: Traced, Outcome, Telling, update_loses_nothing
-/
import Papaia.Proofs.Rollback
import Papaia.Proofs.Changes

namespace Papaia

mutual

/-- Equal value by value and type by type; the order of the keys of a mapping does not count. -/
def Val.same : Val → Val → Bool
  | .scalar a, .scalar b => a == b
  | .list xs, .list ys => Val.sameList xs ys
  | .set xs, .set ys => xs.all ys.contains && ys.all xs.contains
  | .map xs, .map ys => xs.length == ys.length && Val.sameEntries xs ys
  | _, _ => false

/-- The same on lists. -/
def Val.sameList : List Val → List Val → Bool
  | [], [] => true
  | x :: xs, y :: ys => x.same y && Val.sameList xs ys
  | _, _ => false

/-- Every entry of the first mapping is in the second. -/
def Val.sameEntries : List (Scalar × Val) → List (Scalar × Val) → Bool
  | [], _ => true
  | (k, v) :: rest, ys =>
      (match ys.lookup k with
        | some w => v.same w
        | none => false) && Val.sameEntries rest ys

end

namespace Ingest

open Runs

/-! ### The promise and its condition -/

/-- The file and the manager, with what each step of the manager found in the file and left. -/
structure Traced where
  state : State
  log : List (Option Bytes × Option Bytes)

/-- One step of the system, with the steps of the manager written down. -/
def tracedStep (rt : Runtime) (yaml : Yaml) (call : Call) (t : Traced) (e : Event) :
    Option Traced :=
  (step rt yaml call t.state e).map fun s =>
    { state := s
      log := match e with
        | .foreign _ => t.log
        | .manager _ => t.log ++ [(t.state.file, s.file)] }

/-- The manager's steps have left the file as it was. -/
def Untouched (log : List (Option Bytes × Option Bytes)) : Prop :=
  ∀ change ∈ log, change.1 = change.2

/-- The document in the file, when it has one that can be changed. -/
def documentOf (rt : Runtime) (yaml : Yaml) (file : Option Bytes) : Option Mapping :=
  let snapshot := snapshotOf rt yaml (readFile file false)
  if snapshot.structuralError = none then some snapshot.document else none

/-- `rules(document) == []`, also where there are no rules. -/
def Passes (rules : Option (Mapping → List String)) (document : Mapping) : Prop :=
  (rules.map fun check => check document).getD [] = []

variable (rt : Runtime) (yaml : Yaml) (etagOf : Val → String) (change : Change)
  (rules : Option (Mapping → List String))

/-- The change of the document of a file. -/
structure Applied (file : Option Bytes) (document' : Mapping) where
  document : Mapping
  there : documentOf rt yaml file = some document
  mutated : change.mutate rt etagOf document = .ok document'
  frame : change.Frame document document'

/-- One step of the manager has written the dump of the changed document over the document it is the
change of, which the rules accept, and no other step has changed the file. -/
def WroteOnce (log : List (Option Bytes × Option Bytes)) : Prop :=
  ∃ earlier file later document', log = earlier ++ (file, some (yaml.dump document')) :: later ∧
    Untouched earlier ∧ Untouched later ∧
    Nonempty (Applied rt yaml etagOf change file document') ∧ Passes rules document'

/-- A call that raises has not changed the file.  One that returns has written once; or it has
written nothing, and the last document it read is the changed one, value by value and type by
type. -/
def Outcome (t : Traced) : Prop :=
  match t.state.phase with
  | .refused _ => Untouched t.log
  | .returned written _ =>
      if written.changed then WroteOnce rt yaml etagOf change rules t.log
      else
        Untouched t.log ∧ ∃ file document', t.log.getLast? = some (file, file) ∧
          ∃ applied : Applied rt yaml etagOf change file document',
            (Val.map document').same (.map applied.document) = true
  | _ => True

/-- Where the manager reads the file, `==` tells the changed document from the one that is there,
and the etag tells the entries apart. -/
def Telling (t : Traced) (e : Event) : Prop :=
  match t.state.phase, e with
  | .reading _, .manager _ =>
      ∀ document, documentOf rt yaml t.state.file = some document →
        change.EtagTells etagOf document ∧
          ∀ document', change.mutate rt etagOf document = .ok document' →
            (Val.map document').alike (.map document) = true →
              (Val.map document').same (.map document) = true
  | _, _ => True

/-- `yaml.safe_load` of an empty file is nothing. -/
def LoadsEmpty : Prop :=
  yaml.load [] = .ok .null

/-- What a prepared write knows. -/
structure Prepared (snapshot : JobsSnapshot) (data : Bytes) where
  file : Option Bytes
  document' : Mapping
  read : snapshot = snapshotOf rt yaml (readFile file false)
  applied : Applied rt yaml etagOf change file document'
  passes : Passes rules document'
  data_eq : data = yaml.dump document'

/-- What holds in each phase. -/
def Progress (t : Traced) : Prop :=
  match t.state.phase with
  | .reading _ => Untouched t.log
  | .staging _ snapshot data | .swapping _ snapshot data =>
      Untouched t.log ∧ Nonempty (Prepared rt yaml etagOf change rules snapshot data)
  | .rereading _ _ => WroteOnce rt yaml etagOf change rules t.log
  | _ => Outcome rt yaml etagOf change rules t

/-! ### What the revision says about the document -/

variable {rt : Runtime} {yaml : Yaml} {etagOf : Val → String} {change : Change}
  {rules : Option (Mapping → List String)}

theorem revision_of_read (file : Option Bytes) :
    (snapshotOf rt yaml (readFile file false)).revision = currentRevision yaml file := by
  cases file with
  | none => rfl
  | some raw => rfl

/-- A file that is not there and an empty one hold the same document. -/
theorem documentOf_getD (hload : LoadsEmpty yaml) (file : Option Bytes) :
    documentOf rt yaml file = documentOf rt yaml (some (file.getD [])) := by
  cases file with
  | some raw => rfl
  | none =>
      have hparse : parseJobs rt yaml [] = (starter, none) := by
        unfold parseJobs parseDocument
        rw [hload]
        rfl
      simp [documentOf, readFile, snapshotOf, hparse]

/-- Two files with one revision hold the same document. -/
theorem documentOf_eq (hash : HashInjective yaml) (hload : LoadsEmpty yaml)
    {file other : Option Bytes} (h : currentRevision yaml file = currentRevision yaml other) :
    documentOf rt yaml file = documentOf rt yaml other := by
  have hraw : file.getD [] = other.getD [] := revision_injective hash h
  rw [documentOf_getD hload file, documentOf_getD hload other, hraw]

/-! ### What a read decides -/

theorem untouched_append {log : List (Option Bytes × Option Bytes)} {file : Option Bytes}
    (h : Untouched log) : Untouched (log ++ [(file, file)]) := by
  intro entry hentry
  rcases List.mem_append.mp hentry with hmem | hmem
  · exact h entry hmem
  · rw [List.mem_singleton.mp hmem]

/-- The decision of an update. -/
theorem decide_update {mutate : Mapping → Except CatalogError Mapping} {snapshot : JobsSnapshot}
    {decision : Decision} (h : (Call.update mutate rules).decide yaml snapshot = decision) :
    (∃ error, decision = .refuse error) ∨
      (snapshot.structuralError = none ∧ ∃ document', mutate snapshot.document = .ok document' ∧
        ((decision = .unchanged ∧ (Val.map document').alike (.map snapshot.document) = true) ∨
          (decision = .write (yaml.dump document') ∧ Passes rules document'))) := by
  simp only [Call.decide] at h
  split at h
  next => exact .inl ⟨_, h.symm⟩
  next hstructure =>
    split at h
    next => exact .inl ⟨_, h.symm⟩
    next document' hmutate =>
      split at h
      next hsame =>
        rw [Bool.and_eq_true] at hsame
        exact .inr ⟨hstructure, document', hmutate, .inl ⟨h.symm, hsame.2⟩⟩
      next =>
        split at h
        next hpasses => exact .inr ⟨hstructure, document', hmutate, .inr ⟨h.symm, hpasses⟩⟩
        next => exact .inl ⟨_, h.symm⟩

theorem documentOf_of_read {file : Option Bytes} {snapshot : JobsSnapshot}
    (hread : snapshot = snapshotOf rt yaml (readFile file false))
    (hstructure : snapshot.structuralError = none) :
    documentOf rt yaml file = some snapshot.document := by
  simp [documentOf, ← hread, hstructure]

/-- What the manager finds when it reads the file: a problem, a change that is none, or a change to
write. -/
theorem progress_of_reading {log : List (Option Bytes × Option Bytes)} {file : Option Bytes}
    {attempts : Nat} {fails : Bool} {result : Option Bytes × Phase} (huntouched : Untouched log)
    (htelling : Telling rt yaml etagOf change ⟨⟨file, .reading attempts⟩, log⟩ (.manager fails))
    (h : managerStep rt yaml (.update (change.mutate rt etagOf) rules) file fails
      (.reading attempts) = some result) :
    result.1 = file ∧ Progress rt yaml etagOf change rules
      ⟨⟨result.1, result.2⟩, log ++ [(file, result.1)]⟩ := by
  simp only [managerStep] at h
  generalize hsnapshot : snapshotOf rt yaml (readFile file fails) = snapshot at h
  generalize hdecision : (Call.update (change.mutate rt etagOf) rules).decide yaml snapshot =
    decision at h
  rcases decide_update hdecision with ⟨error, rfl⟩ | ⟨hstructure, document', hmutate, hcase⟩
  · obtain rfl := Option.some.inj h
    exact ⟨rfl, untouched_append huntouched⟩
  · obtain rfl : fails = false := by
      cases fails with
      | false => rfl
      | true =>
          rw [← hsnapshot] at hstructure
          cases hstructure
    have hthere := documentOf_of_read hsnapshot.symm hstructure
    obtain ⟨htells, hsame⟩ := htelling snapshot.document hthere
    have applied : Applied rt yaml etagOf change file document' :=
      ⟨snapshot.document, hthere, hmutate, frame_of_mutate htells hmutate⟩
    rcases hcase with ⟨rfl, halike⟩ | ⟨rfl, hpasses⟩
    · obtain rfl := Option.some.inj h
      refine ⟨rfl, untouched_append huntouched, file, document', by simp,
        ⟨snapshot.document, hthere, hmutate, frame_of_mutate htells hmutate⟩,
        hsame document' hmutate halike⟩
    · obtain rfl := Option.some.inj h
      exact ⟨rfl, untouched_append huntouched,
        ⟨⟨file, document', hsnapshot.symm, applied, hpasses, rfl⟩⟩⟩

/-- The rename: the file holds the document the write was prepared from. -/
theorem wroteOnce_of_swap (hash : HashInjective yaml) (hload : LoadsEmpty yaml)
    {log : List (Option Bytes × Option Bytes)} {file : Option Bytes} {snapshot : JobsSnapshot}
    {data : Bytes} (huntouched : Untouched log)
    (prepared : Prepared rt yaml etagOf change rules snapshot data)
    (hrevision : currentRevision yaml file = snapshot.revision) :
    WroteOnce rt yaml etagOf change rules (log ++ [(file, some data)]) := by
  obtain ⟨read, document', hread, ⟨document, hthere, hmutate, hframe⟩, hpasses, rfl⟩ := prepared
  rw [hread, revision_of_read] at hrevision
  refine ⟨log, file, [], document', rfl, huntouched, by simp [Untouched], ⟨⟨document, ?_, hmutate,
    hframe⟩⟩, hpasses⟩
  rw [documentOf_eq hash hload hrevision, hthere]

/-- The steps after the rename leave the file alone until the call has returned. -/
theorem wroteOnce_append {log : List (Option Bytes × Option Bytes)} {file : Option Bytes}
    (h : WroteOnce rt yaml etagOf change rules log) :
    WroteOnce rt yaml etagOf change rules (log ++ [(file, file)]) := by
  obtain ⟨earlier, before, later, document', rfl, hearlier, hlater, happlied, hpasses⟩ := h
  exact ⟨earlier, before, later ++ [(file, file)], document', by simp, hearlier,
    untouched_append hlater, happlied, hpasses⟩

/-- A step of the manager keeps what the phases know. -/
theorem progress_manager (hash : HashInjective yaml) (hload : LoadsEmpty yaml)
    {s s' : State} {log : List (Option Bytes × Option Bytes)} {fails : Bool}
    (h : Progress rt yaml etagOf change rules ⟨s, log⟩)
    (ok : Telling rt yaml etagOf change ⟨s, log⟩ (.manager fails))
    (taken : step rt yaml (.update (change.mutate rt etagOf) rules) s (.manager fails) =
      some s') :
    Progress rt yaml etagOf change rules ⟨s', log ++ [(s.file, s'.file)]⟩ := by
  obtain ⟨file, phase⟩ := s
  obtain ⟨result, hresult, rfl⟩ := Option.map_eq_some_iff.1 taken
  cases phase with
  | refused | restored => cases hresult
  | reading attempts => exact (progress_of_reading h ok hresult).2
  | staging attempts snapshot data =>
      simp only [managerStep] at hresult
      split at hresult <;> obtain rfl := Option.some.inj hresult
      · exact untouched_append h.1
      · exact ⟨untouched_append h.1, h.2⟩
  | swapping attempts snapshot data =>
      obtain ⟨huntouched, ⟨prepared⟩⟩ := h
      simp only [managerStep] at hresult
      split at hresult
      · obtain rfl := Option.some.inj hresult
        exact untouched_append huntouched
      · split at hresult
        · rename_i hrevision
          obtain rfl := Option.some.inj hresult
          exact wroteOnce_of_swap hash hload huntouched prepared hrevision
        · split at hresult <;> obtain rfl := Option.some.inj hresult <;>
            exact untouched_append huntouched
  | rereading snapshot data =>
      obtain rfl := Option.some.inj hresult
      exact wroteOnce_append h
  | returned written data =>
      simp only [managerStep] at hresult
      split at hresult
      · obtain rfl := Option.some.inj hresult
        trivial
      · split at hresult <;> obtain rfl := Option.some.inj hresult <;> trivial
  | checking written data | unlinking written data | restaging written data
  | reswapping written data =>
      simp only [managerStep] at hresult
      repeat' split at hresult
      all_goals obtain rfl := Option.some.inj hresult
      all_goals trivial

/-- How many steps of the manager a call of `update` can still take. -/
def Phase.left : Phase → Nat
  | .reading attempts => 4 * attempts + 4
  | .staging attempts _ _ => 4 * attempts + 3
  | .swapping attempts _ _ => 4 * attempts + 2
  | .rereading _ _ => 1
  | _ => 0

/-- A call that has neither raised nor returned can go on, and comes nearer to its end. -/
theorem update_goes_on {call : Call} (t : Traced) (fails : Bool) (h : 0 < t.state.phase.left) :
    ∃ t', tracedStep rt yaml call t (.manager fails) = some t' ∧
      t'.state.phase.left < t.state.phase.left := by
  obtain ⟨⟨file, phase⟩, log⟩ := t
  cases phase with
  | refused | returned | checking | unlinking | restaging | reswapping | restored =>
      simp [Phase.left] at h
  | reading attempts =>
      simp only [tracedStep, step, managerStep]
      split <;> simp [Phase.left]
  | staging attempts snapshot data =>
      simp only [tracedStep, step, managerStep]
      split <;> simp [Phase.left]
  | swapping attempts snapshot data =>
      simp only [tracedStep, step, managerStep]
      split
      · simp [Phase.left]
      · split
        · simp [Phase.left]
        · split <;> simp [Phase.left]
          omega
  | rereading snapshot data => simp [tracedStep, step, managerStep, Phase.left]

/-- The library on one file, and on an empty one. -/
def catalogYaml (text : String) (document : Mapping) : Yaml :=
  { oneFileYaml text document with
    load := fun raw => if raw = [] then .ok .null else (oneFileYaml text document).load raw }

theorem catalogYaml_hashInjective (text : String) (document : Mapping) :
    HashInjective (catalogYaml text document) where
  injective := (oneFileYaml_hashInjective text document).injective
  ne_empty := (oneFileYaml_hashInjective text document).ne_empty

/-- A catalog with one job whose `enabled` is the given value. -/
def enabledCatalog (enabled : Val) : Mapping :=
  [(.str "version", .int 1),
    (.str "jobs", .list [.map [(.str "id", .str "docs"), (.str "enabled", enabled)]])]

def switchYaml (enabled : Val) : Yaml :=
  catalogYaml "jobs: [docs]" (enabledCatalog enabled)

def switchFile : Option Bytes :=
  some (asciiBytes "jobs: [docs]")

def switchOff : Change :=
  .setEnabled "docs" false

/-- The bytes the call writes. -/
def switchedOff : Bytes :=
  (switchYaml (.bool true)).dump (enabledCatalog (.bool false))

theorem switch_off_permitted :
    Permits (tracedStep plainRuntime (switchYaml (.bool true))
      (.update (switchOff.mutate plainRuntime fun _ => "") none))
      (Telling plainRuntime (switchYaml (.bool true)) (fun _ => "") switchOff)
      ⟨started (.update (switchOff.mutate plainRuntime fun _ => "") none) switchFile, []⟩
      [.manager false, .manager false, .manager false, .manager false] := by
  refine .cons ?_ rfl (.cons trivial rfl (.cons trivial rfl (.cons trivial rfl trivial)))
  intro document hthere
  obtain rfl : enabledCatalog (.bool true) = document := Option.some.inj hthere
  refine ⟨fun _ _ => trivial, fun document' hmutate halike => ?_⟩
  obtain rfl : enabledCatalog (.bool false) = document' := Except.ok.inj hmutate
  revert halike
  decide

end Ingest

end Papaia
