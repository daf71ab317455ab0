/-
Module: Papaia.Proofs.ServiceWrites
Purpose: What a checked write of the service puts into the file, when the document it is applied to
  may no longer be the one that was checked.
Trusted boundary: HashInjective, LoadsEmpty
Main exports: FitAtRead, landing_of_renames, landing_of_findsWritten,
  set_defaults_keeps_catalog_valid, save_keeps_meaning
-/
import Papaia.Ingest.ServiceWrites
import Papaia.Proofs.Update
import Papaia.Proofs.CatalogSave
import Papaia.Proofs.Editor

namespace Papaia.Ingest

open Runs

variable {κ : Type}

/-! ### The instant of the write -/

/-- The write has found the file as it should be. -/
def FindsWritten (s s' : Serving κ) (found : κ) : Prop :=
  ∃ attempts written data, s.phase = .writing found (.reading attempts) ∧
    s'.phase = .writing found (.returned written data)

/-- The write renames its bytes over the file. -/
def Renames (s s' : Serving κ) (found : κ) : Prop :=
  ∃ attempts snapshot data, s.phase = .writing found (.swapping attempts snapshot data) ∧
    s'.phase = .writing found (.rereading snapshot data)

/-- Where the write reads the file, its document is fit for the change. -/
def FitAtRead (rt : Runtime) (yaml : Yaml) (fit : κ → Mapping → Prop) (s : Serving κ) (e : Event) :
    Prop :=
  match s.phase, e with
  | .writing found (.reading _), .manager _ =>
      ∀ document, documentOf rt yaml s.file = some document → fit found document
  | _, _ => True

/-- A write that is prepared, from a document that is fit. -/
structure FitWrite (rt : Runtime) (yaml : Yaml) (c : ServiceCall κ) (fit : κ → Mapping → Prop)
    (found : κ) (snapshot : JobsSnapshot) (data : Bytes) where
  file : Option Bytes
  document' : Mapping
  read : snapshot = snapshotOf rt yaml (readFile file false)
  document : Mapping
  there : documentOf rt yaml file = some document
  mutated : c.mutate found document = .ok document'
  fits : fit found document
  passes : Passes (c.rules found) document'
  data_eq : data = yaml.dump document'

/-- A write that is prepared is fit. -/
def Ready (rt : Runtime) (yaml : Yaml) (c : ServiceCall κ) (fit : κ → Mapping → Prop) (found : κ) :
    Phase → Prop
  | .staging _ snapshot data | .swapping _ snapshot data =>
      Nonempty (FitWrite rt yaml c fit found snapshot data)
  | _ => True

/-- What holds in each phase: the check found what is written, and a prepared write is fit. -/
def Serves (rt : Runtime) (yaml : Yaml) (c : ServiceCall κ) (fit : κ → Mapping → Prop)
    (s : Serving κ) : Prop :=
  match s.phase with
  | .asking found => ∃ snapshot, c.check snapshot = some found
  | .writing found phase =>
      (∃ snapshot, c.check snapshot = some found) ∧ Ready rt yaml c fit found phase
  | _ => True

/-- The document a write finds in the file, the change of it, and what the write knows of both. -/
structure Landing (rt : Runtime) (yaml : Yaml) (c : ServiceCall κ) (fit : κ → Mapping → Prop)
    (file : Option Bytes) (found : κ) (document' : Mapping) where
  snapshot : JobsSnapshot
  checked : c.check snapshot = some found
  document : Mapping
  there : documentOf rt yaml file = some document
  fits : fit found document
  mutated : c.mutate found document = .ok document'

variable {rt : Runtime} {yaml : Yaml} {c : ServiceCall κ} {fit : κ → Mapping → Prop}

/-- What a read of the file gives the write. -/
theorem decide_call {found : κ} {file : Option Bytes} {fails : Bool} {decision : Decision}
    (h : (c.call found).decide yaml (snapshotOf rt yaml (readFile file fails)) = decision) :
    (∃ error, decision = .refuse error) ∨
      ∃ document document', documentOf rt yaml file = some document ∧
        c.mutate found document = .ok document' ∧
        ((decision = .unchanged ∧ (Val.map document').alike (.map document) = true) ∨
          (decision = .write (yaml.dump document') ∧ Passes (c.rules found) document' ∧
            fails = false)) := by
  rcases decide_update h with hrefuse | ⟨hstructure, document', hmutate, hcase⟩
  · exact .inl hrefuse
  · obtain rfl : fails = false := by
      cases fails with
      | false => rfl
      | true => cases hstructure
    refine .inr ⟨_, document', documentOf_of_read rfl hstructure, hmutate, ?_⟩
    rcases hcase with hunchanged | ⟨hwrite, hpasses⟩
    · exact .inl hunchanged
    · exact .inr ⟨hwrite, hpasses, rfl⟩

/-- A step of the write itself prepares a write only from a document that is fit. -/
theorem ready_step {found : κ} {file : Option Bytes} {fails : Bool} {phase : Phase}
    {result : Option Bytes × Phase} (h : Ready rt yaml c fit found phase)
    (ok : FitAtRead rt yaml fit ⟨file, .writing found phase⟩ (.manager fails))
    (taken : managerStep rt yaml (c.call found) file fails phase = some result) :
    Ready rt yaml c fit found result.2 := by
  cases phase with
  | refused | restored => cases taken
  | reading attempts =>
      simp only [managerStep] at taken
      generalize hdecision : (c.call found).decide yaml (snapshotOf rt yaml (readFile file fails)) =
        decision at taken
      rcases decide_call hdecision with
        ⟨error, rfl⟩ | ⟨document, document', hthere, hmutate, hcase⟩
      · obtain rfl := Option.some.inj taken
        trivial
      · rcases hcase with ⟨rfl, -⟩ | ⟨rfl, hpasses, rfl⟩
        · obtain rfl := Option.some.inj taken
          trivial
        · obtain rfl := Option.some.inj taken
          exact ⟨⟨file, document', rfl, document, hthere, hmutate, ok document hthere, hpasses,
            rfl⟩⟩
  | staging attempts snapshot data =>
      simp only [managerStep] at taken
      split at taken <;> obtain rfl := Option.some.inj taken
      · trivial
      · exact h
  | swapping attempts snapshot data =>
      simp only [managerStep] at taken
      split at taken
      · obtain rfl := Option.some.inj taken
        trivial
      · split at taken
        · obtain rfl := Option.some.inj taken
          trivial
        · split at taken <;> obtain rfl := Option.some.inj taken <;> trivial
  | rereading snapshot data =>
      obtain rfl := Option.some.inj taken
      trivial
  | returned written data | checking written data | unlinking written data
  | restaging written data | reswapping written data =>
      simp only [managerStep] at taken
      repeat' split at taken
      all_goals obtain rfl := Option.some.inj taken
      all_goals trivial

theorem serves_step (s s' : Serving κ) (e : Event) (h : Serves rt yaml c fit s)
    (ok : FitAtRead rt yaml fit s e) (taken : c.step rt yaml s e = some s') :
    Serves rt yaml c fit s' := by
  cases e with
  | foreign content =>
      obtain rfl := Option.some.inj taken
      exact h
  | manager fails =>
      obtain ⟨file, phase⟩ := s
      cases phase with
      | raised => cases taken
      | checking =>
          simp only [ServiceCall.step] at taken
          split at taken
          next =>
            obtain rfl := Option.some.inj taken
            trivial
          next found hfound =>
            obtain rfl := Option.some.inj taken
            cases hasks : c.asks with
            | true => exact ⟨_, hfound⟩
            | false => exact ⟨⟨_, hfound⟩, trivial⟩
      | asking found =>
          obtain rfl := Option.some.inj taken
          cases fails with
          | true => trivial
          | false => exact ⟨h, trivial⟩
      | writing found phase =>
          obtain ⟨hcheck, hready⟩ := h
          obtain ⟨result, hresult, rfl⟩ := Option.map_eq_some_iff.1 taken
          exact ⟨hcheck, ready_step hready ok hresult⟩

/-- A call that begins on a file. -/
def serving (κ : Type) (file : Option Bytes) : Serving κ :=
  ⟨file, .checking⟩

variable {file : Option Bytes} {s s' : Serving κ} {e : Event} {found : κ}

theorem serves_of_reached (reached : Reaches (c.step rt yaml) (FitAtRead rt yaml fit)
    (serving κ file) s) : Serves rt yaml c fit s := by
  refine reached.invariant ?_ ?_
  · trivial
  · intro s e s' h ok taken
    exact serves_step s s' e h ok taken

/-- Where every read of the write finds a document that is fit, so is the one it renames its change
over. -/
theorem landing_of_renames (hash : HashInjective yaml) (hload : LoadsEmpty yaml)
    (reached : Reaches (c.step rt yaml) (FitAtRead rt yaml fit) (serving κ file) s)
    (taken : c.step rt yaml s e = some s') (renames : Renames s s' found) :
    ∃ document', Nonempty (Landing rt yaml c fit s.file found document') ∧
      s'.file = some (yaml.dump document') ∧ Passes (c.rules found) document' := by
  have hserves := serves_of_reached reached
  obtain ⟨file, phase⟩ := s
  obtain ⟨file', phase'⟩ := s'
  obtain ⟨attempts, snapshot, data, rfl, rfl⟩ := renames
  cases e with
  | foreign content => cases Option.some.inj taken
  | manager fails =>
      obtain ⟨⟨checked, hchecked⟩,
        ⟨read, document', hread, document, hthere, hmutate, hfit, hpasses, rfl⟩⟩ := hserves
      obtain ⟨result, hresult, hs'⟩ := Option.map_eq_some_iff.1 taken
      simp only [managerStep] at hresult
      split at hresult
      · obtain rfl := Option.some.inj hresult
        simp at hs'
      · split at hresult
        · rename_i hrevision
          obtain rfl := Option.some.inj hresult
          simp only [Serving.mk.injEq] at hs'
          rw [hread, revision_of_read] at hrevision
          have hsame := (documentOf_eq hash hload hrevision).trans hthere
          exact ⟨document', ⟨checked, hchecked, document, hsame, hfit, hmutate⟩, hs'.1.symm,
            hpasses⟩
        · split at hresult <;> obtain rfl := Option.some.inj hresult <;> simp at hs'

/-- The same where the write finds nothing to change. -/
theorem landing_of_findsWritten
    (reached : Reaches (c.step rt yaml) (FitAtRead rt yaml fit) (serving κ file) s)
    (ok : FitAtRead rt yaml fit s e) (taken : c.step rt yaml s e = some s')
    (finds : FindsWritten s s' found) :
    ∃ document', ∃ landing : Landing rt yaml c fit s.file found document',
      s'.file = s.file ∧ (Val.map document').alike (.map landing.document) = true := by
  have hserves := serves_of_reached reached
  obtain ⟨file, phase⟩ := s
  obtain ⟨file', phase'⟩ := s'
  obtain ⟨attempts, written, data, rfl, rfl⟩ := finds
  cases e with
  | foreign content => cases Option.some.inj taken
  | manager fails =>
      obtain ⟨⟨checked, hchecked⟩, -⟩ := hserves
      obtain ⟨result, hresult, hs'⟩ := Option.map_eq_some_iff.1 taken
      simp only [managerStep] at hresult
      generalize hdecision : (c.call found).decide yaml
        (snapshotOf rt yaml (readFile file fails)) = decision at hresult
      rcases decide_call hdecision with
        ⟨error, rfl⟩ | ⟨document, document', hthere, hmutate, hcase⟩
      · obtain rfl := Option.some.inj hresult
        simp at hs'
      · rcases hcase with ⟨rfl, halike⟩ | ⟨rfl, -, rfl⟩
        · obtain rfl := Option.some.inj hresult
          simp only [Serving.mk.injEq] at hs'
          exact ⟨document', ⟨checked, hchecked, document, hthere, ok document hthere, hmutate⟩,
            hs'.1.symm, halike⟩
        · obtain rfl := Option.some.inj hresult
          simp at hs'

/-! ### A change of the defaults -/

/-- The file lists the jobs the check saw. -/
def SameJobs (checked document : Mapping) : Prop :=
  document.get? "jobs" = checked.get? "jobs"

theorem get?_putDefaults (defaults document : Mapping) {key : String} (hkey : key ≠ "defaults") :
    (putDefaults defaults document).get? key = document.get? key := by
  have hne : Scalar.str key ≠ .str "defaults" := fun h => hkey (Scalar.str.inj h)
  unfold putDefaults
  split
  · exact Mapping.lookup_pop_of_ne document hne
  · exact Mapping.lookup_put_of_ne document _ hne

theorem get?_putDefaults_self (defaults document : Mapping) :
    (putDefaults defaults document).get? "defaults" =
      if defaults.isEmpty then none else some (.map defaults) := by
  unfold putDefaults
  split
  · exact Mapping.get?_pop_self document "defaults"
  · exact Mapping.get?_put_self document "defaults" _

/-- A catalog of version one is judged by its defaults and its jobs. -/
theorem checkCatalog_congr {rt : Runtime} {ctx : RuleContext} {document other : Mapping}
    (hversion : isVersionOne document = true) (hother : isVersionOne other = true)
    (hdefaults : document.get? "defaults" = other.get? "defaults")
    (hjobs : document.get? "jobs" = other.get? "jobs") :
    checkCatalog rt document ctx = checkCatalog rt other ctx := by
  have hdefaultsOf : defaultsOf document = defaultsOf other := by
    rw [defaultsOf, defaultsOf, Mapping.getD, Mapping.getD, hdefaults]
  have hjobsOf : jobsOf document = jobsOf other := by
    rw [jobsOf, jobsOf, Mapping.getD, Mapping.getD, hjobs]
  simp [checkCatalog, hversion, hother, hdefaultsOf, hjobsOf]

/-- A document that can be changed is of version one. -/
theorem isVersionOne_of_parseJobs {rt : Runtime} {yaml : Yaml} {raw : Bytes}
    (h : (parseJobs rt yaml raw).2 = none) : isVersionOne (parseJobs rt yaml raw).1 = true := by
  unfold parseJobs parseDocument at h ⊢
  cases hload : yaml.load raw with
  | error text => simp [hload] at h
  | ok value =>
      cases htop : topLevel value with
      | none => simp [hload, htop] at h
      | some mapping =>
          cases hversion : isVersionOne (setDefault mapping "version" (.int 1)) with
          | false => simp [hload, htop, hversion] at h
          | true =>
              simp only [hversion, Bool.not_true, Bool.false_eq_true, if_false, hload, htop] at h ⊢
              split
              · rw [isVersionOne, Mapping.getD, Mapping.get?_put_of_ne _ _ (by decide)]
                exact hversion
              · exact hversion
              · simp_all

theorem isVersionOne_of_documentOf {rt : Runtime} {yaml : Yaml} {file : Option Bytes}
    {document : Mapping} (h : documentOf rt yaml file = some document) :
    isVersionOne document = true := by
  simp only [documentOf] at h
  split at h
  next hstructure =>
    obtain rfl := Option.some.inj h
    cases file with
    | none => rfl
    | some raw => exact isVersionOne_of_parseJobs hstructure
  next => cases h

theorem setDefaultsCheck_eq_some {rt : Runtime} {ctx : RuleContext} {sections found : Mapping}
    {snapshot : JobsSnapshot} (h : setDefaultsCheck rt ctx sections snapshot = some found) :
    checkCatalog rt (putDefaults (cleanSections sections) found) ctx = [] := by
  simp only [setDefaultsCheck] at h
  split at h
  next => cases h
  next =>
    split at h
    next hclean =>
      obtain rfl := Option.some.inj h
      exact hclean
    next => cases h

/-- What the check has allowed is allowed for every document with the same jobs. -/
theorem clean_of_sameJobs {rt : Runtime} {ctx : RuleContext} {defaults checked document : Mapping}
    (hchecked : checkCatalog rt (putDefaults defaults checked) ctx = [])
    (hversion : isVersionOne document = true) (hsame : SameJobs checked document) :
    checkCatalog rt (putDefaults defaults document) ctx = [] := by
  obtain ⟨_, _, hframed⟩ := framed_of_clean hchecked
  rw [← hchecked]
  refine checkCatalog_congr ?_ hframed.version ?_ ?_
  · rw [isVersionOne, Mapping.getD, get?_putDefaults _ _ (by decide)]
    exact hversion
  · rw [get?_putDefaults_self, get?_putDefaults_self]
  · rw [get?_putDefaults _ _ (by decide), get?_putDefaults _ _ (by decide)]
    exact hsame

/-- New defaults: the pieces overlap by three hundred words. -/
def wideOverlap : Mapping :=
  [(.str "chunking", .map [(.str "overlap", .int 300)])]

/-- A job with pieces of two hundred words, which overlap by fifty when nothing else is said. -/
def shortPieces : Mapping :=
  (folderJob "docs" "docs" "docs").put (.str "chunking") (.map [(.str "words", .int 200)])

/-- The library on the file of another administrator. -/
def otherYaml (document : Mapping) : Yaml :=
  catalogYaml "jobs: [docs]" document

def otherFile : Option Bytes :=
  some (asciiBytes "jobs: [docs]")

/-- The defaults about to be renamed in, after somebody else has put the document there. -/
def defaultsUnderway (document : Mapping) : Serving Mapping :=
  ⟨otherFile, .writing starter (.swapping 3
    (snapshotOf plainRuntime (otherYaml document) (readFile otherFile false))
    ((otherYaml document).dump (putDefaults (cleanSections wideOverlap) document)))⟩

/-- The same after the rename. -/
def defaultsRenamed (document : Mapping) : Serving Mapping :=
  ⟨some ((otherYaml document).dump (putDefaults (cleanSections wideOverlap) document)),
    .writing starter (.rereading
      (snapshotOf plainRuntime (otherYaml document) (readFile otherFile false))
      ((otherYaml document).dump (putDefaults (cleanSections wideOverlap) document)))⟩

/-- A catalog without jobs and with defaults that hold nothing. -/
def otherDefaults : Mapping :=
  starter ++ [(.str "defaults", .map [])]

theorem other_defaults_permitted :
    Permits ((setDefaultsCall plainRuntime (fun _ => "") {} wideOverlap).step plainRuntime
      (otherYaml otherDefaults)) (FitAtRead plainRuntime (otherYaml otherDefaults) SameJobs)
      (serving Mapping none)
      [.manager false, .foreign otherFile, .manager false, .manager false] := by
  refine .cons trivial rfl (.cons trivial rfl (.cons ?_ rfl (.cons trivial rfl trivial)))
  intro document hthere
  obtain rfl := Option.some.inj hthere
  rfl

/-- A check, a change of the file by somebody else, and a write that the file allows. -/
theorem renames_undisturbed {other : Option Bytes} {document' : Mapping} (hasks : c.asks = true)
    (hcheck : c.check (snapshotOf rt yaml (readFile file false)) = some found)
    (hread : (snapshotOf rt yaml (readFile other false)).structuralError = none)
    (hmutate : c.mutate found (snapshotOf rt yaml (readFile other false)).document = .ok document')
    (hchanged : (Val.map document').alike
      (.map (snapshotOf rt yaml (readFile other false)).document) = false)
    (hpasses : Passes (c.rules found) document')
    (hfit : fit found (snapshotOf rt yaml (readFile other false)).document) :
    ∃ s s', Reaches (c.step rt yaml) (FitAtRead rt yaml fit) (serving κ file) s ∧
      s.file = other ∧ c.step rt yaml s (.manager false) = some s' ∧ Renames s s' found ∧
      s'.file = some (yaml.dump document') := by
  generalize hsnapshot : snapshotOf rt yaml (readFile other false) = snapshot at *
  have hasking : c.step rt yaml (serving κ file) (.manager false) =
      some ⟨file, .asking found⟩ := by
    simp [ServiceCall.step, serving, hcheck, hasks]
  have hdecision : (c.call found).decide yaml snapshot = .write (yaml.dump document') := by
    have hno : ((c.rules found).map fun check => check document').getD [] = [] := hpasses
    simp [ServiceCall.call, Call.decide, hread, hmutate, hchanged, hno]
  have hstaging : c.step rt yaml ⟨other, .writing found (.reading 3)⟩ (.manager false) =
      some ⟨other, .writing found (.staging 3 snapshot (yaml.dump document'))⟩ := by
    simp [ServiceCall.step, managerStep, hsnapshot, hdecision]
  have hthere : (snapshot.present && other.isNone) = false := by
    rw [← hsnapshot]
    cases other <;> rfl
  have hswapping : c.step rt yaml
      ⟨other, .writing found (.staging 3 snapshot (yaml.dump document'))⟩ (.manager false) =
      some ⟨other, .writing found (.swapping 3 snapshot (yaml.dump document'))⟩ := by
    simp [ServiceCall.step, managerStep, hthere]
  have hrevision : currentRevision yaml other = snapshot.revision := by
    rw [← hsnapshot, revision_of_read]
  refine ⟨⟨other, .writing found (.swapping 3 snapshot (yaml.dump document'))⟩,
    ⟨some (yaml.dump document'), .writing found (.rereading snapshot (yaml.dump document'))⟩,
    ?_, rfl, ?_, ⟨3, snapshot, _, rfl, rfl⟩, rfl⟩
  · have hasked : Reaches (c.step rt yaml) (FitAtRead rt yaml fit) (serving κ file)
        ⟨file, .asking found⟩ := Reaches.refl.next trivial hasking
    have hbegun : Reaches (c.step rt yaml) (FitAtRead rt yaml fit) (serving κ file)
        ⟨file, .writing found (.reading 3)⟩ := hasked.next (e := .manager false) trivial rfl
    have hreading : Reaches (c.step rt yaml) (FitAtRead rt yaml fit) (serving κ file)
        ⟨other, .writing found (.reading 3)⟩ := hbegun.next (e := .foreign other) trivial rfl
    refine (hreading.next ?_ hstaging).next trivial hswapping
    intro document hdocument
    simp only [documentOf, hsnapshot, hread, if_true] at hdocument
    obtain rfl := Option.some.inj hdocument
    exact hfit
  · simp [ServiceCall.step, managerStep, hrevision]

/-! ### A save -/

/-- The entry means under the defaults of the file what it meant when it was checked.  Where the
file holds it already, it holds the same values, and the catalog is the one that was checked. -/
structure FitToSave (rt : Runtime) (etagOf : Val → String) (request : SaveRequest)
    (candidate : Candidate) (document : Mapping) : Prop where
  meaning : effective candidate.entry (serviceDefaults document) =
    effective candidate.entry candidate.defaults
  unchanged : ∀ document', (Change.putJob candidate.jobId candidate.entry request.create
      request.opened).mutate rt etagOf document = .ok document' →
    (Val.map document').alike (.map document) = true →
      (Val.map document').same (.map document) = true ∧ document' = candidate.document

/-- The document holds the entry of the candidate, which means there what was checked. -/
structure SavedAsChecked (rt : Runtime) (candidate : Candidate) (document' : Mapping) : Prop where
  placed : ∃ jobs, document'.get? "jobs" =
    some (.list (placeJob jobs candidate.jobId candidate.entry))
  parses : ∃ spec, candidate.spec = some spec ∧
    parseJob rt candidate.entry (serviceDefaults document') none = (some spec, [])

theorem parseJob_eq_nil {rt : Runtime} {raw defaults : Mapping} {label : Option String}
    {spec : Option JobSpec} (h : parseJob rt raw defaults label = (spec, [])) :
    ∃ found, spec = some found := by
  unfold parseJob at h
  cases hread : readJobSpec rt (effective raw defaults) with
  | ok found =>
      rw [hread] at h
      exact ⟨found, (congrArg Prod.fst h).symm⟩
  | error faults =>
      rw [hread] at h
      have hissues := congrArg Prod.snd h
      exact absurd (List.map_eq_nil_iff.mp hissues) faults.toList_ne_nil

/-- A candidate nothing is wrong with. -/
theorem saveCheck_eq_some {rt : FormRuntime} {ctx : RuleContext} {request : SaveRequest}
    {snapshot : JobsSnapshot} {candidate : Candidate}
    (h : saveCheck rt ctx request snapshot = some candidate) :
    ∃ spec, candidate.spec = some spec ∧
      parseJob rt.toRuntime candidate.entry candidate.defaults none = (some spec, []) ∧
      checkOne rt.toRuntime candidate.document candidate.jobId ctx = [] := by
  obtain ⟨hcandidate, hproblems⟩ := Option.filter_eq_some_iff.mp h
  rw [List.isEmpty_iff, Candidate.problems, List.append_eq_nil_iff] at hproblems
  obtain ⟨hissues, hrules⟩ := hproblems
  have hparse : parseJob rt.toRuntime candidate.entry candidate.defaults none =
      (candidate.spec, []) := by
    unfold candidateOf at hcandidate
    split at hcandidate
    next => cases hcandidate
    next =>
      simp only [Option.bind_eq_bind, Option.bind_eq_some_iff] at hcandidate
      obtain ⟨⟨entry, issues⟩, -, document, -, hcandidate⟩ := hcandidate
      cases hparse : parseJob rt.toRuntime entry (serviceDefaults snapshot.document) none with
      | mk spec schemaIssues =>
          rw [hparse] at hcandidate
          obtain rfl := Option.some.inj hcandidate
          simp only [List.append_eq_nil_iff] at hissues
          rw [hparse, hissues.2]
  obtain ⟨spec, hspec⟩ := parseJob_eq_nil hparse
  rw [hspec] at hparse hrules
  exact ⟨spec, hspec, hparse, hrules⟩

/-- A candidate that is placed in a document under whose defaults it means the same. -/
theorem savedAsChecked_of_fit {rt : FormRuntime} {etagOf : Val → String} {ctx : RuleContext}
    {request : SaveRequest} {snapshot : JobsSnapshot} {candidate : Candidate}
    {document document' : Mapping} (hcheck : saveCheck rt ctx request snapshot = some candidate)
    (hmeaning : effective candidate.entry (serviceDefaults document) =
      effective candidate.entry candidate.defaults)
    (hmutate : (Change.putJob candidate.jobId candidate.entry request.create
      request.opened).mutate rt.toRuntime etagOf document = .ok document') :
    SavedAsChecked rt.toRuntime candidate document' := by
  obtain ⟨spec, hspec, hparse, -⟩ := saveCheck_eq_some hcheck
  obtain ⟨jobs, jobs', hjobs, hput, rfl⟩ := onJobs_eq_ok hmutate
  obtain rfl := putJob_eq_place hput
  have hdefaults : serviceDefaults (document.put (.str "jobs")
      (.list (placeJob jobs candidate.jobId candidate.entry))) = serviceDefaults document := by
    simp [serviceDefaults, mappingAt, Mapping.getD, Mapping.get?_put_of_ne]
  refine ⟨⟨jobs, Mapping.get?_put_self document "jobs" _⟩, spec, hspec, ?_⟩
  rw [hdefaults, ← hparse]
  unfold parseJob
  rw [hmeaning]

/-- In every run in which the entry means under the defaults of the file what it meant in the check,
whenever the write reads the file, a save leaves its entry there as it was checked. -/
theorem save_keeps_meaning (rt : FormRuntime) (yaml : Yaml) (hash : HashInjective yaml)
    (hload : LoadsEmpty yaml) (etagOf : Val → String) (ctx current : RuleContext)
    (request : SaveRequest) (file : Option Bytes) (s s' : Serving Candidate) (e : Event)
    (candidate : Candidate)
    (reached : Reaches ((saveCall rt etagOf ctx current request).step rt.toRuntime yaml)
      (FitAtRead rt.toRuntime yaml (FitToSave rt.toRuntime etagOf request))
      (serving Candidate file) s)
    (ok : FitAtRead rt.toRuntime yaml (FitToSave rt.toRuntime etagOf request) s e)
    (taken : (saveCall rt etagOf ctx current request).step rt.toRuntime yaml s e = some s')
    (lands : FindsWritten s s' candidate ∨ Renames s s' candidate) :
    ∃ document document', documentOf rt.toRuntime yaml s.file = some document ∧
      (Change.putJob candidate.jobId candidate.entry request.create
        request.opened).mutate rt.toRuntime etagOf document = .ok document' ∧
      SavedAsChecked rt.toRuntime candidate document' ∧
      ((s'.file = s.file ∧ (Val.map document').same (.map document) = true ∧
          checkOne rt.toRuntime document' candidate.jobId ctx = []) ∨
        (s'.file = some (yaml.dump document') ∧
          checkOne rt.toRuntime document' candidate.jobId current = [])) := by
  rcases lands with hfinds | hrenames
  · obtain ⟨document', ⟨snapshot, hcheck, document, hthere, hfit, hmutate⟩, hfile, halike⟩ :=
      landing_of_findsWritten reached ok taken hfinds
    obtain ⟨hsame, hdocument⟩ := hfit.unchanged document' hmutate halike
    obtain ⟨_, -, -, hrules⟩ := saveCheck_eq_some hcheck
    rw [← hdocument] at hrules
    exact ⟨document, document', hthere, hmutate,
      savedAsChecked_of_fit hcheck hfit.meaning hmutate, .inl ⟨hfile, hsame, hrules⟩⟩
  · obtain ⟨document', ⟨snapshot, hcheck, document, hthere, hfit, hmutate⟩, hfile, hpasses⟩ :=
      landing_of_renames hash hload reached taken hrenames
    have hrules : checkOne rt.toRuntime document' candidate.jobId current = [] :=
      List.map_eq_nil_iff.mp hpasses
    exact ⟨document, document', hthere, hmutate,
      savedAsChecked_of_fit hcheck hfit.meaning hmutate, .inr ⟨hfile, hrules⟩⟩

/-! ### A default that is set while the ingester is asked -/

/-- A new job of the editor, on a schedule of its own. -/
def newFolder : SaveRequest where
  state := folderState "daily" "bge-m3"
  create := true
  opened := none
  originalId := none

/-- A catalog without jobs and with defaults. -/
def defaultsCatalog (defaults : Mapping) : Mapping :=
  starter ++ [(.str "defaults", .map defaults)]

/-- The catalog with an entry as its only job. -/
def withJob (defaults entry : Mapping) : Mapping :=
  (defaultsCatalog defaults).put (.str "jobs") (.list [.map entry])

/-- The check of the new job, on a file that is not there. -/
def newCandidate : Option Candidate :=
  saveCheck plainFormRuntime {} newFolder (snapshotOf plainRuntime (otherYaml []) .missing)

/-- What the new job means where another administrator has set defaults, and what the rules say. -/
def placedUnder (defaults : Mapping) (candidate : Candidate) : Option Int × Bool × List Issue :=
  ((parseJob plainRuntime candidate.entry defaults none).1.map fun spec => spec.chunking.words,
    (Val.map (withJob defaults candidate.entry)).alike (.map (defaultsCatalog defaults)),
    checkOne plainRuntime (withJob defaults candidate.entry) candidate.jobId {})

/-- The save of the new job on a file that is not there, where another administrator puts a catalog
with defaults there while the ingester is asked. -/
theorem new_folder_renames (fit : Candidate → Mapping → Prop) {defaults : Mapping}
    {candidate : Candidate} {words : Option Int} (hcandidate : newCandidate = some candidate)
    (hplaced : placedUnder defaults candidate = (words, false, []))
    (hfit : fit candidate (defaultsCatalog defaults)) :
    ∃ s s', Reaches ((saveCall plainFormRuntime (fun _ => "") {} {} newFolder).step plainRuntime
        (otherYaml (defaultsCatalog defaults)))
        (FitAtRead plainRuntime (otherYaml (defaultsCatalog defaults)) fit)
        (serving Candidate none) s ∧ s.file = otherFile ∧
      (saveCall plainFormRuntime (fun _ => "") {} {} newFolder).step plainRuntime
        (otherYaml (defaultsCatalog defaults)) s (.manager false) = some s' ∧
      Renames s s' candidate ∧
      s'.file = some ((otherYaml (defaultsCatalog defaults)).dump
        (withJob defaults candidate.entry)) := by
  simp only [placedUnder, Prod.mk.injEq] at hplaced
  refine renames_undisturbed rfl hcandidate rfl rfl hplaced.2.1 ?_ hfit
  show (checkOne plainRuntime (withJob defaults candidate.entry) candidate.jobId {}).map
    Issue.text = []
  rw [hplaced.2.2, List.map_nil]

/-- The default another administrator sets. -/
def smallPieces : Mapping :=
  [(.str "chunking", .map [(.str "words", .int 100)])]

/-- The pieces of four hundred words are the default when the entry is checked, so it does not name
them, and a hundred when it is written. -/
theorem default_set_while_asking_changes_the_job :
    ¬∀ (rt : FormRuntime) (yaml : Yaml), HashInjective yaml → LoadsEmpty yaml →
      ∀ (etagOf : Val → String) (ctx current : RuleContext) (request : SaveRequest)
        (file : Option Bytes) (s s' : Serving Candidate) (e : Event) (candidate : Candidate),
        Reaches ((saveCall rt etagOf ctx current request).step rt.toRuntime yaml)
          (fun _ _ => True) (serving Candidate file) s →
        (saveCall rt etagOf ctx current request).step rt.toRuntime yaml s e = some s' →
        (FindsWritten s s' candidate ∨ Renames s s' candidate) →
        ∃ document, documentOf rt.toRuntime yaml s.file = some document ∧
          (parseJob rt.toRuntime candidate.entry (serviceDefaults document) none).1 =
            candidate.spec := by
  intro h
  have hfacts : newCandidate.map (fun c => (c.spec.map fun spec => spec.chunking.words,
      placedUnder smallPieces c)) = some (some 400, some 100, false, []) := by decide +kernel
  obtain ⟨candidate, hcandidate, hfacts⟩ := Option.map_eq_some_iff.mp hfacts
  obtain ⟨hspec, hplaced⟩ := Prod.mk.inj hfacts
  obtain ⟨s, s', hreached, hfile, htaken, hrenames, -⟩ :=
    new_folder_renames (fun _ _ => True) hcandidate hplaced trivial
  obtain ⟨document, hthere, hmeaning⟩ := h plainFormRuntime _ (catalogYaml_hashInjective _ _) rfl
    (fun _ => "") {} {} newFolder none s s' (.manager false) candidate
    (hreached.mono fun _ _ _ => trivial) htaken (.inr hrenames)
  rw [hfile] at hthere
  obtain rfl : defaultsCatalog smallPieces = document := Option.some.inj hthere
  have hwords : (parseJob plainRuntime candidate.entry smallPieces none).1.map
      (fun spec => spec.chunking.words) = some 100 := congrArg Prod.fst hplaced
  have hsame : (parseJob plainRuntime candidate.entry smallPieces none).1 = candidate.spec :=
    hmeaning
  rw [hsame, hspec] at hwords
  simp at hwords

/-- The other administrator writes a catalog without a default. -/
theorem save_into_another_catalog :
    ∃ candidate s s', newCandidate = some candidate ∧ Renames s s' candidate ∧
      ∃ document document', documentOf plainRuntime (otherYaml (defaultsCatalog [])) s.file =
          some document ∧
        (Change.putJob candidate.jobId candidate.entry true none).mutate plainRuntime
          (fun _ => "") document = .ok document' ∧
        SavedAsChecked plainRuntime candidate document' ∧
        ((s'.file = s.file ∧ (Val.map document').same (.map document) = true ∧
            checkOne plainRuntime document' candidate.jobId {} = []) ∨
          (s'.file = some ((otherYaml (defaultsCatalog [])).dump document') ∧
            checkOne plainRuntime document' candidate.jobId {} = [])) := by
  have hfacts : newCandidate.map (fun c => (c.defaults.isEmpty, placedUnder [] c)) =
      some (true, some 400, false, []) := by decide +kernel
  obtain ⟨candidate, hcandidate, hfacts⟩ := Option.map_eq_some_iff.mp hfacts
  obtain ⟨hdefaults, hplaced⟩ := Prod.mk.inj hfacts
  have hfit : FitToSave plainRuntime (fun _ => "") newFolder candidate (defaultsCatalog []) := by
    refine ⟨?_, ?_⟩
    · rw [List.isEmpty_iff.mp hdefaults]
      rfl
    · intro document' hmutate halike
      obtain rfl : withJob [] candidate.entry = document' := Except.ok.inj hmutate
      have hchanged := congrArg (fun placed => placed.2.1) hplaced
      exact absurd halike (by simpa [placedUnder] using hchanged)
  obtain ⟨s, s', hreached, -, htaken, hrenames, -⟩ := new_folder_renames _ hcandidate hplaced hfit
  refine ⟨candidate, s, s', hcandidate, hrenames, ?_⟩
  obtain ⟨attempts, snapshot, data, hphase, -⟩ := id hrenames
  have hok : FitAtRead plainRuntime (otherYaml (defaultsCatalog []))
      (FitToSave plainRuntime (fun _ => "") newFolder) s (.manager false) := by
    simp [FitAtRead, hphase]
  exact save_keeps_meaning plainFormRuntime _ (catalogYaml_hashInjective _ _) rfl (fun _ => "") {}
    {} newFolder none s s' (.manager false) candidate hreached hok htaken (.inr hrenames)

end Papaia.Ingest
