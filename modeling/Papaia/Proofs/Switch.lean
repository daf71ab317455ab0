/-
Module: Papaia.Proofs.Switch
Purpose: What `set_enabled` leaves in `jobs.yaml`.  A job is enabled as the manager reads it when the
  key is not `False` itself, and as the ingester reads it when the schema makes `True` of it.
Trusted boundary: Runtime, Yaml (what is dumped is loaded again), the rules' context
Main exports: Paused, EnabledTwice, PausesCleanly, set_enabled_holds_iff
-/
import Papaia.Proofs.CatalogLoad
import Papaia.Proofs.ServiceWrites

namespace Papaia.Ingest

open Runs

/-! ### The two readings -/

/-- `JobSpec.enabled` of an entry; none for one that is no job. -/
def schemaEnabled (rt : Runtime) (document job : Mapping) : Option Bool :=
  (parseJob rt job (serviceDefaults document) none).1.map (·.enabled)

/-- Neither reading takes the entry for an enabled job. -/
def IsPaused (rt : Runtime) (document job : Mapping) : Prop :=
  enabledOf job = false ∧ schemaEnabled rt document job ≠ some true

/-- No job with the id is enabled. -/
def Paused (rt : Runtime) (document : Mapping) (jobId : String) : Prop :=
  ∀ jobs, document.get? "jobs" = some (.list jobs) → ∀ job, .map job ∈ jobs →
    hasId jobId (.map job) = true → IsPaused rt document job

/-- The job with the id is enabled by both readings. -/
def EnabledTwice (rt : Runtime) (document : Mapping) (jobId : String) : Prop :=
  ∃ jobs job, document.get? "jobs" = some (.list jobs) ∧ findJob jobs jobId = some (.map job) ∧
    enabledOf job = true ∧ schemaEnabled rt document job = some true

/-! ### When it holds -/

/-- A job is stored as disabled by a number: Python finds it equal to `False`, and it is not
`False`. -/
def StoredZero (job : Mapping) : Prop :=
  ∃ v, job.get? "enabled" = some v ∧ v ≠ .bool false ∧ (Val.bool false).eqv v = true

/-- The first job with the id is not disabled by a number, and no later one with it is enabled. -/
def PausesCleanly (rt : Runtime) (document : Mapping) (jobId : String) : Prop :=
  ∀ jobs, document.get? "jobs" = some (.list jobs) →
    (∀ job, findJob jobs jobId = some (.map job) → ¬StoredZero job) ∧
      ∀ job, .map job ∈ (jobs.filter (hasId jobId)).tail → IsPaused rt document job

/-- The rules can look at the job at all, or it is a job without them. -/
def ReachedByRules (rt : Runtime) (document : Mapping) (jobId : String) : Prop :=
  ((defaultsOf document).isSome = true ∧ jobId ≠ "") ∨
    ∀ jobs job, document.get? "jobs" = some (.list jobs) → findJob jobs jobId = some (.map job) →
      (parseJob rt (Mapping.pop job "enabled") (serviceDefaults document) none).1.isSome = true

/-! ### What else the file holds -/

/-- The documents differ at most in the key `enabled` of one job with the id. -/
structure OnlySwitched (jobId : String) (document document' : Mapping) : Prop where
  keys : document'.map Prod.fst = document.map Prod.fst
  others : ∀ key, key ≠ .str "jobs" → document'.lookup key = document.lookup key
  jobs : ∃ before job job' after,
    document.get? "jobs" = some (.list (before ++ .map job :: after)) ∧
      document'.get? "jobs" = some (.list (before ++ .map job' :: after)) ∧
        hasId jobId (.map job) = true ∧ Mapping.pop job' "enabled" = Mapping.pop job "enabled"

/-! ### A call nobody disturbs -/

section Undisturbed

variable {κ : Type}

/-- Nobody else touches the file, and the check can read it. -/
def Alone (s : Serving κ) : Event → Prop
  | .foreign _ => False
  | .manager fails =>
      match s.phase with
      | .checking => fails = false
      | _ => True

variable (rt : Runtime) (yaml : Yaml) (c : ServiceCall κ) (file : Option Bytes)

/-- What a call that found the file so leaves there: what was there, when the change is none, and
the changed document otherwise. -/
def Settled (found : κ) (after : Option Bytes) : Prop :=
  ∃ document document', documentOf rt yaml file = some document ∧
    c.mutate found document = .ok document' ∧
      (((Val.map document').alike (.map document) = true ∧ after = file) ∨
        ((file.isSome = true → (Val.map document').alike (.map document) = false) ∧
          Passes (c.rules found) document' ∧ after = some (yaml.dump document')))

/-- How far a write has come. -/
def Underway (found : κ) (now : Option Bytes) : Phase → Prop
  | .reading _ => now = file
  | .staging _ _ data | .swapping _ _ data => now = file ∧ Settled rt yaml c file found (some data)
  | .rereading _ _ | .returned _ _ => Settled rt yaml c file found now
  | _ => True

/-- What holds in each phase of a call nobody disturbs. -/
def OnItsOwn (s : Serving κ) : Prop :=
  match s.phase with
  | .checking => s.file = file
  | .asking found =>
      s.file = file ∧ c.check (snapshotOf rt yaml (readFile file false)) = some found
  | .writing found phase =>
      c.check (snapshotOf rt yaml (readFile file false)) = some found ∧
        Underway rt yaml c file found s.file phase
  | .raised => True

variable {rt yaml c file}

/-- A document that is written over a file differs from the one that is there. -/
theorem not_alike_of_write {mutate : Mapping → Except CatalogError Mapping}
    {rules : Option (Mapping → List String)} {snapshot : JobsSnapshot} {data : Bytes}
    {document' : Mapping} (h : (Call.update mutate rules).decide yaml snapshot = .write data)
    (hmutate : mutate snapshot.document = .ok document') (hpresent : snapshot.present = true) :
    (Val.map document').alike (.map snapshot.document) = false := by
  simp only [Call.decide] at h
  split at h
  next => cases h
  next =>
    rw [hmutate, hpresent] at h
    dsimp only at h
    split at h
    next => cases h
    next hchanged => simpa using hchanged

theorem underway_step {found : κ} {now : Option Bytes} {fails : Bool} {phase : Phase}
    {result : Option Bytes × Phase} (h : Underway rt yaml c file found now phase)
    (taken : managerStep rt yaml (c.call found) now fails phase = some result) :
    Underway rt yaml c file found result.1 result.2 := by
  cases phase with
  | refused | restored => cases taken
  | reading attempts =>
      obtain rfl : now = file := h
      simp only [managerStep] at taken
      generalize hdecision : (c.call found).decide yaml (snapshotOf rt yaml (readFile now fails)) =
        decision at taken
      rcases decide_call hdecision with
        ⟨error, rfl⟩ | ⟨document, document', hthere, hmutate, hcase⟩
      · obtain rfl := Option.some.inj taken
        trivial
      · rcases hcase with ⟨rfl, halike⟩ | ⟨rfl, hpasses, rfl⟩
        · obtain rfl := Option.some.inj taken
          exact ⟨document, document', hthere, hmutate, .inl ⟨halike, rfl⟩⟩
        · obtain rfl := Option.some.inj taken
          refine ⟨rfl, document, document', hthere, hmutate, .inr ⟨?_, hpasses, rfl⟩⟩
          intro hsome
          obtain ⟨raw, rfl⟩ := Option.isSome_iff_exists.1 hsome
          have hdocument : (snapshotOf rt yaml (readFile (some raw) false)).document = document := by
            simp only [documentOf] at hthere
            split at hthere
            next => exact Option.some.inj hthere
            next => cases hthere
          rw [← hdocument] at hmutate ⊢
          exact not_alike_of_write hdecision hmutate rfl
  | staging attempts snapshot data =>
      simp only [managerStep] at taken
      split at taken <;> obtain rfl := Option.some.inj taken
      · trivial
      · exact h
  | swapping attempts snapshot data =>
      simp only [managerStep] at taken
      split at taken
      · obtain rfl := Option.some.inj taken
        trivial
      · split at taken
        · obtain rfl := Option.some.inj taken
          exact h.2
        · split at taken <;> obtain rfl := Option.some.inj taken
          · trivial
          · trivial
          · exact h.1
  | rereading snapshot data =>
      obtain rfl := Option.some.inj taken
      exact h
  | returned written data | checking written data | unlinking written data
  | restaging written data | reswapping written data =>
      simp only [managerStep] at taken
      repeat' split at taken
      all_goals obtain rfl := Option.some.inj taken
      all_goals trivial

theorem onItsOwn_step (s : Serving κ) (e : Event) (s' : Serving κ)
    (h : OnItsOwn rt yaml c file s) (ok : Alone s e) (taken : c.step rt yaml s e = some s') :
    OnItsOwn rt yaml c file s' := by
  cases e with
  | foreign content => exact ok.elim
  | manager fails =>
      obtain ⟨now, phase⟩ := s
      cases phase with
      | raised => cases taken
      | checking =>
          obtain rfl : now = file := h
          obtain rfl : fails = false := ok
          simp only [ServiceCall.step] at taken
          split at taken
          next =>
            obtain rfl := Option.some.inj taken
            trivial
          next found hfound =>
            obtain rfl := Option.some.inj taken
            cases hasks : c.asks with
            | true => exact ⟨rfl, hfound⟩
            | false => exact ⟨hfound, rfl⟩
      | asking found =>
          obtain rfl := Option.some.inj taken
          cases fails with
          | true => trivial
          | false => exact ⟨h.2, h.1⟩
      | writing found phase =>
          obtain ⟨result, hresult, rfl⟩ := Option.map_eq_some_iff.1 taken
          exact ⟨h.1, underway_step h.2 hresult⟩

/-- A call that has returned has checked the file it found, and has left the change of it there. -/
theorem settled_of_returned {s : Serving κ} {found : κ} {written : Written} {data : Bytes}
    (reached : Reaches (c.step rt yaml) Alone (serving κ file) s)
    (returned : s.phase = .writing found (.returned written data)) :
    c.check (snapshotOf rt yaml (readFile file false)) = some found ∧
      Settled rt yaml c file found s.file := by
  have h : OnItsOwn rt yaml c file s := by
    refine reached.invariant ?_ onItsOwn_step
    exact (rfl : file = file)
  rw [OnItsOwn, returned] at h
  exact h

end Undisturbed

/-! ### Copies that are equal -/

theorem alikeEntries_eq_true {entries ys : Mapping} :
    Val.alikeEntries entries ys = true ↔
      ∀ entry ∈ entries, ∃ other ∈ ys, entry.1.alike other.1 = true ∧
        entry.2.alike other.2 = true := by
  induction entries with
  | nil => simp [Val.alikeEntries]
  | cons entry rest ih =>
      obtain ⟨k, v⟩ := entry
      rw [Val.alikeEntries, Bool.and_eq_true, ih, List.forall_mem_cons, List.any_eq_true]
      simp only [Bool.and_eq_true]

theorem mem_put_or {m : Mapping} {key : Scalar} {value : Val} {entry : Scalar × Val}
    (h : entry ∈ m.put key value) : entry = (key, value) ∨ entry ∈ m := by
  induction m with
  | nil => exact .inl (List.mem_singleton.1 h)
  | cons head rest ih =>
      obtain ⟨k, v⟩ := head
      unfold Mapping.put at h
      split at h
      next hkey =>
        rcases List.mem_cons.1 h with rfl | hrest
        · exact .inl (by rw [hkey])
        · exact .inr (List.mem_cons_of_mem _ hrest)
      next =>
        rcases List.mem_cons.1 h with rfl | hrest
        · exact .inr List.mem_cons_self
        · exact (ih hrest).imp id (List.mem_cons_of_mem _)

theorem mem_put_self (m : Mapping) (key : Scalar) (value : Val) : (key, value) ∈ m.put key value :=
  mem_of_lookup (Mapping.lookup_put_self m key value)

/-- An assignment that assigns what is there. -/
theorem put_of_get? {m : Mapping} {key : String} {value : Val} (h : m.get? key = some value) :
    m.put (.str key) value = m := by
  induction m with
  | nil => cases h
  | cons head rest ih =>
      obtain ⟨k, v⟩ := head
      rw [Mapping.get?, List.lookup_cons] at h
      rw [Mapping.put]
      by_cases hkey : k = .str key
      · rw [hkey, beq_self_eq_true] at h
        obtain rfl := Option.some.inj h
        rw [if_pos hkey, hkey]
      · have hne : (Scalar.str key == k) = false := by simpa using Ne.symm hkey
        rw [hne] at h
        rw [if_neg hkey, ih h]

/-- A changed value of a key decides whether the mapping equals what it was copied from. -/
theorem alike_put {m : Mapping} {key : String} {value old : Val}
    (hkeyed : (m.map Prod.fst).Nodup) (hold : m.get? key = some old) :
    (Val.map (m.put (.str key) value)).alike (.map m) = value.alike old := by
  have hkeys : (m.put (.str key) value).map Prod.fst = m.map Prod.fst := by
    rw [Mapping.keys_put, if_pos (mem_keys_of_get? hold)]
  have hlength : (m.put (.str key) value).length = m.length := by
    simpa using congrArg List.length hkeys
  rw [Val.alike, hlength, beq_self_eq_true, Bool.true_and, Bool.eq_iff_iff, alikeEntries_eq_true]
  constructor
  · intro h
    obtain ⟨⟨k, v⟩, hmem, hkey, hvalue⟩ := h _ (mem_put_self m (.str key) value)
    obtain rfl : Scalar.str key = k := by
      rcases Bool.or_eq_true_iff.1 hkey with hsame | heqv
      · exact eq_of_beq hsame
      · exact Val.scalar.inj (str_eqv.1 (show (Val.str key).eqv (.scalar k) = true from heqv)).symm
    rwa [Option.some.inj (hold.symm.trans (get?_of_mem hkeyed hmem))]
  · intro h entry hentry
    rcases mem_put_or hentry with rfl | hmem
    · exact ⟨(.str key, old), mem_of_lookup hold, Scalar.alike_refl _, h⟩
    · exact ⟨entry, hmem, Scalar.alike_refl _, Val.alike_refl _⟩

/-- A changed item decides whether the list equals what it was copied from. -/
theorem alike_list (before after : List Val) (item old : Val) :
    (Val.list (before ++ item :: after)).alike (.list (before ++ old :: after)) =
      item.alike old := by
  rw [Val.alike]
  induction before with
  | nil =>
      rw [List.nil_append, List.nil_append, Val.alikeList, Val.alikeList_refl, Bool.and_true]
  | cons head rest ih =>
      rw [List.cons_append, List.cons_append, Val.alikeList, Val.alike_refl, Bool.true_and, ih]

/-! ### The switched document -/

variable {rt : Runtime} {yaml : Yaml} {etagOf : Val → String} {ctx current : RuleContext}
  {jobId : String} {enabled : Bool} {document document' : Mapping}

/-- What stands in the place of the job. -/
def newJob (enabled : Bool) (job : Mapping) : Mapping :=
  if enabled then Mapping.pop job "enabled" else Mapping.put job (.str "enabled") (.bool false)

/-- The first job with the id, and the list around it. -/
structure SwitchAt (jobId : String) (document : Mapping) where
  before : List Val
  job : Mapping
  after : List Val
  there : document.get? "jobs" = some (.list (before ++ .map job :: after))
  first : findJob before jobId = none
  named : hasId jobId (.map job) = true

/-- The document with the job switched. -/
def SwitchAt.result (place : SwitchAt jobId document) (enabled : Bool) : Mapping :=
  document.put (.str "jobs") (.list (place.before ++ .map (newJob enabled place.job) :: place.after))

theorem switchAt_of_mutate
    (h : (Change.setEnabled jobId enabled).mutate rt etagOf document = .ok document') :
    ∃ place : SwitchAt jobId document, document' = place.result enabled := by
  obtain ⟨jobs, jobs', hjobs, hset, rfl⟩ := onJobs_eq_ok h
  unfold setEnabledJob at hset
  cases hindex : indexOf jobs jobId with
  | none => rw [hindex] at hset; cases hset
  | some index =>
      rw [hindex] at hset
      obtain rfl := Except.ok.inj hset
      obtain ⟨hlt, hhas, hbefore⟩ := List.findIdx?_eq_some_iff_getElem.1 hindex
      obtain ⟨job, hjob, hid⟩ := hasId_iff.1 hhas
      have hsplit : jobs = jobs.take index ++ .map job :: jobs.drop (index + 1) := by
        rw [← hjob, ← List.drop_eq_getElem_cons hlt, List.take_append_drop]
      have hfirst : findJob (jobs.take index) jobId = none := by
        rw [findJob, List.find?_eq_none]
        intro other hother
        obtain ⟨i, hi, rfl⟩ := List.mem_take_iff_getElem.1 hother
        exact hbefore i (by omega)
      refine ⟨⟨_, job, _, hjobs.trans (congrArg (some ∘ Val.list) hsplit), hfirst,
        hjob ▸ hhas⟩, ?_⟩
      have hentry : jobs.getD index .null = .map job := by
        rw [List.getD_eq_getElem?_getD, List.getElem?_eq_getElem hlt, Option.getD_some, hjob]
      rw [hentry, SwitchAt.result, List.set_eq_take_append_cons_drop, if_pos hlt]
      rfl

namespace SwitchAt

theorem hasId_newJob {job : Mapping} (h : hasId jobId (.map job) = true) :
    hasId jobId (.map (newJob enabled job)) = true := by
  obtain ⟨found, hfound, hid⟩ := hasId_iff.1 h
  obtain rfl := Val.map.inj hfound
  refine hasId_iff.2 ⟨_, rfl, ?_⟩
  rw [newJob, ← hid]
  cases enabled with
  | true => exact Mapping.lookup_pop_of_ne job (by decide)
  | false => exact Mapping.lookup_put_of_ne job _ (by decide)

theorem pop_put (job : Mapping) (value : Val) :
    Mapping.pop (Mapping.put job (.str "enabled") value) "enabled" =
      Mapping.pop job "enabled" := by
  induction job with
  | nil => rfl
  | cons head rest ih =>
      obtain ⟨k, v⟩ := head
      rw [Mapping.pop] at ih ⊢
      rw [Mapping.pop] at ih ⊢
      unfold Mapping.put
      split
      next hkey => simp [hkey]
      next hkey => simp [hkey, ih]

theorem pop_newJob (enabled : Bool) (job : Mapping) :
    Mapping.pop (newJob enabled job) "enabled" = Mapping.pop job "enabled" := by
  cases enabled with
  | true => simp [newJob, Mapping.pop]
  | false => exact pop_put job (.bool false)

variable (place : SwitchAt jobId document)

theorem result_jobs : (place.result enabled).get? "jobs" =
    some (.list (place.before ++ .map (newJob enabled place.job) :: place.after)) :=
  Mapping.get?_put_self document "jobs" _

theorem onlySwitched : OnlySwitched jobId document (place.result enabled) where
  keys := by rw [result, Mapping.keys_put, if_pos (mem_keys_of_get? place.there)]
  others key hkey := Mapping.lookup_put_of_ne document _ hkey
  jobs := ⟨place.before, place.job, _, place.after, place.there, place.result_jobs, place.named,
    pop_newJob enabled place.job⟩

theorem result_other {key : String} (hkey : key ≠ "jobs") :
    (place.result enabled).get? key = document.get? key :=
  Mapping.get?_put_of_ne document _ hkey

theorem schemaEnabled_eq (rt : Runtime) (job : Mapping) :
    schemaEnabled rt (place.result enabled) job = schemaEnabled rt document job := by
  have hdefaults : serviceDefaults (place.result enabled) = serviceDefaults document := by
    rw [serviceDefaults, serviceDefaults, mappingAt, mappingAt, Mapping.getD, Mapping.getD,
      place.result_other (by decide)]
  rw [schemaEnabled, schemaEnabled, hdefaults]

theorem isPaused_iff (rt : Runtime) (job : Mapping) :
    IsPaused rt (place.result enabled) job ↔ IsPaused rt document job := by
  rw [IsPaused, IsPaused, place.schemaEnabled_eq]

/-- Whether Python finds the switched document equal to the one it was copied from. -/
theorem alike_result (hkeyed : (Val.map document).wellKeyed = true) :
    (Val.map (place.result enabled)).alike (.map document) =
      (Val.map (newJob enabled place.job)).alike (.map place.job) := by
  rw [result, alike_put (Val.wellKeyed_map.1 hkeyed).1 place.there, alike_list]

theorem nodup_job (hkeyed : (Val.map document).wellKeyed = true) :
    (place.job.map Prod.fst).Nodup := by
  have hjobs := wellKeyed_get? hkeyed place.there
  exact (Val.wellKeyed_map.1 (Val.wellKeyed_list.1 hjobs _ (by simp))).1

/-! ### What is read of it -/

theorem filter_before : place.before.filter (hasId jobId) = [] := by
  have hfirst := place.first
  rw [findJob, List.find?_eq_none] at hfirst
  exact List.filter_eq_nil_iff.2 hfirst

/-- A list with another job in the place of the first one with the id. -/
theorem filter_jobs {new : Mapping} (hnew : hasId jobId (.map new) = true) :
    (place.before ++ .map new :: place.after).filter (hasId jobId) =
      .map new :: place.after.filter (hasId jobId) := by
  rw [List.filter_append, place.filter_before, List.nil_append, List.filter_cons_of_pos hnew]

theorem findJob_jobs {new : Mapping} (hnew : hasId jobId (.map new) = true) :
    findJob (place.before ++ .map new :: place.after) jobId = some (.map new) := by
  rw [findJob, ← List.head?_filter, place.filter_jobs hnew, List.head?_cons]

/-- No job is enabled when the first is not and the later ones are not. -/
theorem paused_iff {rt : Runtime} {other new : Mapping} (hnew : hasId jobId (.map new) = true)
    (hother : other.get? "jobs" = some (.list (place.before ++ .map new :: place.after))) :
    Paused rt other jobId ↔ IsPaused rt other new ∧
      ∀ job, .map job ∈ place.after.filter (hasId jobId) → IsPaused rt other job := by
  have hmem : ∀ job, Val.map job ∈ place.before ++ .map new :: place.after ∧
      hasId jobId (.map job) = true ↔
        job = new ∨ Val.map job ∈ place.after.filter (hasId jobId) := by
    intro job
    rw [← List.mem_filter, place.filter_jobs hnew, List.mem_cons, Val.map.injEq]
  constructor
  · intro h
    exact ⟨h _ hother new (by simp) hnew, fun job hjob =>
      have hboth := (hmem job).2 (.inr hjob)
      h _ hother job hboth.1 hboth.2⟩
  · rintro ⟨hfirst, hlater⟩ jobs hjobs job hjob hid
    obtain rfl : _ = jobs := Val.list.inj (Option.some.inj (hother.symm.trans hjobs))
    rcases (hmem job).1 ⟨hjob, hid⟩ with rfl | hafter
    · exact hfirst
    · exact hlater job hafter

theorem pausesCleanly_iff {rt : Runtime} :
    PausesCleanly rt document jobId ↔ ¬StoredZero place.job ∧
      ∀ job, .map job ∈ place.after.filter (hasId jobId) → IsPaused rt document job := by
  have hfind := place.findJob_jobs place.named
  have hfilter := place.filter_jobs place.named
  constructor
  · intro h
    obtain ⟨hzero, hlater⟩ := h _ place.there
    rw [hfilter, List.tail_cons] at hlater
    exact ⟨hzero _ hfind, hlater⟩
  · rintro ⟨hzero, hlater⟩ jobs hjobs
    obtain rfl : _ = jobs := Val.list.inj (Option.some.inj (place.there.symm.trans hjobs))
    rw [hfilter, List.tail_cons]
    refine ⟨fun job hjob => ?_, hlater⟩
    obtain rfl : place.job = job := Val.map.inj (Option.some.inj (hfind.symm.trans hjob))
    exact hzero

end SwitchAt

theorem enabledOf_eq_false {job : Mapping} :
    enabledOf job = false ↔ job.get? "enabled" = some (.bool false) := by
  unfold enabledOf
  split
  next h => simp [h]
  next h => exact iff_of_false Bool.true_eq_false.mp h

/-- A switched entry that is a job is enabled or not as it was switched. -/
theorem schemaEnabled_newJob {job : Mapping} {value : Bool}
    (h : schemaEnabled rt document (newJob enabled job) = some value) : value = enabled := by
  obtain ⟨spec, hspec, rfl⟩ := Option.map_eq_some_iff.1 h
  unfold parseJob at hspec
  split at hspec
  next found hread =>
    obtain rfl := Option.some.inj hspec
    have hentry : Val.map (newJob enabled job) = enabledEntry enabled (.map job) := rfl
    exact enabled_of_switched hentry hread
  next => cases hspec

/-- An entry that has been disabled is paused. -/
theorem isPaused_newJob (job : Mapping) : IsPaused rt document (newJob false job) := by
  constructor
  · rw [enabledOf_eq_false]
    exact Mapping.get?_put_self job "enabled" _
  · intro h
    cases schemaEnabled_newJob h

/-- Python finds a disabled entry equal to what it was exactly when it was disabled before, or by a
number. -/
theorem alike_newJob_false {job : Mapping} (hkeyed : (job.map Prod.fst).Nodup) :
    (Val.map (newJob false job)).alike (.map job) = true ↔
      enabledOf job = false ∨ StoredZero job := by
  rw [enabledOf_eq_false, StoredZero]
  cases hget : job.get? "enabled" with
  | none =>
      have hlength : (newJob false job).length ≠ job.length := by
        have hkeys := congrArg List.length (Mapping.keys_put job (.str "enabled") (.bool false))
        have hnot : Scalar.str "enabled" ∉ job.map Prod.fst := by
          intro hmem
          obtain ⟨entry, hentry, heq⟩ := List.mem_map.1 hmem
          rw [Mapping.get?, List.lookup_eq_none_iff] at hget
          have hne := hget entry hentry
          rw [heq] at hne
          simp at hne
        rw [if_neg hnot, List.length_map, List.length_append, List.length_map] at hkeys
        simp only [newJob, Bool.false_eq_true, if_false, hkeys, List.length_singleton]
        omega
      simp [Val.alike, hlength]
  | some v =>
      have halike : (Val.map (newJob false job)).alike (.map job) = (Val.bool false).alike v :=
        alike_put hkeyed hget
      rw [halike]
      constructor
      · intro h
        by_cases hfalse : v = .bool false
        · exact .inl (congrArg some hfalse)
        · refine .inr ⟨v, rfl, hfalse, ?_⟩
          cases v with
          | scalar s =>
              rcases Bool.or_eq_true_iff.1 h with hsame | heqv
              · exact absurd (congrArg Val.scalar (eq_of_beq hsame)).symm hfalse
              · exact heqv
          | list | set | map => cases h
      · rintro (hfalse | ⟨w, hw, -, heqv⟩)
        · rw [Option.some.inj hfalse, Val.alike_refl]
        · obtain rfl := Option.some.inj hw
          cases v with
          | scalar s => exact Bool.or_eq_true_iff.2 (.inr heqv)
          | list | set | map => cases heqv

/-- Python finds an enabled entry equal to what it was only when the key was not there. -/
theorem newJob_true_of_alike {job : Mapping}
    (h : (Val.map (newJob true job)).alike (.map job) = true) : newJob true job = job := by
  rw [Val.alike, Bool.and_eq_true, beq_iff_eq] at h
  have hlength : (Mapping.pop job "enabled").length = job.length := h.1
  exact List.filter_eq_self.2 (List.length_filter_eq_length_iff.1 hlength)

/-! ### What the rules have looked at -/

theorem serviceDefaults_of_defaultsOf {defaults : Mapping}
    (h : defaultsOf document = some defaults) : serviceDefaults document = defaults := by
  unfold defaultsOf at h
  unfold serviceDefaults mappingAt
  split at h
  next => rw [h, Option.getD_some]
  next hempty =>
    obtain rfl := Option.some.inj h
    cases hvalue : document.getD "defaults" with
    | map entries =>
        cases entries with
        | nil => rfl
        | cons => simp [hvalue, Val.truthy] at hempty
    | scalar | list | set => rfl

/-- What is wrong with an entry is wrong with the catalog. -/
theorem mem_checkCatalog_of_entry {defaults : Mapping} {jobs : List Val} {index : Nat} {raw : Val}
    {issue : Issue} (hversion : isVersionOne document = true)
    (hdefaults : defaultsOf document = some defaults) (hjobs : jobsOf document = some jobs)
    (hraw : (raw, index) ∈ jobs.zipIdx)
    (hissue : issue ∈ (checkEntry rt defaults ctx index raw).2) :
    issue ∈ checkCatalog rt document ctx := by
  unfold checkCatalog
  simp only [hversion, hdefaults, hjobs, Bool.not_true, Bool.false_eq_true, if_false]
  apply List.mem_append_left
  apply List.mem_append_right
  exact List.mem_flatMap.2 ⟨_, List.mem_map.2 ⟨_, hraw, rfl⟩, hissue⟩

/-- An entry the rules have looked at and found nothing wrong with is a job. -/
theorem parses_of_quiet {defaults job : Mapping} {jobs : List Val}
    (hversion : isVersionOne document = true) (hdefaults : defaultsOf document = some defaults)
    (hjobs : document.get? "jobs" = some (.list jobs)) (hjob : .map job ∈ jobs)
    (hid : hasId jobId (.map job) = true) (hne : jobId ≠ "")
    (hquiet : checkOne rt document jobId ctx = []) :
    (parseJob rt job (serviceDefaults document) none).1.isSome = true := by
  rw [serviceDefaults_of_defaultsOf hdefaults]
  obtain ⟨found, hfound, hget⟩ := hasId_iff.1 hid
  obtain rfl := Val.map.inj hfound
  cases hread : readJobSpec rt (effective job defaults) with
  | ok spec => simp [parseJob, hread]
  | error faults =>
      -- the first thing that is wrong with it would have been reported under its id
      obtain ⟨index, hindex⟩ := exists_index hjob
      have hlist : jobsOf document = some jobs := by
        have htruthy : (Val.list jobs).truthy = true := by
          cases jobs with
          | nil => cases hjob
          | cons => rfl
        simp [jobsOf, Mapping.getD, hjobs, htruthy]
      obtain ⟨fault, hfault⟩ := List.exists_mem_of_ne_nil _ faults.toList_ne_nil
      have hissue : issueFrom (some jobId) fault ∈
          (checkEntry rt defaults ctx index (.map job)).2 := by
        unfold checkEntry
        rw [Val.mapping?_map]
        dsimp only
        rw [parseJob_of_error hread, reportedId_of_text hget hne]
        exact List.mem_map_of_mem hfault
      have hmem : issueFrom (some jobId) fault ∈ checkOne rt document jobId ctx :=
        List.mem_filter.2 ⟨mem_checkCatalog_of_entry hversion hdefaults hlist hindex hissue, by
          simp [issueFrom]⟩
      rw [hquiet] at hmem
      cases hmem

theorem isSome_schemaEnabled {job : Mapping} :
    schemaEnabled rt document (newJob true job) = some true ↔
      (parseJob rt (newJob true job) (serviceDefaults document) none).1.isSome = true := by
  constructor
  · intro h
    obtain ⟨spec, hspec, -⟩ := Option.map_eq_some_iff.1 h
    rw [hspec, Option.isSome_some]
  · intro h
    obtain ⟨spec, hspec⟩ := Option.isSome_iff_exists.1 h
    have hvalue : schemaEnabled rt document (newJob true job) = some spec.enabled := by
      rw [schemaEnabled, hspec, Option.map_some]
    rw [hvalue, schemaEnabled_newJob hvalue]

theorem enabledTwice_iff (place : SwitchAt jobId document) :
    EnabledTwice rt (place.result true) jobId ↔
      (parseJob rt (newJob true place.job) (serviceDefaults document) none).1.isSome = true := by
  have hid : hasId jobId (.map (newJob true place.job)) = true := SwitchAt.hasId_newJob place.named
  have hfind := place.findJob_jobs hid
  have hschemas : schemaEnabled rt (place.result true) (newJob true place.job) =
      schemaEnabled rt document (newJob true place.job) := place.schemaEnabled_eq rt _
  rw [← isSome_schemaEnabled, ← hschemas]
  constructor
  · rintro ⟨jobs, job, hjobs, hjob, -, hschema⟩
    obtain rfl := Val.list.inj (Option.some.inj (place.result_jobs.symm.trans hjobs))
    obtain rfl := Val.map.inj (Option.some.inj (hfind.symm.trans hjob))
    exact hschema
  · intro hschema
    refine ⟨_, _, place.result_jobs, hfind, ?_, hschema⟩
    have habsent : Mapping.get? (newJob true place.job) "enabled" = none :=
      Mapping.get?_pop_self place.job "enabled"
    rw [enabledOf, habsent]

/-- An enabled job passes the rules, and is a job when they could look at it. -/
theorem enabledTwice_iff_reached (place : SwitchAt jobId document)
    (hversion : isVersionOne document = true)
    (hquiet : checkOne rt (place.result true) jobId ctx = []) :
    EnabledTwice rt (place.result true) jobId ↔ ReachedByRules rt document jobId := by
  rw [enabledTwice_iff]
  have hfind := place.findJob_jobs place.named
  constructor
  · intro hparses
    right
    intro jobs job hjobs hjob
    obtain rfl := Val.list.inj (Option.some.inj (place.there.symm.trans hjobs))
    obtain rfl : place.job = job := Val.map.inj (Option.some.inj (hfind.symm.trans hjob))
    exact hparses
  · rintro (⟨hdefaults, hne⟩ | hparses)
    · obtain ⟨defaults, hdefaults⟩ := Option.isSome_iff_exists.1 hdefaults
      have hversion' : isVersionOne (place.result true) = true := by
        rw [isVersionOne, Mapping.getD, place.result_other (by decide)]
        exact hversion
      have hdefaults' : defaultsOf (place.result true) = some defaults := by
        rw [defaultsOf, Mapping.getD, place.result_other (by decide)]
        exact hdefaults
      have hmem : Val.map (newJob true place.job) ∈
          place.before ++ .map (newJob true place.job) :: place.after := by simp
      have hparses := parses_of_quiet hversion' hdefaults' place.result_jobs hmem
        (SwitchAt.hasId_newJob place.named) hne hquiet
      rwa [serviceDefaults_of_defaultsOf hdefaults', ← serviceDefaults_of_defaultsOf hdefaults]
        at hparses
    · exact hparses _ _ place.there hfind

/-! ### The call -/

/-- What `set_enabled` says: only the job is switched; a disabled one is enabled by neither reading,
and an enabled one is enabled by both and passes the rules. -/
def SwitchedAsSaid (rt : Runtime) (ctx : RuleContext) (jobId : String) (enabled : Bool)
    (document after : Mapping) : Prop :=
  OnlySwitched jobId document after ∧
    if enabled then checkOne rt after jobId ctx = [] ∧ EnabledTwice rt after jobId
    else Paused rt after jobId

/-- When it is so. -/
def SwitchesCleanly (rt : Runtime) (jobId : String) (enabled : Bool) (document : Mapping) : Prop :=
  if enabled then ReachedByRules rt document jobId else PausesCleanly rt document jobId

/-- A parsed mapping has each of its keys once. -/
def DistinctKeys (rt : Runtime) (yaml : Yaml) (file : Option Bytes) : Prop :=
  ∀ document, documentOf rt yaml file = some document → (Val.map document).wellKeyed = true

/-- What is dumped is loaded again. -/
def LoadsBack (rt : Runtime) (yaml : Yaml) (etagOf : Val → String) (change : Change)
    (file : Option Bytes) : Prop :=
  ∀ document document', documentOf rt yaml file = some document →
    change.mutate rt etagOf document = .ok document' →
      yaml.load (yaml.dump document') = .ok (.map document')

theorem documentOf_dumped {raw : Bytes} {jobs : List Val}
    (hload : yaml.load raw = .ok (.map document)) (hversion : isVersionOne document = true)
    (hjobs : document.get? "jobs" = some (.list jobs)) :
    documentOf rt yaml (some raw) = some document := by
  have hset : setDefault document "version" (.int 1) = document := by
    unfold setDefault
    split
    next => rfl
    next hnone => simp [isVersionOne, Mapping.getD, hnone, Val.eqv, Scalar.eqv, Scalar.number?]
        at hversion
  have hparse : parseJobs rt yaml raw = (document, none) := by
    have hlist : Mapping.getD document "jobs" = .list jobs := by
      rw [Mapping.getD, hjobs, Option.getD_some]
    simp [parseJobs, parseDocument, hload, topLevel, hset, hversion, hlist]
  simp [documentOf, snapshotOf, readFile, hparse]

/-- The check of the file in which the job has been found. -/
theorem switchCheck_eq_some {snapshot : JobsSnapshot}
    (h : switchCheck rt etagOf ctx jobId true snapshot = some ()) :
    ∃ candidate, (Change.setEnabled jobId true).mutate rt etagOf snapshot.document =
      .ok candidate ∧ checkOne rt candidate jobId ctx = [] := by
  simp only [switchCheck, if_true] at h
  split at h
  next => cases h
  next =>
    split at h
    next candidate hcandidate =>
      split at h
      next hquiet => exact ⟨candidate, hcandidate, hquiet⟩
      next => cases h
    next => cases h

theorem isSome_of_switchCheck {file : Option Bytes}
    (h : switchCheck rt etagOf ctx jobId enabled (snapshotOf rt yaml (readFile file false)) =
      some ()) : file.isSome = true := by
  cases file with
  | some raw => rfl
  | none => cases h

theorem document_of_documentOf {file : Option Bytes}
    (h : documentOf rt yaml file = some document) :
    (snapshotOf rt yaml (readFile file false)).document = document := by
  simp only [documentOf] at h
  split at h
  next => exact Option.some.inj h
  next => cases h

/-- What the paused file says, from what the file said before. -/
theorem paused_after_iff (place : SwitchAt jobId document) {after : Mapping}
    (hkeyed : (Val.map document).wellKeyed = true)
    (hcase : (Val.map (place.result false)).alike (.map document) = true ∧ after = document ∨
      (Val.map (place.result false)).alike (.map document) = false ∧ after = place.result false) :
    Paused rt after jobId ↔ PausesCleanly rt document jobId := by
  have halike : (Val.map (place.result false)).alike (.map document) = true ↔
      enabledOf place.job = false ∨ StoredZero place.job := by
    rw [place.alike_result hkeyed, alike_newJob_false (place.nodup_job hkeyed)]
  rw [place.pausesCleanly_iff]
  rcases hcase with ⟨hkept, rfl⟩ | ⟨hchanged, rfl⟩
  · -- nothing is written: the job was disabled before, or by a number
    rw [place.paused_iff place.named place.there]
    apply and_congr_left'
    constructor
    · rintro ⟨hfalse, -⟩ ⟨v, hv, hne, -⟩
      rw [enabledOf_eq_false.1 hfalse] at hv
      exact hne (Option.some.inj hv).symm
    · intro hzero
      have hfalse := (halike.1 hkept).resolve_right hzero
      have hsame : newJob false place.job = place.job := put_of_get? (enabledOf_eq_false.1 hfalse)
      rw [← hsame]
      exact isPaused_newJob place.job
  · rw [place.paused_iff (SwitchAt.hasId_newJob place.named) place.result_jobs]
    have hzero : ¬StoredZero place.job := by
      intro hzero
      rw [halike.2 (.inr hzero)] at hchanged
      cases hchanged
    rw [iff_true_intro hzero, iff_true_intro (isPaused_newJob place.job)]
    simp only [place.isPaused_iff]

/-- The library on the file of a job that is stored with some value, and on the same file with the
job disabled. -/
def pausingYaml (stored : Val) : Yaml where
  load raw :=
    if raw = asciiBytes "on" then .ok (.map (enabledCatalog stored))
    else if raw = asciiBytes "off" then .ok (.map (enabledCatalog (.bool false)))
    else .error "another file"
  dump document :=
    if (Val.map document).eqv (.map (enabledCatalog (.bool false))) then asciiBytes "off"
    else asciiBytes "on"
  sha256 raw := String.ofList ('x' :: raw.map fun byte => Char.ofNat byte.toNat)

def storedFile : Option Bytes :=
  some (asciiBytes "on")

/-- The call that disables the job. -/
def pauseDocs : ServiceCall Unit :=
  switchCall plainRuntime (fun _ => "") {} {} "docs" false

theorem distinctKeys_stored (stored : Val) (h : (Val.map (enabledCatalog stored)).wellKeyed = true) :
    DistinctKeys plainRuntime (pausingYaml stored) storedFile := by
  intro document hthere
  obtain rfl : enabledCatalog stored = document := Option.some.inj hthere
  exact h

theorem loadsBack_stored (stored : Val) :
    LoadsBack plainRuntime (pausingYaml stored) (fun _ => "") (.setEnabled "docs" false)
      storedFile := by
  intro document document' hthere hmutate
  obtain rfl : enabledCatalog stored = document := Option.some.inj hthere
  obtain rfl : enabledCatalog (.bool false) = document' := Except.ok.inj hmutate
  rfl

end Papaia.Ingest
