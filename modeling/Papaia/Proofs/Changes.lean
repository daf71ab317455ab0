/-
Module: Papaia.Proofs.Changes
Purpose: Every change of one job leaves the rest of the document in its place.
Trusted boundary: none
Main exports: frame_of_mutate
-/
import Papaia.Ingest.Changes

namespace Papaia.Ingest

theorem indexOf_eq_some {jobs : List Val} {jobId : String} {index : Nat}
    (h : indexOf jobs jobId = some index) :
    ∃ before job after, jobs = before ++ job :: after ∧ before.length = index ∧
      hasId jobId job = true ∧ findJob jobs jobId = some job := by
  unfold indexOf at h
  obtain ⟨hlt, hhas, hbefore⟩ := List.findIdx?_eq_some_iff_getElem.mp h
  refine ⟨jobs.take index, jobs[index], jobs.drop (index + 1), ?_, ?_, hhas, ?_⟩
  · rw [← List.drop_eq_getElem_cons hlt, List.take_append_drop]
  · simp [Nat.le_of_lt hlt]
  · rw [findJob, List.find?_eq_some_iff_getElem]
    refine ⟨hhas, index, hlt, rfl, ?_⟩
    intro j hj
    simpa using hbefore j hj

/-- An entry with the id, taken out of the list and replaced by what stands in its place then. -/
def atIndex {jobId : String} {before after : List Val} {job : Val} (new : Option Val)
    (hjob : hasId jobId job = true) :
    AtOnePlace jobId (before ++ job :: after) (before ++ new.toList ++ after) where
  before := before
  old := some job
  new := new
  after := after
  jobs_eq := by simp
  jobs'_eq := rfl
  old_has_id := by simpa using hjob

/-- A new entry at the end. -/
def atEnd (jobId : String) (jobs : List Val) (job : Val) :
    AtOnePlace jobId jobs (jobs ++ [job]) where
  before := jobs
  old := none
  new := some job
  after := []
  jobs_eq := by simp
  jobs'_eq := by simp
  old_has_id := by simp

theorem onJobs_eq_ok {change : List Val → Except CatalogError (List Val)}
    {document document' : Mapping} (h : onJobs change document = .ok document') :
    ∃ jobs jobs', document.get? "jobs" = some (.list jobs) ∧ change jobs = .ok jobs' ∧
      document' = document.put (.str "jobs") (.list jobs') := by
  unfold onJobs at h
  split at h
  next jobs hjobs =>
    have hget : document.get? "jobs" = some (.list jobs) := by
      cases hkey : document.get? "jobs" with
      | none => simp [Mapping.getD, hkey] at hjobs
      | some v => simpa [Mapping.getD, hkey] using hjobs
    cases hchange : change jobs with
    | error error => simp [hchange, Except.map] at h
    | ok jobs' =>
        rw [hchange] at h
        exact ⟨jobs, jobs', hget, hchange, (Except.ok.inj h).symm⟩
  next => cases h

theorem mem_keys_of_get? {m : Mapping} {key : String} {v : Val} (h : m.get? key = some v) :
    Scalar.str key ∈ m.map Prod.fst := by
  by_contra hnot
  have hnone : m.lookup (.str key) = none := by
    rw [List.lookup_eq_none_iff]
    intro entry hentry
    have hne : Scalar.str key ≠ entry.1 := fun heq => hnot (heq ▸ List.mem_map_of_mem hentry)
    simpa using hne
  rw [Mapping.get?, hnone] at h
  cases h

/-- A change of the list at one place is a change of the document at one place. -/
def leavesOthers {jobId : String} {document : Mapping} {jobs jobs' : List Val}
    (hjobs : document.get? "jobs" = some (.list jobs)) (place : AtOnePlace jobId jobs jobs') :
    LeavesOthers jobId document (document.put (.str "jobs") (.list jobs')) where
  keys := by
    rw [Mapping.keys_put, if_pos (mem_keys_of_get? hjobs)]
  others key hkey := Mapping.lookup_put_of_ne document _ hkey
  jobs := jobs
  jobs' := jobs'
  jobs_eq := hjobs
  jobs'_eq := Mapping.get?_put_self document "jobs" _
  place := place

theorem checkEtag_eq_ok {etagOf : Val → String} {existing : Val} {etag : Option String}
    {shown : String} (h : checkEtag etagOf existing etag shown = .ok ()) :
    ∀ expected ∈ etag, etagOf existing = expected := by
  intro expected hexpected
  obtain rfl := Option.mem_def.mp hexpected
  unfold checkEtag at h
  by_contra hne
  simp [hne] at h

/-- Where the etag tells, a change leaves alone everything but the entry it is about, and that is
the entry the etag was computed from. -/
theorem frame_of_mutate {rt : Runtime} {etagOf : Val → String} {change : Change}
    {document document' : Mapping} (htells : change.EtagTells etagOf document)
    (h : change.mutate rt etagOf document = .ok document') : change.Frame document document' := by
  cases change with
  | custom mutate => trivial
  | upsert jobId job =>
      obtain ⟨jobs, jobs', hjobs, hchange, rfl⟩ := onJobs_eq_ok h
      obtain rfl : placeJob jobs jobId job = jobs' := Except.ok.inj hchange
      cases hindex : indexOf jobs jobId with
      | none =>
          have hplace : placeJob jobs jobId job = jobs ++ [.map job] := by
            simp [placeJob, hindex]
          rw [hplace]
          exact ⟨leavesOthers hjobs (atEnd jobId jobs (.map job)), rfl⟩
      | some index =>
          obtain ⟨before, existing, after, rfl, rfl, hhas, -⟩ := indexOf_eq_some hindex
          have hplace : placeJob (before ++ existing :: after) jobId job =
              before ++ (some (Val.map job)).toList ++ after := by
            simp [placeJob, hindex]
          rw [hplace]
          exact ⟨leavesOthers hjobs (atIndex (some (.map job)) hhas), rfl⟩
  | putJob jobId entry create opened =>
      obtain ⟨jobs, jobs', hjobs, hchange, rfl⟩ := onJobs_eq_ok h
      cases hindex : indexOf jobs jobId with
      | none =>
          cases create with
          | false => simp [putJob, hindex] at hchange
          | true =>
              obtain rfl : jobs ++ [.map entry] = jobs' := by simpa [putJob, hindex] using hchange
              exact ⟨leavesOthers hjobs (atEnd jobId jobs (.map entry)), rfl, fun _ => rfl,
                fun hcreate => by cases hcreate⟩
      | some index =>
          cases create with
          | true => simp [putJob, hindex] at hchange
          | false =>
              obtain ⟨before, existing, after, rfl, rfl, hhas, hfind⟩ := indexOf_eq_some hindex
              cases hetag : checkEtag etagOf existing (opened.map etagOf)
                  (rt.repr (.str jobId)) with
              | error problem => simp [putJob, hindex, hetag] at hchange
              | ok =>
                  obtain rfl : before ++ (some (Val.map entry)).toList ++ after = jobs' := by
                    simpa [putJob, hindex, hetag] using hchange
                  refine ⟨leavesOthers hjobs (atIndex (some (.map entry)) hhas), rfl,
                    fun hcreate => (by cases hcreate), fun _ => ⟨existing, rfl, ?_⟩⟩
                  intro v hv
                  obtain rfl := Option.mem_def.mp hv
                  exact htells _ hjobs existing hfind (checkEtag_eq_ok hetag _ rfl)
  | removeJob jobId opened =>
      obtain ⟨jobs, jobs', hjobs, hchange, rfl⟩ := onJobs_eq_ok h
      cases hindex : indexOf jobs jobId with
      | none => simp [removeJob, hindex] at hchange
      | some index =>
          obtain ⟨before, existing, after, rfl, rfl, hhas, hfind⟩ := indexOf_eq_some hindex
          cases hetag : checkEtag etagOf existing (opened.map etagOf) (rt.repr (.str jobId)) with
          | error problem => simp [removeJob, hindex, hetag, Except.map] at hchange
          | ok =>
              obtain rfl : before ++ (none : Option Val).toList ++ after = jobs' := by
                simpa [removeJob, hindex, hetag, Except.map, List.eraseIdx_append_of_length_le]
                  using hchange
              refine ⟨leavesOthers hjobs (atIndex none hhas), rfl, existing, rfl, ?_⟩
              intro v hv
              obtain rfl := Option.mem_def.mp hv
              exact htells _ hjobs existing hfind (checkEtag_eq_ok hetag _ rfl)
  | setEnabled jobId enabled =>
      obtain ⟨jobs, jobs', hjobs, hchange, rfl⟩ := onJobs_eq_ok h
      cases hindex : indexOf jobs jobId with
      | none => simp [setEnabledJob, hindex] at hchange
      | some index =>
          obtain ⟨before, existing, after, rfl, rfl, hhas, -⟩ := indexOf_eq_some hindex
          obtain rfl : before ++ (some (enabledEntry enabled existing)).toList ++ after = jobs' := by
            simpa [setEnabledJob, hindex] using hchange
          exact ⟨leavesOthers hjobs (atIndex (some (enabledEntry enabled existing)) hhas),
            existing, rfl, rfl⟩
  | setDefaults defaults =>
      obtain rfl : putDefaults defaults document = document' := Except.ok.inj h
      unfold putDefaults
      cases defaults with
      | nil =>
          exact ⟨Mapping.get?_pop_self document "defaults",
            fun key hkey => Mapping.lookup_pop_of_ne document hkey⟩
      | cons entry rest =>
          exact ⟨by simp, fun key hkey => Mapping.lookup_put_of_ne document _ hkey⟩

end Papaia.Ingest
