/-
Module: Papaia.Proofs.JobQueue
Purpose: When a job that fails does not stop the queue: jobs run one at a time and in their order,
  each once, a job that has ended keeps its status, the worker goes on, and the active job is the
  one that runs or the next one to run.
Trusted boundary: none
Main exports: Orderly, Lawful, Foreseen, Good, good_step, jobQueue_runs
-/
import Papaia.Jobs.Queue
import Papaia.Lib.Runs
import Papaia.Lib.Sorted

namespace Papaia.Jobs

/-! ### The law -/

/-- Succeeded or failed. -/
def Job.isFinal (job : Job) : Bool :=
  job.status = .succeeded || job.status = .failed

/-- What holds of a queue at every time. -/
structure Orderly (s : State) : Prop where
  /-- Jobs begin in the order they were queued, each once. -/
  order : s.accepted = s.started ++ s.queue
  once : s.accepted.Nodup
  /-- One at a time. -/
  single : s.started = s.ended ++ s.worker.job.toList
  /-- A job whose callback has ended has a final status. -/
  final : ∀ id ∈ s.ended, ∃ job ∈ s.jobs, job.id = id ∧ job.isFinal = true
  /-- The worker goes on with the next job. -/
  goesOn : s.worker ≠ .dead ∧ ∀ id rest, s.worker = .waiting → s.queue = id :: rest → ∀ now,
    ∃ s', step s (.take now true) = some s' ∧ s'.worker = .running id
  /-- The active job is the one that runs, or else the next one to run. -/
  active : (activeJob s.jobs).map Job.id = s.worker.job.or s.queue.head?

/-- A final status never changes. -/
def Lawful (s s' : State) : Prop :=
  ∀ job ∈ s.jobs, job.isFinal = true →
    ∃ after ∈ s'.jobs, after.id = job.id ∧ after.status = job.status

/-- The files are written, and a job is not created before one that has not finished. -/
def Foreseen (s : State) : Event → Prop
  | .start => True
  | .enqueue job directory index => directory = true ∧ index = true ∧
      ∀ other ∈ s.jobs, other.isActive = true → other.createdAt ≤ job.createdAt
  | .take _ index => index = true
  | .finish outcome _ log audit index =>
      index = true ∧ (outcome = .raised → log = true ∧ audit = true)

/-! ### The invariant -/

variable {s s' : State} {e : Event}

/-- What the jobs of a queue are while nothing fails. -/
structure Good (s : State) : Prop where
  alive : s.worker ≠ .dead
  known : s.jobs.map Job.id = s.accepted
  once : s.accepted.Nodup
  order : s.accepted = s.started ++ s.queue
  single : s.started = s.ended ++ s.worker.job.toList
  taken : ∀ id ∈ s.queue, id ∈ s.callbacks
  finals : ∀ job ∈ s.jobs, job.id ∈ s.ended → job.isFinal = true
  running : ∀ job ∈ s.jobs, s.worker.job = some job.id → job.status = .running
  queued : ∀ job ∈ s.jobs, job.id ∈ s.queue → job.status = .queued
  times : (s.jobs.filter Job.isActive).Pairwise fun one other => one.createdAt ≤ other.createdAt

theorem Good.accepted_eq (h : Good s) :
    s.accepted = s.ended ++ (s.worker.job.toList ++ s.queue) := by
  rw [h.order, h.single, List.append_assoc]

/-- The jobs that have not finished are the one that runs and those that wait. -/
theorem Good.active_ids (h : Good s) :
    (s.jobs.filter Job.isActive).map Job.id = s.worker.job.toList ++ s.queue := by
  have hnodup := h.once
  rw [h.accepted_eq] at hnodup
  have hdisjoint := (List.nodup_append.1 hnodup).2.2
  have hcounts : ∀ job ∈ s.jobs,
      job.isActive = decide (job.id ∈ s.worker.job.toList ++ s.queue) := by
    intro job hjob
    have hmem : job.id ∈ s.ended ++ (s.worker.job.toList ++ s.queue) := by
      rw [← h.accepted_eq, ← h.known]
      exact List.mem_map_of_mem hjob
    rcases List.mem_append.1 hmem with hended | hleft
    · have hfinal := h.finals job hjob hended
      have hnot : job.id ∉ s.worker.job.toList ++ s.queue :=
        fun hleft => hdisjoint _ hended _ hleft rfl
      rw [decide_eq_false hnot]
      simp only [Job.isFinal, Bool.or_eq_true, decide_eq_true_eq] at hfinal
      rcases hfinal with hstatus | hstatus <;> simp [Job.isActive, hstatus]
    · rw [decide_eq_true hleft]
      rcases List.mem_append.1 hleft with hrunning | hqueued
      · simp [Job.isActive, h.running job hjob (by simpa using hrunning)]
      · simp [Job.isActive, h.queued job hjob hqueued]
  rw [List.filter_congr hcounts]
  have hmap : (s.jobs.filter fun job => decide (job.id ∈ s.worker.job.toList ++ s.queue)).map
      Job.id = (s.jobs.map Job.id).filter (· ∈ s.worker.job.toList ++ s.queue) := by
    rw [List.filter_map]
    rfl
  rw [hmap, h.known, h.accepted_eq, List.filter_append]
  have hnone : (s.ended.filter fun id => decide (id ∈ s.worker.job.toList ++ s.queue)) = [] := by
    rw [List.filter_eq_nil_iff]
    intro id hid hleft
    exact hdisjoint id hid id (of_decide_eq_true hleft) rfl
  rw [hnone, List.nil_append, List.filter_eq_self]
  intro id hid
  exact decide_eq_true hid

/-- The active job is the first of them. -/
theorem Good.activeJob_id (h : Good s) :
    (activeJob s.jobs).map Job.id = s.worker.job.or s.queue.head? := by
  have hfirst : activeJob s.jobs = (s.jobs.filter Job.isActive).head? := by
    rw [activeJob, Sorted.find?_insertionSort h.times, List.head?_filter]
  rw [hfirst, ← List.head?_map, h.active_ids]
  cases s.worker.job with
  | none => rfl
  | some id => rfl

/-! ### Changing a job -/

theorem mem_changeJob {id : Nat} {change : Job → Job} {jobs : List Job} {job : Job} :
    job ∈ changeJob id change jobs ↔ ∃ old ∈ jobs, (if old.id = id then change old else old) = job :=
  List.mem_map

theorem map_id_changeJob {id : Nat} {change : Job → Job} {jobs : List Job}
    (hid : ∀ job, (change job).id = job.id) :
    (changeJob id change jobs).map Job.id = jobs.map Job.id := by
  rw [changeJob, List.map_map]
  apply List.map_congr_left
  intro job _
  simp only [Function.comp_apply]
  split
  · exact hid job
  · rfl

/-- A change that makes no job active, and none older, leaves the times in order. -/
theorem times_changeJob {id : Nat} {change : Job → Job} {jobs : List Job}
    (hcreated : ∀ job, (change job).createdAt = job.createdAt)
    (hactive : ∀ job ∈ jobs, job.id = id → (change job).isActive = true → job.isActive = true)
    (h : (jobs.filter Job.isActive).Pairwise fun one other => one.createdAt ≤ other.createdAt) :
    ((changeJob id change jobs).filter Job.isActive).Pairwise
      fun one other => one.createdAt ≤ other.createdAt := by
  have hsame : ∀ job : Job, (if job.id = id then change job else job).createdAt = job.createdAt := by
    intro job
    split
    · exact hcreated job
    · rfl
  rw [changeJob, List.filter_map, List.pairwise_map]
  simp only [hsame]
  refine List.Pairwise.sublist ?_ h
  have hstill : (jobs.filter (Job.isActive ∘ fun job => if job.id = id then change job else job)) =
      (jobs.filter Job.isActive).filter
        (Job.isActive ∘ fun job => if job.id = id then change job else job) := by
    rw [List.filter_filter]
    apply List.filter_congr
    intro job hjob
    simp only [Function.comp_apply]
    split
    next hid =>
      cases hchanged : (change job).isActive with
      | false => rfl
      | true => rw [hactive job hjob hid hchanged, Bool.and_self]
    next => rw [Bool.and_self]
  rw [hstill]
  exact List.filter_sublist

/-! ### The steps -/

theorem good_start (h : Good s) (hworker : s.worker = .absent) :
    Good { s with worker := .waiting } where
  alive := by simp
  known := h.known
  once := h.once
  order := h.order
  single := by
    rw [h.single, hworker]
    rfl
  taken := h.taken
  finals := h.finals
  running := by simp [Worker.job]
  queued := h.queued
  times := h.times

theorem good_enqueue (h : Good s) {job : Job} (hnew : job.id ∉ s.accepted)
    (hstatus : job.status = .queued)
    (hlast : ∀ other ∈ s.jobs, other.isActive = true → other.createdAt ≤ job.createdAt) :
    Good (enqueue s job true true) := by
  have hended : job.id ∉ s.ended := fun hmem => hnew (h.accepted_eq ▸ List.mem_append_left _ hmem)
  have hrunning : s.worker.job ≠ some job.id := by
    intro hsome
    apply hnew
    rw [h.accepted_eq, hsome]
    simp
  have hjobs : ∀ other ∈ s.jobs ++ [job], other ∈ s.jobs ∨ other = job := by
    intro other hother
    exact (List.mem_append.1 hother).imp id List.mem_singleton.1
  refine ⟨h.alive, ?_, ?_, ?_, h.single, ?_, ?_, ?_, ?_, ?_⟩
  · simp only [enqueue, Bool.not_true, Bool.false_eq_true, if_false, List.map_append, h.known]
    rfl
  · exact List.nodup_append.2 ⟨h.once, List.nodup_singleton _, by
      intro id hid other hother
      rw [List.mem_singleton.1 hother]
      rintro rfl
      exact hnew hid⟩
  · show s.accepted ++ [job.id] = s.started ++ (s.queue ++ [job.id])
    rw [h.order, List.append_assoc]
  · intro id hid
    rcases List.mem_append.1 hid with hid | hid
    · exact List.mem_append_left _ (h.taken id hid)
    · exact List.mem_append_right _ hid
  · intro other hother hid
    rcases hjobs other hother with hold | rfl
    · exact h.finals other hold hid
    · exact absurd hid hended
  · intro other hother hid
    rcases hjobs other hother with hold | rfl
    · exact h.running other hold hid
    · exact absurd hid hrunning
  · intro other hother hid
    rcases hjobs other hother with hold | rfl
    · rcases List.mem_append.1 hid with hid | hid
      · exact h.queued other hold hid
      · -- its id is not that of the new job
        apply absurd (List.mem_map_of_mem hold)
        rw [h.known, List.mem_singleton.1 hid]
        exact hnew
    · exact hstatus
  · show ((s.jobs ++ [job]).filter Job.isActive).Pairwise _
    rw [List.filter_append, List.pairwise_append]
    refine ⟨h.times, List.pairwise_singleton _ _ |>.filter _, ?_⟩
    intro one hone other hother
    obtain ⟨hone, hactive⟩ := List.mem_filter.1 hone
    rw [List.mem_singleton.1 (List.mem_of_mem_filter hother)]
    exact hlast one hone hactive

/-- How a job begins. -/
def begunJob (now : Int) (job : Job) : Job :=
  { job with status := .running, startedAt := some now }

/-- The worker takes the next id: its job is known, and its callback is there. -/
theorem takeNext_eq (h : Good s) {id : Nat} {rest : List Nat} (hqueue : s.queue = id :: rest)
    (now : Int) :
    takeNext s id rest now true = { s with
      queue := rest
      callbacks := s.callbacks.filter (· ≠ id)
      jobs := changeJob id (begunJob now) s.jobs
      worker := .running id
      started := s.started ++ [id] } := by
  have hcallback : s.callbacks.contains id = true := by
    rw [List.contains_iff_mem]
    exact h.taken id (hqueue ▸ List.mem_cons_self)
  have hknown : (s.jobs.any fun job => job.id = id) = true := by
    have hmem : id ∈ s.jobs.map Job.id := by
      rw [h.known, h.order, hqueue]
      exact List.mem_append_right _ List.mem_cons_self
    obtain ⟨job, hjob, hid⟩ := List.mem_map.1 hmem
    exact List.any_eq_true.2 ⟨job, hjob, decide_eq_true hid⟩
  rw [takeNext, hcallback, hknown]
  rfl

/-- The id the worker takes is not among those that have ended, and not taken twice. -/
theorem Good.next_fresh (h : Good s) {id : Nat} {rest : List Nat} (hqueue : s.queue = id :: rest) :
    id ∉ s.ended ∧ id ∉ rest := by
  have hnodup := h.once
  rw [h.accepted_eq, hqueue] at hnodup
  obtain ⟨-, hleft, hdisjoint⟩ := List.nodup_append.1 hnodup
  obtain ⟨-, hqueue, -⟩ := List.nodup_append.1 hleft
  constructor
  · intro hended
    exact hdisjoint id hended id (List.mem_append_right _ List.mem_cons_self) rfl
  · exact (List.nodup_cons.1 hqueue).1

theorem good_takeNext (h : Good s) (hworker : s.worker = .waiting) {id : Nat} {rest : List Nat}
    (hqueue : s.queue = id :: rest) (now : Int) : Good (takeNext s id rest now true) := by
  obtain ⟨hended, hrest⟩ := h.next_fresh hqueue
  have hjob : ∀ job ∈ s.jobs, job.id = id → job.status = .queued := by
    intro job hmem hid
    exact h.queued job hmem (by rw [hqueue, hid]; exact List.mem_cons_self)
  rw [takeNext_eq h hqueue]
  refine ⟨by simp, ?_, h.once, ?_, ?_, ?_, ?_, ?_, ?_, ?_⟩
  · have hsame : ∀ job, (begunJob now job).id = job.id := fun _ => rfl
    rw [map_id_changeJob hsame, h.known]
  · show s.accepted = s.started ++ [id] ++ rest
    rw [h.order, hqueue, List.append_assoc]
    rfl
  · show s.started ++ [id] = s.ended ++ [id]
    rw [h.single, hworker]
    simp [Worker.job]
  · intro other hother
    refine List.mem_filter.2 ⟨h.taken other (hqueue ▸ List.mem_cons_of_mem _ hother), ?_⟩
    have hne : other ≠ id := fun heq => hrest (heq ▸ hother)
    simpa using hne
  · intro job hmem hid
    obtain ⟨old, hold, rfl⟩ := mem_changeJob.1 hmem
    split at hid
    next heq => exact absurd (heq ▸ hid) hended
    next hne =>
      rw [if_neg hne]
      exact h.finals old hold hid
  · intro job hmem hid
    obtain ⟨old, hold, rfl⟩ := mem_changeJob.1 hmem
    split at hid
    next heq =>
      rw [if_pos heq]
      rfl
    next hne => exact absurd (Option.some.inj hid).symm hne
  · intro job hmem hid
    obtain ⟨old, hold, rfl⟩ := mem_changeJob.1 hmem
    split at hid
    next heq => exact absurd (heq ▸ hid) hrest
    next hne =>
      rw [if_neg hne]
      exact h.queued old hold (hqueue ▸ List.mem_cons_of_mem _ hid)
  · refine times_changeJob (fun _ => rfl) ?_ h.times
    intro job hmem hid _
    simp [Job.isActive, hjob job hmem hid]

/-- How a job ends when nothing fails but its callback. -/
def endedJob (outcome : Outcome) (now : Int) (job : Job) : Job :=
  match outcome with
  | .returned => { job with status := .succeeded, exitCode := some 0, finishedAt := some now }
  | .raised => { job with status := .failed, exitCode := some 1, finishedAt := some now }

theorem finishJob_eq {outcome : Outcome} {id : Nat} {now : Int} {log audit : Write}
    (hwrites : outcome = .raised → log = true ∧ audit = true) :
    finishJob s id outcome now log audit true = { s with
      jobs := changeJob id (endedJob outcome now) s.jobs
      worker := .waiting
      ended := s.ended ++ [id] } := by
  cases outcome with
  | returned => rfl
  | raised =>
      obtain ⟨rfl, rfl⟩ := hwrites rfl
      rfl

theorem endedJob_isFinal (outcome : Outcome) (now : Int) (job : Job) :
    (endedJob outcome now job).isFinal = true := by
  cases outcome <;> rfl

theorem good_finishJob (h : Good s) {id : Nat} (hworker : s.worker = .running id)
    {outcome : Outcome} {now : Int} {log audit : Write}
    (hwrites : outcome = .raised → log = true ∧ audit = true) :
    Good (finishJob s id outcome now log audit true) := by
  have hsame : ∀ job, (endedJob outcome now job).id = job.id := by
    intro job
    cases outcome <;> rfl
  have hqueued : id ∉ s.queue := by
    have hnodup := h.once
    rw [h.accepted_eq, hworker] at hnodup
    obtain ⟨-, hleft, -⟩ := List.nodup_append.1 hnodup
    exact fun hmem => (List.nodup_append.1 hleft).2.2 id (by simp [Worker.job]) id hmem rfl
  rw [finishJob_eq hwrites]
  refine ⟨by simp, ?_, h.once, h.order, ?_, h.taken, ?_, ?_, ?_, ?_⟩
  · rw [map_id_changeJob hsame, h.known]
  · show s.started = s.ended ++ [id] ++ []
    rw [h.single, hworker]
    simp [Worker.job]
  · intro job hmem hid
    obtain ⟨old, hold, rfl⟩ := mem_changeJob.1 hmem
    split at hid
    next heq =>
      rw [if_pos heq]
      exact endedJob_isFinal outcome now old
    next hne =>
      rw [if_neg hne]
      rcases List.mem_append.1 hid with hid | hid
      · exact h.finals old hold hid
      · exact absurd (List.mem_singleton.1 hid) hne
  · intro job _ hid
    cases hid
  · intro job hmem hid
    obtain ⟨old, hold, rfl⟩ := mem_changeJob.1 hmem
    split at hid
    next heq =>
      rw [hsame, heq] at hid
      exact absurd hid hqueued
    next hne =>
      rw [if_neg hne]
      exact h.queued old hold hid
  · refine times_changeJob ?_ ?_ h.times
    · intro job
      cases outcome <;> rfl
    · intro job _ _ hactive
      cases outcome <;> cases hactive

theorem good_step (h : Good s) (hforeseen : Foreseen s e) (hstep : step s e = some s') :
    Good s' := by
  cases e with
  | start =>
      simp only [step] at hstep
      split at hstep
      next hworker =>
        obtain rfl := Option.some.inj hstep
        exact good_start h hworker
      next hworker => exact absurd hworker h.alive
      · exact Option.some.inj hstep ▸ h
      · exact Option.some.inj hstep ▸ h
  | enqueue job directory index =>
      obtain ⟨rfl, rfl, hlast⟩ := hforeseen
      simp only [step] at hstep
      split at hstep
      · cases hstep
      next hnew =>
        obtain rfl := Option.some.inj hstep
        simp only [Bool.or_eq_true, not_or, decide_eq_true_eq, ne_eq, not_not] at hnew
        apply good_enqueue h ?_ hnew.2 hlast
        intro hmem
        rw [← h.known] at hmem
        obtain ⟨other, hother, hid⟩ := List.mem_map.1 hmem
        exact hnew.1 (List.any_eq_true.2 ⟨other, hother, decide_eq_true hid⟩)
  | take now index =>
      obtain rfl : index = true := hforeseen
      simp only [step] at hstep
      split at hstep
      next id rest hworker hqueue =>
        obtain rfl := Option.some.inj hstep
        exact good_takeNext h hworker hqueue now
      · cases hstep
  | finish outcome now log audit index =>
      obtain ⟨rfl, hwrites⟩ := hforeseen
      simp only [step] at hstep
      split at hstep
      next id hworker =>
        obtain rfl := Option.some.inj hstep
        exact good_finishJob h hworker hwrites
      · cases hstep

/-! ### Final statuses -/

theorem lawful_changeJob {id : Nat} {change : Job → Job} {jobs : List Job}
    (hnot : ∀ job ∈ jobs, job.id = id → job.isFinal = false) :
    ∀ job ∈ jobs, job.isFinal = true →
      ∃ after ∈ changeJob id change jobs, after.id = job.id ∧ after.status = job.status := by
  intro job hjob hfinal
  have hne : job.id ≠ id := by
    intro hid
    rw [hnot job hjob hid] at hfinal
    cases hfinal
  exact ⟨job, mem_changeJob.2 ⟨job, hjob, if_neg hne⟩, rfl, rfl⟩

theorem lawful_step (h : Good s) (hforeseen : Foreseen s e) (hstep : step s e = some s') :
    Lawful s s' := by
  cases e with
  | start =>
      simp only [step] at hstep
      split at hstep <;> obtain rfl := Option.some.inj hstep <;>
        exact fun job hjob _ => ⟨job, hjob, rfl, rfl⟩
  | enqueue job directory index =>
      obtain ⟨rfl, rfl, -⟩ := hforeseen
      simp only [step] at hstep
      split at hstep
      · cases hstep
      · obtain rfl := Option.some.inj hstep
        exact fun other hother _ => ⟨other, List.mem_append_left _ hother, rfl, rfl⟩
  | take now index =>
      obtain rfl : index = true := hforeseen
      simp only [step] at hstep
      split at hstep
      next id rest hworker hqueue =>
        obtain rfl := Option.some.inj hstep
        rw [takeNext_eq h hqueue]
        apply lawful_changeJob
        intro job hjob hid
        have hstatus := h.queued job hjob (by rw [hqueue, hid]; exact List.mem_cons_self)
        simp [Job.isFinal, hstatus]
      · cases hstep
  | finish outcome now log audit index =>
      obtain ⟨rfl, hwrites⟩ := hforeseen
      simp only [step] at hstep
      split at hstep
      next id hworker =>
        obtain rfl := Option.some.inj hstep
        rw [finishJob_eq hwrites]
        apply lawful_changeJob
        intro job hjob hid
        have hstatus := h.running job hjob (by rw [hworker, hid]; rfl)
        simp [Job.isFinal, hstatus]
      · cases hstep

/-! ### Runs -/

theorem Good.orderly (h : Good s) : Orderly s where
  order := h.order
  once := h.once
  single := h.single
  final := by
    intro id hid
    have hmem : id ∈ s.jobs.map Job.id := by
      rw [h.known, h.accepted_eq]
      exact List.mem_append_left _ hid
    obtain ⟨job, hjob, rfl⟩ := List.mem_map.1 hmem
    exact ⟨job, hjob, rfl, h.finals job hjob hid⟩
  goesOn := by
    refine ⟨h.alive, fun id rest hworker hqueue now => ⟨takeNext s id rest now true, ?_, ?_⟩⟩
    · rw [step, hworker, hqueue]
    · rw [takeNext_eq h hqueue]
  active := h.activeJob_id

/-- In every run whose files are written and whose clock does not step back before a job that has
not finished, the queue is in order, whatever the callbacks do, and no final status changes. -/
theorem jobQueue_runs {s : State} (hrun : Runs.Reaches step Foreseen {} s) :
    Orderly s ∧ ∀ e s', Foreseen s e → step s e = some s' → Lawful s s' := by
  have hgood : Good s := by
    apply hrun.invariant
    · constructor <;> simp [Worker.job]
    · exact fun s e s' hs hforeseen hstep => good_step hs hforeseen hstep
  exact ⟨hgood.orderly, fun e s' hforeseen hstep => lawful_step hgood hforeseen hstep⟩

/-! ### The queue as its callers see it -/

/-- A job without its times. -/
def Job.view (job : Job) : Backup.Job where
  action := job.action
  target := job.target
  user := job.user
  status := job.status

/-- The oldest job that has not finished is the first one that has not. -/
theorem view_activeJob (h : Good s) :
    Backup.activeJob (s.jobs.map Job.view) = (activeJob s.jobs).map Job.view := by
  rw [activeJob, Sorted.find?_insertionSort h.times, Backup.activeJob, List.find?_map]
  rfl

/-- The job of an id that is in the queue once, and the jobs before it. -/
theorem Good.split (h : Good s) {before : List Nat} {id : Nat} {after : List Nat}
    (hids : s.accepted = before ++ id :: after) :
    ∃ earlier job later, s.jobs = earlier ++ job :: later ∧ earlier.map Job.id = before ∧
      job.id = id ∧ ∀ change, changeJob id change s.jobs = earlier ++ change job :: later := by
  obtain ⟨earlier, left, hjobs, hearlier, hleft⟩ := List.map_eq_append_iff.1 (h.known.trans hids)
  obtain ⟨job, later, rfl, hid, hlater⟩ := List.map_eq_cons_iff.1 hleft
  refine ⟨earlier, job, later, hjobs, hearlier, hid, fun change => ?_⟩
  have hnodup := h.once
  rw [hids] at hnodup
  obtain ⟨-, hcons, hdisjoint⟩ := List.nodup_append.1 hnodup
  have hother : ∀ jobs : List Job, (∀ other ∈ jobs, other.id ≠ id) →
      changeJob id change jobs = jobs := by
    intro jobs hne
    rw [changeJob, List.map_congr_left fun other hother => if_neg (hne other hother)]
    exact List.map_id _
  have hbefore : changeJob id change earlier = earlier := by
    apply hother
    intro other hmem heq
    exact hdisjoint other.id (hearlier ▸ List.mem_map_of_mem hmem) id List.mem_cons_self heq
  have hafter : changeJob id change later = later := by
    apply hother
    intro other hmem heq
    exact (List.nodup_cons.1 hcons).1 (hlater ▸ heq ▸ List.mem_map_of_mem hmem)
  have hsplit : changeJob id change (earlier ++ job :: later) = changeJob id change earlier ++
      (if job.id = id then change job else job) :: changeJob id change later := by
    simp [changeJob]
  rw [hjobs, hsplit, hbefore, hafter, if_pos hid]

theorem moveFirst_append {source target : Backup.JobStatus} {earlier later : List Backup.Job}
    {job : Backup.Job} (hearlier : ∀ other ∈ earlier, other.status ≠ source)
    (hjob : job.status = source) :
    Backup.moveFirst source target (earlier ++ job :: later) =
      earlier ++ { job with status := target } :: later := by
  induction earlier with
  | nil => rw [List.nil_append, Backup.moveFirst, if_pos hjob, List.nil_append]
  | cons first rest ih =>
      rw [List.cons_append, Backup.moveFirst, if_neg (hearlier first List.mem_cons_self),
        ih fun other hother => hearlier other (List.mem_cons_of_mem _ hother), List.cons_append]

/-- The jobs before the next one, or the one that runs, have ended. -/
theorem Good.ended_view (h : Good s) {earlier left : List Job} (hjobs : s.jobs = earlier ++ left)
    (hended : earlier.map Job.id = s.ended) {other : Backup.Job}
    (hother : other ∈ earlier.map Job.view) :
    other.status ≠ .queued ∧ other.status ≠ .running := by
  obtain ⟨job, hjob, rfl⟩ := List.mem_map.1 hother
  have hfinal := h.finals job (hjobs ▸ List.mem_append_left _ hjob)
    (hended ▸ List.mem_map_of_mem hjob)
  simp only [Job.isFinal, Bool.or_eq_true, decide_eq_true_eq] at hfinal
  rcases hfinal with hstatus | hstatus <;> simp [Job.view, hstatus]

theorem view_takeNext (h : Good s) (hworker : s.worker = .waiting) {id : Nat} {rest : List Nat}
    (hqueue : s.queue = id :: rest) (now : Int) (succeeds : Bool) :
    (takeNext s id rest now true).jobs.map Job.view =
      Backup.work succeeds (s.jobs.map Job.view) := by
  have hids : s.accepted = s.ended ++ id :: rest := by
    rw [h.accepted_eq, hworker, hqueue]
    rfl
  obtain ⟨earlier, job, later, hjobs, hearlier, hid, hchange⟩ := h.split hids
  have hstatus : job.status = .queued := by
    apply h.queued job
    · rw [hjobs]
      exact List.mem_append_right _ List.mem_cons_self
    · rw [hqueue, hid]
      exact List.mem_cons_self
  have hidle : ((s.jobs.map Job.view).any fun job => job.status = .running) = false := by
    rw [List.any_eq_false]
    intro other hother
    obtain ⟨one, hone, rfl⟩ := List.mem_map.1 hother
    have hmem : one.id ∈ s.ended ++ s.queue := by
      have := h.accepted_eq
      rw [hworker] at this
      exact this ▸ h.known ▸ List.mem_map_of_mem hone
    rcases List.mem_append.1 hmem with hended | hqueued
    · have hfinal := h.finals one hone hended
      simp only [Job.isFinal, Bool.or_eq_true, decide_eq_true_eq] at hfinal
      rcases hfinal with hone | hone <;> simp [Job.view, hone]
    · simp [Job.view, h.queued one hone hqueued]
  rw [takeNext_eq h hqueue, Backup.work, hidle, hchange, hjobs]
  simp only [List.map_append, List.map_cons, Bool.false_eq_true, if_false]
  rw [moveFirst_append (fun other hother => (h.ended_view hjobs hearlier hother).1) hstatus]
  rfl

theorem view_finishJob (h : Good s) {id : Nat} (hworker : s.worker = .running id)
    {outcome : Outcome} {now : Int} {log audit : Write}
    (hwrites : outcome = .raised → log = true ∧ audit = true) :
    (finishJob s id outcome now log audit true).jobs.map Job.view =
      Backup.work (outcome = .returned) (s.jobs.map Job.view) := by
  have hids : s.accepted = s.ended ++ id :: s.queue := by
    rw [h.accepted_eq, hworker]
    rfl
  obtain ⟨earlier, job, later, hjobs, hearlier, hid, hchange⟩ := h.split hids
  have hmem : job ∈ s.jobs := by
    rw [hjobs]
    exact List.mem_append_right _ List.mem_cons_self
  have hstatus : job.status = .running := h.running job hmem (by rw [hworker, hid]; rfl)
  have hbusy : ((s.jobs.map Job.view).any fun job => job.status = .running) = true :=
    List.any_eq_true.2 ⟨job.view, List.mem_map_of_mem hmem, by simp [Job.view, hstatus]⟩
  rw [finishJob_eq hwrites, Backup.work, hbusy, hchange, hjobs]
  simp only [List.map_append, List.map_cons, if_true]
  rw [moveFirst_append (fun other hother => (h.ended_view hjobs hearlier hother).2) hstatus]
  cases outcome <;> rfl

/-- One step as the callers see it. -/
def viewStep (jobs : List Backup.Job) : Event → List Backup.Job
  | .start => jobs
  | .enqueue job _ _ => jobs ++ [job.view]
  | .take _ _ => Backup.work true jobs
  | .finish outcome _ _ _ _ => Backup.work (outcome = .returned) jobs

/-- A foreseen step of the queue is one of the queue that its callers see. -/
theorem view_step (h : Good s) (hforeseen : Foreseen s e) (hstep : step s e = some s') :
    s'.jobs.map Job.view = viewStep (s.jobs.map Job.view) e := by
  cases e with
  | start =>
      simp only [step] at hstep
      split at hstep <;> obtain rfl := Option.some.inj hstep <;> rfl
  | enqueue job directory index =>
      obtain ⟨rfl, rfl, -⟩ := hforeseen
      simp only [step] at hstep
      split at hstep
      · cases hstep
      · obtain rfl := Option.some.inj hstep
        exact List.map_append
  | take now index =>
      obtain rfl : index = true := hforeseen
      simp only [step] at hstep
      split at hstep
      next id rest hworker hqueue =>
        obtain rfl := Option.some.inj hstep
        exact view_takeNext h hworker hqueue now true
      · cases hstep
  | finish outcome now log audit index =>
      obtain ⟨rfl, hwrites⟩ := hforeseen
      simp only [step] at hstep
      split at hstep
      next id hworker =>
        obtain rfl := Option.some.inj hstep
        exact view_finishJob h hworker hwrites
      · cases hstep

/-- A backup and a start of an add-on. -/
def backupJob : Job where
  id := 1
  action := "backup"
  target := "/backup"
  user := "anna"
  createdAt := 100

def startJob : Job where
  id := 2
  action := "start"
  target := "wiki"
  user := "anna"
  createdAt := 200

/-- The backup fails, and the start is taken. -/
def failedBackup : List Event :=
  [.start, .enqueue backupJob true true, .take 110 true, .enqueue startJob true true,
    .finish .raised 300 true true true, .take 310 true]

/-- The state a list of events leads to. -/
def afterEvents (events : List Event) : State :=
  (Runs.replay step {} events).getD {}

theorem failedBackup_foreseen : Runs.Permits step Foreseen {} failedBackup := by
  refine .cons trivial rfl (.cons ⟨rfl, rfl, ?_⟩ rfl (.cons rfl rfl (.cons ⟨rfl, rfl, ?_⟩ rfl
    (.cons ⟨rfl, fun _ => ⟨rfl, rfl⟩⟩ rfl (.cons rfl rfl trivial)))))
  · intro other hother
    cases hother
  · intro other hother _
    rw [List.mem_singleton.1 hother]
    decide

theorem jobQueue_runs_failedBackup :
    Orderly (afterEvents failedBackup) ∧
      ∀ e s', Foreseen (afterEvents failedBackup) e →
        step (afterEvents failedBackup) e = some s' → Lawful (afterEvents failedBackup) s' :=
  jobQueue_runs (Runs.reaches_of_replay failedBackup_foreseen rfl)

/-- The backup fails, and so does the line about it in its log. -/
def lostLog : List Event :=
  [.start, .enqueue backupJob true true, .take 110 true, .enqueue startJob true true,
    .finish .raised 300 false true true]

/-- A log that cannot be written ends the worker: the job has no final status, and the next one is
never taken. -/
theorem lost_log_stops_queue :
    ¬∀ s, Runs.Reaches step (fun _ _ => True) {} s →
      Orderly s ∧ ∀ e s', step s e = some s' → Lawful s s' := by
  intro h
  have horderly := (h (afterEvents lostLog)
    (Runs.reaches_of_replay (Runs.permits_all _ lostLog) rfl)).1
  exact horderly.goesOn.1 rfl

end Papaia.Jobs
