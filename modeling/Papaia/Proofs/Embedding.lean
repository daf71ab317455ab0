/-
Module: Papaia.Proofs.Embedding
Purpose: When a staged upload is removed only after the runs that read it.  The state of the upload is
  looked at before the awaits of a start, a save and a pass, and not again after them, so what they
  found must still hold when they act.
Trusted boundary: none
Main exports: RemovedUnread, Undisturbed, Inv, removed_after_reading
-/
import Papaia.Ingest.Embedding
import Papaia.Lib.Runs

namespace Papaia.Ingest.Embedding

open Runs

/-! ### The promise and its condition -/

/-- The ingester has started the run of a call, and the manifest does not say so yet. -/
def State.Accepted (s : State) (task : Nat) (runId : String) : Prop :=
  ∃ request files bytes, s.starts task = some ⟨request, files, bytes, .accepted runId⟩

/-- The manifest says that a run embeds the upload. -/
def Embeds (upload : Upload) (runId : String) : Prop :=
  upload.batch.state = .embedding ∧ upload.batch.run.map StartedAs.runId = some runId

/-- A step that removes the upload finds no run on it working; and a pass that removes it has asked
about a clean run that was started with every file as it is now. -/
def RemovedAfterReading (s : State) (e : Event) (s' : State) : Prop :=
  ∀ upload, s.upload = some upload → s'.upload = none →
    (∀ run ∈ s.runs, run.working = false) ∧
      ∀ task, e = .settles task → ∃ pass, s.passes task = some pass ∧
        ∃ run ∈ s.runs, run.id = pass.runId ∧ run.view.clean = true ∧ upload.files ⊆ run.files

/-- The ingester starts a run only while nothing else embeds the upload; between that and
`mark_embedding` nobody discards it or completes a file, and the answer is not lost while the run
works; no file is completed while the upload is embedded; and a pass acts on what it has learned only
while the upload is still the one of the run it asked about. -/
def Undisturbed (s : State) : Event → Prop
  | .accepts _ _ => ∀ upload, s.upload = some upload →
      upload.batch.state ≠ .embedding ∧ ∀ other runId, ¬ s.Accepted other runId
  | .answered task lost => lost = true →
      ∀ run ∈ s.runs, s.Accepted task run.id → run.working = false
  | .saveEnds _ => ∀ upload, s.upload = some upload →
      upload.batch.state ≠ .embedding ∧ ∀ other runId, ¬ s.Accepted other runId
  | .discards => ∀ other runId, ¬ s.Accepted other runId
  | .settles task => ∀ upload batch runId answer, s.upload = some upload →
      s.passes task = some ⟨batch, runId, some answer⟩ →
        match settle answer with
        | .wait => True
        | .consume => Embeds upload runId
        | .keep _ => upload.batch.run.map StartedAs.runId = some runId
  | _ => True

/-! ### The invariant -/

/-- What an answer says is so, and stays so. -/
def Describes (run : Run) : Answer → Prop
  | .forgotten => run.working = false
  | .view view => view.active = false → run.view = view

/-- A run that works is on its way into the manifest or is in it, only one is on its way, and none
while the manifest names one; and such a run has read every file. -/
structure Guarded (s : State) (upload : Upload) : Prop where
  held : ∀ run ∈ s.runs, run.working = true →
    Embeds upload run.id ∨ ∃ task, s.Accepted task run.id
  single : ∀ task other runId otherId,
    s.Accepted task runId → s.Accepted other otherId → task = other
  apart : ∀ task runId, s.Accepted task runId → upload.batch.state ≠ .embedding
  covers : ∀ run ∈ s.runs, Embeds upload run.id ∨ (∃ task, s.Accepted task run.id) →
    upload.files ⊆ run.files

structure Inv (s : State) : Prop where
  unique : ∀ run ∈ s.runs, ∀ other ∈ s.runs, run.id = other.id → run = other
  answers : ∀ task pass answer, s.passes task = some pass → pass.answer = some answer →
    ∃ run ∈ s.runs, run.id = pass.runId ∧ Describes run answer
  guarded : ∀ upload, s.upload = some upload → Guarded s upload

theorem not_accepted_created (task : Nat) (runId : String) : ¬ created.Accepted task runId := by
  rintro ⟨_, _, _, h⟩
  cases h

theorem inv_created : Inv created where
  unique run h := by cases h
  answers task pass answer h := by cases h
  guarded upload _ :=
    { held := fun run h => by cases h
      single := fun task other runId otherId h => absurd h (not_accepted_created task runId)
      apart := fun task runId h => absurd h (not_accepted_created task runId)
      covers := fun run h => by cases h }

/-! ### What does not touch the invariant -/

/-- The accepted runs after a call has come to another phase. -/
theorem accepted_setStart {s : State} {task other : Nat} {start : Option Start} {runId : String} :
    (s.setStart task start).Accepted other runId ↔
      if other = task then
        ∃ request files bytes, start = some ⟨request, files, bytes, .accepted runId⟩
      else s.Accepted other runId := by
  by_cases h : other = task
  · subst h
    simp [State.Accepted, State.setStart]
  · simp [State.Accepted, State.setStart, h]

/-- A phase without a run of its own changes nothing. -/
theorem accepted_setStart_same {s : State} {task : Nat} {start : Option Start}
    (before : ∀ runId, ¬ s.Accepted task runId)
    (after : ∀ one, start = some one → ∀ runId, one.phase ≠ .accepted runId)
    (other : Nat) (runId : String) :
    (s.setStart task start).Accepted other runId ↔ s.Accepted other runId := by
  rw [accepted_setStart]
  split
  · rename_i h
    subst h
    refine ⟨?_, fun hbefore => absurd hbefore (before runId)⟩
    rintro ⟨request, files, bytes, rfl⟩
    exact absurd rfl (after _ rfl runId)
  · exact Iff.rfl

theorem Guarded.congr {s t : State} {upload : Upload} (h : Guarded s upload)
    (hruns : t.runs = s.runs)
    (haccepted : ∀ task runId, t.Accepted task runId ↔ s.Accepted task runId) :
    Guarded t upload where
  held := by simpa only [hruns, haccepted] using h.held
  single := by simpa only [haccepted] using h.single
  apart := by simpa only [haccepted] using h.apart
  covers := by simpa only [hruns, haccepted] using h.covers

/-- A step that leaves the upload, the runs, the answers and the accepted runs alone. -/
theorem Inv.congr {s t : State} (h : Inv s) (hupload : t.upload = s.upload)
    (hruns : t.runs = s.runs) (hpasses : t.passes = s.passes)
    (haccepted : ∀ task runId, t.Accepted task runId ↔ s.Accepted task runId) : Inv t where
  unique := by simpa only [hruns] using h.unique
  answers := by simpa only [hruns, hpasses] using h.answers
  guarded upload hone := (h.guarded upload (hupload ▸ hone)).congr hruns haccepted

/-- A call without a run of its own may come to any other such phase. -/
theorem Inv.setStart {s : State} (h : Inv s) {task : Nat} {start : Option Start}
    (before : ∀ runId, ¬ s.Accepted task runId)
    (after : ∀ one, start = some one → ∀ runId, one.phase ≠ .accepted runId) :
    Inv (s.setStart task start) :=
  h.congr rfl rfl rfl (accepted_setStart_same before after)

/-- A pass may get an answer that describes its run. -/
theorem Inv.setPass {s : State} (h : Inv s) (task : Nat) {pass : Option Pass}
    (hpass : ∀ one answer, pass = some one → one.answer = some answer →
      ∃ run ∈ s.runs, run.id = one.runId ∧ Describes run answer) : Inv (s.setPass task pass) where
  unique := h.unique
  answers other one answer hone hanswer := by
    by_cases hsame : other = task
    · subst hsame
      simp only [State.setPass, Function.update_self] at hone
      exact hpass one answer hone hanswer
    · simp only [State.setPass, Function.update_of_ne hsame] at hone
      exact h.answers other one answer hone hanswer
  guarded upload hone := (h.guarded upload hone).congr rfl fun _ _ => Iff.rfl

theorem not_accepted_of_phase {s : State} {task : Nat} {request : Request} {files bytes : Nat}
    {phase : StartPhase} (h : s.starts task = some ⟨request, files, bytes, phase⟩)
    (hphase : ∀ runId, phase ≠ .accepted runId) (runId : String) : ¬ s.Accepted task runId := by
  rintro ⟨_, _, _, haccepted⟩
  rw [h] at haccepted
  obtain ⟨_, _, _, heq⟩ := Start.mk.inj (Option.some.inj haccepted)
  exact hphase runId heq

/-! ### What each step keeps -/

/-- While nothing embeds the upload, no run on it works. -/
theorem idle_of_guarded {s : State} {upload : Upload} (h : Guarded s upload)
    (hstate : upload.batch.state ≠ .embedding) (hnone : ∀ task runId, ¬ s.Accepted task runId) :
    ∀ run ∈ s.runs, run.working = false := by
  intro run hrun
  by_contra hworking
  rcases h.held run hrun (by simpa using hworking) with hembeds | ⟨task, haccepted⟩
  · exact hstate hembeds.1
  · exact hnone task _ haccepted

/-- What is not embedded and not about to be is guarded by having no run that works. -/
theorem guarded_of_idle {s : State} {upload : Upload}
    (hidle : ∀ run ∈ s.runs, run.working = false) (hstate : upload.batch.state ≠ .embedding)
    (hnone : ∀ task runId, ¬ s.Accepted task runId) : Guarded s upload where
  held run hrun hworking := by simp [hidle run hrun] at hworking
  single task other runId otherId h := absurd h (hnone task runId)
  apart task runId h := absurd h (hnone task runId)
  covers run hrun h := by
    rcases h with hembeds | ⟨task, haccepted⟩
    · exact absurd hembeds.1 hstate
    · exact absurd haccepted (hnone task _)

/-- A file is completed while nothing embeds the upload. -/
theorem inv_saveEnds {s : State} {task : Nat} {save : Save} (h : Inv s)
    (ok : Undisturbed s (.saveEnds task)) :
    Inv ({ s with upload := s.upload.map (commitSave save) }.endSave task) where
  unique := h.unique
  answers := h.answers
  guarded upload hone := by
    obtain ⟨before, hbefore, rfl⟩ := Option.map_eq_some_iff.1 hone
    obtain ⟨hstate, hnone⟩ := ok before hbefore
    have hidle := idle_of_guarded (h.guarded before hbefore) hstate hnone
    refine guarded_of_idle hidle ?_ hnone
    simp only [commitSave]
    split
    · simp
    · exact hstate

/-- The ingester starts a run while nothing else embeds the upload. -/
theorem inv_accepts {s : State} {task : Nat} {runId : String} {request : Request}
    {files bytes : Nat} (h : Inv s) (ok : Undisturbed s (.accepts task runId))
    (hfresh : ∀ run ∈ s.runs, run.id ≠ runId) (run : Run) (hid : run.id = runId)
    (hfiles : run.files = (s.upload.map Upload.files).getD []) :
    Inv ({ s with runs := s.runs ++ [run] }.setStart task
      (some ⟨request, files, bytes, .accepted runId⟩)) where
  unique one hone other hother heq := by
    simp only [State.setStart, List.mem_append, List.mem_singleton] at hone hother
    rcases hone with hone | rfl <;> rcases hother with hother | rfl
    · exact h.unique one hone other hother heq
    · exact absurd (heq.trans hid) (hfresh one hone)
    · exact absurd (heq.symm.trans hid) (hfresh other hother)
    · rfl
  answers other pass answer hpass hanswer := by
    obtain ⟨one, hone, hrest⟩ := h.answers other pass answer hpass hanswer
    exact ⟨one, List.mem_append_left _ hone, hrest⟩
  guarded upload hupload := by
    obtain ⟨hstate, hnone⟩ := ok upload hupload
    have hidle := idle_of_guarded (h.guarded upload hupload) hstate hnone
    have haccepted : ∀ other otherId, (State.setStart { s with runs := s.runs ++ [run] } task
        (some ⟨request, files, bytes, .accepted runId⟩)).Accepted other otherId →
          other = task ∧ otherId = runId := by
      intro other otherId hother
      rw [accepted_setStart] at hother
      split at hother
      · rename_i hsame
        obtain ⟨_, _, _, heq⟩ := hother
        simp only [Option.some.injEq, Start.mk.injEq, StartPhase.accepted.injEq] at heq
        exact ⟨hsame, heq.2.2.2.symm⟩
      · exact absurd hother (hnone other otherId)
    refine
      { held := fun one hone hworking => .inr ⟨task, ?_⟩
        single := fun one other _ _ hone hother =>
          (haccepted _ _ hone).1.trans (haccepted _ _ hother).1.symm
        apart := fun _ _ _ => hstate
        covers := fun one hone hheld => ?_ }
    · simp only [State.setStart, List.mem_append, List.mem_singleton] at hone
      rcases hone with hone | rfl
      · simp [hidle one hone] at hworking
      · exact accepted_setStart.2 (by simp [hid])
    · simp only [State.setStart, List.mem_append, List.mem_singleton] at hone
      rcases hone with hone | rfl
      · rcases hheld with hembeds | ⟨other, hother⟩
        · exact absurd hembeds.1 hstate
        · exact absurd (haccepted _ _ hother).2 (hfresh one hone)
      · rw [hfiles, show s.upload = some upload from hupload]
        exact fun entry hentry => hentry

/-- The answer of the ingester brings the run into the manifest. -/
theorem inv_marked {s : State} {task : Nat} {runId : String} {request : Request} {files bytes : Nat}
    {upload : Upload} {audit : List AuditEntry} (h : Inv s) (hupload : s.upload = some upload)
    (hstart : s.starts task = some ⟨request, files, bytes, .accepted runId⟩) :
    Inv (State.setStart { s with
      upload := some (markEmbedding (request.startedAs runId) upload), audit := audit } task
        none) where
  unique := h.unique
  answers := h.answers
  guarded one hone := by
    obtain rfl := Option.some.inj hone
    have hguarded := h.guarded upload hupload
    have htask : s.Accepted task runId := ⟨_, _, _, hstart⟩
    have hnone : ∀ other otherId, ¬ (State.setStart { s with
        upload := some (markEmbedding (request.startedAs runId) upload), audit := audit } task
          none).Accepted other otherId := by
      intro other otherId hother
      rw [accepted_setStart] at hother
      split at hother
      · obtain ⟨_, _, _, heq⟩ := hother
        cases heq
      · rename_i hdiffers
        exact hdiffers (hguarded.single other task otherId runId hother htask)
    have hembeds : ∀ otherId, Embeds (markEmbedding (request.startedAs runId) upload) otherId ↔
        otherId = runId := by
      intro otherId
      simp [Embeds, markEmbedding, Request.startedAs, eq_comm]
    refine
      { held := fun run hrun hworking => .inl ?_
        single := fun one other runId otherId hone => absurd hone (hnone one runId)
        apart := fun one runId hone => absurd hone (hnone one runId)
        covers := fun run hrun hheld => ?_ }
    · rw [hembeds]
      rcases hguarded.held run hrun hworking with hold | ⟨other, hother⟩
      · exact absurd hold.1 (hguarded.apart task runId htask)
      · obtain rfl := hguarded.single other task _ runId hother htask
        obtain ⟨_, _, _, heq⟩ := hother
        rw [hstart] at heq
        simp only [Option.some.injEq, Start.mk.injEq, StartPhase.accepted.injEq] at heq
        exact heq.2.2.2.symm
    · rcases hheld with hnew | ⟨other, hother⟩
      · rw [hembeds] at hnew
        exact hguarded.covers run hrun (.inr ⟨task, hnew ▸ htask⟩)
      · exact absurd hother (hnone other _)

/-- The answer of the ingester is lost once the run has ended. -/
theorem inv_lost {s : State} {task : Nat} (h : Inv s)
    (ok : ∀ run ∈ s.runs, s.Accepted task run.id → run.working = false) :
    Inv (s.setStart task none) where
  unique := h.unique
  answers := h.answers
  guarded upload hupload := by
    have hguarded := h.guarded upload hupload
    have hstill : ∀ other runId, (s.setStart task none).Accepted other runId →
        other ≠ task ∧ s.Accepted other runId := by
      intro other runId hother
      rw [accepted_setStart] at hother
      split at hother
      · obtain ⟨_, _, _, heq⟩ := hother
        cases heq
      · rename_i hdiffers
        exact ⟨hdiffers, hother⟩
    refine
      { held := fun run hrun hworking => ?_
        single := fun one other runId otherId hone hother =>
          hguarded.single one other runId otherId (hstill _ _ hone).2 (hstill _ _ hother).2
        apart := fun one runId hone => hguarded.apart one runId (hstill _ _ hone).2
        covers := fun run hrun hheld => ?_ }
    · rcases hguarded.held run hrun hworking with hembeds | ⟨other, hother⟩
      · exact .inl hembeds
      · by_cases hsame : other = task
        · subst hsame
          simp [ok run hrun hother] at hworking
        · exact .inr ⟨other, accepted_setStart.2 (by simp [hsame, hother])⟩
    · rcases hheld with hembeds | ⟨other, hother⟩
      · exact hguarded.covers run hrun (.inl hembeds)
      · exact hguarded.covers run hrun (.inr ⟨other, (hstill _ _ hother).2⟩)

/-- What the end of a run changes of a run. -/
def endRun (runId : String) (view : RunView) (run : Run) : Run :=
  if run.id = runId && run.working then { run with view := view } else run

theorem endRun_id (runId : String) (view : RunView) (run : Run) :
    (endRun runId view run).id = run.id := by
  unfold endRun
  split <;> rfl

theorem endRun_files (runId : String) (view : RunView) (run : Run) :
    (endRun runId view run).files = run.files := by
  unfold endRun
  split <;> rfl

/-- A run that has ended stays as it is. -/
theorem endRun_of_ended {runId : String} {view : RunView} {run : Run}
    (h : run.working = false) : endRun runId view run = run := by
  simp [endRun, h]

theorem working_of_endRun {runId : String} {view : RunView} {run : Run}
    (h : (endRun runId view run).working = true) :
    run.working = true := by
  unfold endRun at h
  split at h
  · rename_i hboth
    simp only [Bool.and_eq_true] at hboth
    exact hboth.2
  · exact h

theorem inv_runEnds {s : State} {runId : String} {view : RunView} (h : Inv s) :
    Inv { s with runs := s.runs.map (endRun runId view) } where
  unique one hone other hother heq := by
    obtain ⟨first, hfirst, rfl⟩ := List.mem_map.1 hone
    obtain ⟨second, hsecond, rfl⟩ := List.mem_map.1 hother
    rw [endRun_id, endRun_id] at heq
    rw [h.unique first hfirst second hsecond heq]
  answers task pass answer hpass hanswer := by
    obtain ⟨run, hrun, hid, hdescribes⟩ := h.answers task pass answer hpass hanswer
    refine ⟨endRun runId view run, List.mem_map_of_mem hrun, (endRun_id ..).trans hid, ?_⟩
    cases answer with
    | forgotten =>
        rw [endRun_of_ended hdescribes]
        exact hdescribes
    | view seen =>
        intro hseen
        have hsame : run.view = seen := hdescribes hseen
        rw [endRun_of_ended (by rw [Run.working, hsame]; exact hseen)]
        exact hsame
  guarded upload hupload := by
    have hguarded := h.guarded upload hupload
    refine
      { held := fun run hrun hworking => ?_
        single := hguarded.single
        apart := hguarded.apart
        covers := fun run hrun hheld => ?_ }
    · obtain ⟨before, hbefore, rfl⟩ := List.mem_map.1 hrun
      rw [endRun_id]
      exact hguarded.held before hbefore (working_of_endRun hworking)
    · obtain ⟨before, hbefore, rfl⟩ := List.mem_map.1 hrun
      rw [endRun_id] at hheld
      rw [endRun_files]
      exact hguarded.covers before hbefore hheld

/-- A run that is asked about and has ended is not the one that works. -/
theorem ended_of_settled {answer : Answer} {run : Run} (h : Describes run answer)
    (hdone : settle answer ≠ .wait) : run.working = false := by
  cases answer with
  | forgotten => exact h
  | view view =>
      have hview : view.active = false := by
        by_contra hactive
        exact hdone (by simp [settle, hactive])
      rw [Run.working, h hview]
      exact hview

/-- A pass keeps an upload whose run has ended. -/
theorem inv_kept {s : State} {upload : Upload} {runId note : String} {audit : List AuditEntry}
    (h : Inv s) (hupload : s.upload = some upload)
    (hended : ∀ run ∈ s.runs, run.id = runId → run.working = false)
    (hrun : upload.batch.run.map StartedAs.runId = some runId) :
    Inv { s with upload := some (markKept note upload), audit := audit } where
  unique := h.unique
  answers := h.answers
  guarded kept hkept := by
    obtain rfl := Option.some.inj hkept
    have hguarded := h.guarded upload hupload
    refine
      { held := fun run hmem hworking => ?_
        single := hguarded.single
        apart := fun _ _ _ => by simp [markKept]
        covers := fun run hmem hheld => ?_ }
    · rcases hguarded.held run hmem hworking with hembeds | haccepted
      · have hid : run.id = runId := Option.some.inj (hembeds.2.symm.trans hrun)
        simp [hended run hmem hid] at hworking
      · exact .inr haccepted
    · rcases hheld with hembeds | haccepted
      · simp [Embeds, markKept] at hembeds
      · exact hguarded.covers run hmem (.inr haccepted)

/-- What a pass does with its answer keeps the invariant. -/
theorem inv_settles {s : State} {task : Nat} {upload : Upload} {batch : Batch} {runId : String}
    {answer : Answer} (h : Inv s) (ok : Undisturbed s (.settles task))
    (hupload : s.upload = some upload) (hpass : s.passes task = some ⟨batch, runId, some answer⟩) :
    Inv (s.apply upload ⟨batch, runId, some answer⟩ answer) := by
  have hcondition := ok upload batch runId answer hupload hpass
  obtain ⟨asked, hasked, hid, hdescribes⟩ := h.answers task _ answer hpass rfl
  have hended : settle answer ≠ .wait → ∀ run ∈ s.runs, run.id = runId → run.working = false := by
    intro hdone run hrun hsame
    rw [h.unique run hrun asked hasked (hsame.trans hid.symm)]
    exact ended_of_settled hdescribes hdone
  unfold State.apply
  cases hverdict : settle answer with
  | wait => exact h
  | consume =>
      exact
        { unique := h.unique
          answers := h.answers
          guarded := fun upload hnone => by cases hnone }
  | keep note =>
      rw [hverdict] at hcondition hended
      cases answer with
      | forgotten => exact inv_kept h hupload (hended (by simp)) hcondition
      | view view => exact inv_kept h hupload (hended (by simp)) hcondition

/-- Every undisturbed step keeps the invariant. -/
theorem inv_step {limits : Limits} {s s' : State} {e : Event} (h : Inv s) (ok : Undisturbed s e)
    (taken : step limits s e = some s') : Inv s' := by
  have hnoStart : ∀ one : Start, none = some one → ∀ runId, one.phase ≠ .accepted runId :=
    fun one hone => by cases hone
  have hnoPass : ∀ (one : Pass) (answer : Answer), none = some one → one.answer = some answer →
      ∃ run ∈ s.runs, run.id = one.runId ∧ Describes run answer :=
    fun one answer hone => by cases hone
  cases e with
  | saveBegins task path tmp =>
      simp only [step] at taken
      split at taken
      · cases taken
      · split at taken
        · cases taken
        · split at taken <;> obtain rfl := Option.some.inj taken
          · exact h
          · exact h.congr rfl rfl rfl fun _ _ => Iff.rfl
  | saveReads task chunk =>
      simp only [step] at taken
      split at taken
      · cases taken
      · split at taken <;> obtain rfl := Option.some.inj taken <;>
          exact h.congr rfl rfl rfl fun _ _ => Iff.rfl
  | saveEnds task =>
      simp only [step] at taken
      split at taken
      · cases taken
      · obtain rfl := Option.some.inj taken
        exact inv_saveEnds h ok
  | saveFails task =>
      obtain rfl := Option.some.inj taken
      exact h.congr rfl rfl rfl fun _ _ => Iff.rfl
  | plans task request =>
      simp only [step] at taken
      split at taken
      · rename_i upload hupload hfree
        split at taken <;> obtain rfl := Option.some.inj taken
        · exact h
        · rename_i start hplan
          refine h.setStart (fun runId haccepted => ?_) fun one hone runId => ?_
          · obtain ⟨_, _, _, hbusy⟩ := haccepted
            cases hfree.symm.trans hbusy
          · obtain rfl := Option.some.inj hone
            simp only [plan] at hplan
            split at hplan
            · cases hplan
            · split at hplan
              · cases hplan
              · obtain rfl := Option.some.inj hplan
                simp
      · cases taken
  | checks task blocked folderRunning =>
      simp only [step] at taken
      split at taken
      · rename_i request files bytes hstart
        have hbefore := not_accepted_of_phase hstart (by simp)
        split at taken <;> obtain rfl := Option.some.inj taken
        · exact h.setStart hbefore hnoStart
        · refine h.setStart hbefore fun one hone runId => ?_
          obtain rfl := Option.some.inj hone
          simp
      · cases taken
  | givesUp task =>
      simp only [step] at taken
      split at taken
      · rename_i hstart
        obtain rfl := Option.some.inj taken
        exact h.setStart (not_accepted_of_phase hstart (by simp)) hnoStart
      · rename_i hstart
        obtain rfl := Option.some.inj taken
        exact h.setStart (not_accepted_of_phase hstart (by simp)) hnoStart
      · cases taken
  | accepts task runId =>
      simp only [step] at taken
      split at taken
      · rename_i request files bytes hstart
        split at taken
        · cases taken
        · rename_i hfresh
          split at taken <;> obtain rfl := Option.some.inj taken
          · exact h.setStart (not_accepted_of_phase hstart (by simp)) hnoStart
          · exact inv_accepts h ok (by simpa using hfresh) _ rfl rfl
      · cases taken
  | answered task lost =>
      simp only [step] at taken
      split at taken
      · rename_i request files bytes runId hstart
        split at taken
        · rename_i hgone
          obtain rfl := Option.some.inj taken
          exact
            { unique := h.unique
              answers := h.answers
              guarded := fun upload hupload => by cases hgone.symm.trans hupload }
        · rename_i upload hupload
          split at taken <;> obtain rfl := Option.some.inj taken
          · rename_i hlost
            exact inv_lost h (ok hlost)
          · exact inv_marked h hupload hstart
      · cases taken
  | runEnds runId view =>
      simp only [step] at taken
      split at taken
      · cases taken
      · obtain rfl := Option.some.inj taken
        exact inv_runEnds h
  | discards =>
      simp only [step] at taken
      split at taken
      · cases taken
      · split at taken <;> obtain rfl := Option.some.inj taken
        · exact h
        · exact
            { unique := h.unique
              answers := h.answers
              guarded := fun upload hnone => by cases hnone }
  | passBegins task =>
      simp only [step] at taken
      split at taken
      · split at taken <;> obtain rfl := Option.some.inj taken
        · refine h.setPass task fun one answer hone hanswer => ?_
          obtain rfl := Option.some.inj hone
          cases hanswer
        · exact h
      · cases taken
  | reports task forgotten =>
      simp only [step] at taken
      split at taken
      · rename_i batch runId hpass
        split at taken
        · cases taken
        · rename_i run hrun
          split at taken
          · cases taken
          · rename_i htruth
            obtain rfl := Option.some.inj taken
            refine h.setPass task fun one answer hone hanswer => ?_
            obtain rfl := Option.some.inj hone
            obtain rfl := Option.some.inj hanswer
            have hid : run.id = runId := by simpa using List.find?_some hrun
            refine ⟨run, List.mem_of_find?_eq_some hrun, hid, ?_⟩
            cases forgotten with
            | true => simpa [Describes] using htruth
            | false => exact fun _ => rfl
      · cases taken
  | passFails task =>
      obtain rfl := Option.some.inj taken
      exact h.setPass task hnoPass
  | settles task =>
      simp only [step] at taken
      split at taken
      · rename_i batch runId answer hpass
        split at taken <;> obtain rfl := Option.some.inj taken
        · exact h.setPass task hnoPass
        · rename_i upload hupload
          exact (inv_settles h ok hupload hpass).setPass task fun one answer hone => by cases hone
      · cases taken

/-! ### Removals -/

/-- Only a request to discard it, outside the embedding state, and a pass with a clean run remove an
upload. -/
theorem removes_cases {limits : Limits} {s s' : State} {e : Event} {upload : Upload}
    (taken : step limits s e = some s') (h : s.upload = some upload) (gone : s'.upload = none) :
    (e = .discards ∧ upload.batch.state ≠ .embedding) ∨
      ∃ task batch runId view, e = .settles task ∧
        s.passes task = some ⟨batch, runId, some (.view view)⟩ ∧
        view.active = false ∧ view.clean = true := by
  have hchanged : s'.upload ≠ s.upload := by simp [h, gone]
  cases e with
  | saveFails | passFails =>
      obtain rfl := Option.some.inj taken
      exact absurd rfl hchanged
  | saveBegins | saveReads | plans | checks | givesUp | accepts | runEnds | passBegins | reports =>
      -- each outcome of these steps has the upload as it was
      simp only [step] at taken
      repeat' split at taken
      all_goals cases taken
      all_goals exact absurd rfl hchanged
  | saveEnds task =>
      simp only [step] at taken
      split at taken
      · cases taken
      · obtain rfl := Option.some.inj taken
        simp [State.endSave, h] at gone
  | answered task lost =>
      simp only [step, h] at taken
      split at taken
      · split at taken <;> obtain rfl := Option.some.inj taken
        · exact absurd rfl hchanged
        · cases gone
      · cases taken
  | discards =>
      simp only [step, h, discard] at taken
      by_cases hstate : upload.batch.state = .embedding
      · rw [if_pos hstate] at taken
        obtain rfl := Option.some.inj taken
        exact absurd rfl hchanged
      · exact .inl ⟨rfl, hstate⟩
  | settles task =>
      simp only [step, h] at taken
      split at taken
      · rename_i batch runId answer hpass
        obtain rfl := Option.some.inj taken
        refine .inr ⟨task, batch, runId, ?_⟩
        simp only [State.setPass, State.apply] at gone
        cases answer with
        | forgotten => simp [settle] at gone
        | view view =>
            refine ⟨view, rfl, hpass, ?_⟩
            cases hactive : view.active with
            | true => simp [settle, hactive, h] at gone
            | false =>
                cases hclean : view.clean with
                | true => exact ⟨rfl, rfl⟩
                | false => simp [settle, hactive, hclean] at gone
      · cases taken

/-- In every run in which what a start, a save, a discard and a pass have found still holds when they
act, an upload is removed only when no run on it works, and by a pass only after a clean run that was
started with every file as it is. -/
theorem removed_after_reading (limits : Limits) (s s' : State) (e : Event)
    (reached : Reaches (step limits) Undisturbed created s) (ok : Undisturbed s e)
    (taken : step limits s e = some s') : RemovedAfterReading s e s' := by
  have hinv : Inv s := reached.invariant inv_created fun s e s' h ok taken => inv_step h ok taken
  intro upload hupload hgone
  have hguarded := hinv.guarded upload hupload
  rcases removes_cases taken hupload hgone with ⟨rfl, hstate⟩ |
    ⟨task, batch, runId, view, rfl, hpass, hactive, hclean⟩
  · exact ⟨idle_of_guarded hguarded hstate ok, fun task heq => by cases heq⟩
  · have hverdict : settle (.view view) = .consume := by simp [settle, hactive, hclean]
    have hcondition := ok upload batch runId (.view view) hupload hpass
    rw [hverdict] at hcondition
    obtain ⟨asked, hasked, hid, hdescribes⟩ := hinv.answers task _ _ hpass rfl
    have hview : asked.view = view := hdescribes hactive
    refine ⟨fun run hrun => ?_, fun other heq => ?_⟩
    · by_contra hworking
      rcases hguarded.held run hrun (by simpa using hworking) with hembeds | ⟨other, haccepted⟩
      · have hsame : run.id = runId := Option.some.inj (hembeds.2.symm.trans hcondition.2)
        obtain rfl := hinv.unique run hrun asked hasked (hsame.trans hid.symm)
        rw [Run.working, hview] at hworking
        exact hworking hactive
      · exact hguarded.apart other _ haccepted hcondition.1
    · obtain rfl := Event.settles.inj heq
      refine ⟨_, hpass, asked, hasked, hid, hview ▸ hclean, ?_⟩
      exact hguarded.covers asked hasked (.inl (hid ▸ hcondition))

/-! ### An upload that is discarded while its run is being started -/

/-- The limits of the settings: 100 MiB a file, 1 GiB an upload. -/
def defaultLimits : Limits :=
  { maxFile := 100 * 2 ^ 20, maxBatch := 1024 * 2 ^ 20 }

def handbookRequest : Request :=
  { jobId := "papaia-handbook-5d41402a-up"
    collection := "handbook"
    connection := "default"
    mode := "add" }

/-- One file is stored, and the ingester has started a run on it. -/
def startedEvents : List Event :=
  [.saveBegins 0 "guide.txt" ".0123456789ab.part", .saveReads 0 (asciiBytes "hello"), .saveEnds 0,
    .plans 0 handbookRequest, .checks 0 false false, .accepts 0 "run-1"]

/-- The run ends well, and a pass learns that. -/
def embeddedEvents : List Event :=
  startedEvents ++ [.answered 0 false, .runEnds "run-1" { status := "success" }, .passBegins 0,
    .reports 0 false]

/-- The state a list of events leads to. -/
def afterEvents (events : List Event) : State :=
  (replay (step defaultLimits) created events).getD created

/-- Before the manifest names the run, the upload can be discarded under it. -/
theorem discard_removes_under_run :
    ¬ ∀ (limits : Limits) (s s' : State) (e : Event),
      Reaches (step limits) (fun _ _ => True) created s → step limits s e = some s' →
        RemovedAfterReading s e s' := by
  intro h
  have hreached : Reaches (step defaultLimits) (fun _ _ => True) created
      (afterEvents startedEvents) := reaches_of_replay (permits_all _ startedEvents) rfl
  obtain ⟨hidle, _⟩ := h defaultLimits _ _ .discards hreached rfl _ rfl rfl
  have hworking := hidle _ List.mem_cons_self
  exact absurd hworking (by decide)

theorem embeddedEvents_undisturbed :
    Permits (step defaultLimits) Undisturbed created embeddedEvents := by
  refine .cons trivial rfl (.cons trivial rfl (.cons ?_ rfl (.cons trivial rfl
    (.cons trivial rfl (.cons ?_ rfl (.cons (fun hlost => by cases hlost) rfl
      (.cons trivial rfl (.cons trivial rfl (.cons trivial rfl trivial)))))))))
  · intro upload hupload
    obtain rfl := Option.some.inj hupload
    refine ⟨by decide, fun other runId haccepted => ?_⟩
    obtain ⟨_, _, _, hstart⟩ := haccepted
    cases hstart
  · intro upload hupload
    obtain rfl := Option.some.inj hupload
    refine ⟨by decide, fun other runId haccepted => ?_⟩
    obtain ⟨_, _, _, hstart⟩ := haccepted
    by_cases hother : other = 0
    · subst hother
      cases hstart
    · simp only [State.setStart, Function.update_of_ne hother] at hstart
      cases hstart

/-- The upload is removed after its run, which has read the file. -/
theorem upload_removed_after_run :
    RemovedAfterReading (afterEvents embeddedEvents) (.settles 0)
      (afterEvents (embeddedEvents ++ [.settles 0])) := by
  refine removed_after_reading defaultLimits _ _ _
    (reaches_of_replay embeddedEvents_undisturbed rfl) ?_ rfl
  intro upload batch runId answer hupload hpass
  obtain rfl := Option.some.inj hupload
  cases hpass
  exact ⟨rfl, rfl⟩

end Papaia.Ingest.Embedding
