/-
Module: Papaia.Proofs.OverlayJob
Purpose: What one overlay job does to a file that the host changes at the same time: it replaces
  what the page showed and nothing else, keeps what it replaced, and puts it back when the
  containers do not start.
Trusted boundary: no two contents have one hash, and none has the empty one
Main exports: Kept, Lawful, Foreseen, History.mem_prune_of_newest, Good, sound_step,
  overlayJob_runs
-/
import Papaia.Config.OverlayJob
import Papaia.Lib.Runs
import Papaia.Lib.Sorted

namespace Papaia.Config

/-! ### The versions -/

/-- Bytes that a version holds. -/
def Kept (versions : List Version) (data : List UInt8) : Prop :=
  ∃ version ∈ versions, version.data = data

namespace History

theorem mem_ordered {listing : List Version} {version : Version} :
    version ∈ ordered listing ↔ version ∈ listing ∧ version.validId = true := by
  rw [ordered, List.mem_insertionSort, List.mem_filter]

/-- The id of a version that is saved is not in use: no other version is overwritten. -/
theorem not_taken_freeCounter (versions : List Version) (stamp : Nat) (event : HistoryEvent) :
    taken versions stamp event (freeCounter versions stamp event) = false := by
  cases hfound : (List.range (versions.length + 1)).find? fun counter =>
      !taken versions stamp event counter with
  | some counter =>
      rw [freeCounter, hfound]
      simpa using List.find?_some hfound
  | none =>
      -- otherwise each of them is the counter of a version
      have hsub : List.range (versions.length + 1) ⊆ versions.map Version.counter := by
        intro counter hcounter
        have htaken := List.find?_eq_none.1 hfound counter hcounter
        obtain ⟨version, hversion, heq⟩ : ∃ version ∈ versions, version.counter = counter := by
          simp only [taken, Bool.not_eq_true', Bool.not_eq_false, List.any_eq_true,
            Bool.and_eq_true, decide_eq_true_eq] at htaken
          obtain ⟨version, hversion, -, heq⟩ := htaken
          exact ⟨version, hversion, heq⟩
        exact heq ▸ List.mem_map_of_mem hversion
      have hlength := (List.subperm_of_subset List.nodup_range hsub).length_le
      rw [List.length_range, List.length_map] at hlength
      omega

/-- The versions in the directory that are not before a version. -/
def notBefore (versions : List Version) (saved : Version) : List Version :=
  versions.filter fun version => version.validId && decide (saved.order ≤ version.order)

/-- A version that was just saved survives the pruning where fewer than `keep` are not before it. -/
theorem mem_prune_of_newest {versions listing stuck : List Version} {saved : Version}
    (hlisting : listing.Perm (saved :: versions))
    (hnewest : (notBefore versions saved).length < keep) : saved ∈ prune listing stuck := by
  have hmem : saved ∈ listing := hlisting.mem_iff.2 List.mem_cons_self
  rw [prune, List.append_assoc, List.mem_append, List.mem_append]
  by_cases hvalid : saved.validId = true
  · left
    have hsorted : (ordered listing).Pairwise fun one two => two.order ≤ one.order :=
      List.pairwise_insertionSort _ _
    apply Sorted.mem_take_of_countP hsorted (mem_ordered.2 ⟨hmem, hvalid⟩)
    rw [ordered, (List.perm_insertionSort _ _).countP_eq, List.countP_filter,
      hlisting.countP_eq, List.countP_cons]
    rw [notBefore, ← List.countP_eq_length_filter] at hnewest
    simp only [le_refl, decide_true, hvalid, Bool.and_self, if_true]
    have hsame : (versions.countP fun version => decide (saved.order ≤ version.order) &&
        version.validId) = versions.countP fun version => version.validId &&
        decide (saved.order ≤ version.order) :=
      List.countP_congr fun version _ => by rw [Bool.and_comm]
    omega
  · right
    right
    exact List.mem_filter.2 ⟨hmem, by simpa using hvalid⟩

/-- Once the clock was set back, a version that is saved is the oldest one and is dropped. -/
example :
    let versions := (List.range 20).map fun n => Version.mk (n + 1) .apply 0 []
    save versions 0 .apply [97] ∉ prune (save versions 0 .apply [97] :: versions) [] := by
  decide

end History

/-! ### The file -/

variable {digest : List UInt8 → String}

/-- What an editor compares: the revision of the file, none for a link. -/
def Entry.revision (digest : List UInt8 → String) : Entry → Option String
  | .link => none
  | .absent => some ""
  | .file raw => some (digest raw)

@[simp] theorem Entry.revision_ofRaw (raw : Option (List UInt8)) :
    (Entry.ofRaw raw).revision digest = some (Overlay.revisionOf digest raw) := by
  cases raw with
  | none => rfl
  | some raw => rfl

theorem Entry.revision_injective (hinjective : Function.Injective digest)
    (hnonempty : ∀ raw, digest raw ≠ "") : Function.Injective (Entry.revision digest) := by
  intro one other h
  cases one with
  | link =>
      cases other with
      | link => rfl
      | absent => cases h
      | file raw => cases h
  | absent =>
      cases other with
      | link => cases h
      | absent => rfl
      | file raw => exact absurd (Option.some.inj h).symm (hnonempty raw)
  | file raw =>
      cases other with
      | link => cases h
      | absent => exact absurd (Option.some.inj h) (hnonempty raw)
      | file same => exact congrArg Entry.file (hinjective (Option.some.inj h))

theorem Entry.ofRaw_injective : Function.Injective Entry.ofRaw := by
  intro one other h
  cases one with
  | none =>
      cases other with
      | none => rfl
      | some raw => cases h
  | some raw =>
      cases other with
      | none => cases h
      | some same => exact congrArg some (Entry.file.inj h)

namespace Overlay

theorem revisionOf_injective (hinjective : Function.Injective digest)
    (hnonempty : ∀ raw, digest raw ≠ "") : Function.Injective (revisionOf digest) := by
  intro one other h
  apply Entry.ofRaw_injective
  apply Entry.revision_injective hinjective hnonempty
  rw [Entry.revision_ofRaw, Entry.revision_ofRaw, h]

theorem read_eq_ok {entry : Entry} {io : Io} {current : OverlayFile}
    (h : read digest entry io = .ok current) :
    entry = .ofRaw current.raw ∧ current.revision = revisionOf digest current.raw := by
  cases entry with
  | link => cases h
  | absent =>
      cases io with
      | none =>
          obtain rfl := Except.ok.inj h
          exact ⟨rfl, rfl⟩
      | some value => cases h
  | file raw =>
      cases io with
      | none =>
          obtain rfl := Except.ok.inj h
          exact ⟨rfl, rfl⟩
      | some value => cases h

theorem read_ofRaw (raw : Option (List UInt8)) :
    read digest (.ofRaw raw) none = .ok ⟨raw, revisionOf digest raw⟩ := by
  cases raw with
  | none => rfl
  | some raw => rfl

/-- A replacement that is not carried out leaves the file, one that is replaced the revision it
expected. -/
theorem replace_cases (entry : Entry) (content : Option (List UInt8)) (expected : String)
    (readIo writeIo : Io) :
    ((replace digest entry content expected readIo writeIo).1 ≠ .ok true ∧
        (replace digest entry content expected readIo writeIo).2 = entry) ∨
      (replace digest entry content expected readIo writeIo = (.ok true, .ofRaw content) ∧
        ∃ raw, entry = .ofRaw raw ∧ revisionOf digest raw = expected) := by
  cases hread : read digest entry readIo with
  | error error => cases content <;> simp [replace, write, delete, hread]
  | ok current =>
      obtain ⟨hentry, hrevision⟩ := read_eq_ok hread
      by_cases hexpected : current.revision = expected
      · cases writeIo with
        | some value => cases content <;> simp [replace, write, delete, hread, hexpected]
        | none =>
            right
            refine ⟨?_, current.raw, hentry, hrevision ▸ hexpected⟩
            cases content <;> simp [replace, write, delete, hread, hexpected, Entry.ofRaw]
      · left
        cases content <;> simp [replace, write, delete, hread, hexpected]

/-- Where the file system does what it is asked for, a replacement compares and swaps. -/
theorem replace_eq_swap (entry : Entry) (content : Option (List UInt8)) (expected : String) :
    (replace digest entry content expected none none).2 =
      Swap.swap (Entry.revision digest) entry (some expected) (.ofRaw content) := by
  cases entry with
  | link => cases content <;> rfl
  | absent =>
      by_cases hexpected : "" = expected
      · cases content <;>
          simp [replace, write, delete, read, Swap.swap, Entry.revision, Entry.ofRaw, hexpected]
      · cases content <;>
          simp [replace, write, delete, read, Swap.swap, Entry.revision, hexpected]
  | file raw =>
      by_cases hexpected : digest raw = expected
      · cases content <;>
          simp [replace, write, delete, read, revisionOf, Swap.swap, Entry.revision, Entry.ofRaw,
            hexpected]
      · cases content <;>
          simp [replace, write, delete, read, revisionOf, Swap.swap, Entry.revision, hexpected]

end Overlay

/-! ### The law and the invariant -/

variable {job : OverlayJob} {s s' : State} {e : Event}

/-- What a step of the job may do. -/
structure Lawful (digest : List UInt8 → String) (job : OverlayJob) (s s' : State) : Prop where
  /-- The file changes by the replacement and by the restore. -/
  frame : s'.entry ≠ s.entry →
    (∃ current, s.phase = .replace current) ∨ ∃ replaced exc, s.phase = .restore replaced exc
  /-- What is replaced has the revision the editor was opened with, and is kept before that. -/
  replaces : ∀ current, s.phase = .replace current →
    (s'.entry = s.entry ∧ s'.phase.previous = none) ∨
      ∃ raw, s.entry = .ofRaw raw ∧ Overlay.revisionOf digest raw = job.expectedRevision ∧
        (∀ data, raw = some data → Kept s.history data) ∧
        s'.entry = .ofRaw job.content ∧ s'.phase.previous = some raw
  /-- A step that fails before the containers run again does not end the job. -/
  fails : s.phase.isUnderway = true → ∀ previous ending, s'.phase = .ended previous ending →
    ending = .notRestarted
  /-- What was there is put back, where the file still is what the job wrote. -/
  restores : ∀ replaced exc, s.phase = .restore replaced exc →
    s'.entry = if s.entry = .ofRaw job.content then .ofRaw replaced.previous else s.entry

/-- The steps a job is made for: few versions are not before the one it saves, the file is read
again before the host changes it, it can be put back where it has to, and nothing raises an error
that the job does not handle while the file is replaced. -/
def Foreseen (job : OverlayJob) (s : State) : Event → Prop
  | .keep stamp _ _ _ => ∀ current raw, s.phase = .keep current → current.raw = some raw →
      (History.notBefore s.history
        (History.save s.history stamp job.event raw)).length < History.keep
  | .readBack io => io = none ∧ s.entry = .ofRaw job.content
  | .restore readIo writeIo => readIo = none ∧ writeIo = none
  | .raise => s.phase.isUnderway = false ∧ ∀ replaced exc, s.phase ≠ .restore replaced exc
  | _ => True

/-- What the job replaced is kept. -/
def State.Keeps (s : State) : Prop :=
  ∀ data, s.phase.previous = some (some data) → Kept s.history data

/-- What holds of a job at each of its steps. -/
structure Good (digest : List UInt8 → String) (job : OverlayJob) (s : State) : Prop where
  keeps : s.Keeps
  /-- What the job compared has the revision the editor was opened with. -/
  compared : ∀ current, s.phase = .keep current ∨ s.phase = .replace current →
    current.revision = job.expectedRevision ∧
      current.revision = Overlay.revisionOf digest current.raw
  saved : ∀ current data, s.phase = .replace current → current.raw = some data →
    Kept s.history data
  /-- The revision that was read back is that of what the job wrote. -/
  written : ∀ replaced, (s.phase = .active replaced ∨ s.phase = .stop replaced ∨
      s.phase = .start replaced ∨ ∃ exc, s.phase = .restore replaced exc) →
    replaced.writtenRevision = Overlay.revisionOf digest job.content

/-- A step that leaves the file alone and is none of the two that change it. -/
theorem lawful_quiet (hentry : s'.entry = s.entry)
    (hreplace : ∀ current, s.phase ≠ .replace current)
    (hrestore : ∀ replaced exc, s.phase ≠ .restore replaced exc)
    (hfails : s.phase.isUnderway = true → ∀ previous ending, s'.phase = .ended previous ending →
      ending = .notRestarted) : Lawful digest job s s' where
  frame := fun hne => absurd hentry hne
  replaces := fun current hphase => absurd hphase (hreplace current)
  fails := hfails
  restores := fun replaced exc hphase => absurd hphase (hrestore replaced exc)

/-- The job ends: what it replaced is as kept as before. -/
theorem good_ends (h : Good digest job s) (ending : Ending) : Good digest job (s.ends ending) where
  keeps := h.keeps
  compared := by simp
  saved := by simp
  written := by simp

/-- After the replacement a job goes on with what it replaced, and with the revision it wrote. -/
theorem good_goTo (h : Good digest job s) {phase : Phase} (hprevious : phase.previous = s.phase.previous)
    (hkeep : ∀ current, phase ≠ .keep current) (hreplace : ∀ current, phase ≠ .replace current)
    (hwritten : ∀ replaced, (phase = .active replaced ∨ phase = .stop replaced ∨
        phase = .start replaced ∨ ∃ exc, phase = .restore replaced exc) →
      replaced.writtenRevision = Overlay.revisionOf digest job.content) :
    Good digest job (s.goTo phase) where
  keeps := by
    intro data hdata
    rw [State.goTo_phase, hprevious] at hdata
    exact h.keeps data hdata
  compared := by
    intro current hphase
    exact (hphase.elim (hkeep current) (hreplace current)).elim
  saved := fun current _ hphase => absurd hphase (hreplace current)
  written := hwritten

/-! ### The steps -/

theorem good_compareStep (hphase : s.phase = .compare) (io : Io) :
    Good digest job (compareStep digest job s io) := by
  have hnone : s.phase.previous = none := by
    rw [hphase]
    rfl
  have hended : ∀ ending, Good digest job (s.ends ending) := by
    intro ending
    refine ⟨?_, by simp, by simp, by simp⟩
    intro data hdata
    rw [State.ends_phase, Phase.previous, hnone] at hdata
    cases hdata
  rw [compareStep]
  split
  · exact hended _
  next current hread =>
    obtain ⟨-, hrevision⟩ := Overlay.read_eq_ok hread
    split
    · exact hended _
    next hexpected =>
      rw [not_not] at hexpected
      refine ⟨?_, ?_, by simp, by simp⟩
      · intro data hdata
        cases hdata
      · intro other hother
        obtain rfl : current = other := by simpa using hother
        exact ⟨hexpected, hrevision⟩

theorem good_keepStep (h : Good digest job s) {current : OverlayFile}
    (hphase : s.phase = .keep current) {stamp : Nat} {io : Io} {listing stuck : List Version}
    (hforeseen : Foreseen job s (.keep stamp io listing stuck))
    (hstep : keepStep job s current stamp io listing stuck = some s') :
    Good digest job s' ∧ s'.entry = s.entry := by
  have hcompared := h.compared current (.inl hphase)
  rw [keepStep] at hstep
  split at hstep
  next hraw =>
    obtain rfl := Option.some.inj hstep
    refine ⟨⟨?_, ?_, ?_, by simp⟩, rfl⟩
    · intro data hdata
      cases hdata
    · intro other hother
      obtain rfl : current = other := by simpa using hother
      exact hcompared
    · intro other data hother hdata
      obtain rfl : current = other := by simpa using hother
      rw [hraw] at hdata
      cases hdata
  next raw hraw =>
    split at hstep
    · obtain rfl := Option.some.inj hstep
      exact ⟨good_ends h _, rfl⟩
    · split at hstep
      next hlisting =>
        obtain rfl := Option.some.inj hstep
        have hkept : History.save s.history stamp job.event raw ∈ History.prune listing stuck :=
          History.mem_prune_of_newest (List.isPerm_iff.1 hlisting)
            (hforeseen current raw hphase hraw)
        refine ⟨⟨?_, ?_, ?_, by simp⟩, rfl⟩
        · intro data hdata
          cases hdata
        · intro other hother
          obtain rfl : current = other := by simpa using hother
          exact hcompared
        · intro other data hother hdata
          obtain rfl : current = other := by simpa using hother
          rw [hraw] at hdata
          obtain rfl := Option.some.inj hdata
          exact ⟨_, hkept, rfl⟩
      · cases hstep

/-- The replacement: what is replaced is what was compared, and what was compared is kept. -/
theorem sound_replaceStep (hinjective : Function.Injective digest)
    (hnonempty : ∀ raw, digest raw ≠ "") (h : Good digest job s) {current : OverlayFile}
    (hphase : s.phase = .replace current) (readIo writeIo : Io) :
    Good digest job (replaceStep digest job s current readIo writeIo) ∧
      Lawful digest job s (replaceStep digest job s current readIo writeIo) := by
  obtain ⟨hexpected, hrevision⟩ := h.compared current (.inr hphase)
  have hnone : s.phase.previous = none := by
    rw [hphase]
    rfl
  have hlawful : ∀ t : State,
      ((t.entry = s.entry ∧ t.phase.previous = none) ∨
        ∃ raw, s.entry = .ofRaw raw ∧ Overlay.revisionOf digest raw = job.expectedRevision ∧
          (∀ data, raw = some data → Kept s.history data) ∧
          t.entry = .ofRaw job.content ∧ t.phase.previous = some raw) →
      Lawful digest job s t := by
    intro t ht
    refine ⟨fun _ => .inl ⟨current, hphase⟩, fun _ _ => ht, ?_, ?_⟩
    · rw [hphase]
      intro hunderway
      cases hunderway
    · intro replaced exc hrestore
      rw [hphase] at hrestore
      cases hrestore
  have hended : ∀ ending, Good digest job (s.ends ending) ∧ Lawful digest job s (s.ends ending) :=
    fun ending => ⟨good_ends h ending, hlawful _ (.inl ⟨rfl, hnone⟩)⟩
  rcases Overlay.replace_cases s.entry job.content current.revision readIo writeIo with
    ⟨hfailed, hentry⟩ | ⟨hreplaced, raw, hraw, hsame⟩
  · rw [replaceStep]
    split
    · exact hended _
    · exact hended _
    next entry heq => exact absurd (congrArg Prod.fst heq) hfailed
  · -- no other contents have the revision that was compared
    obtain rfl : raw = current.raw :=
      Overlay.revisionOf_injective hinjective hnonempty (hsame.trans hrevision)
    have hsaved : ∀ data, current.raw = some data → Kept s.history data :=
      fun data => h.saved current data hphase
    have hkeeps : ∀ t : State, t.history = s.history → t.phase.previous = some current.raw →
        t.Keeps := by
      intro t hhistory hprevious data hdata
      rw [hhistory]
      exact hsaved data (Option.some.inj (hprevious.symm.trans hdata))
    have hdone : ∀ t : State, t.entry = .ofRaw job.content → t.phase.previous = some current.raw →
        Lawful digest job s t := fun t hentry hprevious =>
      hlawful t (.inr ⟨_, hraw, hsame.trans hexpected, hsaved, hentry, hprevious⟩)
    rw [replaceStep, hreplaced]
    simp only
    split
    next hcontent =>
      refine ⟨⟨hkeeps _ rfl rfl, by simp, by simp, ?_⟩, hdone _ rfl rfl⟩
      intro replaced hreplaced
      obtain rfl : ⟨current.raw, ""⟩ = replaced := by simpa using hreplaced
      rw [hcontent]
      rfl
    next => exact ⟨⟨hkeeps _ rfl rfl, by simp, by simp, by simp⟩, hdone _ rfl rfl⟩

theorem good_readBackStep (h : Good digest job s) {previous : Option (List UInt8)}
    (hphase : s.phase = .readBack previous) (hentry : s.entry = .ofRaw job.content) :
    ∃ replaced, readBackStep digest s previous none = s.goTo (.active replaced) ∧
      Good digest job (s.goTo (.active replaced)) := by
  refine ⟨⟨previous, Overlay.revisionOf digest job.content⟩, ?_, ?_⟩
  · rw [readBackStep, hentry, Overlay.read_ofRaw]
  · apply good_goTo h
    · rw [hphase]
      rfl
    · simp
    · simp
    · intro replaced hreplaced
      obtain rfl : ⟨previous, Overlay.revisionOf digest job.content⟩ = replaced := by
        simpa using hreplaced
      rfl

/-- The restore puts back what was there where the file is what the job wrote. -/
theorem sound_restoreStep (hinjective : Function.Injective digest)
    (hnonempty : ∀ raw, digest raw ≠ "") (h : Good digest job s) {replaced : Replaced}
    {exc : String} (hphase : s.phase = .restore replaced exc) :
    Good digest job (restoreStep digest s replaced exc none none) ∧
      Lawful digest job s (restoreStep digest s replaced exc none none) := by
  have hwritten : replaced.writtenRevision = Overlay.revisionOf digest job.content :=
    h.written replaced (.inr (.inr (.inr ⟨exc, hphase⟩)))
  have hrestored : (Overlay.replace digest s.entry replaced.previous replaced.writtenRevision none
      none).2 = if s.entry = .ofRaw job.content then .ofRaw replaced.previous else s.entry := by
    rw [Overlay.replace_eq_swap, hwritten, ← Entry.revision_ofRaw, Swap.swap_print
      (Entry.revision_injective hinjective hnonempty)]
  have hlawful : ∀ t : State, t.entry = (Overlay.replace digest s.entry replaced.previous
      replaced.writtenRevision none none).2 → Lawful digest job s t := by
    intro t ht
    refine ⟨fun _ => .inr ⟨replaced, exc, hphase⟩, ?_, ?_, ?_⟩
    · intro current hreplace
      rw [hphase] at hreplace
      cases hreplace
    · rw [hphase]
      intro hunderway
      cases hunderway
    · intro other exc' hother
      obtain ⟨rfl, rfl⟩ : replaced = other ∧ exc = exc' := by simpa [hphase] using hother
      rw [ht, hrestored]
  rcases Overlay.replace_cases s.entry replaced.previous replaced.writtenRevision none none with
    ⟨hfailed, hentry⟩ | ⟨hreplaced, -⟩
  · rw [restoreStep]
    split
    next entry heq => exact absurd (congrArg Prod.fst heq) hfailed
    next => exact ⟨good_ends h _, hlawful _ hentry.symm⟩
  · rw [restoreStep, hreplaced]
    refine ⟨⟨?_, by simp, by simp, by simp⟩, hlawful _ (congrArg Prod.snd hreplaced).symm⟩
    intro data hdata
    apply h.keeps data
    rw [hphase]
    exact hdata

/-! ### Every step -/

/-- The host changes the file under a job. -/
theorem good_edit (h : Good digest job s) (entry : Entry) :
    Good digest job { s with entry := entry } :=
  ⟨h.keeps, h.compared, h.saved, h.written⟩

/-- A job goes on, with what it replaced and the revision it wrote. -/
theorem sound_goTo (h : Good digest job s) {replaced : Replaced} {phase : Phase}
    (hwritten : s.phase = .active replaced ∨ s.phase = .stop replaced ∨ s.phase = .start replaced)
    (hphase : phase = .stop replaced ∨ phase = .start replaced ∨
      (∃ skipped, phase = .health replaced skipped) ∨ ∃ exc, phase = .restore replaced exc) :
    Good digest job (s.goTo phase) ∧ Lawful digest job s (s.goTo phase) := by
  have hrevision : replaced.writtenRevision = Overlay.revisionOf digest job.content := by
    apply h.written
    rcases hwritten with hnow | hnow | hnow
    · exact .inl hnow
    · exact .inr (.inl hnow)
    · exact .inr (.inr (.inl hnow))
  have hbefore : s.phase.previous = some replaced.previous := by
    rcases hwritten with hnow | hnow | hnow <;> rw [hnow] <;> rfl
  have hquiet : Lawful digest job s (s.goTo phase) := by
    apply lawful_quiet (s.goTo_entry phase)
    · intro current hnow
      rcases hwritten with hother | hother | hother <;> rw [hnow] at hother <;> cases hother
    · intro other exc hnow
      rcases hwritten with hother | hother | hother <;> rw [hnow] at hother <;> cases hother
    · intro _ previous ending hended
      rw [State.goTo_phase] at hended
      rcases hphase with rfl | rfl | ⟨skipped, rfl⟩ | ⟨exc, rfl⟩ <;> cases hended
  refine ⟨good_goTo h ?_ ?_ ?_ ?_, hquiet⟩
  · rw [hbefore]
    rcases hphase with rfl | rfl | ⟨skipped, rfl⟩ | ⟨exc, rfl⟩ <;> rfl
  · rintro current rfl
    simp at hphase
  · rintro current rfl
    simp at hphase
  · intro other hother
    obtain rfl : replaced = other := by
      rcases hphase with rfl | rfl | ⟨skipped, rfl⟩ | ⟨exc, rfl⟩
      · simpa using hother
      · simpa using hother
      · simp at hother
      · simpa using hother
    exact hrevision

/-- A job ends, and not while the file is replaced and the containers do not run with it. -/
theorem sound_ends (h : Good digest job s) {ending : Ending}
    (hrestore : ∀ replaced exc, s.phase ≠ .restore replaced exc)
    (hunderway : s.phase.isUnderway = true → ending = .notRestarted) :
    Good digest job (s.ends ending) ∧ Lawful digest job s (s.ends ending) := by
  refine ⟨good_ends h ending, fun hne => absurd rfl hne, ?_, ?_, ?_⟩
  · intro current hphase
    exact .inl ⟨rfl, by rw [State.ends_phase, hphase]; rfl⟩
  · intro hnow previous other hended
    obtain ⟨-, rfl⟩ := Phase.ended.inj hended
    exact hunderway hnow
  · exact fun replaced exc hphase => absurd hphase (hrestore replaced exc)

/-- A foreseen step of the job keeps the invariant and does what it may. -/
theorem sound_step (hinjective : Function.Injective digest) (hnonempty : ∀ raw, digest raw ≠ "")
    (h : Good digest job s) (hforeseen : Foreseen job s e)
    (hstep : step digest job s e = some s') :
    Good digest job s' ∧ (e.isEdit = false → Lawful digest job s s') := by
  unfold step at hstep
  split at hstep
  next entry =>
    obtain rfl := Option.some.inj hstep
    exact ⟨good_edit h entry, by simp [Event.isEdit]⟩
  next io hphase =>
    obtain rfl := Option.some.inj hstep
    refine ⟨good_compareStep hphase io, fun _ => ?_⟩
    have hentry : (compareStep digest job s io).entry = s.entry := by
      rw [compareStep]
      split
      · rfl
      · split <;> rfl
    exact lawful_quiet hentry (by simp [hphase]) (by simp [hphase]) (by simp [hphase,
      Phase.isUnderway])
  next current stamp io listing stuck hphase =>
    obtain ⟨hgood, hentry⟩ := good_keepStep h hphase hforeseen hstep
    exact ⟨hgood, fun _ => lawful_quiet hentry (by simp [hphase]) (by simp [hphase])
      (by simp [hphase, Phase.isUnderway])⟩
  next current readIo writeIo hphase =>
    obtain rfl := Option.some.inj hstep
    obtain ⟨hgood, hlawful⟩ := sound_replaceStep hinjective hnonempty h hphase readIo writeIo
    exact ⟨hgood, fun _ => hlawful⟩
  next previous io hphase =>
    obtain ⟨rfl, hentry⟩ := hforeseen
    obtain ⟨replaced, heq, hgood⟩ := good_readBackStep h hphase hentry
    rw [heq] at hstep
    obtain rfl := Option.some.inj hstep
    exact ⟨hgood, fun _ => lawful_quiet rfl (by simp [hphase]) (by simp [hphase]) (by simp)⟩
  next replaced isOn hphase =>
    obtain rfl := Option.some.inj hstep
    split
    · obtain ⟨hgood, hlawful⟩ := sound_goTo h (.inl hphase) (.inl rfl)
      exact ⟨hgood, fun _ => hlawful⟩
    · obtain ⟨hgood, hlawful⟩ := sound_ends h (by simp [hphase]) fun _ => rfl
      exact ⟨hgood, fun _ => hlawful⟩
  next replaced _ hphase =>
    obtain rfl := Option.some.inj hstep
    obtain ⟨hgood, hlawful⟩ := sound_goTo h (.inr (.inl hphase)) (.inr (.inl rfl))
    exact ⟨hgood, fun _ => hlawful⟩
  next replaced problem hphase =>
    obtain rfl := Option.some.inj hstep
    obtain ⟨hgood, hlawful⟩ := sound_goTo h (.inr (.inl hphase))
      (.inr (.inr (.inr ⟨problem, rfl⟩)))
    exact ⟨hgood, fun _ => hlawful⟩
  next replaced skipped hphase =>
    obtain rfl := Option.some.inj hstep
    obtain ⟨hgood, hlawful⟩ := sound_goTo h (.inr (.inr hphase))
      (.inr (.inr (.inl ⟨skipped, rfl⟩)))
    exact ⟨hgood, fun _ => hlawful⟩
  next replaced problem hphase =>
    obtain rfl := Option.some.inj hstep
    obtain ⟨hgood, hlawful⟩ := sound_goTo h (.inr (.inr hphase))
      (.inr (.inr (.inr ⟨problem, rfl⟩)))
    exact ⟨hgood, fun _ => hlawful⟩
  next replaced skipped problem hphase =>
    obtain rfl := Option.some.inj hstep
    obtain ⟨hgood, hlawful⟩ := sound_ends h (by simp [hphase]) (by simp [hphase, Phase.isUnderway])
    exact ⟨hgood, fun _ => hlawful⟩
  next replaced hphase =>
    obtain rfl := Option.some.inj hstep
    obtain ⟨hgood, hlawful⟩ := sound_ends h (by simp [hphase]) (by simp [hphase, Phase.isUnderway])
    exact ⟨hgood, fun _ => hlawful⟩
  next replaced first rest hphase =>
    obtain rfl := Option.some.inj hstep
    obtain ⟨hgood, hlawful⟩ := sound_ends h (by simp [hphase]) (by simp [hphase, Phase.isUnderway])
    exact ⟨hgood, fun _ => hlawful⟩
  next replaced exc readIo writeIo hphase =>
    obtain rfl := Option.some.inj hstep
    obtain ⟨rfl, rfl⟩ := hforeseen
    obtain ⟨hgood, hlawful⟩ := sound_restoreStep hinjective hnonempty h hphase
    exact ⟨hgood, fun _ => hlawful⟩
  next replaced exc answer hphase =>
    obtain rfl := Option.some.inj hstep
    obtain ⟨hgood, hlawful⟩ := sound_ends h (by simp [hphase]) (by simp [hphase, Phase.isUnderway])
    exact ⟨hgood, fun _ => hlawful⟩
  next => cases hstep
  next =>
    obtain rfl := Option.some.inj hstep
    obtain ⟨hgood, hlawful⟩ := sound_ends h hforeseen.2 (by simp [hforeseen.1])
    exact ⟨hgood, fun _ => hlawful⟩
  next => cases hstep

/-! ### Runs -/

/-- In every interleaving of a job with changes on the host whose steps are foreseen, what the job
replaced is kept, and each of its steps does what it may. -/
theorem overlayJob_runs (hinjective : Function.Injective digest)
    (hnonempty : ∀ raw, digest raw ≠ "") (job : OverlayJob) {start s : State}
    (hstart : start.phase = .compare)
    (hrun : Runs.Reaches (step digest job) (Foreseen job) start s) :
    s.Keeps ∧ ∀ e s', e.isEdit = false → Foreseen job s e → step digest job s e = some s' →
      Lawful digest job s s' := by
  have hgood : Good digest job s := by
    apply hrun.invariant
    · refine ⟨?_, by simp [hstart], by simp [hstart], by simp [hstart]⟩
      intro data hdata
      rw [hstart] at hdata
      cases hdata
    · intro s e s' hs hforeseen hstep
      exact (sound_step hinjective hnonempty hs hforeseen hstep).1
  exact ⟨hgood.keeps, fun e s' hedit hforeseen hstep =>
    (sound_step hinjective hnonempty hgood hforeseen hstep).2 hedit⟩

/-- The hashes of the files of the examples. -/
def knownDigests : List (List UInt8 × String) :=
  [([97], "ca978112ca1bbdcafac231b39a23dc4da786eff8147c4e72b9807785afee48bb"),
    ([98], "3e23e8160039594a33894f6564e1b1348bbd7a0088d42c4acb73eeaed59c009d"),
    ([104], "aaa9402664f1a41f40ebbc52c9993eb66aeb366602958fdfaa283b71e64db123")]

/-- What stands for the hash of other bytes; it begins with a letter that no hash has. -/
def printed (raw : List UInt8) : String :=
  String.ofList ('x' :: raw.map fun byte => Char.ofNat byte.toNat)

/-- The hash of the examples. -/
def exampleDigest (raw : List UInt8) : String :=
  match knownDigests.find? fun known => known.1 = raw with
  | some known => known.2
  | none => printed raw

theorem exampleDigest_cases (raw : List UInt8) :
    (∃ known ∈ knownDigests, known.1 = raw ∧ exampleDigest raw = known.2) ∨
      exampleDigest raw = printed raw := by
  rw [exampleDigest]
  split
  next known hknown =>
    exact .inl ⟨known, List.mem_of_find?_eq_some hknown, by simpa using List.find?_some hknown, rfl⟩
  next => exact .inr rfl

theorem known_ne_printed {known : List UInt8 × String} (hknown : known ∈ knownDigests)
    (raw : List UInt8) : known.2 ≠ printed raw := by
  have hhead : ∀ known ∈ knownDigests, known.2.toList.head? ≠ some 'x' := by decide
  intro h
  apply hhead known hknown
  rw [h, printed, String.toList_ofList]
  rfl

theorem printed_injective : Function.Injective printed := by
  have hbyte : Function.Injective fun byte : UInt8 => Char.ofNat byte.toNat := by
    intro a b hab
    have hvalue : ∀ byte : UInt8, (Char.ofNat byte.toNat).toNat = byte.toNat := by
      intro byte
      have hvalid : byte.toNat.isValidChar := .inl (by have := byte.toNat_lt; omega)
      have hchar : Char.ofNat byte.toNat = Char.ofNatAux byte.toNat hvalid := dif_pos hvalid
      rw [hchar]
      rfl
    apply UInt8.toNat_inj.1
    rw [← hvalue a, ← hvalue b]
    exact congrArg Char.toNat hab
  intro one other h
  exact List.map_injective_iff.2 hbyte (List.cons.inj (String.ofList_injective h)).2

theorem exampleDigest_ne_empty (raw : List UInt8) : exampleDigest raw ≠ "" := by
  have hknown : ∀ known ∈ knownDigests, known.2 ≠ "" := by decide
  rcases exampleDigest_cases raw with ⟨known, hmem, -, heq⟩ | heq
  · rw [heq]
    exact hknown known hmem
  · rw [heq, printed]
    simp

theorem exampleDigest_injective : Function.Injective exampleDigest := by
  have hdistinct : ∀ one ∈ knownDigests, ∀ other ∈ knownDigests, one.2 = other.2 →
      one.1 = other.1 := by decide
  intro one other h
  rcases exampleDigest_cases one with ⟨known, hmem, rfl, heq⟩ | heq
  · rcases exampleDigest_cases other with ⟨same, hsame, rfl, hother⟩ | hother
    · exact hdistinct known hmem same hsame (heq.symm.trans (h.trans hother))
    · exact absurd (heq.symm.trans (h.trans hother)) (known_ne_printed hmem other)
  · rcases exampleDigest_cases other with ⟨same, hsame, rfl, hother⟩ | hother
    · exact absurd (hother.symm.trans (h.symm.trans heq)) (known_ne_printed hsame one)
    · exact printed_injective (heq.symm.trans (h.trans hother))

/-- A file of one byte, to be replaced by another one. -/
def exampleJob : OverlayJob where
  label := "LibreChat"
  content := some [98]
  expectedRevision := exampleDigest [97]
  event := .apply

def exampleStart : State :=
  ⟨.file [97], [], .compare⟩

/-- The file is replaced, read back and in use, and the containers do not start. -/
def failedStart : List Event :=
  [.compare none, .keep 5 none [⟨5, .apply, 0, [97]⟩] [], .replace none none, .readBack none,
    .active true, .stop (.ok []), .start (.failed "no image")]

/-- The state a list of events leads to. -/
def afterEvents (events : List Event) : State :=
  (Runs.replay (step exampleDigest exampleJob) exampleStart events).getD exampleStart

theorem failedStart_foreseen :
    Runs.Permits (step exampleDigest exampleJob) (Foreseen exampleJob) exampleStart failedStart := by
  refine .cons trivial rfl (.cons ?_ rfl (.cons trivial rfl (.cons ⟨rfl, rfl⟩ rfl
    (.cons trivial rfl (.cons trivial rfl (.cons trivial rfl trivial))))))
  intro current raw _ _
  show ([] : List Version).length < 20
  decide

theorem overlayJob_runs_failedStart :
    (afterEvents failedStart).Keeps ∧
      ∀ e s', e.isEdit = false → Foreseen exampleJob (afterEvents failedStart) e →
        step exampleDigest exampleJob (afterEvents failedStart) e = some s' →
        Lawful exampleDigest exampleJob (afterEvents failedStart) s' :=
  overlayJob_runs exampleDigest_injective exampleDigest_ne_empty exampleJob rfl
    (Runs.reaches_of_replay failedStart_foreseen rfl)

/-- The host changes the file after it was replaced and before it is read again. -/
def editedStart : List Event :=
  [.compare none, .keep 5 none [⟨5, .apply, 0, [97]⟩] [], .replace none none, .edit (.file [104]),
    .readBack none, .active true, .stop (.ok []), .start (.failed "no image")]

/-- A change made on the host before the file is read again is taken for the job's own, and is
overwritten when the containers do not start. -/
theorem edit_overwritten :
    ¬∀ (digest : List UInt8 → String), Function.Injective digest → (∀ raw, digest raw ≠ "") →
      ∀ (job : OverlayJob) (start s : State), start.phase = .compare →
        Runs.Reaches (step digest job) (fun _ _ => True) start s →
        s.Keeps ∧ ∀ e s', e.isEdit = false → step digest job s e = some s' →
          Lawful digest job s s' := by
  intro h
  have hreached : Runs.Reaches (step exampleDigest exampleJob) (fun _ _ => True) exampleStart
      (afterEvents editedStart) :=
    Runs.reaches_of_replay (Runs.permits_all _ editedStart) rfl
  obtain ⟨-, hlawful⟩ := h exampleDigest exampleDigest_injective exampleDigest_ne_empty exampleJob
    exampleStart (afterEvents editedStart) rfl hreached
  have hrestores := (hlawful (.restore none none) (afterEvents (editedStart ++ [.restore none none]))
    rfl rfl).restores ⟨some [97], exampleDigest [104]⟩ "no image" rfl
  have hleft : (afterEvents (editedStart ++ [.restore none none])).entry = .file [97] := rfl
  rw [hleft] at hrestores
  exact absurd hrestores (by decide)

end Papaia.Config
