/-
Module: Papaia.Proofs.Phases
Purpose: The phases of an upgrade stand in order, and more lines of the log never take one back.
Trusted boundary: none
Main exports: announcements_extends, Placed, stateAt_sixPhases, InOrder, Forward, Extends,
  extends_newline, progress_never_goes_back
-/
import Papaia.Stack.Phases
import Papaia.Lib.Lines
import Mathlib.Data.Int.Order.Basic
import Mathlib.Order.MinMax

namespace Papaia.Stack.Phases

open Text

/-! ### What was announced -/

/-- More lines only add announcements at the end. -/
theorem setDefault_extends (seen : List (String × String)) (key line : String) :
    seen <+: setDefault seen key line := by
  unfold setDefault
  split
  · exact List.prefix_refl seen
  · exact List.prefix_append seen _

theorem seeLine_extends (seen : List (String × String)) (line : String) :
    seen <+: seeLine seen line := by
  unfold seeLine
  induction upgradePhases generalizing seen with
  | nil => exact List.prefix_refl seen
  | cons phase rest ih =>
      rw [List.foldl_cons]
      apply List.IsPrefix.trans _ (ih _)
      split
      · exact setDefault_extends seen phase.key line
      · exact List.prefix_refl seen

theorem foldl_seeLine_extends (seen : List (String × String)) (lines : List String) :
    seen <+: lines.foldl seeLine seen := by
  induction lines generalizing seen with
  | nil => exact List.prefix_refl seen
  | cons line rest ih => exact (seeLine_extends seen line).trans (ih _)

theorem announcements_extends {lines longer : List String} (h : lines <+: longer) :
    announcements lines <+: announcements longer := by
  obtain ⟨more, rfl⟩ := h
  unfold announcements
  rw [List.foldl_append]
  exact foldl_seeLine_extends _ more

/-- Whether a phase was announced. -/
def Announced (lines : List String) (key : String) : Prop :=
  ((announcements lines).lookup key).isSome = true

theorem Announced.mono {lines longer : List String} {key : String} (h : lines <+: longer)
    (hannounced : Announced lines key) : Announced longer key := by
  obtain ⟨line, hline⟩ := Option.isSome_iff_exists.1 hannounced
  unfold Announced
  rw [(announcements_extends h).lookup_eq_some hline]
  rfl

/-! ### The last one -/

theorem foldl_max_le {bound start : Int} {numbers : List Int} :
    numbers.foldl max start ≤ bound ↔ start ≤ bound ∧ ∀ n ∈ numbers, n ≤ bound := by
  induction numbers generalizing start with
  | nil => simp
  | cons n rest ih =>
      rw [List.foldl_cons, ih, max_le_iff, List.forall_mem_cons, and_assoc]

theorem lastSeen_le {seen : List (String × String)} {bound : Int} :
    lastSeen seen ≤ bound ↔ -1 ≤ bound ∧ ∀ entry ∈ seen, (order.idxOf entry.1 : Int) ≤ bound := by
  rw [lastSeen, foldl_max_le, List.forall_mem_map]

theorem idxOf_le_lastSeen {seen : List (String × String)} {entry : String × String}
    (h : entry ∈ seen) : (order.idxOf entry.1 : Int) ≤ lastSeen seen :=
  (lastSeen_le.1 (le_refl _)).2 entry h

theorem lastSeen_mono {seen more : List (String × String)} (h : seen <+: more) :
    lastSeen seen ≤ lastSeen more := by
  rw [lastSeen_le]
  constructor
  · exact (lastSeen_le.1 (le_refl (lastSeen more))).1
  · intro entry hentry
    exact idxOf_le_lastSeen (h.subset hentry)

/-- The index of a phase is its place in the order. -/
theorem idxOf_upgradePhases : ∀ i phase, upgradePhases[i]? = some phase →
    order.idxOf phase.key = i := by
  intro i phase h
  have hlt : i < 6 := (List.getElem?_eq_some_iff.1 h).1
  have hall : ∀ i : Fin 6, ∀ phase ∈ upgradePhases[(i : Nat)]?, order.idxOf phase.key = i := by
    decide
  exact hall ⟨i, hlt⟩ phase h

theorem Announced.le_lastSeen {lines : List String} {i : Nat} {phase : Announcement}
    (hphase : upgradePhases[i]? = some phase) (h : Announced lines phase.key) :
    (i : Int) ≤ lastSeen (announcements lines) := by
  obtain ⟨line, hline⟩ := Option.isSome_iff_exists.1 h
  obtain ⟨before, behind, hsplit, -⟩ := List.lookup_eq_some_iff.1 hline
  have hmem : (phase.key, line) ∈ announcements lines := by simp [hsplit]
  have hle := idxOf_le_lastSeen hmem
  rwa [idxOf_upgradePhases i phase hphase] at hle

/-! ### One log -/

/-- How the state of a phase follows from what was announced. -/
structure Placed (lines : List String) (i : Nat) (phase : Announcement) (state : PhaseState) :
    Prop where
  done : state = .done ↔ Announced lines phase.key ∧
    (isComplete lines = true ∨ (i : Int) < lastSeen (announcements lines))
  skipped : state = .skipped ↔ ¬Announced lines phase.key ∧
    (isComplete lines = true ∨ (i : Int) < lastSeen (announcements lines))
  pending : state = .pending ↔ ¬Announced lines phase.key ∧ isComplete lines = false ∧
    lastSeen (announcements lines) ≤ (i : Int)

theorem placed_stateOf (lines : List String) (running : Bool) (i : Nat) (phase : Announcement) :
    Placed lines i phase
      (stateOf (isComplete lines) (!running && !isComplete lines)
        ((announcements lines).lookup phase.key).isSome (lastSeen (announcements lines)) i) := by
  unfold stateOf
  constructor <;>
    unfold Announced <;>
    cases isComplete lines <;>
    cases ((announcements lines).lookup phase.key).isSome <;>
    cases running <;>
    by_cases hlast : (i : Int) < lastSeen (announcements lines) <;>
    simp [hlast] <;> omega

variable (gettext : String → String)

/-- The state of the phase at a place. -/
def stateAt (phases : List Phase) (i : Nat) : Option PhaseState :=
  phases[i]?.map Phase.state

theorem stateAt_sixPhases (lines : List String) (running : Bool) (i : Nat) :
    stateAt (sixPhases gettext lines running) i = upgradePhases[i]?.map fun phase =>
      stateOf (isComplete lines) (!running && !isComplete lines)
        ((announcements lines).lookup phase.key).isSome (lastSeen (announcements lines)) i := by
  rw [stateAt, sixPhases, List.getElem?_map, List.getElem?_zipIdx]
  cases upgradePhases[i]? with
  | none => rfl
  | some phase => simp

theorem exists_placed {lines : List String} {running : Bool} {i : Nat} {state : PhaseState}
    (h : stateAt (sixPhases gettext lines running) i = some state) :
    ∃ phase, upgradePhases[i]? = some phase ∧ Placed lines i phase state := by
  rw [stateAt_sixPhases, Option.map_eq_some_iff] at h
  obtain ⟨phase, hphase, rfl⟩ := h
  exact ⟨phase, hphase, placed_stateOf lines running i phase⟩

/-- A phase that is being worked on, or that was when the runner ended. -/
def Current (phases : List Phase) (i : Nat) : Prop :=
  stateAt phases i = some .running ∨ stateAt phases i = some .failed

theorem lt_length_of_stateAt {phases : List Phase} {i : Nat} {state : PhaseState}
    (h : stateAt phases i = some state) : i < phases.length := by
  rw [stateAt, Option.map_eq_some_iff] at h
  obtain ⟨phase, hphase, -⟩ := h
  exact (List.getElem?_eq_some_iff.1 hphase).1

theorem lt_length_of_current {phases : List Phase} {i : Nat} (h : Current phases i) :
    i < phases.length :=
  h.elim lt_length_of_stateAt lt_length_of_stateAt

variable {gettext} {lines : List String} {running : Bool} {i j : Nat}

/-- The phase that is worked on is the last one that was announced, in a log that is not complete. -/
theorem current_cases (h : Current (sixPhases gettext lines running) i) :
    isComplete lines = false ∧ (i : Int) = lastSeen (announcements lines) := by
  obtain ⟨state, hstate, hopen⟩ : ∃ state, stateAt (sixPhases gettext lines running) i = some state ∧
      state ≠ .done ∧ state ≠ .skipped ∧ state ≠ .pending := by
    rcases h with h | h
    · exact ⟨_, h, by decide⟩
    · exact ⟨_, h, by decide⟩
  obtain ⟨phase, hphase, hplaced⟩ := exists_placed gettext hstate
  obtain ⟨hdone, hskipped, hpending⟩ := hopen
  rw [ne_eq, hplaced.done] at hdone
  rw [ne_eq, hplaced.skipped] at hskipped
  rw [ne_eq, hplaced.pending] at hpending
  by_cases hannounced : Announced lines phase.key
  · have hle := hannounced.le_lastSeen hphase
    simp only [hannounced, true_and, not_or, Bool.not_eq_true] at hdone
    exact ⟨hdone.1, by omega⟩
  · simp only [hannounced, not_false_eq_true, true_and, not_or, Bool.not_eq_true] at hskipped
    exact absurd ⟨hannounced, hskipped.1, by omega⟩ hpending

/-- The phases of one log: at most one is being worked on, those before it are over, those behind it
are still to come. -/
structure InOrder (phases : List Phase) : Prop where
  keys : phases.map Phase.key = order
  one : ∀ i j, Current phases i → Current phases j → i = j
  before : ∀ i j, Current phases i → j < i →
    stateAt phases j = some .done ∨ stateAt phases j = some .skipped
  behind : ∀ i j, Current phases i → i < j → j < phases.length → stateAt phases j = some .pending

theorem keys_sixPhases : (sixPhases gettext lines running).map Phase.key = order := by
  rw [sixPhases, List.map_map, order]
  rfl

theorem length_sixPhases : (sixPhases gettext lines running).length = upgradePhases.length := by
  simp [sixPhases]

theorem exists_stateAt (h : i < (sixPhases gettext lines running).length) :
    ∃ state, stateAt (sixPhases gettext lines running) i = some state := by
  rw [stateAt, List.getElem?_eq_getElem h]
  exact ⟨_, rfl⟩

theorem inOrder_sixPhases : InOrder (sixPhases gettext lines running) := by
  constructor
  case keys => exact keys_sixPhases
  case one =>
    intro i j hi hj
    have hi' := (current_cases hi).2
    have hj' := (current_cases hj).2
    omega
  case before =>
    intro i j hi hlt
    obtain ⟨hopen, hlast⟩ := current_cases hi
    obtain ⟨state, hstate⟩ := exists_stateAt (hlt.trans (lt_length_of_current hi))
    obtain ⟨phase, -, hplaced⟩ := exists_placed gettext hstate
    have hearlier : (j : Int) < lastSeen (announcements lines) := by omega
    by_cases hannounced : Announced lines phase.key
    · exact .inl (by rw [hstate, hplaced.done.2 ⟨hannounced, .inr hearlier⟩])
    · exact .inr (by rw [hstate, hplaced.skipped.2 ⟨hannounced, .inr hearlier⟩])
  case behind =>
    intro i j hi hlt hlength
    obtain ⟨hopen, hlast⟩ := current_cases hi
    obtain ⟨state, hstate⟩ := exists_stateAt hlength
    obtain ⟨phase, hphase, hplaced⟩ := exists_placed gettext hstate
    have hannounced : ¬Announced lines phase.key := by
      intro hannounced
      have hle := hannounced.le_lastSeen hphase
      omega
    rw [hstate, hplaced.pending.2 ⟨hannounced, hopen, by omega⟩]

/-- Where the completion was printed every phase is done or was skipped. -/
theorem settled_of_complete (h : isComplete lines = true) :
    ∀ phase ∈ sixPhases gettext lines running, phase.state = .done ∨ phase.state = .skipped := by
  intro phase hmem
  obtain ⟨i, hi, rfl⟩ := List.mem_iff_getElem.1 hmem
  have hstate : stateAt (sixPhases gettext lines running) i =
      some (sixPhases gettext lines running)[i].state := by
    rw [stateAt, List.getElem?_eq_getElem hi]
    rfl
  obtain ⟨announcement, -, hplaced⟩ := exists_placed gettext hstate
  by_cases hannounced : Announced lines announcement.key
  · exact .inl (hplaced.done.2 ⟨hannounced, .inl h⟩)
  · exact .inr (hplaced.skipped.2 ⟨hannounced, .inl h⟩)

/-! ### A log and a longer one -/

/-- What the phases of a log say holds for those of a longer one. -/
structure Forward (lines longer : List String) (phases later : List Phase) : Prop where
  last : lastSeen (announcements lines) ≤ lastSeen (announcements longer)
  done : ∀ i, stateAt phases i = some .done → stateAt later i = some .done
  skipped : ∀ i, stateAt phases i = some .skipped →
    stateAt later i ≠ some .pending ∧ stateAt later i ≠ some .running
  announced : ∀ i announcement, upgradePhases[i]? = some announcement →
    Announced lines announcement.key → stateAt later i ≠ some .pending

theorem isComplete_mono {lines longer : List String} (h : lines <+: longer)
    (hcomplete : isComplete lines = true) : isComplete longer = true := by
  rw [isComplete, List.any_eq_true] at hcomplete ⊢
  obtain ⟨line, hline, hmarker⟩ := hcomplete
  exact ⟨line, h.subset hline, hmarker⟩

/-- What a phase had behind it, it still has. -/
theorem past_mono {lines longer : List String} (h : lines <+: longer)
    (hpast : isComplete lines = true ∨ (i : Int) < lastSeen (announcements lines)) :
    isComplete longer = true ∨ (i : Int) < lastSeen (announcements longer) := by
  rcases hpast with hcomplete | hlast
  · exact .inl (isComplete_mono h hcomplete)
  · exact .inr (hlast.trans_le (lastSeen_mono (announcements_extends h)))

/-- More lines take no phase back, whether the container still runs or not. -/
theorem forward_of_extends {lines longer : List String} (h : lines <+: longer) (runs : Bool) :
    Forward lines longer (sixPhases gettext lines true) (sixPhases gettext longer runs) := by
  constructor
  case last => exact lastSeen_mono (announcements_extends h)
  case done =>
    intro i hdone
    obtain ⟨phase, hphase, hplaced⟩ := exists_placed gettext hdone
    obtain ⟨hannounced, hpast⟩ := hplaced.done.1 rfl
    rw [stateAt_sixPhases, hphase]
    apply congrArg some
    exact (placed_stateOf longer runs i phase).done.2 ⟨hannounced.mono h, past_mono h hpast⟩
  case skipped =>
    intro i hskipped
    obtain ⟨phase, hphase, hplaced⟩ := exists_placed gettext hskipped
    obtain ⟨-, hpast⟩ := hplaced.skipped.1 rfl
    have hlater := past_mono h hpast
    constructor
    · intro hpending
      obtain ⟨other, -, hplaced'⟩ := exists_placed gettext hpending
      obtain ⟨-, hopen, hlast⟩ := hplaced'.pending.1 rfl
      rcases hlater with hcomplete | hless
      · rw [hopen] at hcomplete
        cases hcomplete
      · omega
    · intro hrunning
      obtain ⟨hopen, hlast⟩ := current_cases (.inl hrunning)
      rcases hlater with hcomplete | hless
      · rw [hopen] at hcomplete
        cases hcomplete
      · omega
  case announced =>
    intro i announcement hannouncement hannounced hpending
    obtain ⟨phase, hphase, hplaced⟩ := exists_placed gettext hpending
    obtain rfl := Option.some.inj (hannouncement.symm.trans hphase)
    exact (hplaced.pending.1 rfl).1 (hannounced.mono h)

/-! ### The texts -/

/-- A log to which whole lines were added. -/
def Extends (log longer : String) : Prop :=
  splitLines log <+: splitLines longer

instance (log longer : String) : Decidable (Extends log longer) :=
  inferInstanceAs (Decidable (splitLines log <+: splitLines longer))

/-- Whatever is written behind the end of a line adds whole lines. -/
theorem extends_newline (log more : String) : Extends log (log ++ "\n" ++ more) := by
  unfold Extends splitLines
  rw [String.toList_append, String.toList_append, List.append_assoc]
  exact Lines.linesFrom_extends (by decide)

/-- The six phases that `phases_from_log` begins with. -/
def sixOf (gettext : String → String) (log : String) (running pruneImages : Bool) : List Phase :=
  (phasesFromLog gettext log running pruneImages).take 6

theorem sixOf_eq (log : String) (running pruneImages : Bool) :
    sixOf gettext log running pruneImages = sixPhases gettext (logLines log) running := by
  rw [sixOf, phasesFromLog, List.take_append_of_le_length]
  · exact List.take_of_length_le (by rw [length_sixPhases]; rfl)
  · rw [length_sixPhases]
    rfl

/-- The progress of an upgrade never goes back. -/
theorem progress_never_goes_back (gettext : String → String) {log longer : String}
    (h : Extends log longer) (running pruneImages : Bool) :
    InOrder (sixOf gettext log running pruneImages) ∧
      (isComplete (logLines log) = true → ∀ phase ∈ sixOf gettext log running pruneImages,
        phase.state = .done ∨ phase.state = .skipped) ∧
      Forward (logLines log) (logLines longer) (sixOf gettext log true pruneImages)
        (sixOf gettext longer running pruneImages) := by
  simp only [sixOf_eq]
  exact ⟨inOrder_sixPhases, settled_of_complete,
    forward_of_extends (h.map fun raw => stripPrefix (strip raw)) running⟩

theorem progress_of_first_lines :
    Forward (logLines "[papaia-ctl] Creating a restore point\n")
      (logLines "[papaia-ctl] Creating a restore point\nMoving the checkout to v1.2.0.\n")
      (sixOf id "[papaia-ctl] Creating a restore point\n" true false)
      (sixOf id "[papaia-ctl] Creating a restore point\nMoving the checkout to v1.2.0.\n"
        false false) :=
  (progress_never_goes_back id (by decide) false false).2.2

end Papaia.Stack.Phases
