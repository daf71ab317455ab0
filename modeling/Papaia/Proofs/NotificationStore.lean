/-
Module: Papaia.Proofs.NotificationStore
Purpose: The file of the notifications under requests, failing system calls, stops of the process and
  edits by hand: it holds the accepted changes one after the other, and no request replaces what its
  caller has not seen.
Trusted boundary: none
Main exports: replayed, Holds, Writing, Sound, sound_step, Refines, store_refines, Careful,
  careful_step, store_overwrites_nothing_unseen
-/
import Papaia.Lib.Runs
import Papaia.Notifications.Store
import Papaia.Proofs.NotificationConfig

namespace Papaia.Notifications.Store

open Runs

variable {codec : Codec}

/-! ### Changes -/

theorem refusing_eq_ok {α : Type} {x : Checked α} {a : α} : refusing x = .ok a ↔ x = .ok a := by
  cases x <;> simp [refusing]

/-- What a change leaves stands. -/
theorem stands_of_mutated {config next : NotificationsConfig} {change : Change}
    (h : mutated codec.lib config change = .ok next) : checkConfig codec.lib next = .ok next := by
  rw [mutated] at h
  cases hdraft : change.apply codec.lib config with
  | error refused =>
      rw [hdraft] at h
      cases h
  | ok draft =>
      rw [hdraft] at h
      exact checkConfig_stands (refusing_eq_ok.1 h)

theorem decided_eq_ok {file : Option File} {call : Call} {config : NotificationsConfig} :
    decided codec file call = .ok config ↔
      (loadConfig codec file).error = none ∧ (loadConfig codec file).revision = call.revision ∧
        mutated codec.lib (loadConfig codec file).config call.change = .ok config := by
  simp only [decided]
  cases herror : (loadConfig codec file).error with
  | some text => simp
  | none =>
      by_cases hrevision : (loadConfig codec file).revision = call.revision <;> simp [hrevision]

/-- The accepted changes, one after the other. -/
def replayed (lib : Library) (first : NotificationsConfig) (accepted : List Accepted) :
    Except Refused NotificationsConfig :=
  accepted.foldlM (fun config a => mutated lib config a.call.change) first

theorem replayed_append {first config next : NotificationsConfig} {accepted : List Accepted}
    {a : Accepted} (h : replayed codec.lib first accepted = .ok config)
    (hnext : mutated codec.lib config a.call.change = .ok next) :
    replayed codec.lib first (accepted ++ [a]) = .ok next := by
  rw [replayed] at h
  simp [replayed, List.foldlM_append, h, hnext, bind, Except.bind, pure, Except.pure]

/-! ### What the file holds -/

variable (codec) in
/-- What is written for a configuration is read as that configuration. -/
def Readable (config : NotificationsConfig) : Prop :=
  codec.parse (codec.dump config) = some config

variable (codec) in
/-- A file that is not there yet, or one as the manager writes it. -/
inductive Holds : Option File → NotificationsConfig → Prop where
  | missing : Holds none {}
  | written (checked : CheckedConfig codec.lib) (readable : Readable codec checked.config) :
      Holds (some (kept codec checked)) checked.config

theorem empty_stands (lib : Library) : checkConfig lib {} = .ok {} := by
  apply checkConfig_eq_ok.2
  exact ⟨[], rfl, configProblem_eq_none.2 ⟨Nat.zero_le _, List.nodup_nil, List.nodup_nil⟩, rfl⟩

theorem Holds.stands {file : Option File} {config : NotificationsConfig}
    (h : Holds codec file config) : checkConfig codec.lib config = .ok config := by
  cases h with
  | missing => exact empty_stands codec.lib
  | written checked readable => exact checked.stands

theorem Holds.private {file : Option File} {config : NotificationsConfig}
    (h : Holds codec file config) : ∀ held ∈ file, held.mode = privateMode := by
  intro held hheld
  cases h with
  | missing => cases hheld
  | written checked readable =>
      obtain rfl := Option.some.inj hheld
      rfl

theorem loadConfig_kept {config : NotificationsConfig} (readable : Readable codec config)
    (h : checkConfig codec.lib config = .ok config) :
    loadConfig codec (some ⟨privateMode, some (codec.dump config)⟩) =
      ⟨config, revisionOf codec (codec.dump config), none⟩ := by
  have hdecode : decode codec (codec.dump config) = some config := by
    rw [decode, readable, Option.bind_some, h]
    rfl
  simp [loadConfig, hdecode]

theorem Holds.loadConfig {file : Option File} {config : NotificationsConfig}
    (h : Holds codec file config) :
    (Store.loadConfig codec file).config = config ∧ (Store.loadConfig codec file).error = none := by
  cases h with
  | missing => exact ⟨rfl, rfl⟩
  | written checked readable =>
      rw [kept, loadConfig_kept readable checked.stands]
      exact ⟨rfl, rfl⟩

/-! ### A request that writes -/

/-- What stands beside the file in a phase. -/
def Staged (data : Bytes) : Phase → Option File → Prop
  | .unlink, _ => True
  | .create, tmp => tmp = none
  | .write written, tmp => tmp = some ⟨privateMode, some (data.take written)⟩
  | .replace, tmp => tmp = some ⟨privateMode, some data⟩
  | .tidy, tmp => tmp = none

/-- A step of a request that writes, phase by phase. -/
theorem proceed_cases {s s' : State} {w : Writer} {bytes : Nat}
    (hstaged : Staged (codec.dump w.config) w.phase s.tmp) (h : proceed codec s w bytes = some s') :
    (∃ phase tmp, Staged (codec.dump w.config) phase tmp ∧ phase ≠ .tidy ∧ w.phase ≠ .tidy ∧
        (∀ held ∈ tmp, held.mode = privateMode) ∧
        s' = { s with tmp := tmp, writer := some { w with phase := phase } }) ∨
      (w.phase = .replace ∧
        s' = { s with
          file := some ⟨privateMode, some (codec.dump w.config)⟩
          tmp := none
          writer := some { w with phase := .tidy }
          accepted := s.accepted ++ [⟨w.call, w.config⟩] }) ∨
      (w.phase = .tidy ∧
        s' = { s with
          writer := none
          answered := s.answered ++
            [(w.call, .ok (Accepted.answer codec ⟨w.call, w.config⟩))] }) := by
  rw [proceed] at h
  cases hphase : w.phase with
  | unlink =>
      simp only [hphase] at h
      obtain rfl := Option.some.inj h
      exact .inl ⟨.create, none, rfl, by simp, by simp, by simp, rfl⟩
  | create =>
      rw [hphase] at hstaged
      have htmp : s.tmp = none := hstaged
      simp only [hphase, htmp] at h
      obtain rfl := Option.some.inj h
      exact .inl ⟨.write 0, _, rfl, by simp, by simp, by simp, rfl⟩
  | write written =>
      simp only [hphase] at h
      by_cases hall : (codec.dump w.config).length ≤ written + bytes
      · rw [if_pos hall, List.take_of_length_le hall] at h
        obtain rfl := Option.some.inj h
        exact .inl ⟨.replace, _, rfl, by simp, by simp, by simp, rfl⟩
      · rw [if_neg hall] at h
        obtain rfl := Option.some.inj h
        exact .inl ⟨.write (written + bytes), _, rfl, by simp, by simp, by simp, rfl⟩
  | replace =>
      rw [hphase] at hstaged
      have htmp : s.tmp = some _ := hstaged
      simp only [hphase, htmp] at h
      exact .inr (.inl ⟨rfl, (Option.some.inj h).symm⟩)
  | tidy =>
      simp only [hphase] at h
      exact .inr (.inr ⟨rfl, (Option.some.inj h).symm⟩)

theorem raised_cases {s s' : State} {w : Writer} {removed : Bool} (h : raised s w removed = some s') :
    w.phase ≠ .tidy ∧ ∃ tmp, (tmp = none ∨ tmp = s.tmp) ∧
      s' = { s with writer := none, tmp := tmp } := by
  rw [raised] at h
  cases hphase : w.phase with
  | unlink =>
      simp only [hphase] at h
      exact ⟨by simp, s.tmp, .inr rfl, (Option.some.inj h).symm⟩
  | create =>
      simp only [hphase] at h
      exact ⟨by simp, s.tmp, .inr rfl, (Option.some.inj h).symm⟩
  | write written =>
      simp only [hphase] at h
      refine ⟨by simp, if removed then none else s.tmp, ?_, (Option.some.inj h).symm⟩
      cases removed <;> simp
  | replace =>
      simp only [hphase] at h
      refine ⟨by simp, if removed then none else s.tmp, ?_, (Option.some.inj h).symm⟩
      cases removed <;> simp
  | tidy =>
      simp only [hphase] at h
      cases h

/-! ### The file without edits by hand -/

/-- What the manager keeps while nobody else writes the file. -/
structure Sound (codec : Codec) (first config : NotificationsConfig) (s : State) : Prop where
  replay : replayed codec.lib first s.accepted = .ok config
  holds : Holds codec s.file config
  last : ∀ a ∈ s.accepted.getLast?, a.config = config ∧ Readable codec config ∧
    s.file = some ⟨privateMode, some (codec.dump config)⟩
  staged : ∀ w ∈ s.writer, Staged (codec.dump w.config) w.phase s.tmp
  changing : ∀ w ∈ s.writer, w.phase ≠ .tidy →
    mutated codec.lib config w.call.change = .ok w.config
  readable : ∀ w ∈ s.writer, Readable codec w.config
  placed : ∀ w ∈ s.writer, w.phase = .tidy → ⟨w.call, w.config⟩ ∈ s.accepted
  answers : ∀ call load, (call, .ok load) ∈ s.answered →
    ∃ a ∈ s.accepted, a.call = call ∧ a.answer codec = load
  beside : ∀ held ∈ s.tmp, held.mode = privateMode

variable (codec) in
/-- A step of the manager itself; what it is going to write can be read again. -/
def Undisturbed (s : State) (e : Event) : Prop :=
  e.isOwn = true ∧ ∀ w ∈ (step codec s e).bind State.writer, Readable codec w.config

instance (s : State) (e : Event) : Decidable (Undisturbed codec s e) :=
  inferInstanceAs (Decidable (e.isOwn = true ∧ ∀ w ∈ (step codec s e).bind State.writer,
    codec.parse (codec.dump w.config) = some w.config))

/-- A step of the manager keeps a sound state sound, with the configuration it has put in place. -/
theorem sound_step {first config : NotificationsConfig} {s s' : State} {e : Event}
    (sound : Sound codec first config s) (undisturbed : Undisturbed codec s e)
    (h : step codec s e = some s') : ∃ next, Sound codec first next s' := by
  have hreadable : ∀ w ∈ s'.writer, Readable codec w.config := by
    have hwriter := undisturbed.2
    rwa [h] at hwriter
  cases e with
  | edit file => cases undisturbed.1
  | crash =>
      obtain rfl := Option.some.inj h
      exact ⟨config, { sound with
        staged := by simp
        changing := by simp
        readable := hreadable
        placed := by simp }⟩
  | call call =>
      simp only [step] at h
      split at h
      · cases h
      · next hwriter =>
          split at h
          · next next hdecided =>
              obtain rfl := Option.some.inj h
              obtain ⟨-, -, hmutated⟩ := decided_eq_ok.1 hdecided
              rw [sound.holds.loadConfig.1] at hmutated
              refine ⟨config, { sound with
                staged := ?_, changing := ?_, readable := hreadable, placed := ?_ }⟩
              · intro w hw
                obtain rfl := Option.some.inj hw
                trivial
              · intro w hw _
                obtain rfl := Option.some.inj hw
                exact hmutated
              · intro w hw hphase
                obtain rfl := Option.some.inj hw
                cases hphase
          · next refused hdecided =>
              obtain rfl := Option.some.inj h
              refine ⟨config, { sound with answers := ?_ }⟩
              intro other load hmem
              rcases List.mem_append.1 hmem with hmem | hmem
              · exact sound.answers other load hmem
              · simp at hmem
  | fail removed =>
      obtain ⟨w, hw, hraised⟩ := Option.bind_eq_some_iff.1 h
      obtain ⟨-, tmp, htmp, rfl⟩ := raised_cases hraised
      refine ⟨config, { sound with
        staged := by simp, changing := by simp, readable := hreadable, placed := by simp, beside := ?_ }⟩
      rcases htmp with rfl | rfl
      · simp
      · exact sound.beside
  | advance bytes =>
      obtain ⟨w, hw, hproceed⟩ := Option.bind_eq_some_iff.1 h
      rcases proceed_cases (sound.staged w hw) hproceed with
        ⟨phase, tmp, hstaged, hphase, hbefore, hprivate, rfl⟩ | ⟨hphase, rfl⟩ | ⟨hphase, rfl⟩
      · refine ⟨config, { sound with
          staged := ?_, changing := ?_, readable := hreadable, placed := ?_, beside := hprivate }⟩
        · intro other hother
          obtain rfl := Option.some.inj hother
          exact hstaged
        · intro other hother _
          obtain rfl := Option.some.inj hother
          exact sound.changing w hw hbefore
        · intro other hother htidy
          obtain rfl := Option.some.inj hother
          exact absurd htidy hphase
      · -- the rename: here the change takes effect
        have hmutated := sound.changing w hw (by simp [hphase])
        have hstands := stands_of_mutated hmutated
        refine ⟨w.config, ?_⟩
        constructor
        · exact replayed_append sound.replay hmutated
        · exact .written ⟨w.config, hstands⟩ (sound.readable w hw)
        · intro a ha
          simp only [List.getLast?_append, List.getLast?_singleton, Option.some_or,
            Option.mem_def, Option.some.injEq] at ha
          obtain rfl := ha
          exact ⟨rfl, sound.readable w hw, rfl⟩
        · intro other hother
          obtain rfl := Option.some.inj hother
          rfl
        · intro other hother htidy
          obtain rfl := Option.some.inj hother
          exact absurd rfl htidy
        · exact hreadable
        · intro other hother _
          obtain rfl := Option.some.inj hother
          exact List.mem_append_right _ (List.mem_singleton.2 rfl)
        · intro call load hmem
          obtain ⟨a, ha, heq⟩ := sound.answers call load hmem
          exact ⟨a, List.mem_append_left _ ha, heq⟩
        · simp
      · refine ⟨config, { sound with
          staged := by simp, changing := by simp, readable := hreadable, placed := by simp, answers := ?_ }⟩
        intro call load hmem
        rcases List.mem_append.1 hmem with hmem | hmem
        · exact sound.answers call load hmem
        · simp only [List.mem_singleton, Prod.mk.injEq, Except.ok.injEq] at hmem
          obtain ⟨rfl, rfl⟩ := hmem
          exact ⟨_, sound.placed w hw hphase, rfl, rfl⟩

/-! ### Runs -/

variable (codec) in
/-- A file that is not there, or one that the manager left. -/
def State.of (start : Option (CheckedConfig codec.lib)) : State where
  file := start.map (kept codec)

def firstConfig (start : Option (CheckedConfig codec.lib)) : NotificationsConfig :=
  start.elim {} CheckedConfig.config

theorem sound_of {start : Option (CheckedConfig codec.lib)}
    (readable : ∀ checked ∈ start, Readable codec checked.config) :
    Sound codec (firstConfig start) (firstConfig start) (State.of codec start) where
  replay := rfl
  holds := by
    cases start with
    | none => exact .missing
    | some checked => exact .written checked (readable checked rfl)
  last := by simp [State.of]
  staged := by simp [State.of]
  changing := by simp [State.of]
  readable := by simp [State.of]
  placed := by simp [State.of]
  answers := by simp [State.of]
  beside := by simp [State.of]

/-- The file is the accepted changes, one after the other, and keeps its promises to its readers and
to those who changed it. -/
structure Refines (codec : Codec) (first : NotificationsConfig) (s : State)
    (config : NotificationsConfig) : Prop where
  replay : replayed codec.lib first s.accepted = .ok config
  wellKept : WellKept codec.lib config
  loads : (loadConfig codec s.file).config = config ∧ (loadConfig codec s.file).error = none
  latest : ∀ a ∈ s.accepted.getLast?, loadConfig codec s.file = a.answer codec
  answers : ∀ call load, (call, .ok load) ∈ s.answered →
    ∃ a ∈ s.accepted, a.call = call ∧ a.answer codec = load
  hidden : (∀ held ∈ s.file, held.mode = privateMode) ∧ ∀ held ∈ s.tmp, held.mode = privateMode

theorem Sound.refines {first config : NotificationsConfig} {s : State}
    (sound : Sound codec first config s) : Refines codec first s config where
  replay := sound.replay
  wellKept := stands_iff_wellKept.1 sound.holds.stands
  loads := sound.holds.loadConfig
  latest := by
    intro a ha
    obtain ⟨hconfig, hreadable, hfile⟩ := sound.last a ha
    rw [hfile, loadConfig_kept hreadable sound.holds.stands, Accepted.answer, hconfig]
  answers := sound.answers
  hidden := ⟨sound.holds.private, sound.beside⟩

/-- Whatever the requests, the failures and the stops of the process, while nobody edits the file. -/
theorem store_refines {start : Option (CheckedConfig codec.lib)}
    (readable : ∀ checked ∈ start, Readable codec checked.config) {s : State}
    (h : Reaches (step codec) (Undisturbed codec) (State.of codec start) s) :
    ∃ config, Refines codec (firstConfig start) s config := by
  have hsound : ∃ config, Sound codec (firstConfig start) config s := by
    apply h.invariant
    · exact ⟨_, sound_of readable⟩
    · rintro s e s' ⟨config, sound⟩ undisturbed taken
      exact sound_step sound undisturbed taken
  obtain ⟨config, sound⟩ := hsound
  exact ⟨config, sound.refines⟩

/-! ### One recipient -/

def operations : Recipient where
  id := "1a2b3c4d"
  name := "Operations"
  kind := .email
  target := "ops@example.org"
  events := [.jobFailed]

/-- The bytes of the header, the version and the settings, and of the recipient:
```
- id: 1a2b3c4d
  name: Operations
  kind: email
  target: ops@example.org
  enabled: true
  events:
  - job_failed
``` -/
def operationsText : Bytes :=
  [35, 32, 87, 114, 105, 116, 116, 101, 110, 32, 98, 121, 32, 116, 104, 101, 32, 112, 97, 112, 65,
    73, 97, 32, 109, 97, 110, 97, 103, 101, 114, 32, 40, 77, 97, 105, 108, 32, 62, 32, 78, 111,
    116, 105, 102, 105, 99, 97, 116, 105, 111, 110, 115, 41, 46, 10, 35, 32, 87, 101, 98, 104,
    111, 111, 107, 32, 85, 82, 76, 115, 32, 97, 117, 116, 104, 111, 114, 105, 115, 101, 32, 119,
    104, 111, 101, 118, 101, 114, 32, 112, 111, 115, 116, 115, 32, 116, 111, 32, 116, 104, 101,
    109, 58, 32, 107, 101, 101, 112, 32, 116, 104, 105, 115, 32, 102, 105, 108, 101, 32, 112, 114,
    105, 118, 97, 116, 101, 32, 40, 109, 111, 100, 101, 32, 48, 54, 48, 48, 41, 46, 10, 118, 101,
    114, 115, 105, 111, 110, 58, 32, 49, 10, 115, 101, 116, 116, 105, 110, 103, 115, 58, 10, 32,
    32, 99, 104, 101, 99, 107, 95, 105, 110, 116, 101, 114, 118, 97, 108, 95, 109, 105, 110, 117,
    116, 101, 115, 58, 32, 53, 10, 32, 32, 100, 101, 98, 111, 117, 110, 99, 101, 95, 109, 105,
    110, 117, 116, 101, 115, 58, 32, 51, 48, 10, 32, 32, 99, 101, 114, 116, 95, 108, 101, 97, 100,
    95, 100, 97, 121, 115, 58, 32, 49, 52, 10, 114, 101, 99, 105, 112, 105, 101, 110, 116, 115,
    58, 10, 45, 32, 105, 100, 58, 32, 49, 97, 50, 98, 51, 99, 52, 100, 10, 32, 32, 110, 97, 109,
    101, 58, 32, 79, 112, 101, 114, 97, 116, 105, 111, 110, 115, 10, 32, 32, 107, 105, 110, 100,
    58, 32, 101, 109, 97, 105, 108, 10, 32, 32, 116, 97, 114, 103, 101, 116, 58, 32, 111, 112,
    115, 64, 101, 120, 97, 109, 112, 108, 101, 46, 111, 114, 103, 10, 32, 32, 101, 110, 97, 98,
    108, 101, 100, 58, 32, 116, 114, 117, 101, 10, 32, 32, 101, 118, 101, 110, 116, 115, 58, 10,
    32, 32, 45, 32, 106, 111, 98, 95, 102, 97, 105, 108, 101, 100, 10]

/-- The library on this file and this configuration. -/
def operationsCodec : Codec where
  lib := { urlsplit := fun _ => none, casefold := Text.lower }
  parse := fun raw => if raw = operationsText then some { recipients := [operations] } else none
  dump := fun config => if config = { recipients := [operations] } then operationsText else []
  sha256 := fun _ => "3efde31dad8e76340d1010b13ade0c86d7a39701fea20fd3b4b16a3f55c4dcd5"

def addOperations : Call where
  revision := ""
  change := .add "1a2b3c4d" " Operations " .email "ops@example.org" true [.jobFailed, .jobFailed]

/-- The process stops in the middle of the first attempt. -/
def addedAgain : List Event :=
  [.call addOperations, .advance 0, .advance 0, .advance 7, .crash,
    .call addOperations, .advance 0, .advance 0, .advance 100, .advance 400, .advance 0, .advance 0]

def afterAdding (events : List Event) : State :=
  (replay (step operationsCodec) (State.of operationsCodec none) events).getD
    (State.of operationsCodec none)

theorem store_refines_addedAgain :
    (afterAdding addedAgain).accepted.length = 1 ∧
      ∃ config, Refines operationsCodec {} (afterAdding addedAgain) config := by
  have hreached : Reaches (step operationsCodec) (Undisturbed operationsCodec)
      (State.of operationsCodec none) (afterAdding addedAgain) :=
    reaches_of_isSome _ (by decide +kernel) (by decide +kernel)
  exact ⟨by decide +kernel, store_refines (by simp) hreached⟩

/-! ### Edits by hand -/

/-- A request that has read the file writes what it decided then, and the file is still the one it
read unless somebody edited it. -/
structure Careful (codec : Codec) (s : State) : Prop where
  decided : ∀ w ∈ s.writer, decided codec w.base w.call = .ok w.config
  same : ∀ w ∈ s.writer, w.phase ≠ .tidy → w.disturbed = false → s.file = w.base
  staged : ∀ w ∈ s.writer, Staged (codec.dump w.config) w.phase s.tmp

theorem careful_step {s s' : State} {e : Event} (careful : Careful codec s)
    (h : step codec s e = some s') : Careful codec s' := by
  cases e with
  | edit file =>
      obtain rfl := Option.some.inj h
      constructor
      · intro w hw
        obtain ⟨before, hbefore, rfl⟩ := Option.map_eq_some_iff.1 hw
        exact careful.decided before hbefore
      · intro w hw _ hundisturbed
        obtain ⟨before, hbefore, rfl⟩ := Option.map_eq_some_iff.1 hw
        cases hundisturbed
      · intro w hw
        obtain ⟨before, hbefore, rfl⟩ := Option.map_eq_some_iff.1 hw
        exact careful.staged before hbefore
  | crash =>
      obtain rfl := Option.some.inj h
      constructor <;> simp
  | call call =>
      simp only [step] at h
      split at h
      · cases h
      · next hwriter =>
          split at h
          · next next hdecided =>
              obtain rfl := Option.some.inj h
              constructor
              · intro w hw
                obtain rfl := Option.some.inj hw
                exact hdecided
              · intro w hw _ _
                obtain rfl := Option.some.inj hw
                rfl
              · intro w hw
                obtain rfl := Option.some.inj hw
                trivial
          · next refused hdecided =>
              obtain rfl := Option.some.inj h
              exact ⟨careful.decided, careful.same, careful.staged⟩
  | fail removed =>
      obtain ⟨w, hw, hraised⟩ := Option.bind_eq_some_iff.1 h
      obtain ⟨-, tmp, -, rfl⟩ := raised_cases hraised
      constructor <;> simp
  | advance bytes =>
      obtain ⟨w, hw, hproceed⟩ := Option.bind_eq_some_iff.1 h
      rcases proceed_cases (careful.staged w hw) hproceed with
        ⟨phase, tmp, hstaged, hphase, hbefore, -, rfl⟩ | ⟨hphase, rfl⟩ | ⟨hphase, rfl⟩
      · constructor
        · intro other hother
          obtain rfl := Option.some.inj hother
          exact careful.decided w hw
        · intro other hother _ hundisturbed
          obtain rfl := Option.some.inj hother
          exact careful.same w hw hbefore hundisturbed
        · intro other hother
          obtain rfl := Option.some.inj hother
          exact hstaged
      · constructor
        · intro other hother
          obtain rfl := Option.some.inj hother
          exact careful.decided w hw
        · intro other hother htidy _
          obtain rfl := Option.some.inj hother
          exact absurd rfl htidy
        · intro other hother
          obtain rfl := Option.some.inj hother
          rfl
      · constructor <;> simp

/-- The file becomes what a request whose caller knew its revision made of the configuration in it. -/
def ByRequest (codec : Codec) (before after : Option File) (call : Call) : Prop :=
  ∃ config, decided codec before call = .ok config ∧
    after = some ⟨privateMode, some (codec.dump config)⟩

/-- In every run, with edits by hand between any two system calls: a step that changes the file is an
edit, or a request that replaces the very configuration its caller named, unless an edit came between
its reading and its rename. -/
theorem store_overwrites_nothing_unseen (start : Option File) {s s' : State} {e : Event}
    (h : Reaches (step codec) (fun _ _ => True) { file := start } s)
    (taken : step codec s e = some s') (changed : s'.file ≠ s.file) :
    (∃ file, e = .edit file) ∨
      ∃ w ∈ s.writer, w.disturbed = true ∧ ByRequest codec w.base s'.file w.call ∨
        ByRequest codec s.file s'.file w.call := by
  have careful : Careful codec s := by
    apply h.invariant
    · constructor <;> simp
    · exact fun s e s' careful _ taken => careful_step careful taken
  cases e with
  | edit file => exact .inl ⟨file, rfl⟩
  | crash =>
      obtain rfl := Option.some.inj taken
      exact absurd rfl changed
  | call call =>
      simp only [step] at taken
      split at taken
      · cases taken
      · split at taken
        · obtain rfl := Option.some.inj taken
          exact absurd rfl changed
        · obtain rfl := Option.some.inj taken
          exact absurd rfl changed
  | fail removed =>
      obtain ⟨w, hw, hraised⟩ := Option.bind_eq_some_iff.1 taken
      obtain ⟨-, tmp, -, rfl⟩ := raised_cases hraised
      exact absurd rfl changed
  | advance bytes =>
      obtain ⟨w, hw, hproceed⟩ := Option.bind_eq_some_iff.1 taken
      rcases proceed_cases (careful.staged w hw) hproceed with
        ⟨phase, tmp, -, -, -, -, rfl⟩ | ⟨hphase, rfl⟩ | ⟨-, rfl⟩
      · exact absurd rfl changed
      · have hbase : ByRequest codec w.base _ w.call := ⟨w.config, careful.decided w hw, rfl⟩
        refine .inr ⟨w, hw, ?_⟩
        cases hdisturbed : w.disturbed with
        | true => exact .inl ⟨rfl, hbase⟩
        | false =>
            rw [careful.same w hw (by simp [hphase]) hdisturbed]
            exact .inr hbase
      · exact absurd rfl changed

/-- Somebody writes the file by hand just before the request renames its own. -/
def editedMeanwhile : List Event :=
  [.call addOperations, .advance 0, .advance 0, .advance 400,
    .edit (some ⟨0o644, some operationsText⟩)]

theorem store_overwrites_editedMeanwhile :
    ∃ s', step operationsCodec (afterAdding editedMeanwhile) (.advance 0) = some s' ∧
      s'.file ≠ (afterAdding editedMeanwhile).file ∧
        ∃ w ∈ (afterAdding editedMeanwhile).writer, w.disturbed = true := by
  have hreached : Reaches (step operationsCodec) (fun _ _ => True) { file := none }
      (afterAdding editedMeanwhile) :=
    reaches_of_isSome _ (permits_all _ _) (by decide +kernel)
  have hrenames : (step operationsCodec (afterAdding editedMeanwhile) (.advance 0)).map
      (fun after => Decidable.decide (after.file ≠ (afterAdding editedMeanwhile).file)) = some true := by
    decide +kernel
  obtain ⟨s', htaken, hfile⟩ := Option.map_eq_some_iff.1 hrenames
  have hchanged : s'.file ≠ (afterAdding editedMeanwhile).file := of_decide_eq_true hfile
  refine ⟨s', htaken, hchanged, ?_⟩
  rcases store_overwrites_nothing_unseen none hreached htaken hchanged with
    ⟨file, hfile⟩ | ⟨w, hw, ⟨hdisturbed, -⟩ | ⟨config, hdecided, -⟩⟩
  · cases hfile
  · exact ⟨w, hw, hdisturbed⟩
  · -- the file that was written by hand has another revision than the caller's
    have hstale : decided operationsCodec (afterAdding editedMeanwhile).file addOperations =
        .error .stale := by decide +kernel
    have hcall : (afterAdding editedMeanwhile).writer.map Writer.call = some addOperations := by
      decide +kernel
    rw [Option.mem_def.1 hw] at hcall
    rw [Option.some.inj hcall, hstale] at hdecided
    cases hdecided

end Papaia.Notifications.Store
