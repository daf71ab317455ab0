/-
Module: Papaia.Proofs.Documents
Purpose: A save replaces what its editor was shown, in every run in which a file still shows what a
  response carries when its revision is read. The editors read a document and its revision apart; an
  edit in between goes unseen, and the next save takes it for what it was shown.
Trusted boundary: none
Main exports: Shows, Accepts, Honest, Steady, Foreseen, Lawful, steady_of_honest,
  steady_after_write, documents_runs
-/
import Papaia.Editors.Requests
import Papaia.Lib.Runs
import Papaia.Proofs.OverlayJob
import Papaia.Proofs.TilesRoundTrip

namespace Papaia.Editors

open Config

/-! ### The law -/

/-- A disk shows a document: its file reads as what the document carries. -/
def Shows (rt : EditorRuntime) (disk : Disk) : Document → Prop
  | .tiles config => ∃ raw, disk.tiles = .file raw ∧ parseFile rt raw = .ok config
  | .raw yaml => ∃ raw, disk.tiles = .file raw ∧ readText raw = some yaml
  | .overlay key content => ∃ file, readOverlay rt disk key = .ok file ∧ fileText file = some content
  | .settings settings _ => loadSettings rt disk.settings = some settings

/-- Every save was written over what the response that its revision comes from carried. -/
def Lawful (rt : EditorRuntime) (s : State) : Prop :=
  ∀ written ∈ s.written, Shows rt written.seen written.source.document

/-- The file still shows what a response is about to carry: the document when the revision is read
after it (a file that cannot be read has the revision of none), and the same settings when they are
read after their revision. Where a reading raises, there is no response. -/
def Steady (rt : EditorRuntime) (disk : Disk) : Phase → Prop
  | .tilesRevision document => tilesRevision rt disk.tiles = none ∨ Shows rt disk document
  | .overlayTarget key content =>
      match readOverlay rt disk key with
      | .error _ => content = ""
      | .ok file => fileText file = some content
  | .settingsLoad _ seen =>
      loadSettings rt disk.settings = none ∨ loadSettings rt disk.settings = loadSettings rt seen
  | _ => True

/-- Responses are finished over files that still show what they carry. -/
def Foreseen (rt : EditorRuntime) (s : State) : Event → Prop
  | .take i _ => ∀ phase ∈ s.requests[i]?, Steady rt s.disk phase
  | _ => True

/-! ### Revisions -/

/-- A disk has the revision of a response. -/
def Accepts (rt : EditorRuntime) (disk : Disk) (response : Response) : Prop :=
  match response.document.file with
  | .tiles => tilesRevision rt disk.tiles = some response.revision
  | .settings => settingsRevision rt disk.settings = response.revision
  | .overlay key => ∃ file, readOverlay rt disk key = .ok file ∧ file.revision = response.revision

/-- Whatever disk has the revision of a response shows its document. -/
def Honest (rt : EditorRuntime) (response : Response) : Prop :=
  ∀ disk, Accepts rt disk response → Shows rt disk response.document

/-- A digest that tells files apart, and is not the revision of no file. -/
structure Digests (rt : EditorRuntime) : Prop where
  injective : Function.Injective rt.sha256
  nonempty : ∀ raw, rt.sha256 raw ≠ ""

variable {rt : EditorRuntime}

theorem tilesRevision_eq_sha256 (hdigests : Digests rt) {content : Content} {raw : List UInt8}
    (h : tilesRevision rt content = some (rt.sha256 raw)) : content = .file raw := by
  cases content with
  | absent => exact absurd (Option.some.inj h).symm (hdigests.nonempty raw)
  | unreadable => cases h
  | file other => exact congrArg Content.file (hdigests.injective (Option.some.inj h))

/-- A tiles document that the disk shows is honest with the revision of the disk. -/
theorem honest_of_tiles (hdigests : Digests rt) {disk : Disk} {document : Document}
    {revision : String} (hfile : document.file = .tiles) (hshows : Shows rt disk document)
    (hrevision : tilesRevision rt disk.tiles = some revision) : Honest rt ⟨document, revision⟩ := by
  intro other haccepts
  have hraw : ∃ raw, disk.tiles = .file raw := by
    cases document with
    | tiles config =>
        obtain ⟨raw, hraw, -⟩ := hshows
        exact ⟨raw, hraw⟩
    | raw yaml =>
        obtain ⟨raw, hraw, -⟩ := hshows
        exact ⟨raw, hraw⟩
    | overlay key content => cases hfile
    | settings settings effective => cases hfile
  obtain ⟨raw, hraw⟩ := hraw
  rw [hraw] at hrevision
  obtain rfl := Option.some.inj hrevision
  simp only [Accepts, hfile] at haccepts
  have hother := tilesRevision_eq_sha256 hdigests haccepts
  cases document with
  | tiles config =>
      obtain ⟨same, hsame, hparsed⟩ := hshows
      obtain rfl := Content.file.inj (hraw.symm.trans hsame)
      exact ⟨raw, hother, hparsed⟩
  | raw yaml =>
      obtain ⟨same, hsame, hread⟩ := hshows
      obtain rfl := Content.file.inj (hraw.symm.trans hsame)
      exact ⟨raw, hother, hread⟩
  | overlay key content => cases hfile
  | settings settings effective => cases hfile

/-- Files with one revision hold the same settings. -/
theorem loadSettings_eq_of_revision (hdigests : Digests rt) {one other : Content}
    (h : settingsRevision rt one = settingsRevision rt other) :
    loadSettings rt one = loadSettings rt other := by
  cases one with
  | file raw =>
      cases other with
      | file same => rw [hdigests.injective h]
      | absent => exact absurd h (hdigests.nonempty raw)
      | unreadable => exact absurd h (hdigests.nonempty raw)
  | absent =>
      cases other with
      | file raw => exact absurd h.symm (hdigests.nonempty raw)
      | absent => rfl
      | unreadable => rfl
  | unreadable =>
      cases other with
      | file raw => exact absurd h.symm (hdigests.nonempty raw)
      | absent => rfl
      | unreadable => rfl

theorem honest_of_settings (hdigests : Digests rt) {seen : Content} {settings : ManagerSettings}
    (effective : EffectiveBranding) (hloaded : loadSettings rt seen = some settings) :
    Honest rt ⟨.settings settings effective, settingsRevision rt seen⟩ := by
  intro other haccepts
  exact (loadSettings_eq_of_revision hdigests haccepts).trans hloaded

/-- Overlay files with one revision have the same text. -/
theorem fileText_eq_of_revision (hdigests : Digests rt) {disk other : Disk} {key : OverlayKey}
    {file found : OverlayFile} (hfile : readOverlay rt disk key = .ok file)
    (hfound : readOverlay rt other key = .ok found) (h : found.revision = file.revision) :
    fileText found = fileText file := by
  have hraw : found.raw = file.raw := by
    apply Overlay.revisionOf_injective hdigests.injective hdigests.nonempty
    rw [← (Overlay.read_eq_ok hfile).2, ← (Overlay.read_eq_ok hfound).2, h]
  unfold fileText
  rw [hraw]

theorem honest_of_overlay (hdigests : Digests rt) {disk : Disk} {key : OverlayKey}
    {content : String} {file : OverlayFile} (hfile : readOverlay rt disk key = .ok file)
    (htext : fileText file = some content) : Honest rt ⟨.overlay key content, file.revision⟩ := by
  intro other haccepts
  obtain ⟨found, hfound, hrevision⟩ := haccepts
  exact ⟨found, hfound, (fileText_eq_of_revision hdigests hfile hfound hrevision).trans htext⟩

/-- The revision of no file is only for a file that is not there. -/
theorem honest_of_no_file (hdigests : Digests rt) (key : OverlayKey) :
    Honest rt ⟨.overlay key "", ""⟩ := by
  intro other haccepts
  obtain ⟨found, hfound, hrevision⟩ := haccepts
  refine ⟨found, hfound, ?_⟩
  have hraw : found.raw = none := by
    apply Overlay.revisionOf_injective hdigests.injective hdigests.nonempty
    rw [← (Overlay.read_eq_ok hfound).2]
    exact hrevision
  unfold fileText
  rw [hraw]

/-! ### One step -/

/-- What is known of a request under way. -/
def Ready (rt : EditorRuntime) : Phase → Prop
  | .tilesRevision document => document.file = .tiles
  | .tilesCompare source _ => source.document.file = .tiles ∧ Honest rt source
  | .tilesWrite source seen _ => Shows rt seen source.document
  | .settingsCompare source _ => source.document.file = .settings ∧ Honest rt source
  | .settingsChange source seen _ => Shows rt seen source.document
  | .settingsWrite source seen _ => Shows rt seen source.document
  | .overlayStale source key _ => source.document.file = .overlay key ∧ Honest rt source
  | .overlayReplace source key _ => source.document.file = .overlay key ∧ Honest rt source
  | _ => True

/-- What a step leaves is as it should be. -/
structure Kept (rt : EditorRuntime) (outcome : Outcome) : Prop where
  phase : Ready rt outcome.phase
  response : ∀ response ∈ outcome.response, Honest rt response
  written : ∀ written ∈ outcome.written, Shows rt written.seen written.source.document

theorem Kept.goTo (disk : Disk) {phase : Phase} (h : Ready rt phase) :
    Kept rt ⟨disk, phase, none, none⟩ :=
  ⟨h, fun _ hresponse => (nomatch hresponse), fun _ hwritten => (nomatch hwritten)⟩

theorem Kept.ended (disk : Disk) : Kept rt ⟨disk, .ended, none, none⟩ :=
  Kept.goTo disk trivial

theorem Kept.handed (disk : Disk) {response : Option Response}
    (h : ∀ handed ∈ response, Honest rt handed) : Kept rt ⟨disk, .ended, response, none⟩ :=
  ⟨trivial, h, fun _ hwritten => (nomatch hwritten)⟩

theorem Kept.wrote (disk : Disk) {phase : Phase} {source : Response} {seen : Disk}
    (hphase : Ready rt phase) (h : Shows rt seen source.document) :
    Kept rt ⟨disk, phase, none, some ⟨source, seen⟩⟩ := by
  refine ⟨hphase, fun _ hresponse => (nomatch hresponse), ?_⟩
  intro written hwritten
  obtain rfl := Option.some.inj hwritten
  exact h

variable {disk : Disk} {answer : Bool} {phase : Phase} {outcome : Outcome}

theorem kept_tilesStep (hdigests : Digests rt) (hready : Ready rt phase)
    (hsteady : Steady rt disk phase) (h : tilesStep rt disk answer phase = some outcome) :
    Kept rt outcome := by
  cases phase with
  | tilesLook raw =>
      obtain rfl := Option.some.inj h
      apply Kept.goTo
      repeat' split
      all_goals trivial
  | tilesLookAgain =>
      obtain rfl := Option.some.inj h
      apply Kept.goTo
      split
      all_goals trivial
  | tilesSeed raw =>
      simp only [tilesStep] at h
      split at h
      · obtain rfl := Option.some.inj h
        apply Kept.goTo
        split
        · trivial
        · exact rfl
      · obtain rfl := Option.some.inj h
        exact Kept.ended disk
  | tilesParse raw =>
      simp only [tilesStep] at h
      split at h
      · split at h
        · obtain rfl := Option.some.inj h
          exact Kept.ended disk
        · obtain rfl := Option.some.inj h
          apply Kept.goTo
          split
          · trivial
          · exact rfl
      · obtain rfl := Option.some.inj h
        exact Kept.ended disk
  | tilesText =>
      simp only [tilesStep] at h
      split at h
      · split at h
        · obtain rfl := Option.some.inj h
          exact Kept.ended disk
        · obtain rfl := Option.some.inj h
          exact Kept.goTo disk rfl
      · obtain rfl := Option.some.inj h
        exact Kept.ended disk
  | tilesRevision document =>
      obtain rfl := Option.some.inj h
      apply Kept.handed
      intro handed hhanded
      obtain ⟨revision, hrevision, rfl⟩ := Option.map_eq_some_iff.1 hhanded
      rcases hsteady with hraises | hshows
      · exact absurd (hraises.symm.trans hrevision) (Option.some_ne_none revision).symm
      · exact honest_of_tiles hdigests hready hshows hrevision
  | tilesCompare source save =>
      obtain ⟨hfile, hhonest⟩ := hready
      simp only [tilesStep] at h
      split at h
      · next haccepted =>
          split at h
          · obtain rfl := Option.some.inj h
            exact Kept.ended disk
          · obtain rfl := Option.some.inj h
            apply Kept.goTo
            apply hhonest
            simp only [Accepts, hfile]
            exact haccepted.1
      · obtain rfl := Option.some.inj h
        exact Kept.ended disk
  | tilesWrite source seen config =>
      simp only [tilesStep] at h
      split at h
      · obtain rfl := Option.some.inj h
        exact Kept.wrote _ rfl hready
      · obtain rfl := Option.some.inj h
        exact Kept.ended disk
  | _ => cases h

theorem kept_settingsStep (hdigests : Digests rt) (hready : Ready rt phase)
    (hsteady : Steady rt disk phase) (h : settingsStep rt disk answer phase = some outcome) :
    Kept rt outcome := by
  cases phase with
  | settingsEffective =>
      obtain rfl := Option.some.inj h
      exact Kept.goTo disk trivial
  | settingsRevision effective =>
      obtain rfl := Option.some.inj h
      exact Kept.goTo disk trivial
  | settingsLoad effective seen =>
      obtain rfl := Option.some.inj h
      apply Kept.handed
      intro handed hhanded
      obtain ⟨settings, hloaded, rfl⟩ := Option.map_eq_some_iff.1 hhanded
      rcases hsteady with hraises | hsame
      · exact absurd (hraises.symm.trans hloaded) (Option.some_ne_none settings).symm
      · exact honest_of_settings hdigests effective (hsame.symm.trans hloaded)
  | settingsCompare source change =>
      obtain ⟨hfile, hhonest⟩ := hready
      simp only [settingsStep] at h
      split at h
      · next haccepted =>
          split at h
          · obtain rfl := Option.some.inj h
            exact Kept.ended disk
          · obtain rfl := Option.some.inj h
            apply Kept.goTo
            apply hhonest
            simp only [Accepts, hfile]
            exact haccepted
      · obtain rfl := Option.some.inj h
        exact Kept.ended disk
  | settingsChange source seen change =>
      simp only [settingsStep] at h
      split at h
      · obtain rfl := Option.some.inj h
        exact Kept.ended disk
      · obtain rfl := Option.some.inj h
        exact Kept.goTo disk hready
  | settingsWrite source seen settings =>
      simp only [settingsStep] at h
      split at h
      · obtain rfl := Option.some.inj h
        exact Kept.wrote _ trivial hready
      · obtain rfl := Option.some.inj h
        exact Kept.ended disk
  | _ => cases h

/-- A file that was replaced had the revision that was expected. -/
theorem read_of_replaced {entry entry' : Entry} {content : Option (List UInt8)} {expected : String}
    {readIo writeIo : Io}
    (h : Overlay.replace rt.sha256 entry content expected readIo writeIo = (.ok true, entry')) :
    ∃ file, Overlay.read rt.sha256 entry readIo = .ok file ∧ file.revision = expected := by
  cases hread : Overlay.read rt.sha256 entry readIo with
  | error error =>
      cases content with
      | none => simp [Overlay.replace, Overlay.delete, hread] at h
      | some data => simp [Overlay.replace, Overlay.write, hread] at h
  | ok file =>
      by_cases hexpected : file.revision = expected
      · exact ⟨file, rfl, hexpected⟩
      · cases content with
        | none => simp [Overlay.replace, Overlay.delete, hread, hexpected] at h
        | some data => simp [Overlay.replace, Overlay.write, hread, hexpected] at h

theorem kept_overlayStep (hdigests : Digests rt) (hready : Ready rt phase)
    (hsteady : Steady rt disk phase) (h : overlayStep rt disk answer phase = some outcome) :
    Kept rt outcome := by
  cases phase with
  | overlayRead key =>
      simp only [overlayStep] at h
      split at h
      · obtain rfl := Option.some.inj h
        exact Kept.ended disk
      · split at h
        · obtain rfl := Option.some.inj h
          exact Kept.ended disk
        · obtain rfl := Option.some.inj h
          exact Kept.goTo disk trivial
  | overlayTarget key content =>
      obtain rfl := Option.some.inj h
      apply Kept.handed
      intro handed hhanded
      obtain rfl := Option.some.inj hhanded
      cases hread : readOverlay rt disk key with
      | error error =>
          simp only [Steady, hread] at hsteady
          rw [hsteady]
          exact honest_of_no_file hdigests key
      | ok file =>
          simp only [Steady, hread] at hsteady
          exact honest_of_overlay hdigests hread hsteady
  | overlayStale source key content =>
      simp only [overlayStep] at h
      split at h
      · obtain rfl := Option.some.inj h
        exact Kept.ended disk
      · split at h
        · obtain rfl := Option.some.inj h
          exact Kept.goTo disk hready
        · obtain rfl := Option.some.inj h
          exact Kept.ended disk
  | overlayReplace source key content =>
      obtain ⟨hfile, hhonest⟩ := hready
      simp only [overlayStep] at h
      split at h
      · next entry hreplaced =>
          obtain rfl := Option.some.inj h
          apply Kept.wrote _ (show Ready rt .ended from trivial)
          apply hhonest disk
          simp only [Accepts, hfile]
          exact read_of_replaced hreplaced
      · obtain rfl := Option.some.inj h
        exact Kept.ended disk
  | _ => cases h

theorem kept_phaseStep (hdigests : Digests rt) (hready : Ready rt phase)
    (hsteady : Steady rt disk phase) (h : phaseStep rt disk answer phase = some outcome) :
    Kept rt outcome := by
  rcases Option.or_eq_some_iff.1 h with htiles | ⟨-, hother⟩
  · exact kept_tilesStep hdigests hready hsteady htiles
  · rcases Option.or_eq_some_iff.1 hother with hsettings | ⟨-, hoverlay⟩
    · exact kept_settingsStep hdigests hready hsteady hsettings
    · exact kept_overlayStep hdigests hready hsteady hoverlay

/-- A response is honest only over a file that still shows what it carries: otherwise some disk, with
the very revision, shows something else. -/
theorem steady_of_honest (hready : Ready rt phase) {response : Response}
    (h : phaseStep rt disk answer phase = some outcome) (hhanded : outcome.response = some response)
    (hhonest : Honest rt response) : Steady rt disk phase := by
  cases phase with
  | tilesRevision document =>
      obtain rfl := Option.some.inj h
      obtain ⟨revision, hrevision, rfl⟩ := Option.map_eq_some_iff.1 hhanded
      right
      apply hhonest
      have hfile : document.file = .tiles := hready
      simp only [Accepts, hfile]
      exact hrevision
  | settingsLoad effective seen =>
      obtain rfl := Option.some.inj h
      obtain ⟨settings, hloaded, rfl⟩ := Option.map_eq_some_iff.1 hhanded
      have hseen : loadSettings rt seen = some settings := hhonest { disk with settings := seen } rfl
      exact .inr (hloaded.trans hseen.symm)
  | overlayTarget key content =>
      obtain rfl := Option.some.inj h
      obtain rfl := Option.some.inj hhanded
      cases hread : readOverlay rt disk key with
      | error error =>
          rw [hread] at hhonest
          obtain ⟨file, hfile, htext⟩ :=
            hhonest { disk with overlay := fun _ => (.absent, none) } ⟨⟨none, ""⟩, rfl, rfl⟩
          obtain rfl := Except.ok.inj hfile
          simp only [Steady, hread]
          exact (Option.some.inj htext).symm
      | ok file =>
          rw [hread] at hhonest
          obtain ⟨found, hfound, htext⟩ := hhonest disk ⟨file, hread, rfl⟩
          obtain rfl := Except.ok.inj (hread.symm.trans hfound)
          simp only [Steady, hread]
          exact htext
  | _ => trivial

/-! ### The answers of the saves -/

theorem settled_config (hprints : Prints rt) {save : TilesSave} {config : TilesConfig}
    (h : save.config rt = some config) : Settled config.groups := by
  cases save with
  | structured body => exact settled_of_configFromDict hprints h
  | raw yaml =>
      simp only [TilesSave.config] at h
      cases hparsed : parseTiles rt yaml with
      | error error =>
          rw [hparsed] at h
          cases h
      | ok parsed =>
          rw [hparsed] at h
          obtain rfl := Option.some.inj h
          exact settled_of_parseTiles hprints hparsed

/-- Nothing comes between a save of the dashboard and its answer but the host: where YAML reads back
what was written, the file shows what the answer carries. -/
theorem steady_after_write (hprints : Prints rt) {save : TilesSave} {config : TilesConfig}
    (hconfig : save.config rt = some config) (hyaml : ReadsBack rt config) {source : Response}
    {seen : Disk} (h : tilesStep rt disk true (.tilesWrite source seen config) = some outcome) :
    Steady rt outcome.disk outcome.phase := by
  obtain rfl := Option.some.inj h
  exact .inr ⟨_, rfl, parseFile_tilesText hyaml (settled_config hprints hconfig)⟩

/-- The same for the file that is seeded. -/
theorem steady_after_seed (hyaml : ReadsBack rt defaultTiles)
    (h : tilesStep rt disk true (.tilesSeed false) = some outcome) :
    Steady rt outcome.disk outcome.phase := by
  obtain rfl := Option.some.inj h
  exact .inr ⟨_, rfl, parseFile_tilesText hyaml settled_defaultTiles⟩

/-! ### The invariant -/

structure Sound (rt : EditorRuntime) (s : State) : Prop where
  requests : ∀ phase ∈ s.requests, Ready rt phase
  responses : ∀ response ∈ s.responses, Honest rt response
  written : Lawful rt s

variable {s s' : State} {e : Event}

theorem sourceOf_mem {responses : List Response} {i : Nat} {file : File} {source : Response}
    (h : sourceOf responses i file = some source) :
    source ∈ responses ∧ source.document.file = file := by
  obtain ⟨hfound, hfile⟩ := Option.filter_eq_some_iff.1 h
  exact ⟨List.mem_of_getElem? hfound, of_decide_eq_true hfile⟩

/-- A request begins with what the responses are known to be. -/
theorem ready_first {request : Request} (hresponses : ∀ response ∈ s.responses, Honest rt response)
    (h : request.first s.responses = some phase) : Ready rt phase := by
  cases request with
  | getTiles =>
      obtain rfl := Option.some.inj h
      trivial
  | getTilesRaw =>
      obtain rfl := Option.some.inj h
      trivial
  | getOverlay key =>
      obtain rfl := Option.some.inj h
      trivial
  | getSettings =>
      obtain rfl := Option.some.inj h
      trivial
  | putTiles i save =>
      obtain ⟨source, hsource, rfl⟩ := Option.map_eq_some_iff.1 h
      obtain ⟨hmem, hfile⟩ := sourceOf_mem hsource
      exact ⟨hfile, hresponses source hmem⟩
  | putSettings i change =>
      obtain ⟨source, hsource, rfl⟩ := Option.map_eq_some_iff.1 h
      obtain ⟨hmem, hfile⟩ := sourceOf_mem hsource
      exact ⟨hfile, hresponses source hmem⟩
  | putOverlay i key content =>
      obtain ⟨source, hsource, rfl⟩ := Option.map_eq_some_iff.1 h
      obtain ⟨hmem, hfile⟩ := sourceOf_mem hsource
      exact ⟨hfile, hresponses source hmem⟩

theorem sound_step (hdigests : Digests rt) (h : Sound rt s) (hforeseen : Foreseen rt s e)
    (hstep : step rt s e = some s') : Sound rt s' := by
  cases e with
  | edit disk =>
      obtain rfl := Option.some.inj hstep
      exact ⟨h.requests, h.responses, h.written⟩
  | begin request =>
      obtain ⟨phase, hfirst, rfl⟩ := Option.map_eq_some_iff.1 hstep
      refine ⟨?_, h.responses, h.written⟩
      intro other hother
      rcases List.mem_append.1 hother with hold | hnew
      · exact h.requests other hold
      · obtain rfl := List.mem_singleton.1 hnew
        exact ready_first h.responses hfirst
  | take i answer =>
      obtain ⟨phase, hphase, htaken⟩ := Option.bind_eq_some_iff.1 hstep
      obtain ⟨outcome, houtcome, hs'⟩ := Option.bind_eq_some_iff.1 htaken
      obtain rfl := Option.some.inj hs'
      have hready := h.requests phase (List.mem_of_getElem? hphase)
      have hkept := kept_phaseStep hdigests hready (hforeseen phase hphase) houtcome
      constructor
      · intro other hother
        rcases List.mem_or_eq_of_mem_set hother with hold | rfl
        · exact h.requests other hold
        · exact hkept.phase
      · intro response hresponse
        rcases List.mem_append.1 hresponse with hold | hnew
        · exact h.responses response hold
        · exact hkept.response response (Option.mem_toList.1 hnew)
      · intro written hwritten
        rcases List.mem_append.1 hwritten with hold | hnew
        · exact h.written written hold
        · exact hkept.written written (Option.mem_toList.1 hnew)

theorem sound_start (disk : Disk) : Sound rt (start disk) where
  requests := fun _ hphase => absurd hphase List.not_mem_nil
  responses := fun _ hresponse => absurd hresponse List.not_mem_nil
  written := fun _ hwritten => absurd hwritten List.not_mem_nil

/-! ### Runs -/

/-- In every run whose responses are finished over files that still show what they carry, every save
replaces what its editor was shown. -/
theorem documents_runs (hdigests : Digests rt) (disk : Disk)
    (h : Runs.Reaches (step rt) (Foreseen rt) (start disk) s) : Lawful rt s :=
  (h.invariant (sound_start disk) fun _ _ _ => sound_step hdigests).written

/-! ### A save over what was shown, and one over an edit nobody saw -/

/-- A library for documents that are empty or hold a comment only. -/
def exampleRuntime : EditorRuntime where
  safeLoad := fun _ => .ok .null
  dump := fun _ => "version: 1\ngroups: []\n"
  sha256 := exampleDigest
  str := fun _ => "None"
  int := fun _ => none

theorem exampleRuntime_digests : Digests exampleRuntime where
  injective := exampleDigest_injective
  nonempty := exampleDigest_ne_empty

/-- A dashboard file with these bytes, and no other file. -/
def exampleDisk (raw : List UInt8) : Disk where
  tiles := .file raw
  settings := .absent
  overlay := fun _ => (.absent, none)

/-- The raw editor is opened, an empty document is typed into it, and saved. -/
def rawSave : List Event :=
  [.begin .getTilesRaw, .take 0 true, .take 0 true, .take 0 true, .begin (.putTiles 0 (.raw "")),
    .take 1 true, .take 1 true]

/-- The host changes the file after its text was read and before its revision is. -/
def rawSaveOverEdit : List Event :=
  [.begin .getTilesRaw, .take 0 true, .take 0 true, .edit (exampleDisk [35, 98]), .take 0 true,
    .begin (.putTiles 0 (.raw "")), .take 1 true, .take 1 true]

/-- The state a list of events leads to, over a file with a comment. -/
def afterEvents (events : List Event) : State :=
  (Runs.replay (step exampleRuntime) (start (exampleDisk [35, 97])) events).getD
    (start (exampleDisk [35, 97]))

theorem documents_runs_rawSave : Lawful exampleRuntime (afterEvents rawSave) := by
  have hpermits : Runs.Permits (step exampleRuntime) (Foreseen exampleRuntime)
      (start (exampleDisk [35, 97])) rawSave := by
    refine .cons trivial rfl (.cons ?_ rfl (.cons ?_ rfl (.cons ?_ rfl (.cons trivial rfl
      (.cons ?_ rfl (.cons ?_ rfl trivial))))))
    all_goals
      intro phase hphase
      obtain rfl := Option.some.inj hphase
    · trivial
    · trivial
    · exact .inr ⟨[35, 97], rfl, rfl⟩
    · trivial
    · trivial
  exact documents_runs exampleRuntime_digests (exampleDisk [35, 97])
    (Runs.reaches_of_isSome _ hpermits (by decide))

/-- The edit goes unseen, and the next save replaces it. -/
theorem unseen_edit_overwritten :
    ¬∀ (rt : EditorRuntime) (disk : Disk) (s : State), Digests rt →
      Runs.Reaches (step rt) (fun _ _ => True) (start disk) s → Lawful rt s := by
  intro h
  have hreached : Runs.Reaches (step exampleRuntime) (fun _ _ => True)
      (start (exampleDisk [35, 97])) (afterEvents rawSaveOverEdit) :=
    Runs.reaches_of_isSome _ (Runs.permits_all _ rawSaveOverEdit) (by decide)
  obtain ⟨written, hwritten, hseen, hcarried⟩ : ∃ written,
      (afterEvents rawSaveOverEdit).written = [written] ∧ written.seen.tiles = .file [35, 98] ∧
        written.source.document = .raw "#a" := ⟨_, rfl, rfl, by decide⟩
  have hshows := h exampleRuntime (exampleDisk [35, 97]) _ exampleRuntime_digests hreached written
    (by rw [hwritten]; exact List.mem_cons_self)
  rw [hcarried] at hshows
  obtain ⟨raw, hraw, htext⟩ := hshows
  obtain rfl := Content.file.inj (hseen.symm.trans hraw)
  revert htext
  decide

end Papaia.Editors
