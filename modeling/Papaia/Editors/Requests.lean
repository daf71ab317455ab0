/-
Module: Papaia.Editors.Requests
Purpose: The requests that hand out a document with its revision, and the ones that save with such a
  revision: each reading and each writing of a file is a step, with edits on the host in between.
Trusted boundary: EditorRuntime; whether the checks of a draft and a write succeed; a write replaces
  the file at one moment, for an overlay together with the comparison that the lock guards
Main exports: Disk, Document, Response, Request, Phase, State, Event, step
-/
import Papaia.Config.Overlay
import Papaia.Editors.Settings

namespace Papaia.Editors

open Config

/-! ### What is handed out -/

/-- The keys of the overlay targets. -/
inductive OverlayKey where
  | librechat
  | litellm
  | searxng
deriving DecidableEq, Repr

/-- The files that are edited; an overlay file may also fail to be read. -/
structure Disk where
  tiles : Content
  settings : Content
  overlay : OverlayKey → Entry × Io

/-- A file that has editors. -/
inductive File where
  | tiles
  | settings
  | overlay (key : OverlayKey)
deriving DecidableEq, Repr

/-- What a response carries of a file: the structured document, its text, or what is in force. -/
inductive Document where
  | tiles (config : TilesConfig)
  | raw (yaml : String)
  | overlay (key : OverlayKey) (content : String)
  | settings (settings : ManagerSettings) (effective : EffectiveBranding)
deriving DecidableEq, Repr

def Document.file : Document → File
  | tiles _ => .tiles
  | raw _ => .tiles
  | overlay key _ => .overlay key
  | settings _ _ => .settings

structure Response where
  document : Document
  revision : String
deriving DecidableEq, Repr

/-- What a save of the dashboard brings. -/
inductive TilesSave where
  | structured (body : Mapping)
  | raw (yaml : String)

/-- The configuration that is checked and written; none where it is refused or raises. -/
def TilesSave.config (rt : EditorRuntime) : TilesSave → Option TilesConfig
  | structured body => configFromDict rt body
  | raw yaml => (parseTiles rt yaml).toOption

/-! ### The requests -/

/-- A request; a save names the response that its revision comes from. -/
inductive Request where
  | getTiles
  | getTilesRaw
  | getOverlay (key : OverlayKey)
  | getSettings
  | putTiles (source : Nat) (save : TilesSave)
  | putSettings (source : Nat) (change : SettingsChange)
  | putOverlay (source : Nat) (key : OverlayKey) (content : Option (List UInt8))

/-- What a request is about to do.  Once it was accepted, a save knows what was on the disk when its
revision was compared, and the settings what was there when their revision was read. -/
inductive Phase where
  | tilesLook (raw : Bool)
  | tilesLookAgain
  | tilesSeed (raw : Bool)
  | tilesParse (raw : Bool)
  | tilesText
  | tilesRevision (document : Document)
  | tilesCompare (source : Response) (save : TilesSave)
  | tilesWrite (source : Response) (seen : Disk) (config : TilesConfig)
  | settingsEffective
  | settingsRevision (effective : EffectiveBranding)
  | settingsLoad (effective : EffectiveBranding) (seen : Content)
  | settingsCompare (source : Response) (change : SettingsChange)
  | settingsChange (source : Response) (seen : Disk) (change : SettingsChange)
  | settingsWrite (source : Response) (seen : Disk) (settings : ManagerSettings)
  | overlayRead (key : OverlayKey)
  | overlayTarget (key : OverlayKey) (content : String)
  | overlayStale (source : Response) (key : OverlayKey) (content : Option (List UInt8))
  | overlayReplace (source : Response) (key : OverlayKey) (content : Option (List UInt8))
  | ended

/-- The response a save takes its revision from; it is about the file that is saved. -/
def sourceOf (responses : List Response) (i : Nat) (file : File) : Option Response :=
  responses[i]?.filter fun response => response.document.file = file

/-- How a request begins. -/
def Request.first (responses : List Response) : Request → Option Phase
  | getTiles => some (.tilesLook false)
  | getTilesRaw => some (.tilesLook true)
  | getOverlay key => some (.overlayRead key)
  | getSettings => some .settingsEffective
  | putTiles i save => (sourceOf responses i .tiles).map (.tilesCompare · save)
  | putSettings i change => (sourceOf responses i .settings).map (.settingsCompare · change)
  | putOverlay i key content =>
      (sourceOf responses i (.overlay key)).map (.overlayStale · key content)

/-- A save that was written, and what was on the disk when its revision was compared. -/
structure Written where
  source : Response
  seen : Disk

/-- What a step leaves: the disk, what comes next, and what was handed out or written. -/
structure Outcome where
  disk : Disk
  phase : Phase
  response : Option Response := none
  written : Option Written := none

/-- The text of an overlay file; none for one that is not valid UTF-8. -/
def fileText (file : OverlayFile) : Option String :=
  match file.raw with
  | none => some ""
  | some raw => decode raw

variable (rt : EditorRuntime)

def readOverlay (disk : Disk) (key : OverlayKey) : Except OverlayError OverlayFile :=
  Overlay.read rt.sha256 (disk.overlay key).1 (disk.overlay key).2

/-- The disk with another entry for an overlay file. -/
def Disk.putOverlay (disk : Disk) (key : OverlayKey) (entry : Entry) : Disk :=
  { disk with
    overlay := fun other => if other = key then (entry, (disk.overlay key).2) else disk.overlay other }

/-- The steps of `get_tiles`, `get_tiles_raw` and of the two saves of the dashboard. -/
def tilesStep (disk : Disk) (answer : Bool) : Phase → Option Outcome
  | .tilesLook raw =>
      some ⟨disk, if disk.tiles = .absent then (if raw then .tilesLookAgain else .tilesSeed false)
        else if raw then .tilesText else .tilesParse false, none, none⟩
  | .tilesLookAgain =>
      some ⟨disk, if disk.tiles = .absent then .tilesSeed true else .tilesParse true, none, none⟩
  | .tilesSeed raw =>
      if answer then
        some ⟨{ disk with tiles := .file (encode (tilesText rt defaultTiles)) },
          if raw then .tilesText else .tilesRevision (.tiles defaultTiles), none, none⟩
      else some ⟨disk, .ended, none, none⟩
  | .tilesParse raw =>
      match disk.tiles with
      | .file bytes =>
          match parseFile rt bytes with
          | .error _ => some ⟨disk, .ended, none, none⟩
          | .ok config =>
              some ⟨disk, if raw then .tilesText else .tilesRevision (.tiles config), none, none⟩
      | _ => some ⟨disk, .ended, none, none⟩
  | .tilesText =>
      match disk.tiles with
      | .file bytes =>
          match readText bytes with
          | none => some ⟨disk, .ended, none, none⟩
          | some text => some ⟨disk, .tilesRevision (.raw text), none, none⟩
      | _ => some ⟨disk, .ended, none, none⟩
  | .tilesRevision document =>
      some ⟨disk, .ended, (tilesRevision rt disk.tiles).map (⟨document, ·⟩), none⟩
  | .tilesCompare source save =>
      if tilesRevision rt disk.tiles = some source.revision ∧ answer = true then
        match save.config rt with
        | none => some ⟨disk, .ended, none, none⟩
        | some config => some ⟨disk, .tilesWrite source disk config, none, none⟩
      else some ⟨disk, .ended, none, none⟩
  | .tilesWrite source seen config =>
      if answer then
        some ⟨{ disk with tiles := .file (encode (tilesText rt config)) },
          .tilesRevision (.tiles config), none, some ⟨source, seen⟩⟩
      else some ⟨disk, .ended, none, none⟩
  | _ => none

/-- The steps of `_document` and of the saves of the settings. -/
def settingsStep (disk : Disk) (answer : Bool) : Phase → Option Outcome
  | .settingsEffective =>
      some ⟨disk, .settingsRevision (effectiveBranding rt disk.settings answer), none, none⟩
  | .settingsRevision effective => some ⟨disk, .settingsLoad effective disk.settings, none, none⟩
  | .settingsLoad effective seen =>
      some ⟨disk, .ended, (loadSettings rt disk.settings).map fun settings =>
        ⟨.settings settings effective, settingsRevision rt seen⟩, none⟩
  | .settingsCompare source change =>
      if settingsRevision rt disk.settings = source.revision then
        match change.validate with
        | .error _ => some ⟨disk, .ended, none, none⟩
        | .ok valid => some ⟨disk, .settingsChange source disk valid, none, none⟩
      else some ⟨disk, .ended, none, none⟩
  | .settingsChange source seen change =>
      match loadSettings rt disk.settings with
      | none => some ⟨disk, .ended, none, none⟩
      | some settings =>
          some ⟨disk, .settingsWrite source seen (SettingsChange.apply settings change), none, none⟩
  | .settingsWrite source seen settings =>
      if answer then
        some ⟨{ disk with settings := .file (encode (settingsText rt settings)) },
          .settingsEffective, none, some ⟨source, seen⟩⟩
      else some ⟨disk, .ended, none, none⟩
  | _ => none

/-- The steps of `get_overlay` and of the saves of an overlay file, with the last comparison of their
job; the ones before it only refuse more. -/
def overlayStep (disk : Disk) (answer : Bool) : Phase → Option Outcome
  | .overlayRead key =>
      match readOverlay rt disk key with
      | .error _ => some ⟨disk, .ended, none, none⟩
      | .ok file =>
          match fileText file with
          | none => some ⟨disk, .ended, none, none⟩
          | some text => some ⟨disk, .overlayTarget key text, none, none⟩
  | .overlayTarget key content =>
      let revision := match readOverlay rt disk key with
        | .error _ => ""
        | .ok file => file.revision
      some ⟨disk, .ended, some ⟨.overlay key content, revision⟩, none⟩
  | .overlayStale source key content =>
      match readOverlay rt disk key with
      | .error _ => some ⟨disk, .ended, none, none⟩
      | .ok file =>
          if (fileText file).isSome && file.revision = source.revision &&
              (content.isSome || file.raw.isSome) && answer then
            some ⟨disk, .overlayReplace source key content, none, none⟩
          else some ⟨disk, .ended, none, none⟩
  | .overlayReplace source key content =>
      match Overlay.replace rt.sha256 (disk.overlay key).1 content source.revision
        (disk.overlay key).2 (if answer then none else some "") with
      | (.ok true, entry) => some ⟨disk.putOverlay key entry, .ended, none, some ⟨source, disk⟩⟩
      | _ => some ⟨disk, .ended, none, none⟩
  | _ => none

def phaseStep (disk : Disk) (answer : Bool) (phase : Phase) : Option Outcome :=
  (tilesStep rt disk answer phase).or
    ((settingsStep rt disk answer phase).or (overlayStep rt disk answer phase))

/-! ### The system -/

structure State where
  disk : Disk
  requests : List Phase
  responses : List Response
  written : List Written

/-- What happens next: the host edits files, a request comes in, or one takes its next step. -/
inductive Event where
  | edit (disk : Disk)
  | begin (request : Request)
  | take (i : Nat) (answer : Bool)

def step (s : State) : Event → Option State
  | .edit disk => some { s with disk }
  | .begin request =>
      (request.first s.responses).map fun phase => { s with requests := s.requests ++ [phase] }
  | .take i answer => do
      let phase ← s.requests[i]?
      let outcome ← phaseStep rt s.disk answer phase
      pure
        { disk := outcome.disk
          requests := s.requests.set i outcome.phase
          responses := s.responses ++ outcome.response.toList
          written := s.written ++ outcome.written.toList }

/-- No request is under way. -/
def start (disk : Disk) : State where
  disk
  requests := []
  responses := []
  written := []

end Papaia.Editors
