/-
Module: Papaia.Editors.Settings
Purpose: The manager's `settings.yaml`: how it is read, what a form makes of it, and what of it the
  pages show.
Trusted boundary: EditorRuntime; a text is no longer than pydantic says when it has as many characters
Main exports: ManagerSettings, loadSettings, settingsRevision, SettingsChange, effectiveBranding
-/
import Papaia.Editors.Tiles

namespace Papaia.Editors

def defaultName : String := "papAIa manager"
def defaultTagline : String := "by Fidonis"
def maxNameLength : Nat := 40
def maxTaglineLength : Nat := 60
def minRefreshSeconds : Int := 10
def maxRefreshSeconds : Int := 3600
def defaultRefreshSeconds : Int := 60

/-! ### The document -/

/-- `BrandingSettings`. -/
structure BrandingSettings where
  name : Option String := none
  tagline : Option String := none
  logo : Option String := none
deriving DecidableEq, Repr

/-- `ManagerSettings`; of the host there is one field. -/
structure ManagerSettings where
  branding : BrandingSettings := {}
  refreshSeconds : Int := defaultRefreshSeconds
deriving DecidableEq, Repr

variable (rt : EditorRuntime)

/-- What pydantic takes for a text or none; an absent field is none. -/
def optionalText (limit : Option Nat) : Option Val → Option (Option String)
  | none | some .null => some none
  | some value =>
      match (match value with
        | .str text => some text
        | .bytes raw => decode raw
        | _ => none) with
      | none => none
      | some text => if limit.any (· < text.length) then none else some (some text)

/-- `HostSettings._clamp`. -/
def clampSeconds : Val → Int
  | .bool _ => defaultRefreshSeconds
  | .int seconds => min (max seconds minRefreshSeconds) maxRefreshSeconds
  | value =>
      match rt.int value with
      | none => defaultRefreshSeconds
      | some seconds => min (max seconds minRefreshSeconds) maxRefreshSeconds

def brandingFrom : Option Val → Option BrandingSettings
  | none => some {}
  | some (.map raw) => do
      let name ← optionalText (some maxNameLength) (Mapping.get? raw "name")
      let tagline ← optionalText (some maxTaglineLength) (Mapping.get? raw "tagline")
      let logo ← optionalText none (Mapping.get? raw "logo")
      pure { name, tagline, logo }
  | some _ => none

def hostFrom : Option Val → Option Int
  | none => some defaultRefreshSeconds
  | some (.map raw) =>
      some (((Mapping.get? raw "refresh_seconds").map (clampSeconds rt)).getD defaultRefreshSeconds)
  | some _ => none

/-- `ManagerSettings.model_validate`; none for a `ValidationError`. -/
def settingsFrom (raw : Mapping) : Option ManagerSettings := do
  let branding ← brandingFrom (Mapping.get? raw "branding")
  let refreshSeconds ← hostFrom rt (Mapping.get? raw "host")
  pure { branding, refreshSeconds }

/-- `load_settings`; none where it raises, for a file that is no text. -/
def loadSettings : Content → Option ManagerSettings
  | .absent => some {}
  | .unreadable => some {}
  | .file raw =>
      (readText raw).map fun text =>
        match rt.safeLoad text with
        | .ok (.map document) => (settingsFrom rt document).getD {}
        | _ => {}

/-- `settings_revision`. -/
def settingsRevision : Content → String
  | .absent => ""
  | .unreadable => ""
  | .file raw => rt.sha256 raw

/-! ### What the pages show -/

structure EffectiveBranding where
  name : String
  tagline : String
  logoUrl : Option String
deriving DecidableEq, Repr

/-- `effective_branding`, for a logo whose file is there or not. -/
def effectiveBranding (content : Content) (hasLogo : Bool) : EffectiveBranding :=
  match loadSettings rt content with
  | none => ⟨defaultName, defaultTagline, none⟩
  | some settings =>
      let branding := settings.branding
      { name := if branding.name.getD "" = "" then defaultName else branding.name.getD ""
        tagline := branding.tagline.getD defaultTagline
        logoUrl := if hasLogo then branding.logo.map ("/brand/logo?v=" ++ ·) else none }

/-! ### What a form changes -/

/-- `_clean`. -/
def clean (value : Option String) : Option String :=
  value.map fun text =>
    Text.strip (String.ofList (text.toList.filter fun c => !(c.toNat < 0x20 || c.toNat == 0x7f)))

/-- What a request changes. -/
inductive SettingsChange where
  | branding (name tagline : Option String)
  | reset
  | host (refreshSeconds : Int)
deriving DecidableEq, Repr

/-- `validate_branding` and `validate_refresh_seconds`, with what a `SettingsError` says. -/
def SettingsChange.validate : SettingsChange → Except String SettingsChange
  | .branding name tagline =>
      if (clean name).any (maxNameLength < ·.length) then
        .error ("Name must be at most " ++ toString maxNameLength ++ " characters.")
      else if (clean tagline).any (maxTaglineLength < ·.length) then
        .error ("Tagline must be at most " ++ toString maxTaglineLength ++ " characters.")
      else .ok (.branding ((clean name).filter (· ≠ "")) (clean tagline))
  | .reset => .ok .reset
  | .host seconds =>
      if minRefreshSeconds ≤ seconds ∧ seconds ≤ maxRefreshSeconds then .ok (.host seconds)
      else
        .error ("The refresh interval must be between " ++ toString minRefreshSeconds ++
          " seconds and " ++ toString (maxRefreshSeconds / 60) ++ " minutes.")

/-- What a validated change makes of the settings. -/
def SettingsChange.apply (settings : ManagerSettings) : SettingsChange → ManagerSettings
  | .branding name tagline => { settings with branding := { settings.branding with name, tagline } }
  | .reset => { settings with branding := {} }
  | .host refreshSeconds => { settings with refreshSeconds }

/-- A text or null. -/
def optionalVal : Option String → Val
  | none => .null
  | some text => .str text

/-- `settings.model_dump()`. -/
def settingsToDict (settings : ManagerSettings) : Mapping :=
  [(.str "branding", .map
      [(.str "name", optionalVal settings.branding.name),
        (.str "tagline", optionalVal settings.branding.tagline),
        (.str "logo", optionalVal settings.branding.logo)]),
    (.str "host", .map [(.str "refresh_seconds", .int settings.refreshSeconds)])]

/-- The text that `save_settings` writes. -/
def settingsText (settings : ManagerSettings) : String :=
  "# papaia-manager settings. Edited through the Settings page.\n" ++
    rt.dump (.map (settingsToDict settings))

end Papaia.Editors
