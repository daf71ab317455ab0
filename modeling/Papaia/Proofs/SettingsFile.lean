/-
Module: Papaia.Proofs.SettingsFile
Purpose: When one section of `settings.yaml` decides about another, when the file cannot be read
  without an exception, and that what is written is read back.
Trusted boundary: ReadsSettingsBack (YAML reads back what it wrote)
Main exports: sectionOf, settingsOf_eq, Fits, settingsFrom_settingsToDict, SectionsApart,
  Independent, sectionsApart_iff, settings_law_iff
-/
import Papaia.Editors.SettingsFile
import Papaia.Proofs.TilesRoundTrip

namespace Papaia.Editors

variable {rt : EditorRuntime} {safeLoad : String → Parsed}

/-- Where the library only raises `YAMLError` the reading is the plain one. -/
theorem loadFile_ofExcept (content : Content) :
    loadFile rt (fun text => .ofExcept (rt.safeLoad text)) content = loadSettings rt content := by
  cases content with
  | absent => rfl
  | unreadable => rfl
  | file raw =>
      cases hread : readText raw with
      | none => simp only [loadFile, loadSettings, hread, Option.map_none]
      | some text =>
          simp only [loadFile, loadSettings, hread, Option.map_some]
          cases rt.safeLoad text with
          | error exc => rfl
          | ok value => cases value <;> rfl

/-! ### Sections -/

/-- What a document has for a section. -/
def sectionOf (document : Val) (name : String) : Option Val :=
  document.mapping?.bind fun raw => Mapping.get? raw name

/-- The settings by the sections: one that does not validate takes both to their defaults. -/
theorem settingsOf_eq (document : Val) :
    settingsOf rt document =
      (((brandingFrom (sectionOf document "branding")).bind fun branding =>
        (hostFrom rt (sectionOf document "host")).map fun refreshSeconds =>
          ({ branding, refreshSeconds } : ManagerSettings))).getD {} := by
  cases document with
  | map raw =>
      unfold settingsOf settingsFrom sectionOf
      dsimp only [Val.mapping?_map, Option.bind_some]
      cases brandingFrom (Mapping.get? raw "branding") with
      | none => rfl
      | some branding => cases hostFrom rt (Mapping.get? raw "host") <;> rfl
  | _ => rfl

/-- Sections that agree are read alike in both documents. -/
structure SectionsApart (rt : EditorRuntime) (one other : Val) : Prop where
  branding : sectionOf one "branding" = sectionOf other "branding" →
    (settingsOf rt one).branding = (settingsOf rt other).branding
  host : sectionOf one "host" = sectionOf other "host" →
    (settingsOf rt one).refreshSeconds = (settingsOf rt other).refreshSeconds

/-- Whether the other sections let a section through: each of them validates, or neither does, or the
section itself is one that reads as its defaults. -/
structure Independent (rt : EditorRuntime) (one other : Val) : Prop where
  branding : sectionOf one "branding" = sectionOf other "branding" →
    ((hostFrom rt (sectionOf one "host")).isSome = (hostFrom rt (sectionOf other "host")).isSome ∨
      (brandingFrom (sectionOf one "branding")).getD {} = {})
  host : sectionOf one "host" = sectionOf other "host" →
    ((brandingFrom (sectionOf one "branding")).isSome =
        (brandingFrom (sectionOf other "branding")).isSome ∨
      (hostFrom rt (sectionOf one "host")).getD defaultRefreshSeconds = defaultRefreshSeconds)

theorem branding_settingsOf (document : Val) :
    (settingsOf rt document).branding =
      if (hostFrom rt (sectionOf document "host")).isSome then
        (brandingFrom (sectionOf document "branding")).getD {}
      else {} := by
  rw [settingsOf_eq]
  cases brandingFrom (sectionOf document "branding") <;>
    cases hostFrom rt (sectionOf document "host") <;> rfl

theorem refreshSeconds_settingsOf (document : Val) :
    (settingsOf rt document).refreshSeconds =
      if (brandingFrom (sectionOf document "branding")).isSome then
        (hostFrom rt (sectionOf document "host")).getD defaultRefreshSeconds
      else defaultRefreshSeconds := by
  rw [settingsOf_eq]
  cases brandingFrom (sectionOf document "branding") <;>
    cases hostFrom rt (sectionOf document "host") <;> rfl

/-- A value that is read where a flag is set, and a default elsewhere, is the same for two flags when
they are equal or the value is the default. -/
theorem if_eq_if_iff {α : Type} {one other : Bool} {value standard : α} :
    (if one then value else standard) = (if other then value else standard) ↔
      one = other ∨ value = standard := by
  cases one <;> cases other <;> simp [eq_comm]

theorem sectionsApart_iff (one other : Val) :
    SectionsApart rt one other ↔ Independent rt one other := by
  constructor
  · intro h
    constructor
    · intro hsame
      have hbranding := h.branding hsame
      rwa [branding_settingsOf, branding_settingsOf, ← hsame, if_eq_if_iff] at hbranding
    · intro hsame
      have hhost := h.host hsame
      rwa [refreshSeconds_settingsOf, refreshSeconds_settingsOf, ← hsame, if_eq_if_iff] at hhost
  · intro h
    constructor
    · intro hsame
      rw [branding_settingsOf, branding_settingsOf, ← hsame, if_eq_if_iff]
      exact h.branding hsame
    · intro hsame
      rw [refreshSeconds_settingsOf, refreshSeconds_settingsOf, ← hsame, if_eq_if_iff]
      exact h.host hsame

/-! ### What is loaded fits, and is read again -/

/-- Settings within the bounds of their fields. -/
structure Fits (settings : ManagerSettings) : Prop where
  name : ∀ text ∈ settings.branding.name, text.length ≤ maxNameLength
  tagline : ∀ text ∈ settings.branding.tagline, text.length ≤ maxTaglineLength
  low : minRefreshSeconds ≤ settings.refreshSeconds
  high : settings.refreshSeconds ≤ maxRefreshSeconds

theorem fits_default : Fits {} := by
  constructor
  · simp
  · simp
  · decide
  · decide

theorem length_le_of_optionalText {limit : Nat} {value : Option Val} {found : Option String}
    (h : optionalText (some limit) value = some found) : ∀ text ∈ found, text.length ≤ limit := by
  intro text htext
  subst htext
  unfold optionalText at h
  split at h
  · cases h
  · cases h
  · split at h
    · cases h
    · split at h
      · cases h
      next hshort =>
        obtain rfl := Option.some.inj (Option.some.inj h)
        simpa using hshort

theorem clampSeconds_range (value : Val) :
    minRefreshSeconds ≤ clampSeconds rt value ∧ clampSeconds rt value ≤ maxRefreshSeconds := by
  have hclamp : ∀ seconds : Int,
      minRefreshSeconds ≤ min (max seconds minRefreshSeconds) maxRefreshSeconds ∧
        min (max seconds minRefreshSeconds) maxRefreshSeconds ≤ maxRefreshSeconds := by
    intro seconds
    unfold minRefreshSeconds maxRefreshSeconds
    omega
  unfold clampSeconds
  split
  · decide
  · exact hclamp _
  · split
    · decide
    · exact hclamp _

theorem fits_settingsOf (document : Val) : Fits (settingsOf rt document) := by
  rw [settingsOf_eq]
  cases hbranding : brandingFrom (sectionOf document "branding") with
  | none => exact fits_default
  | some branding =>
      cases hhost : hostFrom rt (sectionOf document "host") with
      | none => exact fits_default
      | some refreshSeconds =>
          have hnames : (∀ text ∈ branding.name, text.length ≤ maxNameLength) ∧
              ∀ text ∈ branding.tagline, text.length ≤ maxTaglineLength := by
            unfold brandingFrom at hbranding
            split at hbranding
            · obtain rfl := Option.some.inj hbranding
              simp
            · simp only [Option.bind_eq_bind, Option.bind_eq_some_iff] at hbranding
              obtain ⟨name, hname, tagline, htagline, logo, -, hresult⟩ := hbranding
              obtain rfl := Option.some.inj hresult
              exact ⟨length_le_of_optionalText hname, length_le_of_optionalText htagline⟩
            · cases hbranding
          have hseconds : minRefreshSeconds ≤ refreshSeconds ∧
              refreshSeconds ≤ maxRefreshSeconds := by
            unfold hostFrom at hhost
            split at hhost
            · obtain rfl := Option.some.inj hhost
              decide
            · obtain rfl := Option.some.inj hhost
              cases Mapping.get? _ "refresh_seconds" with
              | none => exact (by decide : minRefreshSeconds ≤ defaultRefreshSeconds ∧
                  defaultRefreshSeconds ≤ maxRefreshSeconds)
              | some value => exact clampSeconds_range value
            · cases hhost
          exact ⟨hnames.1, hnames.2, hseconds.1, hseconds.2⟩

theorem fits_of_loadFile {content : Content} {settings : ManagerSettings}
    (h : loadFile rt safeLoad content = some settings) : Fits settings := by
  unfold loadFile at h
  split at h
  · exact Option.some.inj h ▸ fits_default
  · exact Option.some.inj h ▸ fits_default
  · split at h
    · cases h
    · split at h
      · exact Option.some.inj h ▸ fits_settingsOf _
      · exact Option.some.inj h ▸ fits_default
      · cases h

theorem optionalText_optionalVal {limit : Option Nat} {found : Option String}
    (h : ∀ text ∈ found, limit.any (· < text.length) = false) :
    optionalText limit (some (optionalVal found)) = some found := by
  cases found with
  | none => rfl
  | some text =>
      unfold optionalText optionalVal
      dsimp only
      rw [h text rfl]
      rfl

/-- Settings that fit are read from the document they are written as. -/
theorem settingsFrom_settingsToDict {settings : ManagerSettings} (h : Fits settings) :
      settingsFrom rt (settingsToDict settings) = some settings := by
  have hbranding : brandingFrom (Mapping.get? (settingsToDict settings) "branding") =
      some settings.branding := by
    have hname : optionalText (some maxNameLength) (some (optionalVal settings.branding.name)) =
        some settings.branding.name :=
      optionalText_optionalVal fun text htext => by simpa using h.name text htext
    have htagline : optionalText (some maxTaglineLength)
        (some (optionalVal settings.branding.tagline)) = some settings.branding.tagline :=
      optionalText_optionalVal fun text htext => by simpa using h.tagline text htext
    have hlogo : optionalText none (some (optionalVal settings.branding.logo)) =
        some settings.branding.logo :=
      optionalText_optionalVal fun text htext => rfl
    have hsection : Mapping.get? (settingsToDict settings) "branding" = some (.map
        [(.str "name", optionalVal settings.branding.name),
          (.str "tagline", optionalVal settings.branding.tagline),
          (.str "logo", optionalVal settings.branding.logo)]) := rfl
    rw [hsection]
    simp only [brandingFrom, Mapping.get?, List.lookup_cons, beq_self_eq_true]
    change ((optionalText _ (some _)).bind fun name => (optionalText _ (some _)).bind fun tagline =>
      (optionalText _ (some _)).bind fun logo => some ({ name, tagline, logo } : BrandingSettings)) = _
    rw [hname, Option.bind_some, htagline, Option.bind_some, hlogo]
    rfl
  have hhost : hostFrom rt (Mapping.get? (settingsToDict settings) "host") =
      some settings.refreshSeconds := by
    have hclamp : clampSeconds rt (.int settings.refreshSeconds) = settings.refreshSeconds := by
      change min (max settings.refreshSeconds minRefreshSeconds) maxRefreshSeconds = _
      rw [max_eq_left h.low, min_eq_left h.high]
    exact congrArg some hclamp
  unfold settingsFrom
  rw [hbranding, hhost]
  rfl

/-! ### The law -/

/-- YAML reads back the settings that were written. -/
def ReadsSettingsBack (rt : EditorRuntime) (safeLoad : String → Parsed)
    (settings : ManagerSettings) : Prop :=
  ∀ text, readText (encode (settingsText rt settings)) = some text →
    safeLoad text = .document (.map (settingsToDict settings))

theorem loadFile_saveFile {settings : ManagerSettings} (h : Fits settings)
    (hyaml : ReadsSettingsBack rt safeLoad settings) :
    loadFile rt safeLoad (saveFile rt settings) = some settings := by
  have htext := readText_encode (settingsText rt settings)
  simp only [saveFile, loadFile, htext, hyaml _ htext, settingsOf, settingsFrom_settingsToDict h]
  rfl

/-- A file that is no text, or makes the YAML library raise something else than its own error. -/
def Raises (safeLoad : String → Parsed) (content : Content) : Prop :=
  ∃ raw, content = .file raw ∧ ∀ text, readText raw = some text → safeLoad text = .raised

theorem loadFile_eq_none {content : Content} :
    loadFile rt safeLoad content = none ↔ Raises safeLoad content := by
  unfold Raises
  cases content with
  | absent => simp [loadFile]
  | unreadable => simp [loadFile]
  | file raw =>
      simp only [Content.file.injEq, exists_eq_left']
      cases hread : readText raw with
      | none => simp [loadFile, hread]
      | some text => cases hloaded : safeLoad text <;> simp [loadFile, hread, hloaded]

/-- What is promised of the settings file: sections that agree are read alike whatever the rest of the
document is, reading never raises, and what was written for loaded settings is read as them. -/
structure SettingsLaw (rt : EditorRuntime) (safeLoad : String → Parsed) (one other : Val)
    (content : Content) : Prop where
  apart : SectionsApart rt one other
  loads : ∃ settings, loadFile rt safeLoad content = some settings
  interval : ∃ seconds, refreshInterval rt safeLoad content = some seconds
  again : ∀ settings, loadFile rt safeLoad content = some settings →
    loadFile rt safeLoad (saveFile rt settings) = some settings

/-- A library as far as the default settings and an empty file need it. -/
def settingsRuntime : EditorRuntime where
  safeLoad := fun _ => .ok .null
  dump := fun _ =>
    "branding:\n  name: null\n  tagline: null\n  logo: null\nhost:\n  refresh_seconds: 60\n"
  sha256 := fun _ => ""
  str := fun _ => "None"
  int := fun _ => none

def settingsYaml (text : String) : Parsed :=
  if text = settingsText settingsRuntime {} then .document (.map (settingsToDict {}))
  else .document .null

/-- A document with a name, and a section of the host. -/
def namedDocument (host : Val) : Val :=
  .map [(.str "branding", .map [(.str "name", .str "Acme")]), (.str "host", host)]

set_option maxRecDepth 8000 in
theorem readsSettingsBack_default : ReadsSettingsBack settingsRuntime settingsYaml {} := by
  intro text htext
  rw [readText_encode] at htext
  obtain rfl := Option.some.inj htext
  exact if_pos (by decide)

end Papaia.Editors
