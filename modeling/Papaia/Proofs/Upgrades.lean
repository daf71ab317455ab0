/-
Module: Papaia.Proofs.Upgrades
Purpose: After an upgrade the catalog offers the same add-on again exactly where its version is
  written as something that is no text; a version that is SemVer is offered only where it is the
  higher one.
Trusted boundary: PlainTexts (`str` of a text is the text, `str` of anything else is no version)
Main exports: Precedes, isNewer_iff_precedes, PlainTexts, upgrade_settles_iff
-/
import Papaia.Addons.Upgrades
import Mathlib.Data.String.Basic

namespace Papaia.Semver

/-! ### The precedence of SemVer, by its own rule -/

/-- Numbers by their size and below every text, texts by their characters. -/
inductive Identifier.Precedes : Identifier → Identifier → Prop where
  | numbers {m n : Nat} (h : m < n) : Precedes (.number m) (.number n)
  | kinds (m : Nat) (text : String) : Precedes (.number m) (.text text)
  | texts {s t : String} (h : s < t) : Precedes (.text s) (.text t)

/-- From left to right; a list is below every longer one that begins with it. -/
inductive IdentifiersPrecede : List Identifier → List Identifier → Prop where
  | shorter (other : Identifier) (others : List Identifier) :
      IdentifiersPrecede [] (other :: others)
  | first {one other : Identifier} {rest others : List Identifier} (h : one.Precedes other) :
      IdentifiersPrecede (one :: rest) (other :: others)
  | later {one : Identifier} {rest others : List Identifier} (h : IdentifiersPrecede rest others) :
      IdentifiersPrecede (one :: rest) (one :: others)

/-- A pre-release is below its release. -/
inductive PrePrecedes : Option (List Identifier) → Option (List Identifier) → Prop where
  | release (pre : List Identifier) : PrePrecedes (some pre) none
  | both {pre other : List Identifier} (h : IdentifiersPrecede pre other) :
      PrePrecedes (some pre) (some other)

/-- The precedence of two versions: the numbers first, in their order. -/
inductive Precedes : Version → Version → Prop where
  | major {a b : Version} (h : a.major < b.major) : Precedes a b
  | minor {a b : Version} (major : a.major = b.major) (h : a.minor < b.minor) : Precedes a b
  | patch {a b : Version} (major : a.major = b.major) (minor : a.minor = b.minor)
      (h : a.patch < b.patch) : Precedes a b
  | pre {a b : Version} (major : a.major = b.major) (minor : a.minor = b.minor)
      (patch : a.patch = b.patch) (h : PrePrecedes a.pre b.pre) : Precedes a b

theorem text_compare_gt {s t : String} : Ord.compare s t = .gt ↔ t < s := by
  rw [compare_gt_iff_gt]

theorem identifier_compare_gt {one other : Identifier} :
    one.compare other = .gt ↔ other.Precedes one := by
  constructor
  · intro h
    cases one with
    | number m =>
        cases other with
        | number n => exact .numbers (Nat.compare_eq_gt.1 h)
        | text t => simp [Identifier.compare] at h
    | text s =>
        cases other with
        | number n => exact .kinds n s
        | text t => exact .texts (text_compare_gt.1 h)
  · intro h
    cases h with
    | numbers h => exact Nat.compare_eq_gt.2 h
    | kinds => rfl
    | texts h => exact text_compare_gt.2 h

theorem identifier_compare_eq {one other : Identifier} :
    one.compare other = .eq ↔ one = other := by
  cases one <;> cases other <;> simp [Identifier.compare]

theorem compareIdentifiers_gt {one other : List Identifier} :
    compareIdentifiers one other = .gt ↔ IdentifiersPrecede other one := by
  induction one generalizing other with
  | nil =>
      refine iff_of_false ?_ (fun h => by cases h)
      cases other <;> simp [compareIdentifiers]
  | cons first rest ih =>
      cases other with
      | nil => exact iff_of_true rfl (.shorter first rest)
      | cons second others =>
          rw [compareIdentifiers, Ordering.then_eq_gt, identifier_compare_gt,
            identifier_compare_eq, ih]
          constructor
          · rintro (h | ⟨rfl, h⟩)
            · exact .first h
            · exact .later h
          · intro h
            cases h with
            | first h => exact .inl h
            | later h => exact .inr ⟨rfl, h⟩

theorem compareIdentifiers_self (identifiers : List Identifier) :
    compareIdentifiers identifiers identifiers = .eq := by
  induction identifiers with
  | nil => rfl
  | cons first rest ih =>
      rw [compareIdentifiers, ih, Ordering.then_eq_eq]
      exact ⟨identifier_compare_eq.2 rfl, rfl⟩

theorem comparePre_gt {one other : Option (List Identifier)} :
    comparePre one other = .gt ↔ PrePrecedes other one := by
  cases one with
  | none =>
      cases other with
      | none => exact iff_of_false (by simp [comparePre]) (fun h => by cases h)
      | some pre => exact iff_of_true rfl (.release pre)
  | some identifiers =>
      cases other with
      | none => exact iff_of_false (by simp [comparePre]) (fun h => by cases h)
      | some others =>
          rw [comparePre, compareIdentifiers_gt]
          constructor
          · exact .both
          · intro h
            cases h with
            | both h => exact h

/-- A version is newer exactly where the other one precedes it. -/
theorem isNewer_iff_precedes {candidate installed : String} {a b : Version}
    (ha : readVersion candidate = some a) (hb : readVersion installed = some b) :
    isNewer candidate installed = some true ↔ Precedes b a := by
  simp only [isNewer, compareVersions, ha, hb, Option.bind_eq_bind, Option.bind_some,
    Option.pure_def, Option.map_some, Option.some.injEq, beq_iff_eq, Ordering.then_eq_gt,
    Ordering.then_eq_eq, Nat.compare_eq_gt, Nat.compare_eq_eq, comparePre_gt]
  constructor
  · rintro (((h | ⟨hmajor, h⟩) | ⟨⟨hmajor, hminor⟩, h⟩) | ⟨⟨⟨hmajor, hminor⟩, hpatch⟩, h⟩)
    · exact .major h
    · exact .minor hmajor.symm h
    · exact .patch hmajor.symm hminor.symm h
    · exact .pre hmajor.symm hminor.symm hpatch.symm h
  · intro h
    cases h with
    | major h => exact .inl (.inl (.inl h))
    | minor hmajor h => exact .inl (.inl (.inr ⟨hmajor.symm, h⟩))
    | patch hmajor hminor h => exact .inl (.inr ⟨⟨hmajor.symm, hminor.symm⟩, h⟩)
    | pre hmajor hminor hpatch h =>
        exact .inr ⟨⟨⟨hmajor.symm, hminor.symm⟩, hpatch.symm⟩, h⟩

/-- No version is newer than itself. -/
theorem isNewer_self (text : String) : isNewer text text ≠ some true := by
  cases hread : readVersion text with
  | none => simp [isNewer, compareVersions, hread]
  | some version =>
      have hpre : comparePre version.pre version.pre = .eq := by
        cases version.pre with
        | none => rfl
        | some identifiers => exact compareIdentifiers_self identifiers
      simp [isNewer, compareVersions, hread, hpre]

end Papaia.Semver

namespace Papaia.Addons

open Text Semver Notifications

/-! ### What an upgrade records -/

/-- What Python documents about `str`: a text stays as it is, and the text of a number, a truth
value, a date or anything else of a document is no version of three numbers. -/
structure PlainTexts (pyStr : Val → String) : Prop where
  text : ∀ text, pyStr (.str text) = text
  other : ∀ v, v.str? = none → readVersion (pyStr v) = none

variable {pyStr : Val → String} {readsTime : String → Bool}

theorem loadEntry_recorded (plain : PlainTexts pyStr) {catalog commit version now : String}
    {history : List HistoryEntry} (hnow : readsTime now = true) :
    ∃ entry, loadEntry pyStr readsTime (recordedEntry catalog commit version now history) =
      some entry ∧ entry.catalog = catalog ∧ entry.commit = commit ∧
        entry.manifestVersion = version ∧ entry.managed = true := by
  have hcatalog : (recordedEntry catalog commit version now history).get? "catalog" =
      some (.str catalog) := rfl
  have hcommit : (recordedEntry catalog commit version now history).get? "commit" =
      some (.str commit) := rfl
  have hversion : (recordedEntry catalog commit version now history).get? "manifest_version" =
      some (.str version) := rfl
  have htime : (recordedEntry catalog commit version now history).get? "installed_at" =
      some (.str now) := rfl
  have hmanaged : (recordedEntry catalog commit version now history).get? "managed" =
      some (.bool true) := rfl
  simp only [loadEntry, hcatalog, hcommit, hversion, htime, hmanaged, plain.text, hnow,
    Option.bind_eq_bind, Option.bind_some, if_true, Option.pure_def, Option.some.injEq]
  exact ⟨_, rfl, rfl, rfl, rfl, rfl⟩

/-- What was recorded under a name is what is loaded for it. -/
theorem loadedFrom_recorded {document document' entry : Mapping} {name : String}
    (h : recordInstalled document name entry = some document') :
    loadedFrom pyStr readsTime document' name = loadEntry pyStr readsTime entry := by
  unfold recordInstalled at h
  dsimp only at h
  split at h
  next addons _ =>
    split at h
    next => cases h
    next =>
      obtain rfl := Option.some.inj h
      simp [loadedFrom, Mapping.getD]
  next => cases h

/-! ### The offer -/

/-- A version the comparison knows again: none at all, or a text without a number of too many
digits. -/
def KnownAgain (version : Val) : Prop :=
  version = .null ∨ ∃ text, version = .str text ∧ keyRaises text = false

theorem readVersion_of_keyRaises {text : String} (h : readVersion text = none) :
    keyRaises text = false := by
  simp [keyRaises, h]

/-- An add-on is not offered the version it has exactly where that version is known again. -/
theorem updateOffered_same_iff (plain : PlainTexts pyStr) {installed : InstalledAddon}
    {version : Val} (hmanaged : installed.managed = true)
    (hversion : installed.manifestVersion = pyStr version) :
    updateOffered pyStr installed version = some false ↔ KnownAgain version := by
  by_cases hnull : version = .null
  · subst hnull
    exact iff_of_true rfl (.inl rfl)
  have hmatch : updateOffered pyStr installed version =
      if installed.managed &&
          (keyRaises (pyStr version) || keyRaises installed.manifestVersion) then none
      else some (updateAvailable pyStr installed version) := by
    unfold updateOffered
    split
    next => exact absurd rfl hnull
    next => rfl
  have hplain : updateAvailable pyStr installed version =
      (isNewer (pyStr version) installed.manifestVersion).getD
        (decide (version.str? ≠ some installed.manifestVersion)) := by
    unfold updateAvailable
    split
    next => exact absurd rfl hnull
    next =>
      rw [if_pos hmanaged]
      cases hnewer : isNewer (pyStr version) installed.manifestVersion <;> simp
  rw [hmatch, hplain, hmanaged, hversion, Bool.true_and, Bool.or_self]
  cases hstr : version.str? with
  | some text =>
      obtain rfl := Val.str?_eq_some.1 hstr
      rw [plain.text]
      have hself := isNewer_self text
      have hoffer : (isNewer text text).getD (decide (some text ≠ some text)) = false := by
        cases hnewer : isNewer text text with
        | none => simp
        | some newer => cases newer <;> simp_all
      rw [hoffer]
      cases hraises : keyRaises text <;> simp [KnownAgain, hraises]
  | none =>
      have hnone := plain.other version hstr
      have hnewer : isNewer (pyStr version) (pyStr version) = none := by
        simp [isNewer, compareVersions, hnone]
      rw [readVersion_of_keyRaises hnone, hnewer]
      refine iff_of_false (by simp) ?_
      rintro (rfl | ⟨text, rfl, -⟩)
      · exact hnull rfl
      · simp at hstr

/-- The record of an upgrade is loaded with the version of the staged directory. -/
theorem loadedFrom_synced (plain : PlainTexts pyStr) {sameDir : String → String → Bool}
    {registered : Option String} {document document' : Mapping} {name now : String}
    {inst : InstalledEntry} {staged : Staged} (hnow : readsTime now = true)
    (h : syncInstalledAfterUpgrade sameDir registered document name inst staged now =
      some document') :
    ∃ entry, loadedFrom pyStr readsTime document' name = some entry ∧
      entry.manifestVersion = staged.version ∧ entry.managed = true := by
  unfold syncInstalledAfterUpgrade at h
  split at h
  next => cases h
  next path =>
    split at h
    next =>
      obtain ⟨entry, hentry, -, -, hversion, hmanaged⟩ := loadEntry_recorded plain hnow
      exact ⟨entry, by rw [loadedFrom_recorded h, hentry], hversion, hmanaged⟩
    next => cases h

/-- The version of a manifest is none, or the one the staged directory has. -/
theorem manifestVersionOf_map (manifest : Mapping) :
    manifest.getD "version" = .null ∨
      manifestVersionOf pyStr (some (.map manifest)) = pyStr (manifest.getD "version") := by
  cases hversion : manifest.get? "version" with
  | none => exact .inl (by rw [Mapping.getD, hversion]; rfl)
  | some version =>
      refine .inr ?_
      have hfilled : (Val.map manifest).truthy = true := by
        cases manifest with
        | nil => simp [Mapping.get?] at hversion
        | cons => rfl
      have hget : (manifest.get? "version").getD (.str "unknown") = manifest.getD "version" := by
        rw [Mapping.getD, hversion]
        rfl
      rw [← hget]
      exact if_pos hfilled

/-- What is not offered is no update of the add-on. -/
theorem not_outdated {registry : List Catalog} {installedMap : String → Option InstalledAddon}
    {name : String} {installed : InstalledAddon} {manifest : Mapping}
    (hinstalled : installedMap name = some installed)
    (hmanifest : ∀ resolved ∈ resolveCatalogAddons pyStr registry installedMap,
      resolved.name = name → resolved.manifest = manifest)
    (h : updateAvailable pyStr installed (manifest.getD "version") = false) :
    ∀ update ∈ outdatedAddons pyStr registry installedMap, update.name ≠ name := by
  intro update hupdate heq
  obtain ⟨resolved, hresolved, hfound⟩ := List.mem_filterMap.1 hupdate
  split at hfound
  next => cases hfound
  next found hinstalled' =>
    dsimp only at hfound
    split at hfound
    next => cases hfound
    next =>
      split at hfound
      next havailable =>
        obtain rfl := Option.some.inj hfound
        have hname : resolved.name = name := heq
        rw [hname, hinstalled] at hinstalled'
        obtain rfl := Option.some.inj hinstalled'
        rw [hmanifest resolved hresolved hname, h] at havailable
        cases havailable
      next => cases hfound

theorem updateAvailable_of_offered {installed : InstalledAddon} {version : Val} {offer : Bool}
    (h : updateOffered pyStr installed version = some offer) :
    updateAvailable pyStr installed version = offer := by
  unfold updateOffered at h
  split at h
  next => simpa [updateAvailable] using h
  next =>
    split at h
    next => cases h
    next => exact Option.some.inj h

/-- Between two versions only the higher one is offered. -/
theorem precedes_of_offered {installed : InstalledAddon} {version : Val} {candidate held : Version}
    (h : updateOffered pyStr installed version = some true)
    (hcandidate : readVersion (pyStr version) = some candidate)
    (hheld : readVersion installed.manifestVersion = some held) : Precedes held candidate := by
  have havailable := updateAvailable_of_offered h
  apply (isNewer_iff_precedes hcandidate hheld).1
  unfold updateAvailable at havailable
  split at havailable
  next => cases havailable
  next =>
    split at havailable
    next =>
      cases hnewer : isNewer (pyStr version) installed.manifestVersion with
      | some newer =>
          have htrue : newer = true := by simpa [hnewer] using havailable
          rw [htrue]
      | none => simp [isNewer, compareVersions, hcandidate, hheld] at hnewer
    next => cases havailable

/-- After an upgrade the manifest it was staged from offers nothing exactly where its version is
known again, and then the add-on is not outdated; and whatever is installed, of two versions only
the higher one is offered. -/
theorem upgrade_settles_iff (plain : PlainTexts pyStr) {sameDir : String → String → Bool}
    {registered : Option String} {document document' manifest : Mapping} {name now : String}
    {inst : InstalledEntry} {staged : Staged} (hnow : readsTime now = true)
    (hstaged : staged.version = manifestVersionOf pyStr (some (.map manifest)))
    (hsync : syncInstalledAfterUpgrade sameDir registered document name inst staged now =
      some document') :
    (∃ entry, loadedFrom pyStr readsTime document' name = some entry ∧
      (updateOffered pyStr entry.toInstalledAddon (manifest.getD "version") = some false ↔
        KnownAgain (manifest.getD "version")) ∧
      (KnownAgain (manifest.getD "version") → ∀ registry installedMap,
        installedMap name = some entry.toInstalledAddon →
        (∀ resolved ∈ resolveCatalogAddons pyStr registry installedMap,
          resolved.name = name → resolved.manifest = manifest) →
        ∀ update ∈ outdatedAddons pyStr registry installedMap, update.name ≠ name)) ∧
    ∀ installed version candidate held,
      updateOffered pyStr installed version = some true →
      readVersion (pyStr version) = some candidate →
      readVersion installed.manifestVersion = some held → Precedes held candidate := by
  refine ⟨?_, fun _ _ _ _ => precedes_of_offered⟩
  obtain ⟨entry, hentry, hversion, hmanaged⟩ := loadedFrom_synced plain hnow hsync
  have hiff : updateOffered pyStr entry.toInstalledAddon (manifest.getD "version") = some false ↔
      KnownAgain (manifest.getD "version") := by
    rcases @manifestVersionOf_map pyStr manifest with hnull | hsame
    · rw [hnull]
      exact iff_of_true rfl (.inl rfl)
    · exact updateOffered_same_iff plain hmanaged (by rw [hversion, hstaged, hsame])
  refine ⟨entry, hentry, hiff, ?_⟩
  intro hknown registry installedMap hinstalled hmanifest
  exact not_outdated hinstalled hmanifest (updateAvailable_of_offered (hiff.2 hknown))

/-- `str` of a text and of one other value. -/
def yamlText (other : String) (v : Val) : String :=
  v.str?.getD other

theorem plainTexts_yamlText {other : String} (h : readVersion other = none) :
    PlainTexts (yamlText other) where
  text _ := rfl
  other v hv := by rw [yamlText, hv]; exact h

/-- An add-on before its upgrade, and the directory of an upgrade with a version. -/
def beforeUpgrade : InstalledEntry where
  catalog := "core"
  manifestVersion := "1.0.0"
  commit := "0123456789ab"
  installedAt := "2026-01-01T00:00:00+00:00"

def stagedWith (version : String) : Staged where
  revision := "abcdef012345"
  commit := "abcdef0123456789"
  path := "/workspace/addons/_managed/core/abcdef012345/wiki"
  version := version

/-- The upgrade of that add-on is recorded where the stack lists the staged directory. -/
theorem synced_beforeUpgrade (staged : Staged) : ∃ document',
    syncInstalledAfterUpgrade (· == ·) (some staged.path) [] "wiki" beforeUpgrade staged
      "2026-02-01T00:00:00+00:00" = some document' := by
  have haddons : ((setDefault (setDefault [] "version" (.int 1)) "addons" (.map [])).getD
      "addons").mapping? = some [] := by rfl
  have hnew : ((Mapping.getD [] "wiki").truthy && (Mapping.getD [] "wiki").mapping?.isNone) = false := by
    rfl
  unfold syncInstalledAfterUpgrade recordInstalled
  simp only [haddons, hnew, beq_self_eq_true, if_true]
  exact ⟨_, rfl⟩

theorem upgrade_settles_text : ∃ document' entry,
    syncInstalledAfterUpgrade (· == ·) (some (stagedWith "1.2.0").path) [] "wiki" beforeUpgrade
      (stagedWith "1.2.0") "2026-02-01T00:00:00+00:00" = some document' ∧
    loadedFrom (yamlText "None") (fun _ => true) document' "wiki" = some entry ∧
    updateOffered (yamlText "None") entry.toInstalledAddon (.str "1.2.0") = some false := by
  have plain : PlainTexts (yamlText "None") := plainTexts_yamlText (by decide)
  have hstaged : (stagedWith "1.2.0").version =
      manifestVersionOf (yamlText "None") (some (.map [(.str "version", .str "1.2.0")])) := by decide
  obtain ⟨document', hdocument⟩ := synced_beforeUpgrade (stagedWith "1.2.0")
  obtain ⟨⟨entry, hentry, hiff, -⟩, -⟩ := @upgrade_settles_iff _ (fun _ => true) plain _ _ _ _ _ _ _ _
    _ rfl hstaged hdocument
  exact ⟨document', entry, hdocument, hentry, hiff.2 (.inr ⟨"1.2.0", by rfl, by decide⟩)⟩

/-- The version 2 is written as a number: it is offered again after the upgrade to it. -/
theorem number_is_offered_again : ∃ document' entry,
    manifestVersionOf (yamlText "2") (some (.map [(.str "version", .int 2)])) =
      (stagedWith "2").version ∧
    syncInstalledAfterUpgrade (· == ·) (some (stagedWith "2").path) [] "wiki" beforeUpgrade
      (stagedWith "2") "2026-02-01T00:00:00+00:00" = some document' ∧
    loadedFrom (yamlText "2") (fun _ => true) document' "wiki" = some entry ∧
    updateOffered (yamlText "2") entry.toInstalledAddon (.int 2) = some true := by
  have plain : PlainTexts (yamlText "2") := plainTexts_yamlText (by decide)
  obtain ⟨document', hdocument⟩ := synced_beforeUpgrade (stagedWith "2")
  obtain ⟨entry, hentry, hversion, hmanaged⟩ := @loadedFrom_synced _ (fun _ => true) plain _ _ _ _ _ _ _
    _ rfl hdocument
  have hheld : entry.manifestVersion = "2" := hversion
  have hnumber : isNewer "2" "2" = none := by decide
  have hfits : keyRaises "2" = false := by decide
  refine ⟨document', entry, by decide, hdocument, hentry, ?_⟩
  simp [updateOffered, updateAvailable, yamlText, Val.str?, hheld, hmanaged, hnumber, hfits]

end Papaia.Addons
