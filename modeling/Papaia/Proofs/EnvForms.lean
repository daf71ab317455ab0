/-
Module: Papaia.Proofs.EnvForms
Purpose: When the environment form keeps the secrets: the documents of the secret fields do not depend
  on a stored value as long as the manifest takes no secret field's default from the core.
Trusted boundary: none
Main exports: Hides, Spec, specs, buildForm_eq, form_hides_secrets_iff
-/
import Papaia.Lib.Paired
import Papaia.Addons.EnvForms
import Papaia.Lib.Lines

namespace Papaia.Addons

/-! ### The law -/

/-- Whatever two pairs of environments hold that set the same fields, the browser receives the same
documents of the secret ones. -/
def Hides (rt : FormRuntime) (dir : AddonDir) (authProvider : String) : Prop :=
  ∀ bundleEnv coreEnv bundleEnv' coreEnv' form form',
    buildForm rt dir bundleEnv coreEnv authProvider = some form →
    buildForm rt dir bundleEnv' coreEnv' authProvider = some form' →
    form.map EnvField.currentSet = form'.map EnvField.currentSet →
    ∀ (i : Nat) (field field' : EnvField), form[i]? = some field → form'[i]? = some field' →
      field.isSecret = true → fieldToDict field = fieldToDict field'

/-! ### What a directory says of its fields -/

/-- What the manifest and the .env.example say of one field. -/
structure Spec where
  envPrompts : Mapping
  replaceSecrets : Mapping
  prompt : Mapping
  key : String
  exampleValue : String
  hint : String

/-- The secret fields of a form. -/
def Spec.Secret (rt : FormRuntime) (spec : Spec) : Prop :=
  isSecretField spec.prompt spec.replaceSecrets spec.key
    (classifyMarker rt spec.exampleValue) = true

instance (rt : FormRuntime) (spec : Spec) : Decidable (spec.Secret rt) :=
  inferInstanceAs (Decidable (_ = true))

def specOf (rt : FormRuntime) (manifest replaceSecrets : Mapping) (entry : String × String) :
    Option Spec := do
  let envPrompts ← orEmpty (manifest.get? "env_prompts")
  let prompt ← orEmpty (envPrompts.get? entry.1)
  let hint ← hintOf rt prompt replaceSecrets entry.1
  pure { envPrompts, replaceSecrets, prompt, key := entry.1, exampleValue := entry.2, hint }

/-- The fields that a directory declares; nothing when its manifest cannot be read. -/
def specs (rt : FormRuntime) (dir : AddonDir) : Option (List Spec) :=
  match dir.envExample with
  | none => some []
  | some _ => do
      let manifest ← orEmpty dir.manifest
      let replaceSecrets ← replaceSecretsOf manifest
      (readEnv dir.envExample).entries.mapM (specOf rt manifest replaceSecrets)

/-- A declared field, filled in from the environments. -/
def Spec.fill (rt : FormRuntime) (bundleEnv coreEnv : Option Env) (authProvider : String)
    (spec : Spec) : EnvField :=
  fieldOf rt spec.envPrompts spec.replaceSecrets spec.prompt spec.key spec.exampleValue spec.hint
    bundleEnv coreEnv authProvider

variable {rt : FormRuntime} {dir : AddonDir} {bundleEnv coreEnv bundleEnv' coreEnv' : Option Env}
  {authProvider : String} {spec : Spec}

/-- The environments only fill in what the directory declares. -/
theorem buildForm_eq : buildForm rt dir bundleEnv coreEnv authProvider =
    (specs rt dir).map (List.map (Spec.fill rt bundleEnv coreEnv authProvider)) := by
  unfold buildForm specs
  cases hexample : dir.envExample with
  | none => rfl
  | some content =>
      dsimp only
      cases orEmpty dir.manifest with
      | none => rfl
      | some manifest =>
          simp only [Option.bind_eq_bind, Option.bind_some]
          cases replaceSecretsOf manifest with
          | none => rfl
          | some replaceSecrets =>
              simp only [Option.bind_some]
              rw [← Paired.mapM_map]
              apply congrArg fun read => (readEnv (some content)).entries.mapM read
              funext entry
              unfold specOf
              cases orEmpty (manifest.get? "env_prompts") with
              | none => rfl
              | some envPrompts =>
                  simp only [Option.bind_eq_bind, Option.bind_some]
                  cases orEmpty (envPrompts.get? entry.1) with
                  | none => rfl
                  | some prompt =>
                      simp only [Option.bind_some]
                      cases hintOf rt prompt replaceSecrets entry.1 <;> rfl

/-! ### What a secret field shows -/

@[simp] theorem fill_isSecret :
    (spec.fill rt bundleEnv coreEnv authProvider).isSecret =
      isSecretField spec.prompt spec.replaceSecrets spec.key
        (classifyMarker rt spec.exampleValue) := rfl

@[simp] theorem fill_currentSet :
    (spec.fill rt bundleEnv coreEnv authProvider).currentSet =
      isCurrentSet bundleEnv spec.key spec.exampleValue (classifyMarker rt spec.exampleValue) := rfl

@[simp] theorem fill_default :
    (spec.fill rt bundleEnv coreEnv authProvider).default =
      resolveDefault rt spec.prompt spec.exampleValue coreEnv := rfl

/-- A default that is not the core's does not depend on it. -/
theorem resolveDefault_eq (h : spec.prompt.get? "default_from_core" = none) :
    resolveDefault rt spec.prompt spec.exampleValue coreEnv =
      resolveDefault rt spec.prompt spec.exampleValue coreEnv' := by
  unfold resolveDefault
  rw [h]

/-- The default and whether it is set are all that the document of a secret field takes from the
environments. -/
theorem fieldToDict_fill_eq (hsecret : spec.Secret rt)
    (hset : (spec.fill rt bundleEnv coreEnv authProvider).currentSet =
      (spec.fill rt bundleEnv' coreEnv' authProvider).currentSet)
    (hdefault : (spec.fill rt bundleEnv coreEnv authProvider).default =
      (spec.fill rt bundleEnv' coreEnv' authProvider).default) :
    fieldToDict (spec.fill rt bundleEnv coreEnv authProvider) =
      fieldToDict (spec.fill rt bundleEnv' coreEnv' authProvider) := by
  simp only [fill_currentSet, fill_default] at hset hdefault
  unfold Spec.Secret at hsecret
  unfold Spec.fill fieldOf fieldToDict EnvField.htmlInputType
  simp only [hsecret, hset, hdefault, if_true, Bool.not_true, Bool.and_false]

theorem get?_single (key value : String) : (Env.single key value).get? key = some value := by
  simp [Env.single, Env.get?]

/-- The form keeps the secrets of a directory exactly when no secret field that it declares takes its
default from the core. -/
theorem form_hides_secrets_iff (rt : FormRuntime) (dir : AddonDir) (authProvider : String) :
    Hides rt dir authProvider ↔
      ∀ declared, specs rt dir = some declared → ∀ spec ∈ declared, spec.Secret rt →
        spec.prompt.get? "default_from_core" = none := by
  constructor
  · intro h declared hdeclared spec hmem hsecret
    by_contra hfrom
    obtain ⟨coreKey, hkey⟩ := Option.ne_none_iff_exists'.1 hfrom
    obtain ⟨i, hi⟩ := List.mem_iff_getElem?.1 hmem
    have hfield : ∀ coreEnv,
        (declared.map (Spec.fill rt none (some coreEnv) authProvider))[i]? =
          some (spec.fill rt none (some coreEnv) authProvider) := by
      intro coreEnv
      rw [List.getElem?_map, hi]
      rfl
    have hform : ∀ coreEnv, buildForm rt dir none (some coreEnv) authProvider =
        some (declared.map (Spec.fill rt none (some coreEnv) authProvider)) := by
      intro coreEnv
      rw [buildForm_eq, hdeclared]
      rfl
    have hset : ∀ coreEnv coreEnv',
        (declared.map (Spec.fill rt none (some coreEnv) authProvider)).map EnvField.currentSet =
          (declared.map (Spec.fill rt none (some coreEnv') authProvider)).map
            EnvField.currentSet := by
      intro coreEnv coreEnv'
      simp only [List.map_map]
      rfl
    have hsame := h none (some (Env.single (rt.str coreKey) "one")) none
      (some (Env.single (rt.str coreKey) "other")) _ _ (hform _) (hform _) (hset _ _) i _ _
      (hfield _) (hfield _) hsecret
    have hdefault : (spec.fill rt none (some (Env.single (rt.str coreKey) "one"))
          authProvider).default =
        (spec.fill rt none (some (Env.single (rt.str coreKey) "other")) authProvider).default := by
      have hfields := congrArg (fun document => document.field.default) hsame
      unfold fieldToDict at hfields
      unfold Spec.Secret at hsecret
      simpa only [fill_isSecret, hsecret, if_true] using hfields
    simp only [fill_default, resolveDefault, hkey, get?_single, Option.getD_some] at hdefault
    revert hdefault
    decide
  · intro h bundleEnv coreEnv bundleEnv' coreEnv' form form' hform hform' hset i field field'
      hfield hfield' hsecret
    rw [buildForm_eq] at hform hform'
    obtain ⟨declared, hdeclared, rfl⟩ := Option.map_eq_some_iff.1 hform
    obtain ⟨_, hsame, rfl⟩ := Option.map_eq_some_iff.1 hform'
    obtain rfl := Option.some.inj (hdeclared.symm.trans hsame)
    rw [List.getElem?_map] at hfield hfield'
    obtain ⟨spec, hspec, rfl⟩ := Option.map_eq_some_iff.1 hfield
    obtain ⟨_, hother, rfl⟩ := Option.map_eq_some_iff.1 hfield'
    obtain rfl := Option.some.inj (hspec.symm.trans hother)
    have hcurrent := congrArg (fun sets : List Bool => sets[i]?) hset
    simp only [List.getElem?_map, hspec, Option.map_some, Option.some.injEq] at hcurrent
    apply fieldToDict_fill_eq hsecret hcurrent
    exact resolveDefault_eq (h declared hdeclared spec (List.mem_of_getElem? hspec) hsecret)

/-! ### A secret that the form shows -/

def exampleRuntime : FormRuntime where
  str := fun value => value.str?.getD ""
  title := fun text => text
  isWord := fun c => c.isAlphanum || c == '_'
  readsDecimal := fun _ => false

/-- An add-on whose password defaults to the one of the core. -/
def passwordFromCore : AddonDir where
  envExample := some "DB_PASSWORD=\n"
  manifest := some (.map [(.str "env_prompts", .map [(.str "DB_PASSWORD",
    .map [(.str "default_from_core", .str "POSTGRES_PASSWORD")])])])

/-- The password of the core is in the document of the add-on's secret field. -/
theorem password_from_core_shown :
    ¬∀ (rt : FormRuntime) (dir : AddonDir) (authProvider : String), Hides rt dir authProvider := by
  intro h
  have hhides := h exampleRuntime passwordFromCore "internal_keycloak"
  have hsame := hhides none (some (Env.single "POSTGRES_PASSWORD" "one")) none
    (some (Env.single "POSTGRES_PASSWORD" "other")) _ _ rfl rfl rfl 0 _ _ rfl rfl (by decide)
  have hdefault := congrArg (fun document => document.field.default) hsame
  revert hdefault
  decide
end Papaia.Addons
