/-
Module: Papaia.Proofs.ModuleJobs
Purpose: The switch of a module is compared when it is requested and made by a job that compares
  nothing.  It finds the module as the page showed it when nobody changes the module meanwhile.
Trusted boundary: the digest of the revision tells the configurations apart
Main exports: StoodFor, Lawful, Foreseen, Sound, module_jobs_respect_revision
-/
import Papaia.Config.Modules
import Papaia.Lib.Runs
import Papaia.Data.Spelling
import Papaia.Proofs.EnvRoundTrip

namespace Papaia.Config.Modules

open Runs Text Addons

variable (digest : String → String)

/-! ### The promise and its condition -/

/-- The revision of a job's request stood for a state of its module. -/
def StoodFor (job : ModuleJob) (found : Standing) : Prop :=
  ∀ file, revision digest (readEnv file) = job.revision → standing job.module_ (readEnv file) = found

/-- A deed that changed the state of the module. -/
def Effect.Changes (effect : Effect) : Prop :=
  ∃ before after, effect.deed = .configured before after ∧ before ≠ after

/-- What a job did to its module, it did to a module that was, when the job started, as its request's
revision said; and of the requests for one module, only those that were compared after a change of
the module have done anything to it behind the change. -/
structure Lawful (effects : List Effect) : Prop where
  asShown : ∀ effect ∈ effects, StoodFor digest effect.job effect.startedIn
  afterwards : effects.zipIdx.Pairwise fun earlier later =>
    earlier.1.Changes → later.1.job.module_ = earlier.1.job.module_ →
      later.1.job.id ≠ earlier.1.job.id → earlier.2 < later.1.job.asked

/-- The requests of a module that are underway, without the job that runs. -/
def State.pending (s : State) : List ModuleJob :=
  s.asking ++ s.waiting

/-- A new configuration leaves the modules alone that have a request underway. -/
def State.Spares (s : State) (file : Option String) : Prop :=
  ∀ job ∈ s.pending, standing job.module_ (readEnv file) = standing job.module_ s.env

/-- Neither the host nor the running job's `setup` changes a module while another request for it is
underway. -/
def Foreseen (s : State) : Event → Prop
  | .host file => s.Spares file
  | .work stored _ =>
      ∀ running action left, s.running = some running → running.left = action :: left →
        s.Spares (action.written stored s.file)
  | _ => True

/-! ### What the revision tells -/

theorem unbroken_get? {file : Option String} {key value : String}
    (h : (readEnv file).get? key = some value) : '\n' ∉ value.toList := by
  obtain ⟨before, behind, hentries, -⟩ := List.lookup_eq_some_iff.1 h
  have hmem : (key, value) ∈ (readEnv file).entries := by rw [hentries]; simp
  intro hbreak
  have hplain := (readable_of_mem_readEnv hmem).unbroken _ hbreak
  revert hplain
  decide

/-- A profile is a part of a line between commas. -/
theorem plain_of_mem_profilesIn {file : Option String} {profile : String}
    (h : profile ∈ profilesIn (readEnv file)) :
    (',' ∉ profile.toList ∧ profile ≠ "") ∧ '\n' ∉ profile.toList := by
  rw [profilesIn, List.mem_insertionSort, List.mem_dedup, List.mem_filter] at h
  obtain ⟨hmem, hne⟩ := h
  obtain ⟨part, hpart, rfl⟩ := List.mem_map.1 hmem
  have hsplit : ∀ c ∈ (strip (String.ofList part)).toList,
      (c == ',') = false ∧ c ∈ (((readEnv file).get? "COMPOSE_PROFILES").getD "").toList := by
    intro c hc
    apply forall_mem_splitOnP (· == ',') _ part hpart
    simpa using Lines.mem_of_mem_strip hc
  refine ⟨⟨fun hcomma => ?_, by simpa using hne⟩, fun hbreak => ?_⟩
  · simpa using (hsplit _ hcomma).1
  · have hline := (hsplit _ hbreak).2
    cases hvalue : (readEnv file).get? "COMPOSE_PROFILES" with
    | none => simp [hvalue] at hline
    | some value =>
        rw [hvalue, Option.getD_some] at hline
        exact unbroken_get? hvalue hline

/-- Configurations with one revision have one set of profiles and one variant. -/
theorem material_inj {file other : Option String}
    (h : material (readEnv file) = material (readEnv other)) :
    profilesIn (readEnv file) = profilesIn (readEnv other) ∧
      variantText (readEnv file) = variantText (readEnv other) := by
  have hline : ∀ file : Option String,
      '\n' ∉ (joinWith "," (profilesIn (readEnv file))).toList := by
    intro file hbreak
    have hplain : ∀ c ∈ (joinWith "," (profilesIn (readEnv file))).toList, c ≠ '\n' := by
      apply forall_mem_joinWith
      · intro c hc
        obtain rfl : c = ',' := by simpa using hc
        simp
      · rintro profile hprofile c hc rfl
        exact (plain_of_mem_profilesIn hprofile).2 hc
    exact hplain _ hbreak rfl
  have hchars : ∀ file : Option String, (material (readEnv file)).toList =
      (joinWith "," (profilesIn (readEnv file))).toList ++
        '\n' :: (variantText (readEnv file)).toList := by
    intro file
    rw [material, String.toList_append, String.toList_append]
    simp
  have hlists := congrArg String.toList h
  rw [hchars, hchars] at hlists
  have hfirst := congrArg (List.takeWhile (· ≠ '\n')) hlists
  rw [takeWhile_append_separator (hline file), takeWhile_append_separator (hline other)] at hfirst
  constructor
  · have hjoined : joinWith (String.singleton ',') (profilesIn (readEnv file)) =
        joinWith (String.singleton ',') (profilesIn (readEnv other)) := String.toList_inj.1 hfirst
    exact joinWith_inj (fun _ h => (plain_of_mem_profilesIn h).1)
      (fun _ h => (plain_of_mem_profilesIn h).1) hjoined
  · rw [hfirst] at hlists
    exact String.toList_inj.1 (List.cons.inj (List.append_cancel_left hlists)).2

/-- The revision stands for one state of each module. -/
theorem standing_of_revision {digest : String → String} (telling : Function.Injective digest)
    {file other : Option String}
    (h : revision digest (readEnv file) = revision digest (readEnv other)) (module_ : Module) :
    standing module_ (readEnv file) = standing module_ (readEnv other) := by
  obtain ⟨hprofiles, hvariant⟩ := material_inj (telling h)
  rw [standing, standing, storedVariant, storedVariant, hprofiles, hvariant]

/-! ### What holds in every state -/

variable {digest}

/-- What is pending stands as it was asked; nothing changed its module since; and the same of what
runs, but for its own deeds. -/
structure Sound (digest : String → String) (s : State) : Prop where
  shown : ∀ job ∈ s.pending, StoodFor digest job (standing job.module_ s.env)
  begun : ∀ running ∈ s.running, StoodFor digest running.job running.startedIn
  lawful : Lawful digest s.effects
  early : ∀ job ∈ s.pending, ∀ entry ∈ s.effects.zipIdx, entry.1.Changes →
    entry.1.job.module_ = job.module_ → entry.2 < job.asked
  others : ∀ running ∈ s.running, ∀ entry ∈ s.effects.zipIdx, entry.1.Changes →
    entry.1.job.module_ = running.job.module_ → entry.1.job.id ≠ running.job.id →
      entry.2 < running.job.asked

/-- Less is pending. -/
theorem Sound.fewer {s s' : State} (h : Sound digest s) (hfile : s'.file = s.file)
    (heffects : s'.effects = s.effects) (hrunning : s'.running = s.running)
    (hpending : ∀ job ∈ s'.pending, job ∈ s.pending) : Sound digest s' where
  shown job hjob := by
    rw [State.env, hfile]
    exact h.shown job (hpending job hjob)
  begun := by
    rw [hrunning]
    exact h.begun
  lawful := heffects ▸ h.lawful
  early job hjob := by
    rw [heffects]
    exact h.early job (hpending job hjob)
  others := by
    rw [hrunning, heffects]
    exact h.others

/-- Somebody writes a configuration that leaves the pending modules alone. -/
theorem Sound.host {s : State} {file : Option String} (h : Sound digest s) (hspares : s.Spares file) :
    Sound digest { s with file := file } where
  shown job hjob := by
    have hsame := hspares job hjob
    have hstood := h.shown job hjob
    rw [← hsame] at hstood
    exact hstood
  begun := h.begun
  lawful := h.lawful
  early := h.early
  others := h.others

/-- A request that has just been compared. -/
theorem Sound.ask (telling : Function.Injective digest) {s : State} (h : Sound digest s)
    {module_ : Module} {order : Order} {rev : String}
    (haccepts : s.accepts digest module_ order rev = true) :
    Sound digest { s with
      asking := s.asking ++ [⟨s.nextId, module_, order, rev, s.effects.length⟩]
      nextId := s.nextId + 1 } := by
  have hrev : rev = revision digest s.env := by
    simp only [State.accepts, Bool.and_eq_true, decide_eq_true_eq] at haccepts
    exact haccepts.1.1
  have hpending : ∀ job ∈ (s.asking ++ [⟨s.nextId, module_, order, rev, s.effects.length⟩]) ++
      s.waiting, job ∈ s.pending ∨ job = ⟨s.nextId, module_, order, rev, s.effects.length⟩ := by
    intro job hjob
    rw [List.append_assoc, List.mem_append, List.singleton_append, List.mem_cons] at hjob
    rw [State.pending, List.mem_append]
    tauto
  constructor
  case shown =>
    intro job hjob
    rcases hpending job hjob with hold | rfl
    · exact h.shown job hold
    · intro file hfile
      exact standing_of_revision telling (hfile.trans hrev) module_
  case begun => exact h.begun
  case lawful => exact h.lawful
  case early =>
    intro job hjob entry hentry
    rcases hpending job hjob with hold | rfl
    · exact h.early job hold entry hentry
    · intro _ _
      have hlt := List.snd_lt_of_mem_zipIdx hentry
      simpa using hlt
  case others => exact h.others

/-- The worker takes the first job. -/
theorem Sound.start {s : State} {job : ModuleJob} {rest : List ModuleJob} (h : Sound digest s)
    (hwaiting : s.waiting = job :: rest) :
    Sound digest { s with
      waiting := rest
      running := some ⟨job, standing job.module_ s.env, job.actions⟩ } := by
  have hfirst : job ∈ s.pending := by simp [State.pending, hwaiting]
  have hpending : ∀ other ∈ s.asking ++ rest, other ∈ s.pending := by
    intro other hother
    rw [State.pending, hwaiting]
    rw [List.mem_append] at hother ⊢
    exact hother.imp id (List.mem_cons_of_mem job)
  constructor
  case shown => exact fun other hother => h.shown other (hpending other hother)
  case begun =>
    intro running hrunning
    obtain rfl := Option.some.inj hrunning
    exact h.shown job hfirst
  case lawful => exact h.lawful
  case early => exact fun other hother => h.early other (hpending other hother)
  case others =>
    intro running hrunning entry hentry hchanges hmodule _
    obtain rfl := Option.some.inj hrunning
    exact h.early job hfirst entry hentry hchanges hmodule

/-- A step of a job does one thing to its module at most. -/
theorem deeds_eq (running : Running) (before after : Env) (action : Action) :
    running.deeds before after action = [] ∨
      ∃ deed, running.deeds before after action = [deed] := by
  cases action with
  | stop volumes =>
      simp only [Running.deeds]
      split
      · exact .inr ⟨_, rfl⟩
      · exact .inl rfl
  | setup | purge => exact .inr ⟨_, rfl⟩
  | start | syncRealm | recreate | health => exact .inl rfl

/-- Only `setup` changes the module, from what it is to what the file says then. -/
theorem changes_of_mem_deeds {running : Running} {before after : Env} {action : Action} {deed : Deed}
    (h : deed ∈ running.deeds before after action)
    (hchanges : (⟨running.job, running.startedIn, deed⟩ : Effect).Changes) :
    standing running.job.module_ after ≠ standing running.job.module_ before := by
  obtain ⟨was, is, rfl, hne⟩ := hchanges
  cases action with
  | setup =>
      rw [Running.deeds, List.mem_singleton] at h
      obtain ⟨rfl, rfl⟩ := Deed.configured.inj h
      exact Ne.symm hne
  | stop =>
      simp only [Running.deeds] at h
      split at h
      · simp at h
      · cases h
  | purge => simp [Running.deeds] at h
  | start | syncRealm | recreate | health => cases h

/-- The running job takes a step. -/
theorem Sound.work {s : State} {running : Running} {stored : Option String} {fails : Bool}
    (h : Sound digest s) (hrunning : s.running = some running)
    (hspares : ∀ action left, running.left = action :: left →
      s.Spares (action.written stored s.file)) :
    Sound digest (s.work running stored fails) := by
  cases hleft : running.left with
  | nil =>
      rw [State.work, hleft]
      exact ⟨h.shown, fun _ hnone => (nomatch hnone), h.lawful, h.early, fun _ hnone => (nomatch hnone)⟩
  | cons action left =>
      rw [State.work, hleft]
      dsimp only
      generalize hfile : action.written stored s.file = file
      have hspared : s.Spares file := hfile ▸ hspares action left hleft
      have hbegun := h.begun running hrunning
      have hnow : ∀ next ∈ (if fails then none else some { running with left := left } :
          Option Running), next.job = running.job ∧ next.startedIn = running.startedIn := by
        intro next hnext
        split at hnext
        · cases hnext
        · obtain rfl := Option.some.inj hnext
          exact ⟨rfl, rfl⟩
      -- what is new at the end of the record, and that it spares what is pending
      have hnew : ∀ entry ∈ ((running.deeds s.env (readEnv file) action).map fun deed =>
          (⟨running.job, running.startedIn, deed⟩ : Effect)).zipIdx s.effects.length,
          entry.1.job = running.job ∧ entry.1.startedIn = running.startedIn ∧
            ∀ job ∈ s.pending, entry.1.Changes → entry.1.job.module_ ≠ job.module_ := by
        intro entry hentry
        obtain ⟨deed, hdeed, heq⟩ := List.mem_map.1 (List.fst_mem_of_mem_zipIdx hentry)
        rw [← heq]
        refine ⟨rfl, rfl, fun job hjob hchanges hmodule => ?_⟩
        have hmodule : running.job.module_ = job.module_ := hmodule
        have hne := changes_of_mem_deeds hdeed hchanges
        rw [hmodule] at hne
        exact hne (hspared job hjob)
      have hzip : ∀ entry ∈ (s.effects ++ (running.deeds s.env (readEnv file) action).map fun deed =>
          (⟨running.job, running.startedIn, deed⟩ : Effect)).zipIdx,
          entry ∈ s.effects.zipIdx ∨ (entry.1.job = running.job ∧
            ∀ job ∈ s.pending, entry.1.Changes → entry.1.job.module_ ≠ job.module_) := by
        intro entry hentry
        rw [List.zipIdx_append, List.mem_append, Nat.zero_add] at hentry
        exact hentry.imp id fun hmem => ⟨(hnew entry hmem).1, (hnew entry hmem).2.2⟩
      constructor
      case shown => exact (h.host hspared).shown
      case begun =>
        intro next hnext
        obtain ⟨hjob, hstarted⟩ := hnow next hnext
        rw [hjob, hstarted]
        exact hbegun
      case lawful =>
        constructor
        · intro effect heffect
          rcases List.mem_append.1 heffect with hold | hdone
          · exact h.lawful.asShown effect hold
          · obtain ⟨deed, -, rfl⟩ := List.mem_map.1 hdone
            exact hbegun
        · rw [List.zipIdx_append, List.pairwise_append, Nat.zero_add]
          refine ⟨h.lawful.afterwards, ?_, ?_⟩
          · rcases deeds_eq running s.env (readEnv file) action with hnone | ⟨deed, hone⟩
            · simp [hnone]
            · simp [hone]
          · intro earlier hearlier later hlater hchanges hmodule hid
            have hjob := (hnew later hlater).1
            rw [hjob] at hmodule hid ⊢
            exact h.others running hrunning earlier hearlier hchanges hmodule.symm hid.symm
      case early =>
        intro job hjob entry hentry hchanges hmodule
        rcases hzip entry hentry with hold | ⟨-, hspare⟩
        · exact h.early job hjob entry hold hchanges hmodule
        · exact absurd hmodule (hspare job hjob hchanges)
      case others =>
        intro next hnext entry hentry hchanges hmodule hid
        obtain ⟨hjob, -⟩ := hnow next hnext
        rw [hjob] at hmodule hid ⊢
        rcases hzip entry hentry with hold | ⟨hown, -⟩
        · exact h.others running hrunning entry hold hchanges hmodule hid
        · exact absurd (congrArg ModuleJob.id hown) hid

theorem sound_step (telling : Function.Injective digest) (s : State) (e : Event) (s' : State)
    (h : Sound digest s) (ok : Foreseen s e) (taken : step digest s e = some s') :
    Sound digest s' := by
  cases e with
  | ask module_ order rev =>
      simp only [step, Option.some.injEq] at taken
      subst taken
      split
      next haccepts => exact h.ask telling haccepts
      next => exact h
  | refuse index =>
      obtain rfl := Option.some.inj taken
      refine h.fewer rfl rfl rfl ?_
      intro job hjob
      rw [State.pending, List.mem_append] at hjob ⊢
      exact hjob.imp List.mem_of_mem_eraseIdx id
  | enqueue index =>
      obtain ⟨job, hjob, rfl⟩ := Option.map_eq_some_iff.1 taken
      refine h.fewer rfl rfl rfl ?_
      intro other hother
      rw [State.pending] at hother ⊢
      simp only [List.mem_append, List.mem_singleton] at hother ⊢
      rcases hother with hasking | hwaiting | rfl
      · exact .inl (List.mem_of_mem_eraseIdx hasking)
      · exact .inr hwaiting
      · exact .inl (List.mem_of_getElem? hjob)
  | start =>
      simp only [step] at taken
      split at taken
      next job rest _ hwaiting =>
        obtain rfl := Option.some.inj taken
        exact h.start hwaiting
      next => cases taken
  | work stored fails =>
      obtain ⟨running, hrunning, rfl⟩ := Option.map_eq_some_iff.1 taken
      exact h.work hrunning fun action left hleft => ok running action left hrunning hleft
  | host file =>
      obtain rfl := Option.some.inj taken
      exact h.host ok

/-- Nothing is underway. -/
def atRest (file : Option String) : State where
  file := file

theorem sound_atRest (file : Option String) : Sound digest (atRest file) where
  shown := List.forall_mem_nil _
  begun _ hnone := (nomatch hnone)
  lawful := ⟨List.forall_mem_nil _, List.Pairwise.nil⟩
  early := List.forall_mem_nil _
  others _ hnone := (nomatch hnone)

/-- In every run in which no module is changed while another request for it is underway, a job does
to its module only what fits the state its request's revision stood for, and of several requests
compared in one state of a module at most one changes it. -/
theorem module_jobs_respect_revision (digest : String → String) (telling : Function.Injective digest)
    (file : Option String) (s : State)
    (reached : Reaches (step digest) Foreseen (atRest file) s) : Lawful digest s.effects :=
  (reached.invariant (sound_atRest file) (sound_step telling)).lawful

/-! ### Two tabs -/

/-- The configuration with LocalAI on. -/
def localaiOn (variant : String) : Option String :=
  some ("COMPOSE_PROFILES=localai\nLOCALAI_IMAGE_VARIANT=" ++ variant)

/-- A request made from a page that shows nothing switched on. -/
def switchOn (variant : String) : Event :=
  .ask .localai (.enable (some variant)) "\n"

def jobOf (id : Nat) (variant : String) : ModuleJob :=
  ⟨id, .localai, .enable (some variant), "\n", 0⟩

def cpuOff : Standing := ⟨false, some "cpu"⟩
def cpuOn : Standing := ⟨true, some "cpu"⟩
def intelOn : Standing := ⟨true, some "intel"⟩

/-- LocalAI is switched on by one tab. -/
def switchedOn : State where
  file := localaiOn "cpu"
  running := some ⟨jobOf 0 "cpu", cpuOff, [.start, .health]⟩
  effects := [⟨jobOf 0 "cpu", cpuOff, .configured cpuOff cpuOn⟩]
  nextId := 1

theorem spares_of_idle {s : State} {file : Option String} (h : s.pending = []) : s.Spares file := by
  intro job hjob
  rw [h] at hjob
  cases hjob

theorem module_jobs_respect_revision_switchedOn : Lawful id switchedOn.effects := by
  have permitted : Permits (step id) Foreseen (atRest none)
      [switchOn "cpu", .enqueue 0, .start, .work (localaiOn "cpu") false] :=
    .cons trivial rfl (.cons trivial rfl (.cons trivial rfl
      (.cons (fun _ _ _ _ _ => spares_of_idle rfl) rfl trivial)))
  exact module_jobs_respect_revision id Function.injective_id none switchedOn
    (reaches_of_replay permitted (by decide +kernel))

/-- LocalAI has been switched on with another variant by a job whose request was made when it was
off. -/
def switchedTwice : State where
  file := localaiOn "intel"
  running := some ⟨jobOf 1 "intel", cpuOn, [.start, .health]⟩
  effects := [⟨jobOf 0 "cpu", cpuOff, .configured cpuOff cpuOn⟩,
    ⟨jobOf 1 "intel", cpuOn, .configured cpuOn intelOn⟩]
  nextId := 2

/-- Two requests pass the comparison from the same page, and the job of the second replaces what the
first has made. -/
theorem stale_request_replaces_variant :
    ¬∀ (digest : String → String), Function.Injective digest → ∀ (file : Option String) (s : State),
      Reaches (step digest) (fun _ _ => True) (atRest file) s → Lawful digest s.effects := by
  intro h
  have reached : Reaches (step id) (fun _ _ => True) (atRest none) switchedTwice :=
    reaches_of_replay (permits_all _ [switchOn "cpu", .enqueue 0, switchOn "intel", .enqueue 0,
      .start, .work (localaiOn "cpu") false, .work none true, .start,
      .work (localaiOn "intel") false]) (by decide +kernel)
  have hlawful := h id Function.injective_id none switchedTwice reached
  have hshown : StoodFor id (jobOf 1 "intel") cpuOn :=
    hlawful.asShown ⟨jobOf 1 "intel", cpuOn, .configured cpuOn intelOn⟩ (by simp [switchedTwice])
  have hoff : standing .localai (readEnv none) = cpuOn := hshown none (by decide +kernel)
  revert hoff
  decide +kernel

end Papaia.Config.Modules
