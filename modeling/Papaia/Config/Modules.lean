/-
Module: Papaia.Config.Modules
Purpose: The switch of an optional core module: the request that compares the revision of the page,
  and the job that changes the configuration later, step by step, with the host and other requests
  in between.
Trusted boundary: what papaia-ctl answers and stores, the hash of the revision
Main exports: Module, Order, revision, Standing, ModuleJob, Action, Event, State, step
-/
import Papaia.Addons.EnvFile
import Mathlib.Data.List.Dedup
import Mathlib.Data.List.Sort
import Mathlib.Data.String.Basic

namespace Papaia.Config.Modules

open Text Addons

/-! ### The modules and the configuration -/

/-- The modules of `SWITCHABLE`. -/
inductive Module where
  | localai
  | webSearch
  | rag
  | mail
deriving DecidableEq, Repr

def Module.profile : Module → String
  | localai => "localai"
  | webSearch => "librechat-websearch"
  | rag => "rag"
  | mail => "smtp"

/-- The profiles whose containers read the module's rendered configuration. -/
def Module.recreate : Module → List String
  | rag => ["librechat"]
  | _ => []

/-- `KEY_VARIANT`. -/
def keyVariant : String := "LOCALAI_IMAGE_VARIANT"

/-- `LOCALAI_VARIANTS`. -/
def localaiVariants : List String :=
  ["cpu", "nvidia-cuda-12", "nvidia-cuda-13", "intel", "hipblas"]

/-- `profiles_in`, sorted: the set of the profiles that are switched on. -/
def profilesIn (env : Env) : List String :=
  ((((((env.get? "COMPOSE_PROFILES").getD "").toList.splitOn ',').map fun part =>
    strip (String.ofList part)).filter (· != "")).dedup).insertionSort (· ≤ ·)

/-- `env.get(KEY_VARIANT, "")`. -/
def variantText (env : Env) : String :=
  (env.get? keyVariant).getD ""

/-- `stored_variant`. -/
def storedVariant (env : Env) : String :=
  if strip (variantText env) = "" then "cpu" else strip (variantText env)

/-- What `revision` hashes. -/
def material (env : Env) : String :=
  joinWith "," (profilesIn env) ++ "\n" ++ variantText env

/-- `revision`; `digest` is the beginning of the SHA-256 in hexadecimal digits. -/
def revision (digest : String → String) (env : Env) : String :=
  digest (material env)

/-- The state of a module: on or off, and the variant for LocalAI. -/
structure Standing where
  isOn : Bool
  variant : Option String
deriving DecidableEq, Repr

def standing (module_ : Module) (env : Env) : Standing where
  isOn := (profilesIn env).contains module_.profile
  variant := if module_ = .localai then some (storedVariant env) else none

/-! ### Requests and jobs -/

/-- What a switch-off may delete. -/
inductive Scope where
  | keep
  | data
  | all
deriving DecidableEq, Repr

inductive Order where
  | enable (variant : Option String)
  | disable (scope : Scope)
deriving DecidableEq, Repr

def Order.isEnable : Order → Bool
  | enable _ => true
  | disable _ => false

/-- `validate_enable`: LocalAI takes one of its variants, and no other module takes any. -/
def Order.isValid (module_ : Module) : Order → Bool
  | enable variant =>
      match module_, variant with
      | .localai, some variant => localaiVariants.contains variant
      | .localai, none => false
      | _, variant => variant.isNone
  | disable _ => true

/-- A request that passed the comparison, and the job it becomes.  `asked` is how long the record of
effects was then. -/
structure ModuleJob where
  id : Nat
  module_ : Module
  order : Order
  revision : String
  asked : Nat
deriving DecidableEq, Repr

/-- What a job does between two awaits. -/
inductive Action where
  /-- `stop --clean-up`, with `--volumes` where the data is to go, if the profile is active. -/
  | stop (volumes : Bool)
  | setup (enable : Bool) (variant : Option String)
  | start
  | syncRealm
  | recreate (profile : String)
  | health
  | purge (config : Bool)
deriving DecidableEq, Repr

/-- `enable_callback` and `disable_callback`. -/
def ModuleJob.actions (job : ModuleJob) : List Action :=
  match job.order with
  | .enable variant =>
      [.setup true variant, .start] ++ job.module_.recreate.map .recreate ++ [.health]
  | .disable scope =>
      [.stop (scope != .keep), .setup false none] ++
        (if job.module_ = .mail then [.syncRealm] else []) ++
        job.module_.recreate.map .recreate ++
        (if scope = .keep then [] else [.purge (scope = .all)])

/-! ### The system -/

/-- What a job has done to its module. -/
inductive Deed where
  | stopped (volumes : Bool)
  | configured (before after : Standing)
  | purged (config : Bool)
deriving DecidableEq, Repr

/-- A deed of a job, with the state of the module when the job started. -/
structure Effect where
  job : ModuleJob
  startedIn : Standing
  deed : Deed
deriving DecidableEq, Repr

structure Running where
  job : ModuleJob
  startedIn : Standing
  left : List Action
deriving DecidableEq, Repr

/-- The `.env` of the configuration, the requests between their comparison and the queue, the
queue, its worker, and what the jobs have done. -/
structure State where
  file : Option String
  asking : List ModuleJob := []
  waiting : List ModuleJob := []
  running : Option Running := none
  effects : List Effect := []
  nextId : Nat := 0
deriving DecidableEq, Repr

def State.env (s : State) : Env :=
  readEnv s.file

/-- A request that is compared, one that a later check refuses, one that is queued; the worker that
takes the next job, or takes the next step of the one it has, with what the file holds then and
whether the step failed; and a change of the file by anybody else. -/
inductive Event where
  | ask (module_ : Module) (order : Order) (revision : String)
  | refuse (index : Nat)
  | enqueue (index : Nat)
  | start
  | work (stored : Option String) (fails : Bool)
  | host (file : Option String)
deriving DecidableEq, Repr

/-- What the job does to its module in a step.  A step that fails may have done something. -/
def Running.deeds (running : Running) (before after : Env) : Action → List Deed
  | .stop volumes =>
      if (profilesIn before).contains running.job.module_.profile then [.stopped volumes] else []
  | .setup _ _ =>
      [.configured (standing running.job.module_ before) (standing running.job.module_ after)]
  | .purge config => [.purged config]
  | _ => []

/-- Only `setup` writes the file. -/
def Action.written (stored file : Option String) : Action → Option String
  | .setup _ _ => stored
  | _ => file

/-- One step of the running job. -/
def State.work (s : State) (running : Running) (stored : Option String) (fails : Bool) : State :=
  match running.left with
  | [] => { s with running := none }
  | action :: left =>
      let file := action.written stored s.file
      { s with
        file := file
        running := if fails then none else some { running with left := left }
        effects := s.effects ++ (running.deeds s.env (readEnv file) action).map fun deed =>
          ⟨running.job, running.startedIn, deed⟩ }

/-- `enable_module` and `disable_module` up to their first await: the comparison of the revision, the
state the order needs, and the checks of its values. -/
def State.accepts (digest : String → String) (s : State) (module_ : Module) (order : Order)
    (rev : String) : Bool :=
  rev = revision digest s.env &&
    (profilesIn s.env).contains module_.profile != order.isEnable && order.isValid module_

/-- One step of the system. -/
def step (digest : String → String) (s : State) : Event → Option State
  | .ask module_ order rev =>
      some (if s.accepts digest module_ order rev then
        { s with
          asking := s.asking ++ [⟨s.nextId, module_, order, rev, s.effects.length⟩]
          nextId := s.nextId + 1 }
      else s)
  | .refuse index => some { s with asking := s.asking.eraseIdx index }
  | .enqueue index =>
      s.asking[index]?.map fun job =>
        { s with asking := s.asking.eraseIdx index, waiting := s.waiting ++ [job] }
  | .start =>
      match s.running, s.waiting with
      | none, job :: rest =>
          some { s with
            waiting := rest
            running := some ⟨job, standing job.module_ s.env, job.actions⟩ }
      | _, _ => none
  | .work stored fails => s.running.map fun running => s.work running stored fails
  | .host file => some { s with file := file }

end Papaia.Config.Modules
