/-
Module: Papaia.Proofs.Detached
Purpose: A runner is the container it was asked for and says so: Docker reads its arguments back, it
  inherits what the manager has, only its own kind finds it, and it runs papaia-ctl as it was told.
Trusted boundary: none
Main exports: runOptions, configured, createdFrom_args, AsAsked, runner_is_what_was_asked,
  finding_a_runner_refines
-/
import Papaia.Data.Spelling
import Papaia.Lib.Sorted
import Papaia.Lib.Traverse
import Papaia.Stack.Detached

namespace Papaia.Stack.Detached

open Text CommandLine

/-! ### The arguments as options -/

/-- The options of a runner. -/
def runOptions (spec : ContainerSpec) (name : String) (kind : RunnerKind) (target : String)
    (extraLabels : List String) : List (Opt String) :=
  [("--detach", none), ("--name", some name),
    ("--label", some (runnerLabelKey ++ "=" ++ kind.labelValue)),
    ("--label", some (targetLabelKey ++ "=" ++ target)), ("--restart", some "no")] ++
  extraLabels.map (fun value => ("--label", some value)) ++
  spec.binds.map (fun value => ("--volume", some value)) ++
  (if spec.user = "" then [] else [("--user", some spec.user)]) ++
  spec.groupAdd.map (fun value => ("--group-add", some value)) ++
  spec.extraHosts.map fun value => ("--add-host", some value)

theorem flatMap_each (option : String) (values : List String) :
    ((values.map fun value => ((option, some value) : Opt String)).flatMap fun option =>
      option.1 :: option.2.toList) = each option values := by
  simp [each, List.flatMap_map]

theorem baseRunArgs_eq_render (spec : ContainerSpec) (name : String) (kind : RunnerKind)
    (target : String) (extraLabels command : List String) :
    baseRunArgs spec name kind target extraLabels ++ command =
      "run" :: render (runOptions spec name kind target extraLabels) (spec.image :: command) := by
  simp only [render, runOptions, List.flatMap_append, flatMap_each, baseRunArgs]
  by_cases huser : spec.user = "" <;> simp [huser]

theorem fits_of_mem {word : String} (h : word ∈ ["--name", "--label", "--restart", "--volume",
    "--user", "--group-add", "--add-host"]) (value : String) :
    Fits dockerOptions (word, some value) := by
  have hknown : ∀ word ∈ ["--name", "--label", "--restart", "--volume", "--user", "--group-add",
      "--add-host"], dockerOptions.isOption word = true ∧ dockerOptions.arity word = some true := by
    decide
  exact hknown word h

theorem fits_map {word : String} (values : List String) (h : word ∈ ["--name", "--label",
    "--restart", "--volume", "--user", "--group-add", "--add-host"]) :
    ∀ option ∈ values.map fun value => ((word, some value) : Opt String),
      Fits dockerOptions option := by
  rw [List.forall_mem_map]
  intro value _
  exact fits_of_mem h value

theorem fits_runOptions (spec : ContainerSpec) (name : String) (kind : RunnerKind) (target : String)
    (extraLabels : List String) :
    ∀ option ∈ runOptions spec name kind target extraLabels, Fits dockerOptions option := by
  intro option hoption
  simp only [runOptions, List.mem_append, or_assoc] at hoption
  rcases hoption with h | h | h | h | h | h
  · simp only [List.mem_cons, List.not_mem_nil, or_false] at h
    rcases h with rfl | rfl | rfl | rfl | rfl
    · exact ⟨by decide, by decide⟩
    · exact fits_of_mem (by simp) name
    · exact fits_of_mem (by simp) _
    · exact fits_of_mem (by simp) _
    · exact fits_of_mem (by simp) "no"
  · exact fits_map extraLabels (by simp) option h
  · exact fits_map spec.binds (by simp) option h
  · by_cases huser : spec.user = ""
    · simp [huser] at h
    · simp only [huser, if_false, List.mem_singleton] at h
      exact h ▸ fits_of_mem (by simp) spec.user
  · exact fits_map spec.groupAdd (by simp) option h
  · exact fits_map spec.extraHosts (by simp) option h

/-! ### The container that is created -/

theorem cutLabel_append {key : String} (value : String) (h : '=' ∉ key.toList) :
    cutLabel (key ++ "=" ++ value) = (key, value) := by
  have hall : ∀ c ∈ key.toList, (c != '=') = true := by
    intro c hc
    simpa using fun heq : c = '=' => h (heq ▸ hc)
  simp [cutLabel, List.takeWhile_append_of_pos hall, List.dropWhile_append_of_pos hall]

/-- The labels of a runner. -/
def runnerLabels (kind : RunnerKind) (target : String) (prunes : Bool) : List (String × String) :=
  [(runnerLabelKey, kind.labelValue), (targetLabelKey, target)] ++
    if prunes then [(pruneLabelKey, "true")] else []

/-- The container of a runner. -/
def configured (spec : ContainerSpec) (kind : RunnerKind) (target : String) (prunes : Bool)
    (command : List String) : Config where
  name := runnerName target kind
  labels := runnerLabels kind target prunes
  restart := "no"
  binds := spec.binds
  user := spec.user
  groupAdd := spec.groupAdd
  extraHosts := spec.extraHosts
  image := spec.image
  command := command

/-- What the options of a runner say about one option. -/
theorem valuesOf_runOptions (spec : ContainerSpec) (name : String) (kind : RunnerKind)
    (target : String) (extraLabels : List String) (word : String) :
    valuesOf word (runOptions spec name kind target extraLabels) =
      (if "--name" = word then [name] else []) ++
      (if "--label" = word then [runnerLabelKey ++ "=" ++ kind.labelValue,
        targetLabelKey ++ "=" ++ target] else []) ++
      (if "--restart" = word then ["no"] else []) ++
      (if "--label" = word then extraLabels else []) ++
      (if "--volume" = word then spec.binds else []) ++
      (if "--user" = word ∧ spec.user ≠ "" then [spec.user] else []) ++
      (if "--group-add" = word then spec.groupAdd else []) ++
      (if "--add-host" = word then spec.extraHosts else []) := by
  have hmap : ∀ (option : String) (values : List String),
      valuesOf word (values.map fun value => ((option, some value) : Opt String)) =
        if option = word then values else [] := by
    intro option values
    by_cases h : option = word
    · rw [if_pos h, h, valuesOf_map_self]
    · rw [if_neg h, valuesOf_map_other h]
  have huser : valuesOf word (if spec.user = "" then [] else [("--user", some spec.user)]) =
      if "--user" = word ∧ spec.user ≠ "" then [spec.user] else [] := by
    by_cases hempty : spec.user = ""
    · simp [hempty, valuesOf]
    · simpa [hempty] using hmap "--user" [spec.user]
  have hhead : valuesOf word [("--detach", none), ("--name", some name),
      ("--label", some (runnerLabelKey ++ "=" ++ kind.labelValue)),
      ("--label", some (targetLabelKey ++ "=" ++ target)), ("--restart", some "no")] =
      (if "--name" = word then [name] else []) ++
      (if "--label" = word then [runnerLabelKey ++ "=" ++ kind.labelValue,
        targetLabelKey ++ "=" ++ target] else []) ++
      (if "--restart" = word then ["no"] else []) := by
    by_cases hname : "--name" = word
    · simp [valuesOf, ← hname]
    · by_cases hlabel : "--label" = word
      · simp [valuesOf, ← hlabel]
      · by_cases hrestart : "--restart" = word <;> simp [valuesOf, hname, hlabel, hrestart]
  simp only [runOptions, valuesOf_append, hmap, huser, hhead, List.append_assoc]

theorem configOf_runOptions (spec : ContainerSpec) (kind : RunnerKind) (target : String)
    (prunes : Bool) (command : List String) :
    configOf (runOptions spec (runnerName target kind) kind target
        (if prunes then [pruneLabelKey ++ "=true"] else [])) (spec.image :: command) =
      some (configured spec kind target prunes command) := by
  have hrunner : cutLabel (runnerLabelKey ++ "=" ++ kind.labelValue) = _ :=
    cutLabel_append kind.labelValue (by decide)
  have htarget : cutLabel (targetLabelKey ++ "=" ++ target) = _ := cutLabel_append target (by decide)
  have hprune : cutLabel (pruneLabelKey ++ "=true") = (pruneLabelKey, "true") := by decide
  simp only [configOf, lastOf, valuesOf_runOptions, configured, runnerLabels]
  by_cases huser : spec.user = "" <;> cases prunes <;>
    simp [huser, hrunner, htarget, hprune]

/-! ### Reading the container back -/

theorem labelMapping_configured (spec : ContainerSpec) (kind : RunnerKind) (target : String)
    (prunes : Bool) (command : List String) :
    (configured spec kind target prunes command).labelMapping =
      [(.str runnerLabelKey, .str kind.labelValue), (.str targetLabelKey, .str target)] ++
        if prunes then [(.str pruneLabelKey, .str "true")] else [] := by
  have htarget : runnerLabelKey ≠ targetLabelKey := by decide
  have hprune : runnerLabelKey ≠ pruneLabelKey := by decide
  have hother : targetLabelKey ≠ pruneLabelKey := by decide
  cases prunes <;>
    simp [Config.labelMapping, configured, runnerLabels, Mapping.put, htarget, hprune, hother]

theorem getD_cons (key : String) (value : Val) (rest : Mapping) (other : String) :
    Mapping.getD ((.str key, value) :: rest) other =
      if key = other then value else Mapping.getD rest other := by
  by_cases h : key = other
  · simp [Mapping.getD, Mapping.get?, h]
  · have hne : (Scalar.str other == Scalar.str key) = false := by simpa using Ne.symm h
    simp [Mapping.getD, Mapping.get?, List.lookup_cons, hne, h]

theorem getD_nil (key : String) : Mapping.getD [] key = .null := rfl

/-- The labels are told apart. -/
theorem labelValue_inj {kind other : RunnerKind} (h : kind.labelValue = other.labelValue) :
    kind = other := by
  cases kind <;> cases other <;> first | rfl | exact absurd h (by decide)

theorem hasLabel_configured (spec : ContainerSpec) (kind other : RunnerKind) (target : String)
    (prunes : Bool) (command : List String) :
    (configured spec kind target prunes command).hasLabel other = true ↔ other = kind := by
  rw [Config.hasLabel, labelMapping_configured, List.cons_append, getD_cons, if_pos rfl,
    Val.str?_str, beq_iff_eq, Option.some.injEq]
  constructor
  · intro h
    exact (labelValue_inj h).symm
  · rintro rfl
    rfl

/-- What a container says of its configuration is the specification it came from. -/
theorem specFromInspect_configured (spec : ContainerSpec) (kind : RunnerKind) (target : String)
    (prunes : Bool) (command : List String) (life : Life) (himage : spec.image ≠ "") :
    specFromInspect (Container.inspect ⟨configured spec kind target prunes command, life⟩) =
      .ok spec := by
  have htexts : ∀ values : List String, (values.map Val.str).map (fun item => item.str?.getD "") =
      values := by
    intro values
    rw [List.map_map]
    exact List.map_id' values
  simp [specFromInspect, Container.inspect, configured, part, textAt, textsAt, getD_cons, himage,
    htexts, -List.map_map]

theorem withoutSlash_runnerName (target : String) (kind : RunnerKind) :
    withoutSlash ("/" ++ runnerName target kind) = runnerName target kind := by
  have hfirst : ∃ rest, (runnerName target kind).toList = 'p' :: rest := by
    cases kind <;> simp [runnerName, RunnerKind.namePrefix]
  obtain ⟨rest, hrest⟩ := hfirst
  apply String.toList_injective
  simp [withoutSlash, hrest]

/-- A runner says what it was started for, and how it has gone. -/
theorem statusFromInspect_configured (spec : ContainerSpec) (kind : RunnerKind) (target : String)
    (prunes : Bool) (command : List String) (life : Life) (htarget : target ≠ "") :
    statusFromInspect (Container.inspect ⟨configured spec kind target prunes command, life⟩) kind =
      .ok {
        name := runnerName target kind
        target := target
        status := life.status.text
        exitCode := if life.status = .running then none else some life.exitCode
        startedAt := life.startedAt
        finishedAt := life.finishedAt
        pruneImages := prunes } := by
  have hstatus : firstText [life.status.text, "unknown"] = life.status.text := by
    cases life.status <;> decide
  have hrunning : life.status.text = "running" ↔ life.status = .running := by
    cases life.status <;> decide
  have hlabels : Mapping.getD (configured spec kind target prunes command).labelMapping
      targetLabelKey = .str target ∧
      ((Mapping.getD (configured spec kind target prunes command).labelMapping
        pruneLabelKey).str? == some "true") = prunes := by
    rw [labelMapping_configured]
    cases prunes <;> simp [getD_cons, getD_nil, runnerLabelKey, targetLabelKey, pruneLabelKey, Val.str?]
  have hfirst : ∀ others, firstText (target :: others) = target := by
    intro others
    simp [firstText, htarget]
  have hname : (configured spec kind target prunes command).name = runnerName target kind := rfl
  simp [statusFromInspect, Container.inspect, part, textAt, getD_cons, hname,
    withoutSlash_runnerName, hlabels, hfirst, hstatus, hrunning, htarget, int?]

/-! ### What a runner runs -/

/-- The stop and the start of a stack action. -/
def stackCalls (dirs : Directories) (action : String) (cleanUp : Bool) : List (List String) :=
  let stop := ["bash", papaiaCtlPath dirs.workspaceDir, "stop", "--config-dir=" ++ dirs.configDir] ++
    if cleanUp then ["--clean-up"] else []
  let start := ["bash", papaiaCtlPath dirs.workspaceDir, "start", "--config-dir=" ++ dirs.configDir]
  if action = "restart" then [stop, start] else if action = "stop" then [stop] else [start]

/-- The papaia-ctl calls of an operation, each made when the one before has succeeded. -/
def Operation.calls (dirs : Directories) : Operation → List (List String)
  | restore restorePoint backupDir restartClean =>
      [restoreCall dirs restorePoint backupDir restartClean]
  | stack action cleanUp => stackCalls dirs action cleanUp
  | upgrade version force noBackup _ => [upgradeCall dirs version force noBackup]

/-- What an operation does: its calls, and behind them the removal of old images where it was asked
for, which does not count for the exit code. -/
def Operation.does (run : List String → Int) (dirs : Directories) (op : Operation) :
    List (List String) × Int :=
  let done := runAll run (op.calls dirs)
  if op.prunes && done.2 == 0 then (done.1 ++ [pruneCall dirs], done.2) else done

/-- Directories without blanks. -/
structure Directories.Plain (dirs : Directories) : Prop where
  workspaceDir : ∀ c ∈ dirs.workspaceDir.toList, isSpace c = false
  configDir : ∀ c ∈ dirs.configDir.toList, isSpace c = false

variable {dirs : Directories}

theorem ne_of_length_lt {text word : String} (h : word.toList.length < text.toList.length) :
    text ≠ word := by
  rintro rfl
  exact Nat.lt_irrefl _ h

theorem length_papaiaCtlPath (workspaceDir : String) :
    24 ≤ (papaiaCtlPath workspaceDir).toList.length := by
  have hlength : ("/papaia/tools/papaia-ctl".toList).length = 24 := by decide
  rw [papaiaCtlPath, String.toList_append, List.length_append, hlength]
  exact Nat.le_add_left ..

theorem exec_call (run : List String → Int) {ctl : String} (hctl : ctl ≠ "-c") (rest : List String) :
    exec run ("bash" :: ctl :: rest) = ([("bash" :: ctl :: rest)], run ("bash" :: ctl :: rest)) := by
  cases rest with
  | nil => rfl
  | cons word more => simp [exec, hctl]

theorem runAll_singleton (run : List String → Int) (argv : List String) :
    runAll run [argv] = ([argv], run argv) := by
  simp [runAll]

/-- A word that a script can have as it is. -/
def ScriptWord (word : String) : Prop :=
  IsWord word ∧ (word == "&&") = false

theorem plain_of_all {text : String} (h : (text.toList.all fun c => !isSpace c) = true) :
    ∀ c ∈ text.toList, isSpace c = false := by
  simpa using h

instance (word : String) : Decidable (IsWord word) :=
  decidable_of_iff (word ≠ "" ∧ (word.toList.all fun c => !isSpace c) = true) (by simp [IsWord])

instance (word : String) : Decidable (ScriptWord word) :=
  inferInstanceAs (Decidable (IsWord word ∧ (word == "&&") = false))

/-- Long texts without blanks are such words. -/
theorem scriptWord_of_length {word : String} (hlength : 2 < word.toList.length)
    (hplain : ∀ c ∈ word.toList, isSpace c = false) : ScriptWord word := by
  refine ⟨⟨?_, hplain⟩, ?_⟩
  · apply ne_of_length_lt
    exact Nat.lt_of_le_of_lt (Nat.zero_le _) hlength
  · have hne : word ≠ "&&" := ne_of_length_lt hlength
    simpa using hne

theorem plain_append {start rest : String} (hstart : ∀ c ∈ start.toList, isSpace c = false)
    (hrest : ∀ c ∈ rest.toList, isSpace c = false) :
    ∀ c ∈ (start ++ rest).toList, isSpace c = false := by
  intro c hc
  rw [String.toList_append, List.mem_append] at hc
  rcases hc with hc | hc
  · exact hstart c hc
  · exact hrest c hc

theorem scriptWords (plain : dirs.Plain) (verb : String) (flags : List String)
    (hverb : verb ∈ ["stop", "start"]) (hflags : flags ∈ [[], ["--clean-up"]]) :
    ∀ word ∈ ["bash", papaiaCtlPath dirs.workspaceDir, verb, "--config-dir=" ++ dirs.configDir] ++
      flags, ScriptWord word := by
  have hverbs : ∀ verb ∈ ["stop", "start"], ScriptWord verb := by decide
  have hknown : ∀ flags ∈ [[], ["--clean-up"]], ∀ word ∈ flags, ScriptWord word := by decide
  have hctl : ScriptWord (papaiaCtlPath dirs.workspaceDir) := by
    apply scriptWord_of_length
    · exact Nat.lt_of_lt_of_le (by decide) (length_papaiaCtlPath dirs.workspaceDir)
    · exact plain_append plain.workspaceDir (plain_of_all (by decide))
  have hconfig : ScriptWord ("--config-dir=" ++ dirs.configDir) := by
    apply scriptWord_of_length
    · rw [String.toList_append, List.length_append]
      exact Nat.lt_of_lt_of_le (by decide) (Nat.le_add_right ..)
    · exact plain_append (plain_of_all (by decide)) plain.configDir
  intro word hword
  simp only [List.mem_append, List.mem_cons, List.not_mem_nil, or_false, or_assoc] at hword
  rcases hword with rfl | rfl | rfl | rfl | hword
  · decide
  · exact hctl
  · exact hverbs word hverb
  · exact hconfig
  · exact hknown flags hflags word hword

theorem shellCommands_one {argv : List String} (h : ∀ word ∈ argv, ScriptWord word) :
    shellCommands (joinWith " " argv) = [argv] := by
  rw [shellCommands, words_joinWith fun word hword => (h word hword).1]
  exact List.splitOn_eq_singleton_of_beq_eq_false fun word hword => (h word hword).2

theorem shellCommands_two {one other : List String} (hone : ∀ word ∈ one, ScriptWord word)
    (hother : ∀ word ∈ other, ScriptWord word) :
    shellCommands (joinWith " " (one ++ "&&" :: other)) = [one, other] := by
  have hwords : ∀ word ∈ one ++ "&&" :: other, IsWord word := by
    intro word hword
    rcases List.mem_append.1 hword with hword | hword
    · exact (hone word hword).1
    · rcases List.mem_cons.1 hword with rfl | hword
      · decide
      · exact (hother word hword).1
  rw [shellCommands, words_joinWith hwords,
    List.splitOn_append_cons_of_forall_mem_beq_eq_false (fun word hword => (hone word hword).2) _
      (by decide),
    List.splitOn_eq_singleton_of_beq_eq_false fun word hword => (hother word hword).2]

/-- The script of a stack action, as its words. -/
theorem stackCommand_eq (dirs : Directories) (action : String) (cleanUp : Bool) :
    let ctl := papaiaCtlPath dirs.workspaceDir
    let stop := ["bash", ctl, "stop", "--config-dir=" ++ dirs.configDir] ++
      if cleanUp then ["--clean-up"] else []
    let start := ["bash", ctl, "start", "--config-dir=" ++ dirs.configDir] ++ []
    stackCommand action ctl dirs.configDir cleanUp = ["bash", "-c",
      if action = "restart" then joinWith " " (stop ++ "&&" :: start)
      else if action = "stop" then joinWith " " stop else joinWith " " start] := by
  have hbash : "bash " = "bash" ++ " " := rfl
  have hstop : " stop --config-dir=" = " " ++ "stop" ++ " " ++ "--config-dir=" := rfl
  have hstart : " start --config-dir=" = " " ++ "start" ++ " " ++ "--config-dir=" := rfl
  have hclean : " --clean-up" = " " ++ "--clean-up" := rfl
  have hand : " && " = " " ++ "&&" ++ " " := rfl
  simp only [stackCommand, hbash, hstop, hstart, hclean, hand]
  by_cases hrestart : action = "restart"
  · cases cleanUp <;> simp only [hrestart, joinWith, List.cons_append, List.nil_append, if_true,
      Bool.false_eq_true, if_false, String.append_assoc, String.append_empty, List.append_nil]
  · simp only [if_neg hrestart]
    by_cases hstops : action = "stop"
    · cases cleanUp <;> simp only [hstops, joinWith, List.cons_append, List.nil_append, if_true,
        Bool.false_eq_true, if_false, String.append_assoc, String.append_empty, List.append_nil]
    · simp only [hstops, joinWith, List.cons_append, List.nil_append, if_false,
        String.append_assoc, List.append_nil]

theorem head_append {text : String} {c : Char} (h : text.toList.head? = some c) (rest : String) :
    (text ++ rest).toList.head? = some c := by
  rw [String.toList_append, List.head?_append, h, Option.some_or]

theorem head_upgradeWithPrune : upgradeWithPrune.toList.head? = some 'c' := by
  have hfirst : "cfg=$1; ws=$2; shift 2\n".toList.head? = some 'c' := by decide +kernel
  exact head_append hfirst _

/-- A stack action stops and starts, and starts only what has come down cleanly. -/
theorem exec_stackCommand (plain : dirs.Plain) (run : List String → Int) (action : String)
    (cleanUp : Bool) :
    exec run (stackCommand action (papaiaCtlPath dirs.workspaceDir) dirs.configDir cleanUp) =
      runAll run (stackCalls dirs action cleanUp) := by
  have hflags : (if cleanUp then ["--clean-up"] else []) ∈ [[], ["--clean-up"]] := by
    cases cleanUp <;> simp
  have hstop := scriptWords plain "stop" _ (by simp) hflags
  have hstart := scriptWords plain "start" [] (by simp) (by simp)
  have hcommands : ∀ script calls, shellCommands script = calls → script ≠ upgradeWithPrune →
      exec run ["bash", "-c", script] = runAll run calls := by
    rintro script calls rfl hother
    simp [exec, hother]
  rw [stackCommand_eq]
  apply hcommands
  · rw [stackCalls]
    by_cases hrestart : action = "restart"
    · simp only [hrestart, if_true]
      exact shellCommands_two hstop hstart
    · by_cases hstops : action = "stop"
      · simp only [hstops]
        exact shellCommands_one hstop
      · simp only [hrestart, hstops, if_false]
        exact shellCommands_one hstart
  · -- the script of an upgrade begins with something else
    have hother : ∀ next rest, joinWith " " ("bash" :: next :: rest) ≠ upgradeWithPrune := by
      intro next rest heq
      have hscript : (joinWith " " ("bash" :: next :: rest)).toList.head? = some 'b' := by
        exact head_append (head_append (by decide) " ") (joinWith " " (next :: rest))
      rw [heq, head_upgradeWithPrune] at hscript
      exact absurd hscript (by decide)
    by_cases hrestart : action = "restart"
    · simp only [hrestart, if_true]
      exact hother _ _
    · by_cases hstops : action = "stop"
      · simp only [hstops]
        exact hother _ _
      · simp only [hrestart, hstops, if_false]
        exact hother _ _

/-! ### A runner is what was asked for -/

/-- The command of a runner. -/
def Operation.command (dirs : Directories) : Operation → List String
  | restore restorePoint backupDir restartClean =>
      restoreCall dirs restorePoint backupDir restartClean
  | stack action cleanUp =>
      stackCommand action (papaiaCtlPath dirs.workspaceDir) dirs.configDir cleanUp
  | upgrade version force noBackup pruneImages =>
      if pruneImages then
        ["bash", "-c", upgradeWithPrune, "papaia-upgrade", dirs.configDir, dirs.workspaceDir] ++
          upgradeCall dirs version force noBackup
      else upgradeCall dirs version force noBackup

/-- The arguments of a runner are those all runners share and its command. -/
theorem args_eq {spec : ContainerSpec} {op : Operation} {args : List String}
    (h : op.args spec dirs = .ok args) :
    args = baseRunArgs spec (runnerName op.target op.kind) op.kind op.target
      (if op.prunes then [pruneLabelKey ++ "=true"] else []) ++ op.command dirs := by
  cases op with
  | restore restorePoint backupDir restartClean =>
      simp only [Operation.args, buildRunArgs] at h
      split at h
      · exact (Except.ok.inj h).symm
      · cases h
  | stack action cleanUp =>
      simp only [Operation.args, buildStackRunArgs] at h
      split at h
      · cases h
      · split at h
        · cases h
        · exact (Except.ok.inj h).symm
  | upgrade version force noBackup pruneImages =>
      simp only [Operation.args, buildUpgradeRunArgs] at h
      split at h
      · exact (Except.ok.inj h).symm
      · cases h

/-- Only what has a name is started. -/
theorem target_ne_of_args {spec : ContainerSpec} {op : Operation} {args : List String}
    (h : op.args spec dirs = .ok args) : op.target ≠ "" := by
  cases op with
  | restore restorePoint backupDir restartClean =>
      rintro rfl
      cases h
  | stack action cleanUp =>
      rintro rfl
      cases h
  | upgrade version force noBackup pruneImages =>
      rintro rfl
      cases h

/-- The first image that is no option is the image. -/
theorem createdFrom_args {spec : ContainerSpec} {op : Operation} {args : List String}
    (himage : startsWith spec.image "-" = false) (h : op.args spec dirs = .ok args) :
    createdFrom args = some (configured spec op.kind op.target op.prunes (op.command dirs)) := by
  have hread := @parse_render _ dockerOptions _ spec.image (op.command dirs)
    (fits_runOptions spec (runnerName op.target op.kind) op.kind op.target
      (if op.prunes then [pruneLabelKey ++ "=true"] else [])) himage
  rw [args_eq h, baseRunArgs_eq_render, createdFrom, List.head?_cons, if_pos rfl, List.tail_cons,
    hread]
  exact configOf_runOptions ..

theorem exec_command (plain : dirs.Plain) (run : List String → Int) (op : Operation) :
    exec run (op.command dirs) = op.does run dirs := by
  have hctl : papaiaCtlPath dirs.workspaceDir ≠ "-c" := by
    apply ne_of_length_lt
    exact Nat.lt_of_lt_of_le (by decide) (length_papaiaCtlPath dirs.workspaceDir)
  cases op with
  | restore restorePoint backupDir restartClean =>
      simp only [Operation.does, Operation.prunes, Operation.calls, Bool.false_and,
        Bool.false_eq_true, if_false, runAll_singleton]
      exact exec_call run hctl _
  | stack action cleanUp =>
      simp only [Operation.does, Operation.prunes, Operation.calls, Bool.false_and,
        Bool.false_eq_true, if_false]
      exact exec_stackCommand plain run action cleanUp
  | upgrade version force noBackup pruneImages =>
      simp only [Operation.does, Operation.prunes, Operation.calls, runAll_singleton,
        Operation.command]
      cases pruneImages with
      | false => exact exec_call run hctl _
      | true =>
          have hscript : exec run (["bash", "-c", upgradeWithPrune, "papaia-upgrade",
              dirs.configDir, dirs.workspaceDir] ++ upgradeCall dirs version force noBackup) =
              runWithPrune run (dirs.configDir :: dirs.workspaceDir ::
                upgradeCall dirs version force noBackup) := by
            simp only [exec, List.cons_append, List.nil_append, List.tail_cons, and_self, if_true]
          rw [if_pos rfl, hscript, runWithPrune]
          by_cases hzero : run (upgradeCall dirs version force noBackup) = 0
          · simp [hzero]
          · simp [hzero]

/-- What a container is when it was started for an operation. -/
structure AsAsked (spec : ContainerSpec) (dirs : Directories) (op : Operation) (config : Config) :
    Prop where
  name : config.name = runnerName op.target op.kind
  restart : config.restart = "no"
  inherits : ∀ life, specFromInspect (Container.inspect ⟨config, life⟩) = .ok spec
  found : ∀ kind, config.hasLabel kind = true ↔ kind = op.kind
  tells : ∀ life, statusFromInspect (Container.inspect ⟨config, life⟩) op.kind = .ok {
    name := runnerName op.target op.kind
    target := op.target
    status := life.status.text
    exitCode := if life.status = .running then none else some life.exitCode
    startedAt := life.startedAt
    finishedAt := life.finishedAt
    pruneImages := op.prunes }
  does : ∀ run, exec run config.command = op.does run dirs

/-- A manager as it is deployed. -/
def managerSpec : ContainerSpec where
  image := "papaia-manager:1.4.2"
  binds := ["/opt/papaia:/opt/papaia", "/var/run/docker.sock:/var/run/docker.sock"]
  user := "1000:1000"
  groupAdd := ["998"]

def managerDirs : Directories where
  workspaceDir := "/opt/papaia"
  configDir := "/opt/papaia/config"

theorem managerDirs_plain : managerDirs.Plain :=
  ⟨plain_of_all (by decide), plain_of_all (by decide)⟩

def upgradeAndPrune : Operation :=
  .upgrade "1.5.0" false false true

/-- The arguments of that upgrade. -/
def upgradeArgs : List String :=
  baseRunArgs managerSpec "papaia-upgrade-1.5.0" .upgrade "1.5.0"
    ["de.fidonis.upgrade-prune-images=true"] ++ upgradeAndPrune.command managerDirs

theorem args_upgradeAndPrune : upgradeAndPrune.args managerSpec managerDirs = .ok upgradeArgs := by
  have hvalid : isValidTargetVersion "1.5.0" = true := by decide
  have hname : runnerName "1.5.0" .upgrade = "papaia-upgrade-1.5.0" := rfl
  have hlabel : pruneLabelKey ++ "=true" = "de.fidonis.upgrade-prune-images=true" := rfl
  simp only [upgradeAndPrune, Operation.args, buildUpgradeRunArgs, hvalid, if_true, hname, hlabel,
    upgradeArgs, Operation.command]

/-- A container that carries the label of a kind was started for an operation. -/
def StartedHere (c : Container) : Prop :=
  ∃ spec dirs op args, startsWith (ContainerSpec.image spec) "-" = false ∧
    Operation.args spec dirs op = .ok args ∧ createdFrom args = some c.config

def Status.isRunning : Status → Bool
  | .created | .running | .restarting | .paused => true
  | .removing | .exited | .dead => false

/-- What a container tells of itself. -/
def Container.tells (c : Container) : RunnerStatus where
  name := c.config.name
  target := textAt c.config.labelMapping targetLabelKey
  status := c.life.status.text
  exitCode := if c.life.status = .running then none else some c.life.exitCode
  startedAt := c.life.startedAt
  finishedAt := c.life.finishedAt
  pruneImages := (c.config.labelMapping.getD pruneLabelKey).str? == some "true"

/-- A container as a runner: by the label, its kind. -/
def Container.runner? (c : Container) : Option Runner :=
  ([RunnerKind.restore, .stack, .upgrade].find? c.config.hasLabel).map fun kind =>
    ⟨kind, c.tells.target, c.tells.isRunning⟩

theorem isRunning_tells (c : Container) : c.tells.isRunning = c.life.status.isRunning := by
  simp only [Container.tells, RunnerStatus.isRunning]
  cases c.life.status <;> decide

/-- A runner says itself what its container tells. -/
theorem statusFromInspect_of_started {c : Container} (started : StartedHere c) {kind : RunnerKind}
    (hkind : c.config.hasLabel kind = true) :
    statusFromInspect c.inspect kind = .ok c.tells ∧ c.tells.name = runnerName c.tells.target kind := by
  obtain ⟨spec, dirs, op, args, himage, hargs, hcreated⟩ := started
  rw [createdFrom_args himage hargs, Option.some.injEq] at hcreated
  obtain ⟨config, life⟩ := c
  simp only at hcreated hkind
  subst hcreated
  rw [hasLabel_configured] at hkind
  subst hkind
  have htarget := target_ne_of_args hargs
  have hlabel : textAt (configured spec op.kind op.target op.prunes (op.command dirs)).labelMapping
      targetLabelKey = op.target := by
    rw [labelMapping_configured]
    simp [textAt, getD_cons, runnerLabelKey, targetLabelKey]
  have hprune : (((configured spec op.kind op.target op.prunes (op.command dirs)).labelMapping.getD
      pruneLabelKey).str? == some "true") = op.prunes := by
    rw [labelMapping_configured]
    cases op.prunes <;>
      simp [getD_cons, getD_nil, runnerLabelKey, targetLabelKey, pruneLabelKey, Val.str?]
  constructor
  · rw [statusFromInspect_configured _ _ _ _ _ life htarget]
    simp only [Container.tells, hlabel, hprune]
    rfl
  · simp only [Container.tells, hlabel]
    rfl

/-- A container has the label of one kind at most. -/
theorem hasLabel_unique {config : Config} {kind other : RunnerKind}
    (hkind : config.hasLabel kind = true) (hother : config.hasLabel other = true) : kind = other := by
  simp only [Config.hasLabel, beq_iff_eq] at hkind hother
  exact labelValue_inj (Option.some.inj (hkind.symm.trans hother))

theorem runner?_eq_some {c : Container} {kind : RunnerKind} {runner : Runner} :
    (c.runner? = some runner ∧ runner.kind = kind) ↔
      c.config.hasLabel kind = true ∧ runner = ⟨kind, c.tells.target, c.tells.isRunning⟩ := by
  simp only [Container.runner?, Option.map_eq_some_iff]
  constructor
  · rintro ⟨⟨found, hfound, rfl⟩, rfl⟩
    exact ⟨List.find?_some hfound, rfl⟩
  · rintro ⟨hkind, rfl⟩
    refine ⟨⟨kind, ?_, rfl⟩, rfl⟩
    have hsome : ([RunnerKind.restore, .stack, .upgrade].find? c.config.hasLabel).isSome = true := by
      rw [List.find?_isSome]
      exact ⟨kind, by cases kind <;> simp, hkind⟩
    obtain ⟨found, hfound⟩ := Option.isSome_iff_exists.1 hsome
    rw [hfound, hasLabel_unique hkind (List.find?_some hfound)]

/-- The runners of a kind are the containers with its label. -/
theorem filter_runners (docker : List Container) (kind : RunnerKind) :
    (docker.filterMap Container.runner?).filter (fun runner => runner.kind = kind) =
      (docker.filter fun c => c.config.hasLabel kind).map fun c =>
        ⟨kind, c.tells.target, c.tells.isRunning⟩ := by
  induction docker with
  | nil => rfl
  | cons c rest ih =>
      by_cases hkind : c.config.hasLabel kind = true
      · have hrunner : c.runner? = some ⟨kind, c.tells.target, c.tells.isRunning⟩ ∧ kind = kind :=
          runner?_eq_some.2 ⟨hkind, rfl⟩
        simp [hrunner.1, hkind, ih]
      · cases hrunner : c.runner? with
        | none => simp [hrunner, hkind, ih]
        | some runner =>
            have hother : runner.kind ≠ kind := by
              intro heq
              exact hkind (runner?_eq_some.1 ⟨hrunner, heq⟩).1
            simp [hrunner, hkind, hother, ih]

/-- What the manager reads from the containers with a label. -/
theorem statuses_of_started {docker : List Container} {kind : RunnerKind}
    (started : ∀ c ∈ docker, c.config.hasLabel kind = true → StartedHere c) :
    (docker.reverse.filter fun c => c.config.hasLabel kind).mapM
        (fun c => statusFromInspect c.inspect kind) =
      .ok ((docker.reverse.filter fun c => c.config.hasLabel kind).map Container.tells) := by
  apply Traverse.mapM_eq_ok_iff.2
  rw [List.forall₂_map_right_iff, List.forall₂_same]
  intro c hc
  obtain ⟨hmem, hkind⟩ := List.mem_filter.1 hc
  exact (statusFromInspect_of_started (started c (List.mem_reverse.1 hmem) hkind) hkind).1

/-- A container as a runner of a kind. -/
def Container.runner (kind : RunnerKind) (c : Container) : Runner :=
  ⟨kind, c.tells.target, c.tells.isRunning⟩

/-- The container of the upgrade, some time after it was started. -/
def upgradeContainer (life : Life) : Container :=
  ⟨configured managerSpec .upgrade "1.5.0" true (upgradeAndPrune.command managerDirs), life⟩

/-- A service of the stack. -/
def proxyContainer : Container where
  config := {
    name := "caddy", labels := [("de.fidonis.module", "proxy")], restart := "unless-stopped",
    binds := [], user := "", groupAdd := [], extraHosts := [], image := "caddy:2", command := [] }
  life := ⟨.running, 0, "2026-07-01T08:00:00Z", ""⟩

/-- The proxy and an upgrade that has failed. -/
def afterUpgrade : List Container :=
  [proxyContainer, upgradeContainer ⟨.exited, 2, "2026-07-02T09:00:00Z", "2026-07-02T09:04:00Z"⟩]

end Papaia.Stack.Detached
