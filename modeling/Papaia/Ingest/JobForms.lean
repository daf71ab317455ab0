/-
Module: Papaia.Ingest.JobForms
Purpose: Between the job editor and `jobs.yaml`: the state the editor opens a job with, and the
  entry an edited state becomes, with the problems found on the way.
Trusted boundary: FormRuntime (`json`, `float`, the texts of exceptions)
Main exports: FormRuntime, formState, planFrom, authored
-/
import Papaia.Ingest.Minimise
import Papaia.Ingest.Schedules

namespace Papaia.Ingest

open Text

/-- What `json.loads` does with a text. -/
inductive Loaded where
  | value (v : Val)
  | invalid (msg : String)
  /-- An exception that is no `JSONDecodeError`, such as the one for a number of too many digits. -/
  | raises
deriving Repr

/-- What the editor takes from Python besides. -/
structure FormRuntime extends Runtime where
  /-- `float(text)`, none for a `ValueError`. -/
  floatOf : String → Option PyFloat
  /-- `json.loads`. -/
  loads : String → Loaded
  /-- `json.dumps(value, indent=2)`, none where it raises. -/
  dumps : Val → Option String
  /-- The text of the `TypeError` for a value that cannot be iterated over. -/
  notIterable : Val → String

/-! ### Numbers and lists of the editor -/

/-- `text.strip().lstrip("-").isdigit()`. -/
def looksWhole (text : String) : Bool :=
  let digits := (strip text).toList.dropWhile (· == '-')
  !digits.isEmpty && digits.all isDigit

/-- `int(text.strip())` of such a text: two signs and digits that are not decimal raise. -/
def wholeOf (text : String) : Option Int :=
  match (strip text).toList with
  | '-' :: digits => (readDecimal digits).map fun n => -Int.ofNat n
  | digits => (readDecimal digits).map Int.ofNat

/-- `_int_or_none`: a whole number, null for an empty field, or the text itself so the schema can
refuse it. -/
def intOrNone (rt : Runtime) : Val → Option Val
  | .null => some .null
  | .int i => some (.int i)
  | .float (.finite q) =>
      if q.den = 1 then some (.int q.num) else some (.str (rt.str (.float (.finite q))))
  | .str text =>
      if isBlank text then some .null
      else if looksWhole text then (wholeOf text).map .int
      else some (.str text)
  | v => some (.str (rt.str v))

/-- `_number_or_none`. -/
def numberOrNone (rt : FormRuntime) : Val → Val
  | .null => .null
  | .bool b => .str (rt.str (.bool b))
  | .int i => .int i
  | .float f => .float f
  | v =>
      let text := rt.text v
      if isBlank text && v.str?.isSome then .null
      else
        match rt.floatOf (strip text) with
        | some f => .float f
        | none => .str text

/-- `_lines`: one entry per line of a text, or per item of a list, without the empty ones. -/
def linesOf (rt : Runtime) (v : Val) : List String :=
  let items := match v with
    | .str text => (splitLines text).map strip
    | .list items => items.map fun item => strip (rt.text item)
    | _ => []
  items.filter fun item => item != ""

/-! ### The schedule builder -/

/-- `_as_int`: a blank control reads as its default. -/
def asInt (rt : Runtime) (default : Int) : Val → Except String Int
  | .int i => .ok i
  | .null => .ok default
  | .bool _ => .error "a number is expected"
  | .str text =>
      if looksWhole text then
        match wholeOf text with
        | some i => .ok i
        | none => .error ("invalid literal for int() with base 10: " ++
            rt.repr (.str (strip text)))
      else if text = "" then .ok default
      else .error "a whole number is expected"
  | _ => .error "a whole number is expected"

/-- The days the builder has ticked. -/
def weekdaysOf (rt : FormRuntime) (v : Val) : Except String (List String) :=
  if v.truthy then
    match v.iterate? with
    | some days => .ok (days.map rt.text)
    | none => .error (rt.notIterable v)
  else .ok []

/-- `_plan_from`. -/
def planFrom (rt : FormRuntime) (raw : Mapping) : Except String Plan := do
  let word := rt.textOr "manual" (raw.getD "mode")
  match PlanMode.table.lookup word with
  | none => .error ("Unknown schedule type " ++ rt.repr (.str word) ++ ".")
  | some mode =>
      let everyN ← asInt rt.toRuntime 15 (raw.getD "every_n")
      let minute ← asInt rt.toRuntime 0 (raw.getD "minute")
      let weekdays ← weekdaysOf rt (raw.getD "weekdays")
      let dayOfMonth ← asInt rt.toRuntime 1 (raw.getD "day_of_month")
      let jitterSeconds ← asInt rt.toRuntime 30 (raw.getD "jitter_seconds")
      let misfireGraceSeconds ← asInt rt.toRuntime 300 (raw.getD "misfire_grace_seconds")
      let timezone := strip (rt.textOr "" (raw.getD "timezone"))
      .ok
        { mode := mode
          everyN := everyN
          everyUnit := rt.textOr "m" (raw.getD "every_unit")
          time := rt.textOr "03:00" (raw.getD "time")
          minute := minute
          weekdays := weekdays
          dayOfMonth := dayOfMonth
          cron := rt.textOr "" (raw.getD "cron")
          timezone := if timezone = "" then none else some timezone
          jitterSeconds := jitterSeconds
          misfireGraceSeconds := misfireGraceSeconds
          runOnStartup := rt.textOr "if_missed" (raw.getD "run_on_startup") }

/-! ### Saving a job -/

/-- The source with its numbers and switches as such, its flags as a list and its label without
white space around it. -/
def sourceFrom (rt : Runtime) (state : Mapping) : Option Mapping :=
  let source := mappingAt state "source"
  let fields := match SourceType.table.lookup (rt.textOr "" (source.getD "type")) with
    | some type => sourceModel type
    | none => []
  let converted := fields.foldlM (fun (source : Mapping) (key, shape) =>
    match shape, source.get? key with
    | .port _, some v => (intOrNone rt v).map (source.put (.str key))
    | .flag _, some v => some (source.put (.str key) (.bool v.truthy))
    | _, _ => some source) source
  converted.map fun converted =>
    let source := converted.put (.str "rclone_flags")
      (.list ((linesOf rt (converted.getD "rclone_flags")).map .str))
    match source.get? "label" with
    | some (.str label) => source.put (.str "label") (.str (strip label))
    | _ => source

/-- The extra payload: the JSON object a text holds, or a mapping as it is. -/
def payloadFrom (rt : FormRuntime) (jobId : Option String) (payload : Val) :
    Option (Mapping × List Issue) :=
  let problem := fun message : String =>
    some ([], [{ jobId := jobId, field := "target.extra_payload", message := message }])
  match payload with
  | .str text =>
      if isBlank text then some ([], [])
      else
        match rt.loads text with
        | .value (.map extra) => some (extra, [])
        | .value _ => problem "must be a JSON object"
        | .invalid msg => problem ("is not valid JSON: " ++ msg)
        | .raises => none
  | .map extra => some (extra, [])
  | _ => some ([], [])

/-- The target, with the payload that was read from it. -/
def targetFrom (rt : Runtime) (target extra : Mapping) : Mapping :=
  [(.str "collection", .str (strip (rt.textOr "" (target.getD "collection")))),
    (.str "connection", .str (strip (rt.textOr "" (target.getD "connection")))),
    (.str "acl_tags", .list ((linesOf rt (target.getD "acl_tags")).map .str)),
    (.str "extra_payload", .map extra)]

/-- The filters of the state. -/
def filtersFrom (rt : Runtime) (state : Mapping) : Option Mapping :=
  let filters := mappingAt state "filters"
  (intOrNone rt (filters.getD "max_file_bytes")).map fun maxFileBytes =>
    [(.str "include", .list ((linesOf rt (filters.getD "include")).map .str)),
      (.str "exclude", .list ((linesOf rt (filters.getD "exclude")).map .str)),
      (.str "max_file_bytes", maxFileBytes)]

/-- The `schedule:` block of the state; a plan that cannot run is a problem. -/
def scheduleFrom (rt : FormRuntime) (jobId : Option String) (state : Mapping) :
    Mapping × List Issue :=
  match state.get? "schedule" with
  | some (.map raw) =>
      match (planFrom rt raw).bind (scheduleBlock rt.toRuntime) with
      | .ok block => (block, [])
      | .error message => ([], [{ jobId := jobId, field := "schedule", message := message }])
  | _ => ([], [])

/-- `value is None`. -/
def isNull : Val → Bool
  | .null => true
  | _ => false

@[simp] theorem isNull_iff {v : Val} : isNull v = true ↔ v = .null := by
  unfold isNull
  split
  next => simp
  next hv => simpa using hv

/-- The entries of a section that are not null. -/
def withoutNulls (entries : Mapping) : Mapping :=
  entries.filter fun entry => !isNull entry.2

/-- The chunking of the state. -/
def chunkingFrom (rt : Runtime) (state : Mapping) : Option Mapping :=
  let chunking := mappingAt state "chunking"
  (intOrNone rt (chunking.getD "words")).bind fun words =>
    (intOrNone rt (chunking.getD "overlap")).map fun overlap =>
      withoutNulls [(.str "strategy", chunking.getD "strategy"), (.str "words", words),
        (.str "overlap", overlap)]

/-- The embedding of the state: a blank model is none. -/
def embeddingFrom (rt : Runtime) (state : Mapping) : Option Mapping :=
  let embedding := mappingAt state "embedding"
  let model := strip (rt.textOr "" (embedding.getD "model"))
  (intOrNone rt (embedding.getD "batch_size")).map fun batchSize =>
    withoutNulls [(.str "model", if model = "" then .null else .str model),
      (.str "batch_size", batchSize)]

/-- The safety of the state. -/
def safetyFrom (rt : FormRuntime) (state : Mapping) : Mapping :=
  let safety := mappingAt state "safety"
  withoutNulls [(.str "max_delete_ratio", numberOrNone rt (safety.getD "max_delete_ratio")),
    (.str "empty_source_guard", safety.getD "empty_source_guard")]

/-- `state.get("enabled", True) is not False`. -/
def enabledOf (job : Mapping) : Bool :=
  match job.get? "enabled" with
  | some (.bool false) => false
  | _ => true

/-- `bool(state.get(key, False))`. -/
def switchOf (job : Mapping) (key : String) : Bool :=
  (job.getD key).truthy

/-- What `authored` hands to `minimise`: the whole job, with the parts that were converted before. -/
def flatJob (rt : FormRuntime) (state source extra filters schedule chunking embedding : Mapping) :
    Mapping :=
  let description := state.getD "description"
  [(.str "id", .str (strip (rt.textOr "" (state.getD "id")))),
    (.str "enabled", .bool (enabledOf state)),
    (.str "description", if description.truthy then description else .str ""),
    (.str "source", .map source),
    (.str "target", .map (targetFrom rt.toRuntime (mappingAt state "target") extra)),
    (.str "mode", state.getD "mode"),
    (.str "full_scope", state.getD "full_scope"),
    (.str "append_probe", state.getD "append_probe"),
    (.str "mcp_allow_full", .bool (switchOf state "mcp_allow_full")),
    (.str "expand_embedded", .bool (switchOf state "expand_embedded")),
    (.str "source_template", state.getD "source_template"),
    (.str "filters", .map filters),
    (.str "schedule", .map schedule),
    (.str "chunking", .map chunking),
    (.str "embedding", .map embedding),
    (.str "safety", .map (safetyFrom rt state))]

/-- `authored`: the entry to write for the editor's state, and the problems found converting it;
none where the conversion raises. -/
def authored (rt : FormRuntime) (state defaults : Mapping) : Option (Mapping × List Issue) := do
  let jobId := (state.getD "id").str?
  let source ← sourceFrom rt.toRuntime state
  let (extra, payloadIssues) ←
    payloadFrom rt jobId ((mappingAt state "target").getD "extra_payload")
  let filters ← filtersFrom rt.toRuntime state
  let (schedule, scheduleIssues) := scheduleFrom rt jobId state
  let chunking ← chunkingFrom rt.toRuntime state
  let embedding ← embeddingFrom rt.toRuntime state
  let flat := flatJob rt state source extra filters schedule chunking embedding
  let entry ← minimise rt.toRuntime flat defaults
  pure (entry, payloadIssues ++ scheduleIssues)

end Papaia.Ingest
