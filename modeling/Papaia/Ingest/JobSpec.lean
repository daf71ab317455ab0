/-
Module: Papaia.Ingest.JobSpec
Purpose: A job of the ingester: its sections, the rules inside a section, and the reading of an
  effective mapping into a job or into the faults of every field.
Trusted boundary: Runtime
Main exports: FiltersSpec, TargetSpec, ScheduleSpec, ChunkingSpec, EmbeddingSpec, SafetySpec,
  JobSpec, readJobSpec
-/
import Papaia.Ingest.Schema

namespace Papaia.Ingest

open Text

/-! ### The words of a job -/

inductive Mode where
  | full
  | append
  | upsert
deriving DecidableEq, Repr

inductive FullScope where
  | job
  | collection
deriving DecidableEq, Repr

inductive AppendProbe where
  | auto
  | state
  | qdrant
deriving DecidableEq, Repr

inductive RunOnStartup where
  | never
  | ifMissed
  | always
deriving DecidableEq, Repr

inductive ChunkStrategy where
  | auto
  | markdown
  | paragraph
  | sheetRows
  | slide
deriving DecidableEq, Repr

def Mode.table : List (String × Mode) :=
  [("full", .full), ("append", .append), ("upsert", .upsert)]

def FullScope.table : List (String × FullScope) :=
  [("job", .job), ("collection", .collection)]

def AppendProbe.table : List (String × AppendProbe) :=
  [("auto", .auto), ("state", .state), ("qdrant", .qdrant)]

def RunOnStartup.table : List (String × RunOnStartup) :=
  [("never", .never), ("if_missed", .ifMissed), ("always", .always)]

def ChunkStrategy.table : List (String × ChunkStrategy) :=
  [("auto", .auto), ("markdown", .markdown), ("paragraph", .paragraph),
    ("sheet_rows", .sheetRows), ("slide", .slide)]

/-! ### Sections -/

structure FiltersSpec where
  includes : List String := []
  exclude : List String := []
  maxFileBytes : Option Int := none
deriving DecidableEq, Repr

structure TargetSpec where
  collection : String
  connection : String
  aclTags : List String := []
  extraPayload : List (String × Val) := []
deriving Repr

structure ScheduleSpec where
  cron : Option String := none
  every : Option String := none
  timezone : Option String := none
  jitterSeconds : Int := 30
  misfireGraceSeconds : Int := 300
  runOnStartup : RunOnStartup := .ifMissed
deriving DecidableEq, Repr

structure ChunkingSpec where
  strategy : ChunkStrategy := .auto
  words : Int := 400
  overlap : Int := 50
deriving DecidableEq, Repr

structure EmbeddingSpec where
  model : Option String := none
  batchSize : Option Int := none
deriving DecidableEq, Repr

structure SafetySpec where
  maxDeleteRatio : PyFloat := .finite (1 / 4)
  emptySourceGuard : Bool := true
deriving DecidableEq, Repr

/-- `source_template` of a job that does not set one. -/
def defaultTemplate : String :=
  "\x7bscheme\x7d://\x7blabel\x7d/\x7brel_path\x7d"

structure JobSpec where
  id : String
  enabled : Bool
  description : String
  source : SourceSpec
  filters : FiltersSpec
  target : TargetSpec
  mode : Mode
  fullScope : FullScope
  appendProbe : AppendProbe
  schedule : ScheduleSpec
  chunking : ChunkingSpec
  embedding : EmbeddingSpec
  safety : SafetySpec
  mcpAllowFull : Bool
  expandEmbedded : Bool
  sourceTemplate : String
deriving Repr

/-! ### Reading -/

/-- `^[a-zA-Z0-9][a-zA-Z0-9._-]{0,127}$`. -/
def isCollection (text : String) : Bool :=
  match text.toList with
  | [] => false
  | first :: rest =>
      first.isAlphanum && rest.length ≤ 127 &&
        rest.all fun c => c.isAlphanum || c == '.' || c == '_' || c == '-'

/-- `^(\d+)(s|m|h|d)$`: the number and the unit of an interval.  The pattern's end also stands
before a last newline. -/
def everyParts (text : String) : Option (Nat × Char) :=
  let line := match text.toList.reverse with
    | '\n' :: rest => rest
    | chars => chars
  match line with
  | unit :: digits =>
      if ['s', 'm', 'h', 'd'].contains unit then
        (readDecimal digits.reverse).map fun number => (number, unit)
      else none
  | [] => none

/-- Why the ingester refuses an interval. -/
def everyError (text : String) : Option String :=
  match everyParts text with
  | none => some "an interval looks like 30s, 15m, 4h or 1d"
  | some (number, _) => if number < 1 then some "an interval has to be at least 1" else none

def readFilters (rt : Runtime) (v : Val) : Checked FiltersSpec :=
  match readMapping v with
  | .error faults => .error faults
  | .ok m =>
      (((Checked.of FiltersSpec.mk).both (field m "include" (.ok []) readStrList)).both
        (field m "exclude" (.ok []) readStrList)).both
        (field m "max_file_bytes" (.ok none) (readNullable (readBounded rt 1 none)))
        |>.also (noExtras rt ["include", "exclude", "max_file_bytes"] m)

/-- Payload keys owned by the ingestion contract. -/
def reservedPayloadKeys : List String :=
  ["acl_tags", "ingest_job", "ingest_run", "source", "text"]

/-- `dict[str, Any]`: the keys are texts, the values are taken as they are. -/
def readPayloadEntries (rt : Runtime) : Mapping → Checked (List (String × Val))
  | [] => .ok []
  | (key, value) :: rest =>
      ((Checked.of fun text entries => (text, value) :: entries).both
        (Checked.within (rt.keyText key) (Checked.within "[key]" (readStr (.scalar key))))).both
        (readPayloadEntries rt rest)

/-- `extra_payload` with the rule about the keys the ingester owns. -/
def readPayload (rt : Runtime) (v : Val) : Checked (List (String × Val)) :=
  match v with
  | .map m =>
      match readPayloadEntries rt m with
      | .error faults => .error faults
      | .ok entries =>
          let clashes := reservedPayloadKeys.filter fun key => entries.any fun e => e.1 == key
          if clashes.isEmpty then .ok entries
          else Checked.fault "value_error"
            ("Value error, extra payload may not use the keys the ingester owns: " ++
              joinWith ", " clashes)
  | _ => Checked.fault "dict_type" "Input should be a valid dictionary"

def readTarget (rt : Runtime) (v : Val) : Checked TargetSpec :=
  match readMapping v with
  | .error faults => .error faults
  | .ok m =>
      ((((Checked.of TargetSpec.mk).both
        (field m "collection" missing (readPattern isCollection))).both
        (field m "connection" missing (readPattern isSlug))).both
        (field m "acl_tags" (.ok []) readStrList)).both
        (field m "extra_payload" (.ok []) (readPayload rt))
        |>.also (noExtras rt ["collection", "connection", "acl_tags", "extra_payload"] m)

/-- `_cron_xor_every`. -/
def ScheduleSpec.check (spec : ScheduleSpec) : Checked ScheduleSpec :=
  if spec.cron.isSome && spec.every.isSome then
    Checked.fault "value_error"
      "Value error, a schedule takes either a cron expression or an interval, not both"
  else
    match spec.every.bind everyError with
    | some problem => Checked.fault "value_error" ("Value error, " ++ problem)
    | none => .ok spec

def readSchedule (rt : Runtime) (v : Val) : Checked ScheduleSpec :=
  match readMapping v with
  | .error faults => .error faults
  | .ok m =>
      let fields := ((((((Checked.of ScheduleSpec.mk).both
        (field m "cron" (.ok none) (readNullable readStr))).both
        (field m "every" (.ok none) (readNullable readStr))).both
        (field m "timezone" (.ok none) (readNullable readStr))).both
        (field m "jitter_seconds" (.ok 30) (readBounded rt 0 none))).both
        (field m "misfire_grace_seconds" (.ok 300) (readBounded rt 0 none))).both
        (field m "run_on_startup" (.ok .ifMissed) (readChoice RunOnStartup.table))
        |>.also (noExtras rt
          ["cron", "every", "timezone", "jitter_seconds", "misfire_grace_seconds",
            "run_on_startup"] m)
      match fields with
      | .error faults => .error faults
      | .ok spec => spec.check

/-- `_overlap_below_words`. -/
def ChunkingSpec.check (spec : ChunkingSpec) : Checked ChunkingSpec :=
  if spec.overlap ≥ spec.words then
    Checked.fault "value_error" "Value error, the overlap must be smaller than the chunk size"
  else .ok spec

def readChunking (rt : Runtime) (v : Val) : Checked ChunkingSpec :=
  match readMapping v with
  | .error faults => .error faults
  | .ok m =>
      let fields := (((Checked.of ChunkingSpec.mk).both
        (field m "strategy" (.ok .auto) (readChoice ChunkStrategy.table))).both
        (field m "words" (.ok 400) (readBounded rt 1 none))).both
        (field m "overlap" (.ok 50) (readBounded rt 0 none))
        |>.also (noExtras rt ["strategy", "words", "overlap"] m)
      match fields with
      | .error faults => .error faults
      | .ok spec => spec.check

def readEmbedding (rt : Runtime) (v : Val) : Checked EmbeddingSpec :=
  match readMapping v with
  | .error faults => .error faults
  | .ok m =>
      ((Checked.of EmbeddingSpec.mk).both
        (field m "model" (.ok none) (readNullable readStr))).both
        (field m "batch_size" (.ok none) (readNullable (readBounded rt 1 none)))
        |>.also (noExtras rt ["model", "batch_size"] m)

def readSafety (rt : Runtime) (v : Val) : Checked SafetySpec :=
  match readMapping v with
  | .error faults => .error faults
  | .ok m =>
      ((Checked.of SafetySpec.mk).both
        (field m "max_delete_ratio" (.ok (.finite (1 / 4))) (readRatio rt))).both
        (field m "empty_source_guard" (.ok true) readBool)
        |>.also (noExtras rt ["max_delete_ratio", "empty_source_guard"] m)

/-- `_placeholders`. -/
def readTemplate (v : Val) : Checked String :=
  match readStr v with
  | .ok text =>
      if contains text "\x7brel_path\x7d" && contains text "\x7blabel\x7d" then .ok text
      else Checked.fault "value_error"
        ("Value error, the source template must contain \x7blabel\x7d and \x7brel_path\x7d")
  | read => read

/-- The keys of a job. -/
def jobKeys : List String :=
  ["id", "enabled", "description", "source", "filters", "target", "mode", "full_scope",
    "append_probe", "schedule", "chunking", "embedding", "safety", "mcp_allow_full",
    "expand_embedded", "source_template"]

/-- `JobSpec.model_validate` of an effective mapping. -/
@[irreducible] def readJobSpec (rt : Runtime) (m : Mapping) : Checked JobSpec :=
  ((((((((((((((((Checked.of JobSpec.mk).both
    (field m "id" missing (readPattern isSlug))).both
    (field m "enabled" (.ok true) readBool)).both
    (field m "description" (.ok "") readStr)).both
    (field m "source" missing (readSource rt))).both
    (field m "filters" (.ok {}) (readFilters rt))).both
    (field m "target" missing (readTarget rt))).both
    (field m "mode" missing (readChoice Mode.table))).both
    (field m "full_scope" (.ok .job) (readChoice FullScope.table))).both
    (field m "append_probe" (.ok .auto) (readChoice AppendProbe.table))).both
    (field m "schedule" (.ok {}) (readSchedule rt))).both
    (field m "chunking" (.ok {}) (readChunking rt))).both
    (field m "embedding" (.ok {}) (readEmbedding rt))).both
    (field m "safety" (.ok {}) (readSafety rt))).both
    (field m "mcp_allow_full" (.ok false) readBool)).both
    (field m "expand_embedded" (.ok false) readBool)).both
    (field m "source_template" (.ok defaultTemplate) readTemplate)
    |>.also (noExtras rt jobKeys m)

end Papaia.Ingest
