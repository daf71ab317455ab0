/-
Module: Papaia.Host.Doctor
Purpose: The host's reading: the checks of a `doctor --json` document as rows with a state, on this
  host and on a node, and the verdict over them.
Trusted boundary: DoctorPackage (the JSON library, the texts Python makes of a value)
Main exports: HostState, HostCheck, HostHealth, DoctorPackage, checkNamed, readDocument, parseDoctor,
  nodeReport, parseNodeDoctor
-/
import Papaia.Host.Numbers

namespace Papaia.Host

open Text

/-! ### Rows -/

/-- `HostState`. -/
inductive HostState where
  | ok
  | warn
  | critical
  | unknown
deriving DecidableEq, Repr

/-- `_SEVERITY`: lower is worse. -/
def HostState.severity : HostState → Nat
  | .critical => 0
  | .warn => 1
  | .unknown => 2
  | .ok => 3

/-- `_STATE_BY_DOCTOR`. -/
def stateByDoctor : List (String × HostState) :=
  [("pass", .ok), ("warn", .warn), ("fail", .critical), ("skip", .unknown)]

/-- `_state`. -/
def stateOf : Val → HostState
  | .str word => (stateByDoctor.lookup word).getD .unknown
  | _ => .unknown

/-- One measured thing: a resource, a filesystem or a certificate. -/
structure HostCheck where
  kind : String
  key : String
  label : String
  detail : String
  state : HostState
  freeBytes : Option Int := none
  totalBytes : Option Int := none
  daysLeft : Option Int := none
  notAfter : String := ""
  reason : String := ""
  percent : Option PyFloat := none
  measure : String := ""
  figure : String := ""
deriving Repr

/-- `HostCheck.used_percent`. -/
def HostCheck.usedPercent (row : HostCheck) : Except Raised (Option PyFloat) :=
  match row.percent, row.freeBytes, row.totalBytes with
  | some percent, _, _ => .ok (some (clamped percent))
  | none, some free, some total =>
      if total = 0 then .ok none
      else
        (checkedFloat (free / total)).map fun share =>
          let used := match share with
            | .finite q => times (ofExact (1 - q)) 100
            | other => other
          some (clamped used)
  | none, _, _ => .ok none

/-- `format_bytes` of a size that may be absent. -/
def sizeOrNothing : Option Int → Except Raised String
  | some size => formatBytes size
  | none => .ok ""

/-- `HostCheck.free_text`. -/
def HostCheck.freeText (row : HostCheck) : Except Raised String :=
  sizeOrNothing row.freeBytes

/-- `HostCheck.total_text`. -/
def HostCheck.totalText (row : HostCheck) : Except Raised String :=
  sizeOrNothing row.totalBytes

/-- The core's verdict on the nodes, or on the links between them. -/
structure ClusterCheck where
  title : String
  state : HostState
  summary : String
deriving DecidableEq, Repr

/-- One reading of the host, or the reason there is none. -/
structure HostHealth where
  available : Bool
  reason : String := ""
  resources : List HostCheck := []
  disks : List HostCheck := []
  certs : List HostCheck := []
  notes : List String := []
  checkedAt : Int
  clusterChecks : List ClusterCheck := []
deriving Repr

/-- `HostHealth.checks`. -/
def HostHealth.checks (health : HostHealth) : List HostCheck :=
  health.resources ++ health.disks ++ health.certs

/-- The states of the rows that have a verdict. -/
def HostHealth.judged (health : HostHealth) : List HostState :=
  (health.checks.map HostCheck.state).filter (· ≠ .unknown)

/-- The worse of two states, the first where they are equally bad. -/
def HostState.worse (one other : HostState) : HostState :=
  if other.severity < one.severity then other else one

/-- `HostHealth.overall`. -/
def HostHealth.overall (health : HostHealth) : HostState :=
  match health.judged with
  | [] => .unknown
  | first :: rest => rest.foldl HostState.worse first

/-- What the module takes from the packages it is built on. -/
structure DoctorPackage where
  /-- `json.loads(text)`; none for a `ValueError`. -/
  loads : String → Option Val
  /-- `json.dumps(value)`. -/
  dumps : Val → String
  /-- `str(value)`. -/
  str : Val → String
  /-- `repr(value)`. -/
  repr : Val → String

/-- `unavailable`. -/
def unavailable (now : Int) (reason : String) : HostHealth :=
  { available := false, reason := reason, checkedAt := now }

variable (pkg : DoctorPackage)

/-- `str(value)`, where a whole number in it may have too many digits. -/
def strOf (value : Val) : Except Raised String :=
  if printable value then .ok (pkg.str value) else .error .value

/-! ### Disks and certificates -/

/-- `_DISK_LABELS`. -/
def diskLabels : List (String × String) :=
  [("config_dir", "Config disk"), ("backup_dir", "Backup disk"), ("docker_root", "Docker data")]

/-- A text that is not empty. -/
def filledText : Val → Option String
  | .str text => if text = "" then none else some text
  | _ => none

/-- `_parse_disk`. -/
def parseDisk (entry : Val) : Except Raised (Option HostCheck) :=
  match entry.mapping? with
  | some entry =>
      match filledText (entry.getD "label") with
      | none => .ok none
      | some key =>
          (strOf pkg ((entry.get? "path").getD (.str ""))).map fun detail =>
            some {
              kind := "disk"
              key := key
              label := (diskLabels.lookup key).getD key
              detail := detail
              state := stateOf (entry.getD "status")
              freeBytes := int? (entry.getD "free_bytes")
              totalBytes := int? (entry.getD "total_bytes") }
  | none => .ok none

/-- The parts of a path. -/
def pathParts (path : String) : List String :=
  ((path.toList.splitOn '/').map String.ofList).filter fun part => part ≠ "" ∧ part ≠ "."

/-- `_LETSENCRYPT_LIVE`. -/
def letsEncryptLive : List String :=
  ["infra", "nginx", "nginx-letsencrypt", "live"]

/-- `_certificate_identity`: the label and the detail of a certificate's path. -/
def certificateIdentity (path : String) : String × String :=
  if startsWith path "/" then (path, "")
  else
    match pathParts path with
    | "infra" :: "nginx" :: "nginx-letsencrypt" :: "live" :: name :: _ => (name, "Let's Encrypt")
    | ["certs", name] => (name, "Bundled")
    | _ => (path, "")

/-- `_parse_cert`. -/
def parseCert (entry : Val) : Except Raised (Option HostCheck) :=
  match entry.mapping? with
  | some entry =>
      match filledText (entry.getD "path") with
      | none => .ok none
      | some path =>
          (strOf pkg ((entry.get? "reason").getD (.str ""))).map fun reason =>
            some {
              kind := "cert"
              key := path
              label := (certificateIdentity path).1
              detail := (certificateIdentity path).2
              state := stateOf (entry.getD "status")
              daysLeft := int? (entry.getD "days_left")
              notAfter := ((entry.getD "not_after").str?).getD ""
              reason := reason }
  | none => .ok none

/-! ### Resources -/

/-- `_details`. -/
def detailsOf (check : Mapping) : Mapping :=
  ((check.getD "details").mapping?).getD []

/-- `_summary`. -/
def summaryOf (check : Mapping) : String :=
  match check.getD "summary" with
  | .str summary => strip summary
  | _ => ""

/-- `_why`. -/
def why (state : HostState) (summary shown : String) : String :=
  if state ≠ .ok ∧ summary ≠ "" ∧ summary ≠ shown then summary else ""

/-- `" · ".join(parts)`. -/
def dotted (parts : List String) : String :=
  joinWith " · " parts

/-- A text that is there when what it is made of is. -/
def whenSome {α : Type} (value : Option α) (text : α → String) : String :=
  match value with
  | some value => text value
  | none => ""

/-- The memory of `_parse_memory`. -/
def memoryMeasure (total available : Option Int) (summary : String) : Except Raised String :=
  match total, available with
  | some total, some available => do
      let availableText ← formatBytes available
      let totalText ← formatBytes total
      pure (availableText ++ " available of " ++ totalText)
  -- The core fell back to `docker info`: the total is all there is.
  | some total, none => (formatBytes total).map (· ++ " total")
  | none, _ => .ok summary

/-- The swap of `_parse_memory`. -/
def swapText (total used : Option Int) : Except Raised String :=
  match total, used with
  | some total, some used =>
      if total = 0 then .ok "no swap"
      else do
        let usedText ← formatBytes used
        let totalText ← formatBytes total
        pure ("swap " ++ usedText ++ " of " ++ totalText ++ " used")
  | _, _ => .ok ""

/-- `_parse_memory`. -/
def parseMemory (check : Mapping) (state : HostState) : Except Raised (List HostCheck) := do
  let details := detailsOf check
  let used ← number? (details.getD "used_percent")
  let measure ← memoryMeasure (int? (details.getD "total_bytes"))
    (int? (details.getD "available_bytes")) (summaryOf check)
  let swap ← swapText (int? (details.getD "swap_total_bytes"))
    (int? (details.getD "swap_used_bytes"))
  pure [{
    kind := "memory"
    key := "memory"
    label := "Memory"
    detail := swap
    state := state
    reason := why state (summaryOf check) measure
    percent := used
    measure := measure
    figure := whenSome used fun used => fixed 0 used ++ " % used" }]

/-- The number of cores, as the first part of a CPU's detail. -/
def coresText (cores : Option Int) : Except Raised (List String) :=
  match cores with
  | some cores => (textOf cores).map fun text => [text ++ if cores = 1 then " core" else " cores"]
  | none => .ok []

/-- The three loads of a CPU, where all are there. -/
def loadsText : Option PyFloat → Option PyFloat → Option PyFloat → List String
  | some load1, some load5, some load15 =>
      ["load " ++ fixed 2 load1 ++ " / " ++ fixed 2 load5 ++ " / " ++ fixed 2 load15]
  | _, _, _ => []

/-- `_parse_cpu`. -/
def parseCpu (check : Mapping) (state : HostState) : Except Raised (List HostCheck) := do
  let details := detailsOf check
  let load1 ← number? (details.getD "load1")
  let load5 ← number? (details.getD "load5")
  let load15 ← number? (details.getD "load15")
  let perCore ← number? (details.getD "load_per_core")
  let cores ← coresText (int? (details.getD "cores"))
  let measure := if perCore.isSome then "load per core, 5 min average" else summaryOf check
  pure [{
    kind := "cpu"
    key := "cpu"
    label := "CPU"
    detail := dotted (cores ++ loadsText load1 load5 load15)
    state := state
    reason := why state (summaryOf check) measure
    percent := perCore.map (times · 100)
    measure := measure
    figure := whenSome perCore fun load => fixed 2 load ++ " / core" }]

/-- `format_bytes(int(mib * 1024**2))`. -/
def mibText (mib : PyFloat) : Except Raised String := do
  let bytes ← truncate (times mib 1048576)
  formatBytes bytes

/-- The memory of a GPU, where both numbers are there. -/
def vramMeasure : Option PyFloat → Option PyFloat → Except Raised String
  | some used, some total => do
      let usedText ← mibText used
      let totalText ← mibText total
      pure (usedText ++ " of " ++ totalText ++ " VRAM")
  | _, _ => .ok ""

/-- One device of `_parse_gpu`. -/
def gpuRow (state : HostState) (summary : String) (position : Nat) (gpu : Mapping) :
    Except Raised HostCheck := do
  let number := (int? (gpu.getD "index")).getD position
  let used ← number? (gpu.getD "memory_used_mib")
  let total ← number? (gpu.getD "memory_total_mib")
  let vram ← number? (gpu.getD "vram_percent")
  let util ← number? (gpu.getD "utilization_percent")
  let temperature ← number? (gpu.getD "temperature_c")
  let measure ← vramMeasure used total
  let numberText ← textOf number
  let parts := [whenSome (filledText (gpu.getD "driver")) ("driver " ++ ·),
    whenSome util fun util => "util " ++ fixed 0 util ++ " %",
    whenSome temperature fun temperature => fixed 0 temperature ++ " °C"]
  pure {
    kind := "gpu"
    key := "gpu" ++ numberText
    label := (filledText (gpu.getD "name")).getD ("GPU " ++ numberText)
    detail := dotted (parts.filter (· ≠ ""))
    state := state
    -- The core judges the check, not each device; its sentence goes on the first row only.
    reason := if position = 0 then why state summary "" else ""
    percent := vram
    measure := measure
    figure := whenSome vram fun vram => fixed 0 vram ++ " % used" }

/-- The devices of a GPU check. -/
def gpuDevices (details : Mapping) : List Mapping :=
  (((details.getD "gpus").list?).getD []).filterMap Val.mapping?

/-- The rows of some devices, from a position on. -/
def gpuRows (state : HostState) (summary : String) :
    Nat → List Mapping → Except Raised (List HostCheck)
  | _, [] => .ok []
  | position, gpu :: rest => do
      let row ← gpuRow state summary position gpu
      let rows ← gpuRows state summary (position + 1) rest
      pure (row :: rows)

/-- `_parse_gpu`. -/
def parseGpu (check : Mapping) (state : HostState) : Except Raised (List HostCheck) :=
  let details := detailsOf check
  match gpuDevices details with
  | [] =>
      .ok [{
        kind := "gpu"
        key := "gpu"
        label := "GPU"
        detail := whenSome (filledText (details.getD "variant")) ("variant " ++ ·)
        state := state
        measure := summaryOf check }]
  | devices => gpuRows state (summaryOf check) 0 devices

/-- `_parse_clock`. -/
def parseClock (check : Mapping) (state : HostState) : Except Raised (List HostCheck) :=
  let summary := summaryOf check
  let measure := match (detailsOf check).getD "ntp_synchronized" with
    | .bool true => "synchronized"
    | .bool false => "not synchronized"
    | _ => summary
  let reason := match (detailsOf check).getD "ntp_synchronized" with
    | .bool _ => ""
    | _ => why state summary measure
  .ok [{
    kind := "clock"
    key := "time_sync"
    label := "System clock"
    detail := ""
    state := state
    reason := reason
    measure := measure }]

/-- A check that rows are made of: its name, the kind and the label of a row without a reading, and
the parser. -/
structure ResourceCheck where
  name : String
  kind : String
  label : String
  parse : Mapping → HostState → Except Raised (List HostCheck)

/-- `_RESOURCE_CHECKS`. -/
def resourceChecks : List ResourceCheck :=
  [⟨"memory", "memory", "Memory", parseMemory⟩, ⟨"cpu", "cpu", "CPU", parseCpu⟩,
    ⟨"gpu", "gpu", "GPU", parseGpu⟩, ⟨"time_sync", "clock", "System clock", parseClock⟩]

/-- The rows of one check; a core that predates it has none. -/
def resourceRowsOf (byName : String → Option Mapping) (resource : ResourceCheck) :
    Except Raised (List HostCheck) :=
  match byName resource.name with
  | none => .ok []
  | some check =>
      let state := stateOf (check.getD "status")
      if state = .unknown then
        -- A GPU check without a variant has nothing to measure, which is no gap in the panel.
        if resource.name = "gpu" ∧ ((detailsOf check).getD "variant").truthy = false then .ok []
        else
          .ok [{
            kind := resource.kind
            key := resource.name
            label := resource.label
            detail := ""
            state := .unknown
            reason := summaryOf check }]
      else resource.parse check state

/-- The rows of some checks, in their order. -/
def resourceRowsFrom (byName : String → Option Mapping) :
    List ResourceCheck → Except Raised (List HostCheck)
  | [] => .ok []
  | resource :: rest => do
      let rows ← resourceRowsOf byName resource
      let more ← resourceRowsFrom byName rest
      pure (rows ++ more)

/-- `_resource_rows`. -/
def resourceRows (byName : String → Option Mapping) : Except Raised (List HostCheck) :=
  resourceRowsFrom byName resourceChecks

/-! ### The document -/

/-- The rows that a parser makes of some entries. -/
def rowsFrom (parse : Val → Except Raised (Option HostCheck)) :
    List Val → Except Raised (List HostCheck)
  | [] => .ok []
  | entry :: rest => do
      let row ← parse entry
      let rows ← rowsFrom parse rest
      pure (row.toList ++ rows)

/-- The entries of a list in a check's details. -/
def entriesOf (check : Option Mapping) (field : String) : List Val :=
  match check with
  | some check => (((detailsOf check).getD field).list?).getD []
  | none => []

/-- `_rows`. -/
def rowsOf (check : Option Mapping) (field : String)
    (parse : Val → Except Raised (Option HostCheck)) : Except Raised (List HostCheck) :=
  rowsFrom parse (entriesOf check field)

/-- `_note`: why a check produced no rows, in the core's words. -/
def noteOf (check : Option Mapping) (rows : List HostCheck) : String :=
  match check with
  | some check => if rows.isEmpty then ((check.getD "summary").str?).getD "" else ""
  | none => ""

/-- The order of certificates: worst first, then soonest to expire, then by name. -/
def certBefore (one other : HostCheck) : Bool :=
  let days := fun row : HostCheck => row.daysLeft.getD 1000000000
  if one.state.severity ≠ other.state.severity then
    decide (one.state.severity < other.state.severity)
  else if days one ≠ days other then decide (days one < days other)
  else decide (one.label ≤ other.label)

/-- `_sort_certs`. -/
def sortCerts (certs : List HostCheck) : List HostCheck :=
  certs.mergeSort certBefore

/-- A check with a name. -/
def namedCheck (name : String) (check : Val) : Option Mapping :=
  match check.mapping? with
  | some check => if (check.getD "name").str? = some name then some check else none
  | none => none

/-- The check of a name; the last one where there are several. -/
def checkNamed (checks : List Val) (name : String) : Option Mapping :=
  checks.reverse.findSome? (namedCheck name)

/-- `_WANTED_CHECKS`. -/
def wantedChecks : List String :=
  ["memory", "cpu", "gpu", "time_sync", "disk_space", "certs"]

/-- `_CLUSTER_TITLES`. -/
def clusterTitles : List (String × String) :=
  [("nodes", "Nodes"), ("links", "Links")]

/-- `_cluster_checks`. -/
def clusterChecksOf (byName : String → Option Mapping) : List ClusterCheck :=
  clusterTitles.filterMap fun entry =>
    match byName entry.1 with
    | some check =>
        if (check.getD "status").str? = some "skip" then none
        else some {
          title := entry.2, state := stateOf (check.getD "status"), summary := summaryOf check }
    | none => none

/-- The reading of some checks. -/
def readChecks (now : Int) (byName : String → Option Mapping) : Except Raised HostHealth := do
  let disk := byName "disk_space"
  let cert := byName "certs"
  let resources ← resourceRows byName
  let disks ← rowsOf disk "paths" (parseDisk pkg)
  let certs ← rowsOf cert "certificates" (parseCert pkg)
  let notes := [noteOf disk disks, noteOf cert (sortCerts certs)].filter (· ≠ "")
  pure {
    available := true
    resources := resources
    disks := disks
    certs := sortCerts certs
    notes := notes
    checkedAt := now
    clusterChecks := clusterChecksOf byName }

/-- `document.get("checks")` as a list. -/
def checksOf (document : Mapping) : List Val :=
  ((document.getD "checks").list?).getD []

/-- The text for a schema that is another one. -/
def otherSchema (document : Mapping) : Except Raised String :=
  let schema := document.getD "schema_version"
  if printable schema then .ok ("doctor reports schema " ++ pkg.repr schema ++ ", not 1")
  else .error .value

/-- The reading of a parsed document. -/
def readDocument (now : Int) (document : Val) : Except Raised HostHealth :=
  match document.mapping? with
  | some document =>
      if (document.getD "schema_version").eqv (.int 1) then
        let byName := checkNamed (checksOf document)
        if wantedChecks.any fun name => (byName name).isSome then readChecks pkg now byName
        else .ok (unavailable now "doctor reported none of the host checks")
      else (otherSchema pkg document).map (unavailable now)
  | none => .ok (unavailable now "doctor did not return a JSON object")

/-- `parse_doctor`. -/
def parseDoctor (now : Int) (stdout : String) : Except Raised HostHealth :=
  match pkg.loads stdout with
  | none => .ok (unavailable now "doctor did not return JSON")
  | some document => readDocument pkg now document

/-- The report in the envelope of a node's answer: the last line's `doctor`. -/
def envelopeReport (stdout : String) : Option Val :=
  match (splitLines (strip stdout)).getLast? with
  | none => none
  | some line =>
      match (pkg.loads line).bind Val.mapping? with
      | some document => ((document.getD "doctor").mapping?).map Val.map
      | none => none

/-- `node_report`. -/
def nodeReport (stdout : String) : Except Raised (Option String) :=
  match envelopeReport pkg stdout with
  | none => .ok none
  | some report => if printable report then .ok (some (pkg.dumps report)) else .error .value

/-- `parse_node_doctor`. -/
def parseNodeDoctor (now : Int) (stdout : String) : Except Raised HostHealth := do
  match ← nodeReport pkg stdout with
  | none => pure (unavailable now "The node's doctor gave no readable answer.")
  | some report => parseDoctor pkg now report

end Papaia.Host
