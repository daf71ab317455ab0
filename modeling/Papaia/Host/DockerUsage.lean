/-
Module: Papaia.Host.DockerUsage
Purpose: What Docker's data takes, from the `docker_usage` check of a `doctor --json` document.
Trusted boundary: DoctorPackage (the JSON library, the texts Python makes of a value)
Main exports: DockerUsageRow, DockerUsage, usageRow, parseDockerUsage
-/
import Papaia.Host.Doctor

namespace Papaia.Host

open Text

/-- One line of `docker system df`. -/
structure DockerUsageRow where
  key : String
  label : String
  count : Option Int
  active : Option Int
  sizeBytes : Int
  reclaimableBytes : Option Int
  percent : PyFloat
deriving Repr

/-- One reading of Docker's disk use, or the reason there is none. -/
structure DockerUsage where
  available : Bool
  reason : String := ""
  rows : List DockerUsageRow := []
  totalBytes : Int := 0
  reclaimableBytes : Int := 0
  checkedAt : Int
deriving Repr

/-- `unavailable`. -/
def usageUnavailable (now : Int) (reason : String) : DockerUsage :=
  { available := false, reason := reason, checkedAt := now }

variable (pkg : DoctorPackage)

/-- `_ROWS`. -/
def usageLabels : List (String × String) :=
  [("images", "Images"), ("containers", "Containers"), ("volumes", "Volumes"),
    ("build_cache", "Build cache")]

/-- `round(min(max(100.0 * size / total, 0.0), 100.0), 1)`, nothing being a share of nothing. -/
def shareOf (size total : Int) : Except Raised PyFloat :=
  if total = 0 then .ok (.finite 0)
  else do
    let size ← toFloat size
    let total ← toFloat total
    pure (clamped (match times size 100, total with
      | .finite part, .finite whole => ofExact (part / whole)
      | .infinite negative, .finite whole => .infinite (negative != decide (whole < 0))
      | other, _ => other))

/-- `_row`. -/
def usageRow (key label : String) (entry : Val) (total : Int) :
    Except Raised (Option DockerUsageRow) :=
  match entry.mapping? with
  | some entry =>
      match int? (entry.getD "size_bytes") with
      | none => .ok none
      | some size =>
          (shareOf size total).map fun share =>
            some {
              key := key
              label := label
              count := int? (entry.getD "count")
              active := int? (entry.getD "active")
              sizeBytes := size
              reclaimableBytes := int? (entry.getD "reclaimable_bytes")
              percent := share }
  | none => .ok none

/-- The size of an entry that has one. -/
def sizeOf? (entry : Val) : Option Int :=
  entry.mapping?.bind fun entry => int? (entry.getD "size_bytes")

/-- The sizes of the rows that are shown. -/
def usageSizes (types : Mapping) : List Int :=
  usageLabels.filterMap fun entry => sizeOf? (types.getD entry.1)

/-- The rows of some kinds of data. -/
def usageRows (types : Mapping) (total : Int) :
    List (String × String) → Except Raised (List DockerUsageRow)
  | [] => .ok []
  | (key, label) :: rest => do
      let row ← usageRow key label (types.getD key) total
      let rows ← usageRows types total rest
      pure (row.toList ++ rows)

/-- `parse_docker_usage` from the check on. -/
def readUsage (now : Int) (check : Mapping) : Except Raised DockerUsage :=
  let reason := summaryOf check
  if (check.getD "status").str? ≠ some "pass" then
    .ok (usageUnavailable now (if reason = "" then "docker_usage could not be read" else reason))
  else
    match ((detailsOf check).getD "types").mapping? with
    | none =>
        .ok (usageUnavailable now "doctor reported docker_usage without figures")
    | some types =>
        (usageRows types (usageSizes types).sum usageLabels).map fun rows =>
          if rows.isEmpty then usageUnavailable now "doctor reported docker_usage without figures"
          else {
            available := true
            rows := rows
            totalBytes := (rows.map DockerUsageRow.sizeBytes).sum
            reclaimableBytes := (rows.map fun row => row.reclaimableBytes.getD 0).sum
            checkedAt := now }

/-- The first check with the name. -/
def usageCheck (checks : List Val) : Option Mapping :=
  checks.findSome? (namedCheck "docker_usage")

/-- `parse_docker_usage`. -/
def parseDockerUsage (now : Int) (stdout : String) : Except Raised DockerUsage :=
  match pkg.loads stdout with
  | none => .ok (usageUnavailable now "doctor did not return JSON")
  | some document =>
      match document.mapping? with
      | none => .ok (usageUnavailable now "doctor did not return a JSON object")
      | some document =>
          if (document.getD "schema_version").eqv (.int 1) then
            match usageCheck (checksOf document) with
            | none => .ok (usageUnavailable now "doctor did not report docker_usage")
            | some check => readUsage now check
          else (otherSchema pkg document).map (usageUnavailable now)

end Papaia.Host
