/-
Module: Papaia.Backup.RestorePoint
Purpose: The backup catalogue: when a restore point was taken, which one is the newest good one,
  and which ones a retention deletes.
Trusted boundary: Calendar (`datetime.fromisoformat`)
Main exports: RestorePoint, Calendar, restorePointTime, newestSuccessful, expired, countOlderThan
-/
import Papaia.Data.Text

namespace Papaia.Backup

/-! ### Spans of time, in microseconds -/

def second : Int := 1000000
def minute : Int := 60 * second
def hour : Int := 60 * minute
def day : Int := 24 * hour

/-! ### Restore points -/

structure RestorePoint where
  id : String
  createdAt : String := ""
  result : String := ""
  scope : List String := []
deriving DecidableEq, Repr

/-- `is_scoped`. -/
def RestorePoint.isScoped (point : RestorePoint) : Bool :=
  !point.scope.isEmpty

/-- The reading of a time stamp. -/
structure Calendar where
  /-- `datetime.fromisoformat`, as microseconds of UTC; a text without an offset is UTC. -/
  fromIso : String → Option Int

/-- `text.replace("Z", "+00:00")`. -/
def spellOffset (text : String) : String :=
  String.ofList (text.toList.flatMap fun c => if c = 'Z' then "+00:00".toList else [c])

/-- `restore_point_time`. -/
def restorePointTime (calendar : Calendar) (point : RestorePoint) : Option Int :=
  if point.createdAt = "" then none else calendar.fromIso (spellOffset point.createdAt)

/-- Whether a restore point counts as a good backup: the whole stack, finished `ok`. -/
def RestorePoint.isGood (point : RestorePoint) : Bool :=
  point.result == "ok" && !point.isScoped

/-- The good restore points that have a time. -/
def datedGood (calendar : Calendar) (points : List RestorePoint) : List (Int × RestorePoint) :=
  (points.filter RestorePoint.isGood).filterMap fun point =>
    (restorePointTime calendar point).map fun taken => (taken, point)

/-- The later of two, and the first one of two of the same time: how `max` picks. -/
def later (best next : Int × RestorePoint) : Int × RestorePoint :=
  if best.1 < next.1 then next else best

/-- `newest_successful`. -/
def newestSuccessful (calendar : Calendar) (points : List RestorePoint) : Option RestorePoint :=
  match datedGood calendar points with
  | [] => none
  | first :: rest => some (rest.foldl later first).2

/-- Whether a retention deletes a restore point: strictly older than the cutoff, and with a time
that can be read. -/
def expired (calendar : Calendar) (cutoff : Int) (point : RestorePoint) : Bool :=
  (restorePointTime calendar point).any fun taken => taken < cutoff

/-- `count_older_than`. -/
def countOlderThan (calendar : Calendar) (points : List RestorePoint) (days now : Int) : Nat :=
  (points.filter (expired calendar (now - days * day))).length

/-- The catalogue in the order the manager shows it: newest first, by the text of the time. -/
def newestFirst (points : List RestorePoint) : List RestorePoint :=
  points.mergeSort fun a b => decide (b.createdAt ≤ a.createdAt)

end Papaia.Backup
