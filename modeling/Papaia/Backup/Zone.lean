/-
Module: Papaia.Backup.Zone
Purpose: `zone` of `core/schedule.py`: the shape a zone name has before the zone table is asked.
Trusted boundary: the zone table is a parameter
Main exports: isZoneName, zoneError
-/
import Papaia.Data.Text

namespace Papaia.Backup

open Text

/-- The characters of one part of a zone name. -/
def isZonePart (part : List Char) : Bool :=
  !part.isEmpty && part.all fun c => c.isAlphanum || c == '_' || c == '+' || c == '-'

/-- `_TZ_NAME`: one to three parts.  The pattern's end also stands before a last newline. -/
def isZoneName (name : String) : Bool :=
  let line := match name.toList.reverse with
    | '\n' :: rest => rest.reverse
    | _ => name.toList
  let parts := line.splitOn '/'
  parts.length ≤ 3 && parts.all isZonePart

/-- Why a name is no zone.  `shown` is the name as `%r` shows it. -/
def zoneError (knows : String → Bool) (shown name : String) : Option String :=
  if isZoneName name && knows name then none
  else some ("Unknown timezone " ++ shown ++ ". Use an IANA name such as Europe/Berlin or UTC.")

end Papaia.Backup
