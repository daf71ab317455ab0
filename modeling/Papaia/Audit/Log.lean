/-
Module: Papaia.Audit.Log
Purpose: The audit log, one JSON object a line: appending an entry, reading and filtering them, and
  pruning the old ones, over a file that may hold anything.
Trusted boundary: `json` and `datetime` of Python, on any text; a file as its characters and the
  bytes that are none
Main exports: Piece, Segment, segments, Entry, writeAuditEntry, queryEntries, pruneBefore
-/
import Papaia.Data.Text
import Papaia.Data.Value
import Mathlib.Data.List.Sort
import Mathlib.Data.String.Basic

namespace Papaia.Audit

open Text

/-! ### Files -/

/-- A character of a file, or a byte that is not UTF-8. -/
inductive Piece where
  | char (c : Char)
  | byte (b : UInt8)
deriving DecidableEq, Repr

/-- What ends a line, as universal newlines read it; the last line may have no end. -/
inductive Ending where
  | lf
  | crlf
  | cr
  | eof
deriving DecidableEq, Repr

structure Segment where
  pieces : List Piece
  ending : Ending
deriving DecidableEq, Repr

/-- The segments of a file; `line` is the one that was begun, backwards. -/
def segmentsFrom (line : List Piece) : List Piece → List Segment
  | [] => if line.isEmpty then [] else [⟨line.reverse, .eof⟩]
  | .char '\r' :: .char '\n' :: rest => ⟨line.reverse, .crlf⟩ :: segmentsFrom [] rest
  | .char '\r' :: rest => ⟨line.reverse, .cr⟩ :: segmentsFrom [] rest
  | .char '\n' :: rest => ⟨line.reverse, .lf⟩ :: segmentsFrom [] rest
  | piece :: rest => segmentsFrom (piece :: line) rest

def segments (file : List Piece) : List Segment :=
  segmentsFrom [] file

def Ending.pieces : Ending → List Piece
  | .lf => [.char '\n']
  | .crlf => [.char '\r', .char '\n']
  | .cr => [.char '\r']
  | .eof => []

/-- The bytes of a segment. -/
def Segment.raw (segment : Segment) : List Piece :=
  segment.pieces ++ segment.ending.pieces

def Piece.char? : Piece → Option Char
  | .char c => some c
  | .byte _ => none

def encode (text : String) : List Piece :=
  text.toList.map .char

/-- The text of a segment, without the end of its line. -/
def Segment.text? (segment : Segment) : Option String :=
  (segment.pieces.mapM Piece.char?).map String.ofList

/-- An exception that a call does not catch. -/
inductive Raised where
  | unicodeDecode
  | typeError
  /-- Whatever else `json.loads` raises. -/
  | loads
deriving DecidableEq, Repr

/-- The lines a text file is read as. -/
def readLines (file : List Piece) : Except Raised (List String) :=
  match (segments file).mapM Segment.text? with
  | some lines => .ok lines
  | none => .error .unicodeDecode

/-! ### Time stamps and entries -/

/-- A `datetime`, in microseconds: of the world's clock, or of an unknown one. -/
inductive Stamp where
  | aware (utc : Int)
  | naive (wall : Int)
deriving DecidableEq, Repr

/-- How `json.loads` fails: with a `JSONDecodeError`, or with something else. -/
inductive LoadFailure where
  | jsonDecode
  | other
deriving DecidableEq, Repr

/-- What the log takes from Python and its library. -/
structure Runtime where
  /-- `json.loads(text)`. -/
  loads : String → Except LoadFailure Val
  /-- `json.dumps(value)`. -/
  dumps : Val → String
  /-- `datetime.fromisoformat(text)`. -/
  fromIsoFormat : String → Option Stamp
  /-- `str(value)` of what is no text. -/
  str : Val → String
  /-- `text.lower()`. -/
  lower : String → String
  /-- `redact_params`. -/
  redactParams : Val → Val

/-- `str(value)`. -/
def Runtime.text (rt : Runtime) : Val → String
  | .str text => text
  | value => rt.str value

/-- The `dict` that is written for an entry. -/
def entryFields (ts user action target result : String) (params : Option Mapping)
    (jobId : Option String) : Mapping :=
  [(.str "ts", .str ts), (.str "user", .str user), (.str "action", .str action),
    (.str "target", .str target), (.str "result", .str result)] ++
    (params.map fun params => (.str "params", .map params)).toList ++
    (jobId.map fun jobId => (.str "job_id", .str jobId)).toList

/-- An entry as it is written, at a time of the clock: `json.dumps` puts it on one line between
braces, which `json.loads` gives back, and `fromisoformat` reads its time stamp. -/
structure Entry (rt : Runtime) where
  ts : String
  user : String
  action : String
  target : String
  result : String := "ok"
  params : Option Mapping := none
  jobId : Option String := none
  now : Int
  stamped : rt.fromIsoFormat ts = some (.aware now)
  loaded : rt.loads (rt.dumps (.map (entryFields ts user action target result params jobId))) =
    .ok (.map (entryFields ts user action target result params jobId))
  braced : ∃ inner : List Char, (rt.dumps (.map (entryFields ts user action target result params
    jobId))).toList = '{' :: inner ++ ['}'] ∧ '\n' ∉ inner ∧ '\r' ∉ inner

def Entry.fields {rt : Runtime} (entry : Entry rt) : Mapping :=
  entryFields entry.ts entry.user entry.action entry.target entry.result entry.params entry.jobId

/-- The line of an entry. -/
def Entry.line {rt : Runtime} (entry : Entry rt) : String :=
  rt.dumps (.map entry.fields)

/-- `write_audit_entry`, on a file that may not exist. -/
def writeAuditEntry {rt : Runtime} (file : Option (List Piece)) (entry : Entry rt) : List Piece :=
  file.getD [] ++ encode entry.line ++ [.char '\n']

/-! ### Reading -/

structure AuditEntry where
  ts : String
  user : String
  action : String
  target : String
  result : String
  params : Option Val := none
  jobId : Option String := none

/-- What an object of the log says; nothing where a field is missing. -/
def entryOf (rt : Runtime) : Val → Option AuditEntry
  | .map raw => do
      let ts ← Mapping.get? raw "ts"
      let user ← Mapping.get? raw "user"
      let action ← Mapping.get? raw "action"
      let target ← Mapping.get? raw "target"
      pure
        { ts := rt.text ts
          user := rt.text user
          action := rt.text action
          target := rt.text target
          result := ((Mapping.get? raw "result").map rt.text).getD "ok"
          params := (Mapping.get? raw "params").bind fun params =>
            match params with
            | .null => none
            | params => some (rt.redactParams params)
          jobId := (Mapping.get? raw "job_id").bind fun jobId =>
            match jobId with
            | .null => none
            | jobId => some (rt.text jobId) }
  | _ => none

/-- `_entry_from_line`. -/
def entryFromLine (rt : Runtime) (line : String) : Except Raised (Option AuditEntry) :=
  match rt.loads line with
  | .ok raw => .ok (entryOf rt raw)
  | .error .jsonDecode => .ok none
  | .error .other => .error .loads

/-- `_read_all`: the entries, and how many lines are corrupt. -/
def readAll (rt : Runtime) : Option (List Piece) → Except Raised (List AuditEntry × Nat)
  | none => .ok ([], 0)
  | some file => do
      let lines ← readLines file
      let read ← ((lines.map strip).filter (· ≠ "")).mapM (entryFromLine rt)
      pure (read.reduceOption, read.countP Option.isNone)

/-- `AuditFilter`; an empty text filters nothing. -/
structure AuditFilter where
  user : Option String := none
  action : Option String := none
  result : Option String := none
  target : Option String := none
  since : Option Int := none
  before : Option Int := none
deriving DecidableEq, Repr

/-- `needle.lower() in text.lower()`, where there is a needle. -/
def containsText (rt : Runtime) (needle : Option String) (text : String) : Bool :=
  match needle with
  | some needle => needle = "" || contains (rt.lower text) (rt.lower needle)
  | none => true

/-- `stamp < moment`. -/
def Stamp.lt (stamp : Stamp) (moment : Int) : Except Raised Bool :=
  match stamp with
  | .aware utc => .ok (utc < moment)
  | .naive _ => .error .typeError

/-- The texts that a filter looks for. -/
def matchesText (rt : Runtime) (entry : AuditEntry) (flt : AuditFilter) : Bool :=
  containsText rt flt.user entry.user && containsText rt flt.action entry.action &&
    containsText rt flt.result entry.result && containsText rt flt.target entry.target

/-- `_matches`. -/
def matchesFilter (rt : Runtime) (entry : AuditEntry) (flt : AuditFilter) : Except Raised Bool :=
  if !matchesText rt entry flt then .ok false
  else if flt.since = none ∧ flt.before = none then .ok true
  else
    match rt.fromIsoFormat entry.ts with
    | none => .ok false
    | some stamp => do
        if ← (flt.since.elim (.ok false) stamp.lt) then return false
        if ← (flt.before.elim (.ok false) fun before => (stamp.lt before).map (!·)) then
          return false
        return true

/-- The members that pass a test that may raise. -/
def keep {α : Type} (test : α → Except Raised Bool) : List α → Except Raised (List α)
  | [] => .ok []
  | first :: rest => do
      let passes ← test first
      let others ← keep test rest
      pure (if passes then first :: others else others)

structure AuditPage where
  entries : List AuditEntry
  total : Nat
  corruptLines : Nat
  userFacet : List String
  actionFacet : List String
  resultFacet : List String

/-- `sorted(set(values))`. -/
def facet (values : List String) : List String :=
  values.dedup.insertionSort (· ≤ ·)

/-- The matching entries, the newest first. -/
def newestFirst (entries : List AuditEntry) : List AuditEntry :=
  entries.insertionSort fun one other => other.ts ≤ one.ts

/-- `query_entries`. -/
def queryEntries (rt : Runtime) (file : Option (List Piece)) (flt : AuditFilter)
    (limit offset : Nat) : Except Raised AuditPage := do
  let (all, corrupt) ← readAll rt file
  let matched ← keep (matchesFilter rt · flt) all
  pure
    { entries := ((newestFirst matched).drop offset).take limit
      total := matched.length
      corruptLines := corrupt
      userFacet := facet (all.map AuditEntry.user)
      actionFacet := facet (all.map AuditEntry.action)
      resultFacet := facet (all.map AuditEntry.result) }

/-- `iter_entries`. -/
def iterEntries (rt : Runtime) (file : Option (List Piece)) (flt : AuditFilter) :
    Except Raised (List AuditEntry) := do
  let (all, _) ← readAll rt file
  let matched ← keep (matchesFilter rt · flt) all
  pure (newestFirst matched)

/-! ### Pruning -/

structure PruneResult where
  removed : Nat
  kept : Nat
  oldestRemoved : Option String
  newestRemoved : Option String
deriving DecidableEq, Repr

/-- The time stamp of a line, as text and as what it says. -/
def lineStamp (rt : Runtime) (line : String) : Except Raised (Option (String × Stamp)) :=
  match rt.loads line with
  | .ok (.map raw) => .ok ((Mapping.get? raw "ts").bind fun ts =>
      (rt.fromIsoFormat (rt.text ts)).map fun stamp => (rt.text ts, stamp))
  | .ok _ => .ok none
  | .error .jsonDecode => .ok none
  | .error .other => .error .loads

/-- The time stamp of a line that a prune removes. -/
def removedStamp (rt : Runtime) (cutoff : Int) (line : String) : Except Raised (Option String) := do
  match ← lineStamp rt line with
  | none => pure none
  | some (text, stamp) => pure (if ← stamp.lt cutoff then some text else none)

/-- What one pass over the lines finds: the lines to keep, and the time stamps of the others. -/
def sortOut (rt : Runtime) (cutoff : Int) : List String → Except Raised (List String × List String)
  | [] => .ok ([], [])
  | line :: rest => do
      let found ← if isBlank line then pure none else removedStamp rt cutoff line
      let (kept, removed) ← sortOut rt cutoff rest
      match found with
      | some ts => pure (kept, ts :: removed)
      | none => pure (if isBlank line then kept else line :: kept, removed)

/-- `prune_before`: the result and the file it leaves. -/
def pruneBefore (rt : Runtime) (file : Option (List Piece)) (cutoff : Int) (dryRun : Bool) :
    Except Raised (PruneResult × Option (List Piece)) :=
  match file with
  | none => .ok ({ removed := 0, kept := 0, oldestRemoved := none, newestRemoved := none }, none)
  | some content => do
      let lines ← readLines content
      let (kept, removed) ← sortOut rt cutoff lines
      let result : PruneResult :=
        { removed := removed.length, kept := kept.length
          oldestRemoved := removed.min?, newestRemoved := removed.max? }
      if removed.length = 0 ∨ dryRun then pure (result, some content)
      else pure (result, some (kept.flatMap fun line => encode line ++ [.char '\n']))

/-! ### The life of a log -/

/-- The file, and the entries that were written and that no prune was to remove. -/
structure State (rt : Runtime) where
  file : Option (List Piece) := none
  live : List (Entry rt) := []

inductive Event (rt : Runtime) where
  | write (entry : Entry rt)
  /-- Something else writes at the end of the file: a line by hand, or a part of one before a
  crash. -/
  | append (pieces : List Piece)
  | query (flt : AuditFilter) (limit offset : Nat)
  | prune (cutoff : Int) (dryRun : Bool)

def step {rt : Runtime} (s : State rt) : Event rt → Option (State rt)
  | .write entry =>
      some { file := some (writeAuditEntry s.file entry), live := s.live ++ [entry] }
  | .append pieces => some { s with file := some (s.file.getD [] ++ pieces) }
  | .query _ _ _ => some s
  | .prune cutoff dryRun =>
      match pruneBefore rt s.file cutoff dryRun with
      | .error _ => some s
      | .ok (_, file) =>
          some
            { file
              live := if dryRun then s.live else s.live.filter fun entry => cutoff ≤ entry.now }

end Papaia.Audit
