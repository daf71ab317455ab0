/-
Module: Papaia.Jobs.Output
Purpose: The output of a job's subprocess as `_stream_subprocess` cuts it into lines: what the loop
  keeps between two reads of the pipe, and what it hands on.
Trusted boundary: the pipe (`read` gives at most 65536 bytes, and none only at the end)
Main exports: Chunk, Buffer, turn, Reader, Reader.next, Reader.printed, Utf8.decode
-/
import Papaia.Data.Text
import Mathlib.Logic.Relation

namespace Papaia.Jobs

open Text

abbrev Bytes := List UInt8

/-! ### `bytes.decode("utf-8", errors="replace")` -/

namespace Utf8

/-- How many bytes follow a first byte, and the range of the first of them. -/
def tailOf (lead : UInt8) : Option (Nat × UInt8 × UInt8) :=
  if lead < 0xc2 then none
  else if lead ≤ 0xdf then some (1, 0x80, 0xbf)
  else if lead = 0xe0 then some (2, 0xa0, 0xbf)
  else if lead = 0xed then some (2, 0x80, 0x9f)
  else if lead ≤ 0xef then some (2, 0x80, 0xbf)
  else if lead = 0xf0 then some (3, 0x90, 0xbf)
  else if lead ≤ 0xf3 then some (3, 0x80, 0xbf)
  else if lead = 0xf4 then some (3, 0x80, 0x8f)
  else none

/-- The bytes that continue a character, of which the first is in a range of its own. -/
def continued (low high : UInt8) : Bytes → Bytes
  | [] => []
  | byte :: rest =>
      if low ≤ byte && byte ≤ high then byte :: continued 0x80 0xbf rest else []

/-- The characters of some bytes.  What is no character becomes one replacement; a character that
the end cuts off is one too when the bytes are all there are, and nothing otherwise. -/
def charsFrom (final : Bool) : Nat → Bytes → List Char
  | 0, _ => []
  | _, [] => []
  | fuel + 1, lead :: rest =>
      if lead < 0x80 then Char.ofNat lead.toNat :: charsFrom final fuel rest
      else
        match tailOf lead with
        | none => '\ufffd' :: charsFrom final fuel rest
        | some (count, low, high) =>
            let found := continued low high (rest.take count)
            if found.length = count then
              let code := found.foldl (fun code byte => 64 * code + byte.toNat % 64)
                (lead.toNat % 2 ^ (6 - count))
              Char.ofNat code :: charsFrom final fuel (rest.drop count)
            else if found.length = rest.length && !final then []
            else '\ufffd' :: charsFrom final fuel (rest.drop found.length)

/-- `decode(raw, final)`. -/
def decode (raw : Bytes) (final : Bool) : List Char :=
  charsFrom final raw.length raw

end Utf8

/-! ### Lines -/

/-- `MAX_LINE_BYTES`. -/
def maxLineBytes : Nat := 1024 * 1024

/-- The most that one `read` of the pipe returns. -/
def chunkBytes : Nat := 65536

/-- `TRUNCATION_MARKER`. -/
def truncationMarker : String := "... [truncated]"

/-- `b"\n"`. -/
def newlineByte : UInt8 := 10

/-- `_clip_line`: the beginning of an over-long line, ending in the marker. -/
def clipLine (head : Bytes) : String :=
  String.ofList (Utf8.decode head false) ++ truncationMarker

/-- `line.decode(errors="replace").rstrip()`. -/
def plainLine (line : Bytes) : String :=
  String.ofList (rstrip (Utf8.decode line true))

/-- What a line that is complete is handed on as. -/
def lineText (line : Bytes) : String :=
  if maxLineBytes < line.length then clipLine (line.take maxLineBytes) else plainLine line

/-! ### The loop -/

/-- What the loop keeps: the pending bytes, where the search for a newline goes on, and whether the
rest of an over-long line is being dropped. -/
structure Buffer where
  pending : Bytes := []
  searchFrom : Nat := 0
  dropping : Bool := false
deriving DecidableEq, Repr

/-- `pending.find(b"\n", search_from)`. -/
def Buffer.newline (b : Buffer) : Option Nat :=
  ((b.pending.drop b.searchFrom).idxOf? newlineByte).map (b.searchFrom + ·)

/-- What one turn of the inner loop does: the buffer it leaves, the line it yields, and whether the
loop goes on. -/
structure Turn where
  buffer : Buffer
  yielded : Option String := none
  again : Bool := false
deriving DecidableEq, Repr

/-- One turn of the inner loop. -/
def turn (b : Buffer) : Turn :=
  match b.dropping, b.newline with
  | true, none => { buffer := { pending := [], searchFrom := 0, dropping := true } }
  | true, some newline =>
      { buffer := { pending := b.pending.drop (newline + 1), searchFrom := 0, dropping := false }
        again := true }
  | false, none =>
      if maxLineBytes < b.pending.length then
        { buffer := { pending := [], searchFrom := 0, dropping := true }
          yielded := some (clipLine (b.pending.take maxLineBytes)) }
      else { buffer := { b with searchFrom := b.pending.length } }
  | false, some newline =>
      { buffer := { pending := b.pending.drop (newline + 1), searchFrom := 0, dropping := false }
        yielded := some (lineText (b.pending.take newline))
        again := true }

/-- What one `read` returns before the end of the pipe. -/
structure Chunk where
  bytes : Bytes
  filled : bytes ≠ []
  bounded : bytes.length ≤ chunkBytes

/-- The generator between two of its moments: in the inner loop, or about to read. -/
structure Reader where
  buffer : Buffer := {}
  inner : Bool := false
  unread : List Chunk
  yielded : List String := []

/-- One moment to the next; none at the end of the pipe. -/
def Reader.next (r : Reader) : Option Reader :=
  if r.inner then
    let done := turn r.buffer
    some { r with
      buffer := done.buffer, inner := done.again, yielded := r.yielded ++ done.yielded.toList }
  else
    match r.unread with
    | [] => none
    | chunk :: unread =>
        some { r with
          buffer := { r.buffer with pending := r.buffer.pending ++ chunk.bytes }
          inner := true, unread := unread }

/-- The lines of a generator at the end of its pipe: what is pending is the last one. -/
def Reader.printed (r : Reader) : List String :=
  if r.buffer.pending.isEmpty || r.buffer.dropping then r.yielded
  else r.yielded ++ [plainLine r.buffer.pending]

/-- The moments a generator comes to. -/
def Reader.Comes : Reader → Reader → Prop :=
  Relation.ReflTransGen fun r r' => r.next = some r'

end Papaia.Jobs
