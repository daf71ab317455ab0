/-
Module: Papaia.Proofs.JobOutput
Purpose: The lines of a job do not depend on how the pipe cuts its output: at every moment what was
  handed on, followed by what the rest of the stream gives, is what the whole stream gives.
Trusted boundary: none
Main exports: reference, owed, Sound, Sound.next, lines_do_not_depend_on_chunks
-/
import Papaia.Jobs.Output

namespace Papaia.Jobs

/-! ### The reference -/

/-- The part behind the last newline; an empty one is no line. -/
def lastLine (part : Bytes) : List String :=
  if part.isEmpty then [] else [lineText part]

/-- The lines of a whole stream: one for every part that a newline ends, and the last part. -/
def reference (stream : Bytes) : List String :=
  let parts := stream.splitOn newlineByte
  parts.dropLast.map lineText ++ lastLine (parts.getLast?.getD [])

theorem splitOn_of_line {line : Bytes} (h : newlineByte ∉ line) (rest : Bytes) :
    (line ++ newlineByte :: rest).splitOn newlineByte = line :: rest.splitOn newlineByte := by
  apply List.splitOnP_append_cons_of_forall_mem _ newlineByte (by simp)
  intro byte hbyte
  have hne : byte ≠ newlineByte := fun heq => h (heq ▸ hbyte)
  simpa using hne

theorem reference_of_no_newline {part : Bytes} (h : newlineByte ∉ part) :
    reference part = lastLine part := by
  have hsplit : part.splitOn newlineByte = [part] := by
    apply List.splitOnP_eq_singleton
    intro byte hbyte
    have hne : byte ≠ newlineByte := fun heq => h (heq ▸ hbyte)
    simpa using hne
  rw [reference, hsplit]
  simp

theorem reference_of_line {line : Bytes} (h : newlineByte ∉ line) (rest : Bytes) :
    reference (line ++ newlineByte :: rest) = lineText line :: reference rest := by
  have hfilled : rest.splitOn newlineByte ≠ [] := List.splitOnP_ne_nil _ _
  rw [reference, splitOn_of_line h, reference]
  rw [List.dropLast_cons_of_ne_nil hfilled, List.map_cons, List.cons_append]
  rw [List.getLast?_cons_of_ne_nil hfilled]

/-- What is behind the first newline. -/
def afterNewline (bytes : Bytes) : Bytes :=
  (bytes.dropWhile (· ≠ newlineByte)).drop 1

theorem afterNewline_of_line {line : Bytes} (h : newlineByte ∉ line) (rest : Bytes) :
    afterNewline (line ++ newlineByte :: rest) = rest := by
  have hline : ∀ byte ∈ line, decide (byte ≠ newlineByte) = true := by
    intro byte hbyte
    have hne : byte ≠ newlineByte := fun heq => h (heq ▸ hbyte)
    simpa using hne
  rw [afterNewline, List.dropWhile_append_of_pos hline]
  simp

theorem afterNewline_of_no_newline {part : Bytes} (h : newlineByte ∉ part) (rest : Bytes) :
    afterNewline (part ++ rest) = afterNewline rest := by
  have hpart : ∀ byte ∈ part, decide (byte ≠ newlineByte) = true := by
    intro byte hbyte
    have hne : byte ≠ newlineByte := fun heq => h (heq ▸ hbyte)
    simpa using hne
  rw [afterNewline, List.dropWhile_append_of_pos hpart, afterNewline]

/-- A long line has its text before its end is known. -/
theorem reference_of_long {head : Bytes} (hlong : maxLineBytes < head.length)
    (h : newlineByte ∉ head) (rest : Bytes) :
    reference (head ++ rest) =
      clipLine (head.take maxLineBytes) :: reference (afterNewline rest) := by
  have hclip : ∀ more, lineText (head ++ more) = clipLine (head.take maxLineBytes) := by
    intro more
    have hmore : maxLineBytes < (head ++ more).length := by
      rw [List.length_append]
      omega
    rw [lineText, if_pos hmore, List.take_append_of_le_length (by omega)]
  by_cases hnewline : newlineByte ∈ rest
  · obtain ⟨line, behind, hrest, hline⟩ := List.eq_append_cons_of_mem hnewline
    have hwhole : newlineByte ∉ head ++ line := by simp [h, hline]
    rw [hrest, ← List.append_assoc, reference_of_line hwhole, afterNewline_of_line hline, hclip]
  · have hwhole : newlineByte ∉ head ++ rest := by simp [h, hnewline]
    have hfilled : (head ++ rest).isEmpty = false := by
      cases head with
      | nil => simp at hlong
      | cons => rfl
    have hnothing : afterNewline rest = [] := by
      have hafter := afterNewline_of_no_newline hnewline []
      rwa [List.append_nil] at hafter
    rw [reference_of_no_newline hwhole, lastLine, hfilled, hnothing, hclip]
    rfl

/-! ### What holds at every moment -/

/-- The lines that are still to come, with the bytes of the pipe behind what is pending. -/
def owed (b : Buffer) (rest : Bytes) : List String :=
  reference (if b.dropping then afterNewline (b.pending ++ rest) else b.pending ++ rest)

/-- The bytes a generator has not read. -/
def Reader.rest (r : Reader) : Bytes :=
  r.unread.flatMap Chunk.bytes

/-- What holds of a generator over a stream at every moment. -/
structure Sound (stream : Bytes) (r : Reader) : Prop where
  inside : r.buffer.searchFrom ≤ r.buffer.pending.length
  searched : newlineByte ∉ r.buffer.pending.take r.buffer.searchFrom
  bounded : r.buffer.pending.length ≤ maxLineBytes + chunkBytes
  read : r.inner = false → newlineByte ∉ r.buffer.pending
  short : r.inner = false → r.buffer.pending.length ≤ maxLineBytes
  dropped : r.inner = false → r.buffer.dropping = true → r.buffer.pending = []
  kept : r.yielded ++ owed r.buffer r.rest = reference stream

theorem newline_none {b : Buffer} (h : newlineByte ∉ b.pending.take b.searchFrom)
    (hnone : b.newline = none) : newlineByte ∉ b.pending := by
  rw [Buffer.newline, Option.map_eq_none_iff, List.idxOf?_eq_none_iff] at hnone
  rw [← List.take_append_drop b.searchFrom b.pending, List.mem_append]
  exact not_or.2 ⟨h, hnone⟩

/-- A newline is found where it first is, since none was passed by. -/
theorem newline_some {b : Buffer} {newline : Nat}
    (h : newlineByte ∉ b.pending.take b.searchFrom) (hsome : b.newline = some newline) :
    b.pending = b.pending.take newline ++ newlineByte :: b.pending.drop (newline + 1) ∧
      newlineByte ∉ b.pending.take newline := by
  rw [Buffer.newline, Option.map_eq_some_iff] at hsome
  obtain ⟨index, hindex, rfl⟩ := hsome
  obtain ⟨hlt, hbyte, hfirst⟩ := List.idxOf?_eq_some_iff.1 hindex
  rw [List.length_drop] at hlt
  rw [List.getElem_drop] at hbyte
  have hinside : b.searchFrom + index < b.pending.length := by omega
  constructor
  · conv_lhs => rw [← List.take_append_drop (b.searchFrom + index) b.pending]
    rw [List.drop_eq_getElem_cons hinside, hbyte]
  · intro hmem
    obtain ⟨place, hplace, hat⟩ := List.mem_iff_getElem.1 hmem
    rw [List.length_take] at hplace
    rw [List.getElem_take] at hat
    by_cases hbefore : place < b.searchFrom
    · apply h
      rw [List.mem_iff_getElem]
      exact ⟨place, by rw [List.length_take]; omega, by rw [List.getElem_take]; exact hat⟩
    · apply hfirst (place - b.searchFrom) (by omega)
      rw [List.getElem_drop]
      have hsum : b.searchFrom + (place - b.searchFrom) = place := by omega
      simp only [hsum]
      exact hat

/-- A turn of the inner loop hands on what it takes out of the buffer. -/
theorem owed_turn {b : Buffer} (h : newlineByte ∉ b.pending.take b.searchFrom) (rest : Bytes) :
    (turn b).yielded.toList ++ owed (turn b).buffer rest = owed b rest := by
  unfold turn
  cases hdropping : b.dropping with
  | true =>
      cases hnewline : b.newline with
      | none =>
          simp only [Option.toList_none, List.nil_append]
          rw [owed, owed, hdropping, if_pos rfl, if_pos rfl, List.nil_append,
            afterNewline_of_no_newline (newline_none h hnewline)]
      | some newline =>
          obtain ⟨hsplit, hline⟩ := newline_some h hnewline
          simp only [Option.toList_none, List.nil_append]
          rw [owed, owed, hdropping, if_pos rfl, if_neg (by simp)]
          conv_rhs => rw [hsplit, List.append_assoc, List.cons_append, afterNewline_of_line hline]
  | false =>
      cases hnewline : b.newline with
      | none =>
          have hnone := newline_none h hnewline
          by_cases hlong : maxLineBytes < b.pending.length
          · simp only [if_pos hlong, Option.toList_some, List.singleton_append]
            rw [owed, owed, hdropping, if_pos rfl, if_neg (by simp), List.nil_append,
              reference_of_long hlong hnone]
          · simp only [if_neg hlong, Option.toList_none, List.nil_append]
            rw [owed, owed, hdropping]
      | some newline =>
          obtain ⟨hsplit, hline⟩ := newline_some h hnewline
          simp only [Option.toList_some, List.singleton_append]
          rw [owed, owed, hdropping, if_neg (by simp), if_neg (by simp)]
          conv_rhs => rw [hsplit, List.append_assoc, List.cons_append, reference_of_line hline]

/-- After a turn the search starts behind bytes that are no newline, and there are no more bytes
than before. -/
theorem turn_buffer {b : Buffer} (h : newlineByte ∉ b.pending.take b.searchFrom) :
    (turn b).buffer.searchFrom ≤ (turn b).buffer.pending.length ∧
    newlineByte ∉ (turn b).buffer.pending.take (turn b).buffer.searchFrom ∧
      (turn b).buffer.pending.length ≤ b.pending.length := by
  unfold turn
  cases b.dropping with
  | true => cases b.newline <;> simp
  | false =>
      cases hnewline : b.newline with
      | none =>
          by_cases hlong : maxLineBytes < b.pending.length
          · simp [hlong]
          · simpa [hlong] using newline_none h hnewline
      | some newline => simp

/-- The loop ends with a buffer without a newline that is no longer than a line. -/
theorem turn_ends {b : Buffer} (h : newlineByte ∉ b.pending.take b.searchFrom)
    (hends : (turn b).again = false) :
    newlineByte ∉ (turn b).buffer.pending ∧ (turn b).buffer.pending.length ≤ maxLineBytes ∧
      ((turn b).buffer.dropping = true → (turn b).buffer.pending = []) := by
  unfold turn at hends ⊢
  cases hdropping : b.dropping with
  | true => cases hnewline : b.newline <;> simp_all
  | false =>
      cases hnewline : b.newline with
      | none =>
          by_cases hlong : maxLineBytes < b.pending.length
          · simp [hlong]
          · have hshort : b.pending.length ≤ maxLineBytes := by omega
            simp [hlong, hshort, newline_none h hnewline]
      | some newline => simp [hdropping, hnewline] at hends

theorem turn_again {b : Buffer} (h : (turn b).again = true) :
    (turn b).buffer.pending.length < b.pending.length := by
  have hfound : ∀ newline, b.newline = some newline →
      (b.pending.drop (newline + 1)).length < b.pending.length := by
    intro newline hnewline
    rw [Buffer.newline, Option.map_eq_some_iff] at hnewline
    obtain ⟨index, hindex, rfl⟩ := hnewline
    obtain ⟨hlt, -, -⟩ := List.idxOf?_eq_some_iff.1 hindex
    rw [List.length_drop] at hlt ⊢
    omega
  unfold turn at h ⊢
  cases hdropping : b.dropping <;> cases hnewline : b.newline with
  | none =>
      rw [hdropping, hnewline] at h
      revert h
      dsimp only
      try split
      all_goals simp
  | some newline => exact hfound newline hnewline

theorem Sound.next {stream : Bytes} {r r' : Reader} (h : Sound stream r) (hnext : r.next = some r') :
    Sound stream r' := by
  unfold Reader.next at hnext
  cases hinner : r.inner with
  | true =>
      rw [hinner, if_pos rfl] at hnext
      obtain rfl := Option.some.inj hnext
      have hbuffer := turn_buffer h.searched
      constructor
      case inside => exact hbuffer.1
      case searched => exact hbuffer.2.1
      case bounded => exact Nat.le_trans hbuffer.2.2 h.bounded
      case read => exact fun hends => (turn_ends h.searched hends).1
      case short => exact fun hends => (turn_ends h.searched hends).2.1
      case dropped => exact fun hends => (turn_ends h.searched hends).2.2
      case kept =>
        rw [List.append_assoc]
        refine Eq.trans ?_ h.kept
        exact congrArg (r.yielded ++ ·) (owed_turn h.searched r.rest)
  | false =>
      rw [hinner, if_neg (by simp)] at hnext
      cases hunread : r.unread with
      | nil => simp [hunread] at hnext
      | cons chunk unread =>
          rw [hunread] at hnext
          obtain rfl := Option.some.inj hnext
          have hshort := h.short hinner
          constructor
          case inside =>
            simp only [List.length_append]
            exact Nat.le_trans h.inside (Nat.le_add_right _ _)
          case searched =>
            simp only [List.take_append_of_le_length h.inside]
            exact h.searched
          case bounded =>
            have hchunk := chunk.bounded
            simp only [List.length_append]
            omega
          case read => simp
          case short => simp
          case dropped => simp
          case kept =>
            have hkept := h.kept
            rw [Reader.rest, hunread, List.flatMap_cons] at hkept
            rw [← hkept]
            simp [owed, Reader.rest]

/-! ### The whole run -/

/-- What is left to do before the end of the pipe: every moment takes some of it. -/
def Reader.work (r : Reader) : Nat :=
  3 * r.unread.length + (r.buffer.pending.length + r.rest.length) + if r.inner then 1 else 0

theorem work_next {stream : Bytes} {r r' : Reader} (h : Sound stream r)
    (hnext : r.next = some r') : r'.work < r.work := by
  unfold Reader.next at hnext
  cases hinner : r.inner with
  | true =>
      rw [hinner, if_pos rfl] at hnext
      obtain rfl := Option.some.inj hnext
      have hless := (turn_buffer h.searched).2.2
      simp only [Reader.work, Reader.rest, hinner, if_true]
      cases hagain : (turn r.buffer).again with
      | true =>
          have hstrict := turn_again hagain
          simp only [if_true]
          omega
      | false =>
          simp only [Bool.false_eq_true, if_false]
          omega
  | false =>
      rw [hinner, if_neg (by simp)] at hnext
      cases hunread : r.unread with
      | nil => simp [hunread] at hnext
      | cons chunk unread =>
          rw [hunread] at hnext
          obtain rfl := Option.some.inj hnext
          simp only [Reader.work, Reader.rest, hinner, hunread, List.length_append, List.flatMap_cons,
            List.length_cons, if_true, Bool.false_eq_true, if_false]
          omega

theorem Sound.comes {stream : Bytes} {r r' : Reader} (h : Sound stream r) (hcomes : r.Comes r') :
    Sound stream r' := by
  induction hcomes with
  | refl => exact h
  | tail _ hnext ih => exact ih.next hnext

/-- The loop comes to the end of its pipe. -/
theorem Sound.ends {stream : Bytes} {r : Reader} (h : Sound stream r) :
    ∃ last, r.Comes last ∧ last.next = none := by
  induction hwork : r.work using Nat.strongRecOn generalizing r with
  | _ work ih =>
      cases hnext : r.next with
      | none => exact ⟨r, .refl, hnext⟩
      | some r' =>
          have hless := work_next h hnext
          obtain ⟨last, hcomes, hlast⟩ := ih r'.work (by omega) (h.next hnext) rfl
          exact ⟨last, .head hnext hcomes, hlast⟩

/-- At the end of the pipe only the last part is owed. -/
theorem Sound.printed {stream : Bytes} {r : Reader} (h : Sound stream r) (hend : r.next = none) :
    r.printed = reference stream := by
  unfold Reader.next at hend
  cases hinner : r.inner with
  | true => simp [hinner] at hend
  | false =>
      cases hunread : r.unread with
      | cons chunk unread => simp [hinner, hunread] at hend
      | nil =>
          have hrest : r.rest = [] := by simp [Reader.rest, hunread]
          have hshort : ¬maxLineBytes < r.buffer.pending.length := by
            have := h.short hinner
            omega
          have hkept := h.kept
          rw [hrest, owed, List.append_nil] at hkept
          rw [← hkept, Reader.printed]
          cases hdropping : r.buffer.dropping with
          | true =>
              have hnothing : reference (afterNewline []) = [] := rfl
              rw [h.dropped hinner hdropping]
              simp [hnothing]
          | false =>
              rw [if_neg (by simp : ¬(false = true)), reference_of_no_newline (h.read hinner),
                lastLine, Bool.or_false]
              cases hempty : r.buffer.pending.isEmpty with
              | true => simp
              | false => simp [lineText, hshort]

/-- The lines of a stream are those of the reference, however the pipe cuts it, and the buffer never
holds more than a line and a chunk. -/
theorem lines_do_not_depend_on_chunks (chunks : List Chunk) :
    (∃ last, Reader.Comes { unread := chunks } last ∧ last.next = none) ∧
      ∀ r, Reader.Comes { unread := chunks } r →
        r.buffer.pending.length ≤ maxLineBytes + chunkBytes ∧
          (r.next = none → r.printed = reference (chunks.flatMap Chunk.bytes)) := by
  have hstart : Sound (chunks.flatMap Chunk.bytes) { unread := chunks } := by
    constructor <;> simp [owed, Reader.rest]
  refine ⟨hstart.ends, ?_⟩
  intro r hcomes
  have hsound := hstart.comes hcomes
  exact ⟨hsound.bounded, hsound.printed⟩

end Papaia.Jobs
