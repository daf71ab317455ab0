/-
Module: Papaia.Proofs.AuditLog
Purpose: When the audit log loses nothing and a prune removes what it says: every append finds an
  ended line, and no line holds what a reader stumbles over or a rewrite does not give back.
Trusted boundary: none
Main exports: Lawful, Foreseen, Sound, sound_step, auditLog_runs
-/
import Papaia.Audit.Log
import Papaia.Lib.Lines
import Papaia.Lib.Runs
import Mathlib.Data.List.ReduceOption

namespace Papaia.Audit

open Text Lines

/-! ### Segments -/

/-- Pieces that end no line. -/
def Plain (pieces : List Piece) : Prop :=
  ∀ piece ∈ pieces, piece ≠ .char '\n' ∧ piece ≠ .char '\r'

theorem segmentsFrom_cons {line rest : List Piece} {piece : Piece}
    (h : piece ≠ .char '\n' ∧ piece ≠ .char '\r') :
    segmentsFrom line (piece :: rest) = segmentsFrom (piece :: line) rest := by
  conv_lhs => unfold segmentsFrom
  split
  · next heq => cases heq
  · next heq =>
      obtain ⟨rfl, -⟩ := List.cons.inj heq
      exact absurd rfl h.2
  · next heq =>
      obtain ⟨rfl, -⟩ := List.cons.inj heq
      exact absurd rfl h.2
  · next heq =>
      obtain ⟨rfl, -⟩ := List.cons.inj heq
      exact absurd rfl h.1
  · next heq =>
      obtain ⟨rfl, rfl⟩ := List.cons.inj heq
      rfl

theorem segmentsFrom_return {line rest : List Piece} (h : rest.head? ≠ some (.char '\n')) :
    segmentsFrom line (.char '\r' :: rest) = ⟨line.reverse, .cr⟩ :: segmentsFrom [] rest := by
  conv_lhs => unfold segmentsFrom
  split
  · next heq => cases heq
  · next heq =>
      obtain ⟨-, rfl⟩ := List.cons.inj heq
      exact absurd rfl h
  · next heq =>
      obtain ⟨-, rfl⟩ := List.cons.inj heq
      rfl
  · next heq => cases (List.cons.inj heq).1
  · next _ hcr _ heq =>
      obtain ⟨rfl, rfl⟩ := List.cons.inj heq
      exact absurd rfl hcr

/-- Pieces that end no line belong to the line that was begun. -/
theorem segmentsFrom_plain {pieces line rest : List Piece} (h : Plain pieces) :
    segmentsFrom line (pieces ++ rest) = segmentsFrom (pieces.reverse ++ line) rest := by
  induction pieces generalizing line with
  | nil => rfl
  | cons piece pieces ih =>
      rw [List.cons_append, segmentsFrom_cons (h piece List.mem_cons_self),
        ih fun other hother => h other (List.mem_cons_of_mem _ hother)]
      simp

/-- A file is its segments. -/
theorem flatMap_raw_segmentsFrom (line file : List Piece) :
    (segmentsFrom line file).flatMap Segment.raw = line.reverse ++ file := by
  fun_induction segmentsFrom line file with
  | case1 line hempty => simp [List.isEmpty_iff.1 hempty]
  | case2 line hempty => simp [Segment.raw, Ending.pieces]
  | case3 line rest ih => simp [Segment.raw, Ending.pieces, ih]
  | case4 line rest hnot ih => simp [Segment.raw, Ending.pieces, ih]
  | case5 line rest ih => simp [Segment.raw, Ending.pieces, ih]
  | case6 line piece rest _ _ _ ih => simp [ih]

theorem plain_of_mem_segmentsFrom {line file : List Piece} (hline : Plain line) :
    ∀ segment ∈ segmentsFrom line file, Plain segment.pieces := by
  have hreverse : ∀ line : List Piece, Plain line → Plain line.reverse :=
    fun line hline piece hpiece => hline piece (List.mem_reverse.1 hpiece)
  have hnil : Plain [] := fun _ hpiece => nomatch hpiece
  fun_induction segmentsFrom line file with
  | case1 => simp
  | case2 line =>
      intro segment hsegment
      obtain rfl := List.mem_singleton.1 hsegment
      exact hreverse line hline
  | case3 line rest ih | case4 line rest _ ih | case5 line rest ih =>
      intro segment hsegment
      rcases List.mem_cons.1 hsegment with rfl | hrest
      · exact hreverse line hline
      · exact ih hnil segment hrest
  | case6 line piece rest hcrlf hcr hlf ih =>
      apply ih
      intro other hother
      rcases List.mem_cons.1 hother with rfl | hold
      · exact ⟨hlf, hcr⟩
      · exact hline other hold

/-- What follows a file whose last line is ended has segments of its own. -/
theorem segmentsFrom_append {line file more : List Piece}
    (hended : ∀ segment ∈ segmentsFrom line file, segment.ending ≠ .eof)
    (hmore : more.head? ≠ some (.char '\n')) :
    segmentsFrom line (file ++ more) = segmentsFrom line file ++ segments more := by
  fun_induction segmentsFrom line file with
  | case1 line hempty => simp [List.isEmpty_iff.1 hempty, segments]
  | case2 line hempty => exact absurd rfl (hended _ List.mem_cons_self)
  | case3 line rest ih =>
      have hrest := ih fun segment hsegment => hended segment (List.mem_cons_of_mem _ hsegment)
      simp only [List.cons_append, segmentsFrom, hrest]
  | case4 line rest hnot ih =>
      have hrest := ih fun segment hsegment => hended segment (List.mem_cons_of_mem _ hsegment)
      have hnext : (rest ++ more).head? ≠ some (.char '\n') := by
        cases rest with
        | nil => exact hmore
        | cons first rest =>
            intro hfirst
            obtain rfl := Option.some.inj hfirst
            exact hnot rest rfl
      rw [List.cons_append, segmentsFrom_return hnext, hrest]
      rfl
  | case5 line rest ih =>
      have hrest := ih fun segment hsegment => hended segment (List.mem_cons_of_mem _ hsegment)
      simp only [List.cons_append, segmentsFrom, hrest]
  | case6 line piece rest hcrlf hcr hlf ih =>
      rw [List.cons_append, segmentsFrom_cons ⟨hlf, hcr⟩]
      exact ih hended

/-- Whatever follows, the lines that were ended with a line feed stay. -/
theorem filter_lf_sublist (line file more : List Piece) :
    ((segmentsFrom line file).filter fun segment => segment.ending = .lf).Sublist
      (segmentsFrom line (file ++ more)) := by
  fun_induction segmentsFrom line file with
  | case1 => simp
  | case2 => simp
  | case3 line rest ih =>
      simp only [List.cons_append, segmentsFrom]
      exact ih.cons _
  | case4 line rest hnot ih =>
      rw [List.filter_cons_of_neg (by simp)]
      cases rest with
      | nil => simp [segmentsFrom]
      | cons first rest =>
          have hnext : (first :: rest ++ more).head? ≠ some (.char '\n') := by
            intro hfirst
            obtain rfl := Option.some.inj hfirst
            exact hnot rest rfl
          rw [List.cons_append, segmentsFrom_return hnext]
          exact ih.cons _
  | case5 line rest ih =>
      rw [List.filter_cons_of_pos (by simp)]
      simp only [List.cons_append, segmentsFrom]
      exact ih.cons_cons _
  | case6 line piece rest hcrlf hcr hlf ih =>
      rw [List.cons_append, segmentsFrom_cons ⟨hlf, hcr⟩]
      exact ih

/-- Lines that are each ended with a line feed come back. -/
theorem segments_flatMap_raw {lines : List Segment}
    (h : ∀ segment ∈ lines, segment.ending = .lf ∧ Plain segment.pieces) :
    segments (lines.flatMap Segment.raw) = lines := by
  induction lines with
  | nil => rfl
  | cons first rest ih =>
      obtain ⟨hlf, hplain⟩ := h first List.mem_cons_self
      have hraw : (first :: rest).flatMap Segment.raw =
          first.pieces ++ .char '\n' :: rest.flatMap Segment.raw := by
        simp [Segment.raw, hlf, Ending.pieces]
      have hrest := ih fun segment hsegment => h segment (List.mem_cons_of_mem _ hsegment)
      unfold segments at hrest ⊢
      rw [hraw, segmentsFrom_plain hplain]
      simp only [segmentsFrom, hrest]
      cases first
      simp only [List.append_nil, List.reverse_reverse, List.cons.injEq, Segment.mk.injEq, true_and,
        and_true]
      exact hlf.symm

/-! ### Text -/

theorem text?_encode (text : String) (ending : Ending) :
    Segment.text? ⟨encode text, ending⟩ = some text := by
  have hchars : ∀ chars : List Char, (chars.map Piece.char).mapM Piece.char? = some chars := by
    intro chars
    induction chars with
    | nil => rfl
    | cons c rest ih =>
        rw [List.map_cons, List.mapM_cons, ih]
        rfl
  unfold Segment.text? encode
  rw [hchars]
  simp

/-- The text of a segment is encoded as the pieces it was read from. -/
theorem encode_of_text? {segment : Segment} {text : String} (h : segment.text? = some text) :
    encode text = segment.pieces := by
  have hchars : ∀ (pieces : List Piece) (chars : List Char), pieces.mapM Piece.char? = some chars →
      chars.map Piece.char = pieces := by
    intro pieces
    induction pieces with
    | nil =>
        intro chars hchars
        obtain rfl := Option.some.inj hchars
        rfl
    | cons piece rest ih =>
        intro chars hchars
        rw [List.mapM_cons] at hchars
        obtain ⟨c, hc, hrest⟩ := Option.bind_eq_some_iff.1 hchars
        obtain ⟨others, hothers, hcons⟩ := Option.bind_eq_some_iff.1 hrest
        obtain rfl := Option.some.inj hcons
        rw [List.map_cons, ih others hothers]
        cases piece with
        | byte => cases hc
        | char =>
            obtain rfl := Option.some.inj hc
            rfl
  unfold Segment.text? at h
  obtain ⟨chars, hread, rfl⟩ := Option.map_eq_some_iff.1 h
  unfold encode
  rw [String.toList_ofList]
  exact hchars _ _ hread

/-- The text of a segment that has one. -/
def Segment.line (segment : Segment) : String :=
  segment.text?.getD ""

/-- A file without bytes that are no text is read line by line. -/
theorem readLines_eq {file : List Piece} (h : ∀ segment ∈ segments file, segment.text?.isSome) :
    readLines file = .ok ((segments file).map Segment.line) := by
  have hlines : ∀ l : List Segment, (∀ segment ∈ l, segment.text?.isSome) →
      l.mapM Segment.text? = some (l.map Segment.line) := by
    intro l
    induction l with
    | nil => exact fun _ => rfl
    | cons first rest ih =>
        intro hl
        obtain ⟨text, htext⟩ := Option.isSome_iff_exists.1 (hl first List.mem_cons_self)
        rw [List.mapM_cons, ih fun segment hsegment => hl segment (List.mem_cons_of_mem _ hsegment)]
        simp [htext, Segment.line]
  unfold readLines
  rw [hlines _ h]

/-! ### The law -/

variable {rt : Runtime}

/-- What the readers make of a written entry. -/
def Entry.returned (entry : Entry rt) : AuditEntry where
  ts := entry.ts
  user := entry.user
  action := entry.action
  target := entry.target
  result := entry.result
  params := entry.params.map fun params => rt.redactParams (.map params)
  jobId := entry.jobId

def Entry.segment (entry : Entry rt) : Segment :=
  ⟨encode entry.line, .lf⟩

/-- Whether a filter lets an entry through. -/
def passes (rt : Runtime) (flt : AuditFilter) (entry : AuditEntry) : Bool :=
  match matchesFilter rt entry flt with
  | .ok answer => answer
  | .error _ => false

/-- A line with a valid time stamp before the cutoff. -/
def isOld (rt : Runtime) (cutoff : Int) (line : String) : Bool :=
  !isBlank line &&
    match lineStamp rt line with
    | .ok (some (_, .aware utc)) => utc < cutoff
    | _ => false

/-- What is left of a file without its old lines, byte for byte. -/
def withoutOld (rt : Runtime) (cutoff : Int) (file : List Piece) : List Piece :=
  ((segments file).filter fun segment => !isOld rt cutoff segment.line).flatMap Segment.raw

/-- A query returns every entry that its filter matches and no prune was to remove; a prune leaves
everything but the old lines, and reports what its dry run does. -/
def Lawful (s : State rt) : Event rt → Prop
  | .write _ | .append _ => True
  | .query flt limit offset => ∃ page matched, queryEntries rt s.file flt limit offset = .ok page ∧
      iterEntries rt s.file flt = .ok matched ∧ page.entries = (matched.drop offset).take limit ∧
      page.total = matched.length ∧
      ((s.live.map Entry.returned).filter (passes rt flt)).Subperm matched
  | .prune cutoff dryRun => ∃ result file, pruneBefore rt s.file cutoff dryRun = .ok (result, file) ∧
      pruneBefore rt s.file cutoff true = .ok (result, s.file) ∧
      file = (if dryRun then s.file else s.file.map (withoutOld rt cutoff)) ∧
      result.removed = (segments (s.file.getD [])).countP fun segment => isOld rt cutoff segment.line

/-! ### The condition -/

/-- Every line is text, and `json.loads` raises nothing but a `JSONDecodeError` for what it is given
of one that is not blank. -/
def Readable (rt : Runtime) (file : Option (List Piece)) (given : String → String) : Prop :=
  ∀ content ∈ file, ∀ segment ∈ segments content, segment.text?.isSome ∧
    (isBlank segment.line = false → rt.loads (given segment.line) ≠ .error .other)

/-- Every time stamp that a filter compares is aware. -/
def Timed (rt : Runtime) (file : Option (List Piece)) (flt : AuditFilter) : Prop :=
  (flt.since = none ∧ flt.before = none) ∨
    ∀ content ∈ file, ∀ segment ∈ segments content, isBlank segment.line = false →
      ∀ raw, rt.loads (strip segment.line) = .ok raw → ∀ entry, entryOf rt raw = some entry →
        matchesText rt entry flt = true → ∀ stamp, rt.fromIsoFormat entry.ts = some stamp →
          ∃ utc, stamp = .aware utc

/-- Every time stamp of a line is aware. -/
def Stamped (rt : Runtime) (file : Option (List Piece)) : Prop :=
  ∀ content ∈ file, ∀ segment ∈ segments content, isBlank segment.line = false →
    ∀ ts stamp, lineStamp rt segment.line = .ok (some (ts, stamp)) → ∃ utc, stamp = .aware utc

/-- What a rewrite keeps it writes as it was: no blank line, and a line feed after each. -/
def Rewritable (rt : Runtime) (file : Option (List Piece)) (cutoff : Int) : Prop :=
  ∀ content ∈ file, (∃ segment ∈ segments content, isOld rt cutoff segment.line = true) →
    ∀ segment ∈ segments content, isOld rt cutoff segment.line = false →
      segment.ending = .lf ∧ isBlank segment.line = false

def Foreseen (s : State rt) : Event rt → Prop
  | .write _ => ∀ content ∈ s.file, ∀ segment ∈ segments content, segment.ending ≠ .eof
  | .append _ => True
  | .query flt _ _ => Readable rt s.file strip ∧ Timed rt s.file flt
  | .prune cutoff dryRun => Readable rt s.file id ∧ Stamped rt s.file ∧
      (dryRun = false → Rewritable rt s.file cutoff)

/-- The lines of the live entries are in the file, whole and in order. -/
def Sound (s : State rt) : Prop :=
  (s.live.map Entry.segment).Sublist (segments (s.file.getD []))

/-! ### Written entries -/

section Entries

variable (entry : Entry rt)

theorem toList_line : ∃ inner : List Char, entry.line.toList = '{' :: inner ++ ['}'] ∧
    '\n' ∉ inner ∧ '\r' ∉ inner :=
  entry.braced

theorem plain_line : Plain (encode entry.line) := by
  obtain ⟨inner, hline, hlf, hcr⟩ := toList_line entry
  intro piece hpiece
  unfold encode at hpiece
  obtain ⟨c, hc, rfl⟩ := List.mem_map.1 hpiece
  rw [hline] at hc
  constructor
  · rintro ⟨⟩
    simp [hlf] at hc
  · rintro ⟨⟩
    simp [hcr] at hc

theorem strip_entry_line : strip entry.line = entry.line := by
  obtain ⟨inner, hline, -, -⟩ := toList_line entry
  apply strip_of_trimmed
  rw [hline]
  constructor
  · intro c hc
    obtain rfl := Option.some.inj hc
    decide
  · intro c hc
    rw [List.getLast?_append] at hc
    obtain rfl := Option.some.inj hc
    decide

theorem isBlank_line : isBlank entry.line = false := by
  rw [← Bool.not_eq_true, isBlank_iff, strip_entry_line]
  intro hempty
  obtain ⟨inner, hline, -, -⟩ := toList_line entry
  rw [hempty] at hline
  cases hline

@[simp] theorem line_segment : entry.segment.line = entry.line := by
  unfold Segment.line Entry.segment
  rw [text?_encode]
  rfl

theorem entryOf_fields : entryOf rt (.map entry.fields) = some entry.returned := by
  unfold Entry.fields entryFields entryOf Entry.returned
  cases entry.params <;> cases entry.jobId <;> rfl

theorem lineStamp_line : lineStamp rt entry.line = .ok (some (entry.ts, .aware entry.now)) := by
  have hloaded : rt.loads entry.line = .ok (.map entry.fields) := entry.loaded
  have hts : Mapping.get? entry.fields "ts" = some (.str entry.ts) := rfl
  unfold lineStamp
  rw [hloaded]
  simp [hts, Runtime.text, entry.stamped]

theorem isOld_line (cutoff : Int) : isOld rt cutoff entry.line = decide (entry.now < cutoff) := by
  unfold isOld
  rw [isBlank_line, lineStamp_line]
  rfl

end Entries

/-! ### Queries -/

/-- What the readers make of a line. -/
def lineEntry (rt : Runtime) (line : String) : Option AuditEntry :=
  if isBlank line then none
  else
    match rt.loads (strip line) with
    | .ok raw => entryOf rt raw
    | .error _ => none

theorem lineEntry_line (entry : Entry rt) : lineEntry rt entry.line = some entry.returned := by
  have hloaded : rt.loads entry.line = .ok (.map entry.fields) := entry.loaded
  unfold lineEntry
  rw [isBlank_line, strip_entry_line, hloaded]
  exact entryOf_fields entry

/-- A line that `json.loads` does not stumble over gives an entry or counts as corrupt. -/
theorem entryFromLine_eq {line : String} (hblank : isBlank line = false)
    (h : rt.loads (strip line) ≠ .error .other) :
    entryFromLine rt (strip line) = .ok (lineEntry rt line) := by
  unfold entryFromLine lineEntry
  rw [hblank]
  cases hloads : rt.loads (strip line) with
  | ok raw => rfl
  | error failure =>
      cases failure with
      | jsonDecode => rfl
      | other => exact absurd hloads h

theorem mapM_entryFromLine {lines : List String}
    (h : ∀ line ∈ lines, isBlank line = false → rt.loads (strip line) ≠ .error .other) :
    ∃ read, ((lines.map strip).filter (· ≠ "")).mapM (entryFromLine rt) = .ok read ∧
      read.reduceOption = lines.filterMap (lineEntry rt) := by
  induction lines with
  | nil => exact ⟨[], rfl, rfl⟩
  | cons first rest ih =>
      obtain ⟨read, hread, hentries⟩ := ih fun line hline => h line (List.mem_cons_of_mem _ hline)
      rw [List.map_cons]
      by_cases hblank : isBlank first = true
      · have hskip : lineEntry rt first = none := by
          unfold lineEntry
          rw [if_pos hblank]
        rw [List.filter_cons_of_neg (by simpa using isBlank_iff.1 hblank),
          List.filterMap_cons_none hskip]
        exact ⟨read, hread, hentries⟩
      · have hsome : strip first ≠ "" := fun hempty => hblank (isBlank_iff.2 hempty)
        rw [Bool.not_eq_true] at hblank
        have hfirst := entryFromLine_eq hblank (h first List.mem_cons_self hblank)
        rw [List.filter_cons_of_pos (by simpa using hsome), List.mapM_cons, hfirst, hread]
        refine ⟨lineEntry rt first :: read, rfl, ?_⟩
        cases hentry : lineEntry rt first with
        | none =>
            rw [List.reduceOption_cons_of_none, List.filterMap_cons_none hentry]
            exact hentries
        | some entry =>
            rw [List.reduceOption_cons_of_some, List.filterMap_cons_some hentry, hentries]

/-- The entries of a file that can be read. -/
def entriesOf (rt : Runtime) (file : Option (List Piece)) : List AuditEntry :=
  ((segments (file.getD [])).map Segment.line).filterMap (lineEntry rt)

theorem readAll_eq {file : Option (List Piece)} (h : Readable rt file strip) :
    ∃ corrupt, readAll rt file = .ok (entriesOf rt file, corrupt) := by
  cases file with
  | none => exact ⟨0, rfl⟩
  | some content =>
      have hlines : ∀ line ∈ (segments content).map Segment.line, isBlank line = false →
          rt.loads (strip line) ≠ .error .other := by
        intro line hline
        obtain ⟨segment, hsegment, rfl⟩ := List.mem_map.1 hline
        exact (h content rfl segment hsegment).2
      obtain ⟨read, hread, hentries⟩ := mapM_entryFromLine hlines
      refine ⟨read.countP Option.isNone, ?_⟩
      unfold readAll entriesOf
      simp only [readLines_eq fun segment hsegment => (h content rfl segment hsegment).1,
        Option.getD_some, ← hentries]
      exact congrArg (fun result => result >>= fun read =>
        pure (read.reduceOption, read.countP Option.isNone)) hread

theorem keep_eq {α : Type} {test : α → Except Raised Bool} {good : α → Bool} {l : List α}
    (h : ∀ a ∈ l, test a = .ok (good a)) : keep test l = .ok (l.filter good) := by
  induction l with
  | nil => rfl
  | cons first rest ih =>
      unfold keep
      rw [h first List.mem_cons_self, ih fun a ha => h a (List.mem_cons_of_mem _ ha)]
      cases hfirst : good first <;> simp [hfirst] <;> rfl

/-- A filter that compares aware time stamps only raises nothing. -/
theorem matchesFilter_eq {flt : AuditFilter} {entry : AuditEntry}
    (h : (flt.since = none ∧ flt.before = none) ∨ (matchesText rt entry flt = true →
      ∀ stamp, rt.fromIsoFormat entry.ts = some stamp → ∃ utc, stamp = .aware utc)) :
    matchesFilter rt entry flt = .ok (passes rt flt entry) := by
  have hok : ∃ answer, matchesFilter rt entry flt = .ok answer := by
    unfold matchesFilter
    split
    · exact ⟨_, rfl⟩
    · next htext =>
        split
        · exact ⟨_, rfl⟩
        · next hwindow =>
            split
            · exact ⟨_, rfl⟩
            · next stamp hstamp =>
                obtain ⟨utc, rfl⟩ := (h.resolve_left hwindow) (by simpa using htext) stamp hstamp
                cases flt.since with
                | none =>
                    cases flt.before with
                    | none => exact ⟨_, rfl⟩
                    | some before => by_cases hbefore : utc < before <;>
                        exact ⟨_, by simp [Stamp.lt, hbefore]; rfl⟩
                | some since =>
                    cases flt.before with
                    | none => by_cases hsince : utc < since <;>
                        exact ⟨_, by simp [Stamp.lt, hsince]; rfl⟩
                    | some before => by_cases hsince : utc < since <;>
                        by_cases hbefore : utc < before <;>
                        exact ⟨_, by simp [Stamp.lt, hsince, hbefore]; rfl⟩
  obtain ⟨answer, hanswer⟩ := hok
  unfold passes
  rw [hanswer]

/-- A query over a file that can be read returns what passes its filter, the newest first. -/
theorem lawful_query {s : State rt} (hsound : Sound s) {flt : AuditFilter}
    (hreadable : Readable rt s.file strip) (htimed : Timed rt s.file flt) (limit offset : Nat) :
    Lawful s (.query flt limit offset) := by
  obtain ⟨corrupt, hread⟩ := readAll_eq hreadable
  have hkeep : keep (matchesFilter rt · flt) (entriesOf rt s.file) =
      .ok ((entriesOf rt s.file).filter (passes rt flt)) := by
    apply keep_eq
    intro entry hentry
    apply matchesFilter_eq
    apply htimed.imp_right
    intro haware htext stamp hstamp
    obtain ⟨line, hline, hparsed⟩ := List.mem_filterMap.1 hentry
    obtain ⟨segment, hsegment, rfl⟩ := List.mem_map.1 hline
    unfold lineEntry at hparsed
    split at hparsed
    · cases hparsed
    · next hblank =>
        split at hparsed
        · next raw hraw =>
            cases hfile : s.file with
            | none =>
                rw [hfile] at hsegment
                cases hsegment
            | some content =>
                rw [hfile] at hsegment haware
                exact haware content rfl segment hsegment (by simpa using hblank) raw hraw entry
                  hparsed htext stamp hstamp
        · cases hparsed
  have hlive : (s.live.map Entry.returned).Sublist (entriesOf rt s.file) := by
    have hlines := (hsound.map Segment.line).filterMap (lineEntry rt)
    have hsame : ((s.live.map Entry.segment).map Segment.line).filterMap (lineEntry rt) =
        s.live.map Entry.returned := by
      rw [List.map_map, List.filterMap_map, ← List.filterMap_eq_map]
      apply List.filterMap_congr
      intro entry _
      simp [lineEntry_line]
    rwa [hsame] at hlines
  let matched := (entriesOf rt s.file).filter (passes rt flt)
  let page : AuditPage :=
    { entries := ((newestFirst matched).drop offset).take limit
      total := matched.length
      corruptLines := corrupt
      userFacet := facet ((entriesOf rt s.file).map AuditEntry.user)
      actionFacet := facet ((entriesOf rt s.file).map AuditEntry.action)
      resultFacet := facet ((entriesOf rt s.file).map AuditEntry.result) }
  refine ⟨page, newestFirst matched, ?_, ?_, rfl, ?_, ?_⟩
  · unfold queryEntries
    rw [hread]
    simp only [bind, Except.bind, hkeep]
    rfl
  · unfold iterEntries
    rw [hread]
    simp only [bind, Except.bind, hkeep]
    rfl
  · exact (List.perm_insertionSort _ matched).length_eq.symm
  · exact (hlive.filter _).subperm.trans (List.perm_insertionSort _ matched).symm.subperm

/-! ### Prunes -/

/-- A line whose time stamp can be compared is removed when it is old. -/
theorem removedStamp_eq {cutoff : Int} {line : String} (hblank : isBlank line = false)
    (hload : rt.loads line ≠ .error .other)
    (haware : ∀ ts stamp, lineStamp rt line = .ok (some (ts, stamp)) → ∃ utc, stamp = .aware utc) :
    ∃ found, removedStamp rt cutoff line = .ok found ∧ found.isSome = isOld rt cutoff line := by
  unfold removedStamp isOld
  rw [hblank]
  cases hstamp : lineStamp rt line with
  | error raised =>
      unfold lineStamp at hstamp
      split at hstamp
      · cases hstamp
      · cases hstamp
      · cases hstamp
      · next hother => exact absurd hother hload
  | ok found =>
      cases found with
      | none => exact ⟨none, rfl, rfl⟩
      | some pair =>
          obtain ⟨ts, stamp⟩ := pair
          obtain ⟨utc, rfl⟩ := haware ts stamp hstamp
          refine ⟨if decide (utc < cutoff) then some ts else none, rfl, ?_⟩
          by_cases hold : utc < cutoff <;> simp [hold]

/-- One pass keeps the lines that are neither blank nor old, and counts the old ones. -/
theorem sortOut_eq (cutoff : Int) {lines : List String}
    (hload : ∀ line ∈ lines, isBlank line = false → rt.loads line ≠ .error .other)
    (haware : ∀ line ∈ lines, isBlank line = false → ∀ ts stamp,
      lineStamp rt line = .ok (some (ts, stamp)) → ∃ utc, stamp = .aware utc) :
    ∃ removed, sortOut rt cutoff lines =
        .ok (lines.filter fun line => !isBlank line && !isOld rt cutoff line, removed) ∧
      removed.length = lines.countP (isOld rt cutoff) := by
  induction lines with
  | nil => exact ⟨[], rfl, rfl⟩
  | cons first rest ih =>
      obtain ⟨removed, hrest, hcount⟩ := ih
        (fun line hline => hload line (List.mem_cons_of_mem _ hline))
        fun line hline => haware line (List.mem_cons_of_mem _ hline)
      by_cases hblank : isBlank first = true
      · have hnot : isOld rt cutoff first = false := by
          unfold isOld
          rw [hblank]
          rfl
        refine ⟨removed, ?_, by simp [hcount, hnot]⟩
        unfold sortOut
        rw [hrest]
        simp [hblank]
      · rw [Bool.not_eq_true] at hblank
        obtain ⟨found, hfound, hsome⟩ := removedStamp_eq hblank (hload first List.mem_cons_self hblank)
          (haware first List.mem_cons_self hblank)
        unfold sortOut
        rw [hrest, hfound]
        cases found with
        | none =>
            have hnot : isOld rt cutoff first = false := hsome.symm
            refine ⟨removed, ?_, by simp [hcount, hnot]⟩
            simp [hblank, hnot]
            rfl
        | some ts =>
            have hold : isOld rt cutoff first = true := hsome.symm
            refine ⟨ts :: removed, ?_, by simp [hcount, hold]⟩
            simp [hblank, hold]
            rfl

theorem flatMap_raw_segments (file : List Piece) : (segments file).flatMap Segment.raw = file :=
  flatMap_raw_segmentsFrom [] file

theorem plain_of_mem_segments {file : List Piece} {segment : Segment} (h : segment ∈ segments file) :
    Plain segment.pieces :=
  plain_of_mem_segmentsFrom (by simp [Plain]) segment h

/-- Where nothing is old, nothing is left out. -/
theorem withoutOld_eq_self {cutoff : Int} {file : List Piece}
    (h : ∀ segment ∈ segments file, isOld rt cutoff segment.line = false) :
    withoutOld rt cutoff file = file := by
  unfold withoutOld
  rw [List.filter_eq_self.2 fun segment hsegment => by simp [h segment hsegment]]
  exact flatMap_raw_segments file

/-- What a rewrite of a rewritable file writes is the file without its old lines. -/
theorem rewrite_eq {cutoff : Int} {file : List Piece}
    (htext : ∀ segment ∈ segments file, segment.text?.isSome)
    (hkept : ∀ segment ∈ segments file, isOld rt cutoff segment.line = false →
      segment.ending = .lf ∧ isBlank segment.line = false) :
    (((segments file).map Segment.line).filter fun line =>
        !isBlank line && !isOld rt cutoff line).flatMap (fun line => encode line ++ [.char '\n']) =
      withoutOld rt cutoff file := by
  have hsegments : ∀ l : List Segment, (∀ segment ∈ l, segment.text?.isSome) →
      (∀ segment ∈ l, isOld rt cutoff segment.line = false →
        segment.ending = .lf ∧ isBlank segment.line = false) →
      ((l.map Segment.line).filter fun line => !isBlank line && !isOld rt cutoff line).flatMap
          (fun line => encode line ++ [.char '\n']) =
        (l.filter fun segment => !isOld rt cutoff segment.line).flatMap Segment.raw := by
    intro l
    induction l with
    | nil => exact fun _ _ => rfl
    | cons first rest ih =>
        intro htext hkept
        have hrest := ih (fun segment hsegment => htext segment (List.mem_cons_of_mem _ hsegment))
          fun segment hsegment => hkept segment (List.mem_cons_of_mem _ hsegment)
        rw [List.map_cons]
        cases hold : isOld rt cutoff first.line with
        | true =>
            rw [List.filter_cons_of_neg (by simp [hold]), List.filter_cons_of_neg (by simp [hold])]
            exact hrest
        | false =>
            obtain ⟨hlf, hblank⟩ := hkept first List.mem_cons_self hold
            obtain ⟨text, hread⟩ := Option.isSome_iff_exists.1 (htext first List.mem_cons_self)
            have hline : first.line = text := by
              unfold Segment.line
              rw [hread]
              rfl
            have hraw : encode first.line ++ [.char '\n'] = first.raw := by
              unfold Segment.raw
              rw [hline, encode_of_text? hread, hlf]
              rfl
            rw [List.filter_cons_of_pos (by simp [hold, hblank]),
              List.filter_cons_of_pos (by simp [hold]), List.flatMap_cons, List.flatMap_cons, hrest,
              hraw]
  exact hsegments _ htext hkept

/-- A file of lines that can be compared is pruned, and a dry run reports the same. -/
theorem pruneBefore_eq {content : List Piece} (cutoff : Int)
    (hreadable : Readable rt (some content) id) (hstamped : Stamped rt (some content)) :
    ∃ result : PruneResult,
      result.removed = (segments content).countP (fun segment => isOld rt cutoff segment.line) ∧
      ∀ dryRun, (dryRun = false → Rewritable rt (some content) cutoff) →
        pruneBefore rt (some content) cutoff dryRun =
          .ok (result, some (if dryRun then content else withoutOld rt cutoff content)) := by
  have htext : ∀ segment ∈ segments content, segment.text?.isSome :=
    fun segment hsegment => (hreadable content rfl segment hsegment).1
  have hload : ∀ line ∈ (segments content).map Segment.line, isBlank line = false →
      rt.loads line ≠ .error .other := by
    intro line hline
    obtain ⟨segment, hsegment, rfl⟩ := List.mem_map.1 hline
    exact (hreadable content rfl segment hsegment).2
  have haware : ∀ line ∈ (segments content).map Segment.line, isBlank line = false →
      ∀ ts stamp, lineStamp rt line = .ok (some (ts, stamp)) → ∃ utc, stamp = .aware utc := by
    intro line hline
    obtain ⟨segment, hsegment, rfl⟩ := List.mem_map.1 hline
    exact hstamped content rfl segment hsegment
  obtain ⟨removed, hsorted, hcount⟩ := sortOut_eq cutoff hload haware
  rw [List.countP_map] at hcount
  let kept := ((segments content).map Segment.line).filter fun line =>
    !isBlank line && !isOld rt cutoff line
  refine ⟨⟨removed.length, kept.length, removed.min?, removed.max?⟩, hcount, ?_⟩
  intro dryRun hrewritable
  unfold pruneBefore
  simp only [readLines_eq htext, bind, Except.bind, hsorted]
  split
  · next hkept =>
      cases dryRun with
      | true => rfl
      | false =>
          -- nothing was old, so the file that is left alone is the one without its old lines
          have hnone : removed.length = 0 := by simpa using hkept
          rw [hnone] at hcount
          have hsame : withoutOld rt cutoff content = content := by
            apply withoutOld_eq_self
            intro segment hsegment
            simpa using List.countP_eq_zero.1 hcount.symm segment hsegment
          simp only [Bool.false_eq_true, if_false, hsame]
          rfl
  · next hkept =>
      obtain ⟨hsome, hdry⟩ := not_or.1 hkept
      obtain rfl : dryRun = false := by simpa using hdry
      have hexists : ∃ segment ∈ segments content, isOld rt cutoff segment.line = true := by
        rw [hcount] at hsome
        by_contra hnone
        apply hsome
        apply List.countP_eq_zero.2
        intro segment hsegment hold
        exact hnone ⟨segment, hsegment, hold⟩
      have hrewritten := rewrite_eq htext fun segment hsegment =>
        hrewritable rfl content rfl hexists segment hsegment
      rw [hrewritten]
      rfl

theorem lawful_prune {s : State rt} {cutoff : Int} {dryRun : Bool}
    (hreadable : Readable rt s.file id) (hstamped : Stamped rt s.file)
    (hrewritable : dryRun = false → Rewritable rt s.file cutoff) :
    Lawful s (.prune cutoff dryRun) := by
  unfold Lawful
  cases hfile : s.file with
  | none =>
      refine ⟨{ removed := 0, kept := 0, oldestRemoved := none, newestRemoved := none }, none, rfl,
        rfl, ?_, rfl⟩
      cases dryRun <;> rfl
  | some content =>
      rw [hfile] at hreadable hstamped hrewritable
      obtain ⟨result, hremoved, hpruned⟩ := pruneBefore_eq cutoff hreadable hstamped
      refine ⟨result, _, hpruned dryRun hrewritable, hpruned true (fun hfalse => nomatch hfalse),
        ?_, hremoved⟩
      cases dryRun <;> rfl

/-! ### Runs -/

theorem sound_start (file : Option (List Piece)) : Sound ({ file } : State rt) :=
  List.nil_sublist _

theorem segments_write {file : List Piece} (entry : Entry rt)
    (hended : ∀ segment ∈ segments file, segment.ending ≠ .eof) :
    segments (file ++ encode entry.line ++ [.char '\n']) = segments file ++ [entry.segment] := by
  obtain ⟨inner, hline, -, -⟩ := toList_line entry
  have hfirst : (encode entry.line ++ [Piece.char '\n']).head? ≠ some (.char '\n') := by
    unfold encode
    rw [hline]
    simp
  have hone : segments (encode entry.line ++ [.char '\n']) = [entry.segment] := by
    have hraw : [entry.segment].flatMap Segment.raw = encode entry.line ++ [.char '\n'] := by
      simp [Segment.raw, Entry.segment, Ending.pieces]
    rw [← hraw]
    apply segments_flatMap_raw
    intro segment hsegment
    obtain rfl := List.mem_singleton.1 hsegment
    exact ⟨rfl, plain_line entry⟩
  rw [List.append_assoc, ← hone]
  exact segmentsFrom_append hended hfirst

/-- Something that is appended leaves the lines of the entries. -/
theorem Sound.append {s : State rt} (h : Sound s) (pieces : List Piece) :
    Sound { s with file := some (s.file.getD [] ++ pieces) } := by
  have hlf : (s.live.map Entry.segment).filter (fun segment => segment.ending = .lf) =
      s.live.map Entry.segment := by
    apply List.filter_eq_self.2
    intro segment hsegment
    obtain ⟨entry, -, rfl⟩ := List.mem_map.1 hsegment
    rfl
  have hfiltered := h.filter fun segment => decide (segment.ending = .lf)
  rw [hlf] at hfiltered
  exact hfiltered.trans (filter_lf_sublist [] _ pieces)

/-- The entries that a prune was not to remove are in what it leaves. -/
theorem sound_withoutOld {s : State rt} (h : Sound s) {content : List Piece} {cutoff : Int}
    (hfile : s.file = some content) (hrewritable : Rewritable rt (some content) cutoff) :
    Sound { file := some (withoutOld rt cutoff content)
            live := s.live.filter fun entry => cutoff ≤ entry.now } := by
  have hlive : ((s.live.map Entry.segment).filter fun segment => !isOld rt cutoff segment.line) =
      (s.live.filter fun entry => cutoff ≤ entry.now).map Entry.segment := by
    rw [List.filter_map]
    congr 1
    apply List.filter_congr
    intro entry _
    rw [Bool.eq_iff_iff]
    simp [isOld_line]
  have hfiltered := h.filter fun segment => !isOld rt cutoff segment.line
  rw [hlive, hfile] at hfiltered
  unfold Sound
  by_cases hold : ∃ segment ∈ segments content, isOld rt cutoff segment.line = true
  · have hsegments : segments (withoutOld rt cutoff content) =
        (segments content).filter fun segment => !isOld rt cutoff segment.line := by
      apply segments_flatMap_raw
      intro segment hsegment
      obtain ⟨hmem, hnot⟩ := List.mem_filter.1 hsegment
      exact ⟨(hrewritable content rfl hold segment hmem (by simpa using hnot)).1,
        plain_of_mem_segments hmem⟩
    rw [Option.getD_some, hsegments]
    exact hfiltered
  · have hsame : withoutOld rt cutoff content = content := by
      apply withoutOld_eq_self
      intro segment hsegment
      by_contra hthis
      exact hold ⟨segment, hsegment, by simpa using hthis⟩
    rw [Option.getD_some, hsame]
    exact hfiltered.trans List.filter_sublist

theorem sound_step {s s' : State rt} {e : Event rt} (h : Sound s) (hforeseen : Foreseen s e)
    (hstep : step s e = some s') : Sound s' := by
  cases e with
  | write entry =>
      obtain rfl := Option.some.inj hstep
      have hended : ∀ segment ∈ segments (s.file.getD []), segment.ending ≠ .eof := by
        cases hfile : s.file with
        | none => exact fun _ hsegment => nomatch hsegment
        | some content => exact hforeseen content hfile
      unfold Sound writeAuditEntry
      rw [Option.getD_some, segments_write entry hended, List.map_append]
      exact List.Sublist.append h (List.Sublist.refl _)
  | append pieces =>
      obtain rfl := Option.some.inj hstep
      exact h.append pieces
  | query =>
      obtain rfl := Option.some.inj hstep
      exact h
  | prune cutoff dryRun =>
      obtain ⟨hreadable, hstamped, hrewritable⟩ := hforeseen
      simp only [step] at hstep
      cases hfile : s.file with
      | none =>
          rw [hfile] at hstep
          obtain rfl := Option.some.inj hstep
          unfold Sound at h ⊢
          rw [hfile] at h
          have hnone : s.live = [] := List.map_eq_nil_iff.1 (List.sublist_nil.1 h)
          rw [hnone]
          cases dryRun <;> exact List.nil_sublist _
      | some content =>
          rw [hfile] at hreadable hstamped hrewritable hstep
          obtain ⟨result, -, hpruned⟩ := pruneBefore_eq cutoff hreadable hstamped
          rw [hpruned dryRun hrewritable] at hstep
          obtain rfl := Option.some.inj hstep
          cases dryRun with
          | true =>
              unfold Sound at h ⊢
              rw [hfile] at h
              exact h
          | false => exact sound_withoutOld h hfile (hrewritable rfl)

theorem lawful_of_foreseen {s : State rt} {e : Event rt} (h : Sound s) (hforeseen : Foreseen s e) :
    Lawful s e := by
  cases e with
  | write | append => trivial
  | query flt limit offset => exact lawful_query h hforeseen.1 hforeseen.2 limit offset
  | prune => exact lawful_prune hforeseen.1 hforeseen.2.1 hforeseen.2.2

/-- In every run from any file whose calls find what they can read and give back, no entry is lost and
every prune removes exactly the old lines. -/
theorem auditLog_runs (rt : Runtime) (file : Option (List Piece)) {s : State rt}
    (hs : Runs.Reaches step Foreseen { file } s) {e : Event rt} (he : Foreseen s e) : Lawful s e :=
  lawful_of_foreseen (hs.invariant (sound_start file) fun _ _ _ => sound_step) he

/-! ### A log that is kept, and an entry that is lost -/

def exampleTs : String := "2026-01-01T00:00:00+00:00"

def exampleFields : Mapping :=
  entryFields exampleTs "anna" "start" "rag" "ok" none none

/-- What stands between the braces of the example's line. -/
def exampleInner : String :=
  "\"ts\": \"2026-01-01T00:00:00+00:00\", \"user\": \"anna\", \"action\": \"start\", " ++
    "\"target\": \"rag\", \"result\": \"ok\""

def exampleLine : String :=
  String.ofList ('{' :: exampleInner.toList ++ ['}'])

/-- A library as far as the example needs it: it writes and reads one line. -/
def exampleRuntime : Runtime where
  loads := fun text => if text = exampleLine then .ok (.map exampleFields) else .error .jsonDecode
  dumps := fun _ => exampleLine
  fromIsoFormat := fun text => if text = exampleTs then some (.aware 1767225600000000) else none
  str := fun _ => ""
  lower := lower
  redactParams := fun params => params

def exampleEntry : Entry exampleRuntime where
  ts := exampleTs
  user := "anna"
  action := "start"
  target := "rag"
  now := 1767225600000000
  stamped := by simp [exampleRuntime]
  loaded := by simp [exampleRuntime, exampleFields]
  braced := ⟨exampleInner.toList, String.toList_ofList, by decide, by decide⟩

/-- A line by hand, and an entry. -/
def noteThenEntry : List (Event exampleRuntime) :=
  [.append (encode "see the ticket\n"), .write exampleEntry]

/-- The state a list of events leads to from a file. -/
def afterEvents (file : Option (List Piece)) (events : List (Event exampleRuntime)) :
    State exampleRuntime :=
  (Runs.replay step { file } events).getD {}

theorem exampleRuntime_loads (text : String) : exampleRuntime.loads text ≠ .error .other := by
  unfold exampleRuntime
  dsimp only
  split <;> intro h <;> cases h

theorem exampleRuntime_aware {text : String} {stamp : Stamp}
    (h : exampleRuntime.fromIsoFormat text = some stamp) : ∃ utc, stamp = .aware utc := by
  unfold exampleRuntime at h
  dsimp only at h
  split at h
  · exact ⟨_, (Option.some.inj h).symm⟩
  · cases h

theorem segments_note : ∀ segment ∈ segments (encode "see the ticket\n"),
    segment.text?.isSome ∧ segment.ending = .lf ∧ isBlank segment.line = false := by
  decide

theorem auditLog_runs_noteThenEntry :
    Lawful (afterEvents none noteThenEntry) (.prune 1767225600000001 false) := by
  have hnote : ∀ segment ∈ segments (encode "see the ticket\n"), segment.ending ≠ .eof := by
    intro segment hsegment
    rw [(segments_note segment hsegment).2.1]
    decide
  have hsegments : ∀ content ∈ (afterEvents none noteThenEntry).file,
      segments content = segments (encode "see the ticket\n") ++ [exampleEntry.segment] := by
    intro content hcontent
    obtain rfl := Option.some.inj hcontent
    exact segments_write exampleEntry hnote
  have hpermits : Runs.Permits step Foreseen { file := none } noteThenEntry := by
    refine .cons trivial rfl (.cons ?_ rfl trivial)
    intro content hcontent
    obtain rfl := Option.some.inj hcontent
    exact hnote
  have hreadable : Readable exampleRuntime (afterEvents none noteThenEntry).file id := by
    intro content hcontent segment hsegment
    refine ⟨?_, fun _ => exampleRuntime_loads _⟩
    rw [hsegments content hcontent] at hsegment
    rcases List.mem_append.1 hsegment with hold | hnew
    · exact (segments_note segment hold).1
    · obtain rfl := List.mem_singleton.1 hnew
      unfold Entry.segment
      rw [text?_encode]
      rfl
  have hstamped : Stamped exampleRuntime (afterEvents none noteThenEntry).file := by
    intro content _ segment _ _ ts stamp hstamp
    unfold lineStamp at hstamp
    split at hstamp
    · obtain ⟨value, -, hvalue⟩ := Option.bind_eq_some_iff.1 (Except.ok.inj hstamp)
      obtain ⟨read, hread, hpair⟩ := Option.map_eq_some_iff.1 hvalue
      obtain ⟨-, rfl⟩ := Prod.mk.inj hpair
      exact exampleRuntime_aware hread
    all_goals cases hstamp
  have hrewritable : Rewritable exampleRuntime (afterEvents none noteThenEntry).file
      1767225600000001 := by
    intro content hcontent _ segment hsegment hyoung
    rw [hsegments content hcontent] at hsegment
    rcases List.mem_append.1 hsegment with hold | hnew
    · exact (segments_note segment hold).2
    · obtain rfl := List.mem_singleton.1 hnew
      rw [line_segment, isOld_line] at hyoung
      cases hyoung
  exact auditLog_runs exampleRuntime none (Runs.reaches_of_replay hpermits rfl)
    ⟨hreadable, hstamped, fun _ => hrewritable⟩

/-- An entry that is written after a torn line is not returned. -/
theorem entry_after_torn_line_lost :
    ¬∀ (rt : Runtime) (file : Option (List Piece)) (s : State rt),
      Runs.Reaches step (fun _ _ => True) { file } s → ∀ e : Event rt, Lawful s e := by
  intro h
  have hlawful := h exampleRuntime (some (encode "\x7b\"ts\": \"2026"))
    (afterEvents (some (encode "\x7b\"ts\": \"2026")) [.write exampleEntry])
    (Runs.reaches_of_replay (Runs.permits_all _ [.write exampleEntry]) rfl) (.query {} 10 0)
  obtain ⟨page, matched, -, hmatched, -, -, hsubperm⟩ := hlawful
  have hnone : (iterEntries exampleRuntime
      (afterEvents (some (encode "\x7b\"ts\": \"2026")) [.write exampleEntry]).file {}).toOption.map
        List.length = some 0 := by
    decide +kernel
  rw [hmatched] at hnone
  obtain rfl := List.length_eq_zero_iff.1 (Option.some.inj hnone)
  have hlength := hsubperm.length_le
  revert hlength
  decide

end Papaia.Audit
