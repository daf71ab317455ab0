/-
Module: Papaia.Proofs.EnvRoundTrip
Purpose: When the environment that an add-on's configuration writes is the one that is read back: no
  accepted key or value may hold what the reader takes for an end of a line, a comment or an equals
  sign of its own.
Trusted boundary: none
Main exports: PlainKey, Readable, readable_of_parseLine, parseEnvText_renderEnv,
  saveEnv_roundTrip_iff
-/
import Papaia.Addons.EnvValidate
import Papaia.Lib.Lines

namespace Papaia.Addons

open Text Lines

/-! ### What a line can carry -/

/-- A key that is read as it is written. -/
structure PlainKey (key : String) : Prop where
  stripped : strip key = key
  unbroken : Unbroken key
  equals : '=' ∉ key.toList
  comment : startsWith key "#" = false

instance (key : String) : Decidable (PlainKey key) :=
  decidable_of_iff (strip key = key ∧ Unbroken key ∧ '=' ∉ key.toList ∧ startsWith key "#" = false)
    ⟨fun ⟨a, b, c, d⟩ => ⟨a, b, c, d⟩, fun ⟨a, b, c, d⟩ => ⟨a, b, c, d⟩⟩

/-- An entry that its line gives back. -/
structure Readable (entry : String × String) : Prop where
  key : PlainKey entry.1
  stripped : strip entry.2 = entry.2
  unbroken : Unbroken entry.2

/-- The characters before the first equals sign have none. -/
theorem takeWhile_append_equals {before : List Char} (h : '=' ∉ before) (after : List Char) :
    (before ++ '=' :: after).takeWhile (· != '=') = before ∧
      (before ++ '=' :: after).dropWhile (· != '=') = '=' :: after := by
  induction before with
  | nil => exact ⟨rfl, rfl⟩
  | cons c rest ih =>
      have hc : (c != '=') = true := by
        rw [bne_iff_ne]
        intro heq
        exact h (heq ▸ List.mem_cons_self)
      obtain ⟨htake, hdrop⟩ := ih fun hmem => h (List.mem_cons_of_mem _ hmem)
      rw [List.cons_append, List.takeWhile_cons, List.dropWhile_cons, hc]
      exact ⟨congrArg (List.cons c) htake, hdrop⟩

theorem toList_line (key value : String) :
    (key ++ "=" ++ value).toList = key.toList ++ '=' :: value.toList := by
  simp

theorem partition_line {key value : String} (h : '=' ∉ key.toList) :
    partition (key ++ "=" ++ value) = (key, value) := by
  obtain ⟨htake, hdrop⟩ := takeWhile_append_equals h value.toList
  unfold partition
  rw [toList_line, htake, hdrop]
  simp

/-- A line begins and ends with what its key and value begin and end with, or with the sign. -/
theorem strip_line {entry : String × String} (h : Readable entry) :
    strip (entry.1 ++ "=" ++ entry.2) = entry.1 ++ "=" ++ entry.2 := by
  have hkey := strip_eq_iff.1 h.key.stripped
  have hvalue := strip_eq_iff.1 h.stripped
  have hsign : isSpace '=' = false := by decide
  apply strip_of_trimmed
  rw [toList_line]
  constructor
  · intro c hc
    cases hchars : entry.1.toList with
    | nil =>
        rw [hchars] at hc
        obtain rfl := Option.some.inj hc
        exact hsign
    | cons first rest =>
        rw [hchars] at hc
        apply hkey.head
        rw [hchars]
        exact hc
  · intro c hc
    rw [List.getLast?_append, List.getLast?_cons] at hc
    cases hlast : entry.2.toList.getLast? with
    | none =>
        rw [hlast] at hc
        obtain rfl := Option.some.inj hc
        exact hsign
    | some last =>
        rw [hlast] at hc
        obtain rfl := Option.some.inj hc
        exact hvalue.last last hlast

theorem startsWith_line {key value : String} (h : startsWith key "#" = false) :
    startsWith (key ++ "=" ++ value) "#" = false := by
  unfold startsWith at h ⊢
  rw [toList_line]
  have hhash : "#".toList = ['#'] := rfl
  rw [hhash] at h ⊢
  cases hchars : key.toList with
  | nil => rfl
  | cons c rest =>
      rw [hchars] at h
      exact h

theorem parseLine_of_readable {entry : String × String} (h : Readable entry) :
    parseLine (entry.1 ++ "=" ++ entry.2) = some entry := by
  have hnot : ¬(entry.1 ++ "=" ++ entry.2 = "" ∨
      startsWith (entry.1 ++ "=" ++ entry.2) "#" = true ∨
      '=' ∉ (entry.1 ++ "=" ++ entry.2).toList) := by
    rw [startsWith_line h.key.comment, toList_line]
    rintro (hempty | hfalse | hmissing)
    · have := congrArg String.toList hempty
      rw [toList_line] at this
      simp at this
    · cases hfalse
    · simp at hmissing
  unfold parseLine
  rw [strip_line h]
  dsimp only
  rw [if_neg hnot, partition_line h.key.equals, h.key.stripped, h.stripped]

/-! ### What a line gives -/

theorem head?_takeWhile {p : Char → Bool} {chars : List Char} {c : Char}
    (h : c ∈ (chars.takeWhile p).head?) : c ∈ chars.head? := by
  cases chars with
  | nil => cases h
  | cons first rest =>
      rw [List.takeWhile_cons] at h
      split at h
      · exact h
      · cases h

theorem startsWith_hash {text : String} :
    startsWith text "#" = true ↔ text.toList.head? = some '#' := by
  have hhash : "#".toList = ['#'] := rfl
  unfold startsWith
  rw [hhash]
  cases text.toList with
  | nil => simp [List.isPrefixOf]
  | cons c rest =>
      simp only [List.isPrefixOf, List.head?_cons, Option.some.injEq, Bool.and_true, beq_iff_eq]
      exact eq_comm

/-- Whatever a line gives can be written on a line. -/
theorem readable_of_parseLine {raw : String} {entry : String × String} (hraw : Unbroken raw)
    (h : parseLine raw = some entry) : Readable entry := by
  unfold parseLine at h
  dsimp only at h
  split at h
  · cases h
  · next hnot =>
      obtain rfl := Option.some.inj h
      have hline : Unbroken (strip raw) := hraw.strip
      have htrim := trimmed_strip raw
      have hcomment : startsWith (strip raw) "#" ≠ true := fun hstart => hnot (.inr (.inl hstart))
      have hbefore : ∀ c ∈ (partition (strip raw)).1.toList,
          c ∈ (strip raw).toList ∧ c ≠ '=' := by
        intro c hc
        unfold partition at hc
        rw [String.toList_ofList] at hc
        exact ⟨( List.takeWhile_prefix _).subset hc, by simpa using List.mem_takeWhile_imp hc⟩
      have hafter : ∀ c ∈ (partition (strip raw)).2.toList, c ∈ (strip raw).toList := by
        intro c hc
        unfold partition at hc
        rw [String.toList_ofList] at hc
        exact (List.dropWhile_suffix _).subset (List.mem_of_mem_drop hc)
      refine ⟨⟨strip_strip (partition (strip raw)).1, ?_, ?_, ?_⟩,
        strip_strip (partition (strip raw)).2, ?_⟩
      · exact Unbroken.strip fun c hc => hline c (hbefore c hc).1
      · intro hequals
        exact (hbefore _ (mem_of_mem_strip hequals)).2 rfl
      · -- the key begins like the line, which is no comment
        rw [← Bool.not_eq_true, startsWith_hash]
        intro hhead
        have hkeyHead : ∀ c ∈ (partition (strip raw)).1.toList.head?, c ∈ (strip raw).toList.head? := by
          intro c hc
          unfold partition at hc
          rw [String.toList_ofList] at hc
          exact head?_takeWhile hc
        have hsame : lstrip (partition (strip raw)).1.toList = (partition (strip raw)).1.toList :=
          lstrip_of_head fun c hc => htrim.head c (hkeyHead c hc)
        have hfirst := head?_strip hhead
        rw [hsame] at hfirst
        exact hcomment (startsWith_hash.2 (hkeyHead _ hfirst))
      · exact Unbroken.strip fun c hc => hline c (hafter c hc)

/-! ### Environments -/

theorem Env.ext {one other : Env} (h : one.entries = other.entries) : one = other := by
  cases one
  cases other
  cases h
  rfl

theorem entries_foldl_set (env : Env) (items : List (String × String)) :
    (items.foldl Env.set env).entries = items.foldl (Keyed.assign Prod.fst) env.entries := by
  induction items generalizing env with
  | nil => rfl
  | cons first rest ih => exact ih (env.set first)

theorem mem_ofItems {items : List (String × String)} {entry : String × String}
    (h : entry ∈ (Env.ofItems items).entries) : entry ∈ items := by
  unfold Env.ofItems at h
  rw [entries_foldl_set] at h
  exact (Keyed.mem_lastOfEach.1 h).mem

theorem mem_update {env news : Env} {entry : String × String} :
    entry ∈ (env.update news).entries ↔
      (entry ∈ env.entries ∧ entry.1 ∉ news.entries.map Prod.fst) ∨ entry ∈ news.entries := by
  unfold Env.update
  rw [entries_foldl_set, Keyed.mem_foldl_iff fun _ _ _ => Keyed.mem_assign,
    Keyed.latest_iff_mem news.distinct]

/-- A new key comes last. -/
theorem entries_set_of_new {env : Env} {entry : String × String}
    (h : entry.1 ∉ env.entries.map Prod.fst) : (env.set entry).entries = env.entries ++ [entry] := by
  unfold Env.set Keyed.assign
  dsimp only
  rw [if_neg]
  intro hany
  obtain ⟨old, hold, hsame⟩ := List.any_eq_true.1 hany
  exact h (List.mem_map.2 ⟨old, hold, by simpa using hsame⟩)

theorem foldl_set_of_distinct {env : Env} {items : List (String × String)}
    (h : Keyed.Distinct Prod.fst (env.entries ++ items)) :
    (items.foldl Env.set env).entries = env.entries ++ items := by
  induction items generalizing env with
  | nil => simp
  | cons first rest ih =>
      have hsplit := h
      rw [Keyed.Distinct, List.map_append, List.map_cons, List.nodup_append] at hsplit
      have hnew : first.1 ∉ env.entries.map Prod.fst :=
        fun hmem => hsplit.2.2 first.1 hmem first.1 List.mem_cons_self rfl
      have hset := entries_set_of_new hnew
      rw [List.foldl_cons, ih, hset]
      · simp
      · rw [hset]
        simpa using h

theorem ofItems_entries (env : Env) : Env.ofItems env.entries = env := by
  apply Env.ext
  unfold Env.ofItems
  rw [foldl_set_of_distinct]
  · rfl
  · exact env.distinct

/-! ### A file that is written and read -/

theorem linesFrom_universalNewlines (chars line : List Char) :
    linesFrom line (universalNewlines chars) = linesFrom line chars := by
  fun_induction universalNewlines chars generalizing line with
  | case1 => rfl
  | case2 rest ih =>
      rw [linesFrom_newline, ih]
      rfl
  | case3 rest hnot ih =>
      rw [linesFrom_newline, ih]
      conv_rhs => unfold linesFrom
      split
      · next heq => cases heq
      · next heq =>
          obtain ⟨-, rfl⟩ := List.cons.inj heq
          exact absurd rfl (hnot _)
      · next heq =>
          obtain ⟨rfl, rfl⟩ := List.cons.inj heq
          rfl
  | case4 c rest hnot hcr ih =>
      by_cases hbreak : isLineBreak c = true
      · have hsingle : ∀ {rest : List Char} behind, c = '\r' → rest = '\n' :: behind → False :=
          fun _ hreturn _ => hcr hreturn
        rw [linesFrom_of_break hbreak hsingle, linesFrom_of_break hbreak hsingle, ih]
      · rw [Bool.not_eq_true] at hbreak
        rw [linesFrom_of_not_break hbreak, linesFrom_of_not_break hbreak, ih]

theorem readEnv_some (content : String) : readEnv (some content) = parseEnvText content := by
  have hread : readEnv (some content) =
      parseEnvText (String.ofList (universalNewlines content.toList)) := rfl
  rw [hread]
  unfold parseEnvText splitLines
  rw [String.toList_ofList, linesFrom_universalNewlines]

/-- What a file gives can be written. -/
theorem readable_of_mem_readEnv {file : Option String} {entry : String × String}
    (h : entry ∈ (readEnv file).entries) : Readable entry := by
  cases file with
  | none => cases h
  | some content =>
      rw [readEnv_some] at h
      obtain ⟨raw, hraw, hparsed⟩ := List.mem_filterMap.1 (mem_ofItems h)
      exact readable_of_parseLine (unbroken_of_mem_splitLines hraw) hparsed

theorem unbroken_line {entry : String × String} (h : Readable entry) :
    Unbroken (entry.1 ++ "=" ++ entry.2) := by
  intro c hc
  rw [toList_line] at hc
  rcases List.mem_append.1 hc with hkey | hrest
  · exact h.key.unbroken c hkey
  · rcases List.mem_cons.1 hrest with rfl | hvalue
    · decide
    · exact h.unbroken c hvalue

/-- An environment of readable entries is read as it was written. -/
theorem parseEnvText_renderEnv {env : Env} (hsome : env.entries ≠ [])
    (h : ∀ entry ∈ env.entries, Readable entry) : parseEnvText (renderEnv env) = env := by
  have hlines : ∀ line ∈ env.entries.map fun entry => entry.1 ++ "=" ++ entry.2,
      Unbroken line := by
    intro line hline
    obtain ⟨entry, hentry, rfl⟩ := List.mem_map.1 hline
    exact unbroken_line (h entry hentry)
  have hparsed : (env.entries.map fun entry => entry.1 ++ "=" ++ entry.2).filterMap parseLine =
      env.entries := by
    have hback : env.entries.filterMap (parseLine ∘ fun entry => entry.1 ++ "=" ++ entry.2) =
        env.entries.filterMap some := by
      apply List.filterMap_congr
      intro entry hentry
      rw [Function.comp_apply]
      exact parseLine_of_readable (h entry hentry)
    rw [List.filterMap_map, hback, List.filterMap_some]
  unfold parseEnvText renderEnv
  rw [splitLines_join (by simpa using hsome) hlines, hparsed]
  exact ofItems_entries env

/-! ### What is accepted -/

/-- A value that is accepted for a raw one: the raw one stripped, with points for commas where the
field declares a decimal. -/
def Coerced (raw value : String) : Prop :=
  value = strip raw ∨ value = commasToPoints (strip raw)

theorem coerceDeclared_ok {rt : ValueRuntime} {f : EnvField} {value coerced : String}
    (h : coerceDeclared rt f value = .ok coerced) :
    coerced = value ∨ coerced = commasToPoints value := by
  unfold coerceDeclared at h
  split at h
  · split at h
    · cases h
    · exact .inl (Except.ok.inj h).symm
  · split at h
    · cases hcheck : checkInteger rt f value with
      | error failure =>
          rw [hcheck] at h
          cases h
      | ok =>
          rw [hcheck] at h
          exact .inl (Except.ok.inj h).symm
    · cases hcheck : checkDecimal rt f value (commasToPoints value) with
      | error failure =>
          simp only [hcheck] at h
          cases h
      | ok =>
          simp only [hcheck] at h
          exact .inr (Except.ok.inj h).symm
    · cases hcheck : checkUrl rt f value with
      | error failure =>
          rw [hcheck] at h
          cases h
      | ok =>
          rw [hcheck] at h
          exact .inl (Except.ok.inj h).symm
    · cases hcheck : checkPattern rt f value with
      | error failure =>
          rw [hcheck] at h
          cases h
      | ok =>
          rw [hcheck] at h
          exact .inl (Except.ok.inj h).symm

theorem coerceItem_ok {rt : ValueRuntime} {fields : List EnvField} {key raw value : String}
    {warnings : List String} (h : coerceItem rt fields key raw = .ok (value, warnings)) :
    Coerced raw value := by
  unfold coerceItem at h
  dsimp only at h
  split at h
  · cases h
  · split at h
    · exact .inl (Prod.mk.inj (Except.ok.inj h)).1.symm
    · next f _ =>
        split at h
        · cases hdeclared : coerceDeclared rt f (strip raw) with
          | error failure =>
              rw [hdeclared] at h
              cases h
          | ok coerced =>
              rw [hdeclared] at h
              obtain rfl := (Prod.mk.inj (Except.ok.inj h)).1
              exact coerceDeclared_ok hdeclared
        · exact .inl (Prod.mk.inj (Except.ok.inj h)).1.symm

/-- Key by key, in the order they came, the accepted values. -/
theorem coerceEnvValues_ok {rt : ValueRuntime} {fields : List EnvField} {env accepted : Env}
    {warnings : List String} (h : coerceEnvValues rt fields env = .ok (accepted, warnings)) :
    List.Forall₂ (fun raw entry => raw.1 = entry.1 ∧ Coerced raw.2 entry.2) env.entries
      accepted.entries := by
  have hfold : ∀ (items : List (String × String)) (out : Env) (before : List String),
      Keyed.Distinct Prod.fst (out.entries ++ items) →
      items.foldlM (fun before item => do
        let result ← coerceItem rt fields item.1 item.2
        pure (before.1.set (item.1, result.1), before.2 ++ result.2)) (out, before) =
          .ok (accepted, warnings) →
      ∃ entries, accepted.entries = out.entries ++ entries ∧
        List.Forall₂ (fun raw entry => raw.1 = entry.1 ∧ Coerced raw.2 entry.2) items entries := by
    intro items
    induction items with
    | nil =>
        intro out before _ hitems
        obtain rfl := (Prod.mk.inj (Except.ok.inj hitems)).1
        exact ⟨[], by simp, .nil⟩
    | cons first rest ih =>
        intro out before hdistinct hitems
        obtain ⟨key, raw⟩ := first
        rw [List.foldlM_cons] at hitems
        cases hitem : coerceItem rt fields key raw with
        | error failure =>
            simp only [hitem] at hitems
            cases hitems
        | ok result =>
            obtain ⟨value, more⟩ := result
            simp only [hitem] at hitems
            have hsplit := hdistinct
            rw [Keyed.Distinct, List.map_append, List.map_cons, List.nodup_append] at hsplit
            have hnew : (key, value).1 ∉ out.entries.map Prod.fst :=
              fun hmem => hsplit.2.2 key hmem key List.mem_cons_self rfl
            have hset := entries_set_of_new hnew
            have hrest : Keyed.Distinct Prod.fst ((out.set (key, value)).entries ++ rest) := by
              rw [hset]
              simpa [Keyed.Distinct] using hdistinct
            obtain ⟨entries, haccepted, hentries⟩ := ih _ _ hrest hitems
            refine ⟨(key, value) :: entries, ?_, .cons ⟨rfl, coerceItem_ok hitem⟩ hentries⟩
            rw [haccepted, hset]
            simp
  obtain ⟨entries, haccepted, hentries⟩ := hfold env.entries Env.empty [] env.distinct h
  rw [haccepted]
  exact hentries

theorem answersOf_ok {rt : ValueRuntime} {fields : List EnvField} {env accepted : Env}
    (h : answersOf rt fields env = .ok accepted) :
    List.Forall₂ (fun raw entry => raw.1 = entry.1 ∧ Coerced raw.2 entry.2) env.entries
      accepted.entries := by
  unfold answersOf at h
  split at h
  · next hempty =>
      obtain rfl := Except.ok.inj h
      rw [List.isEmpty_iff.1 hempty]
      exact .nil
  · cases hcoerced : coerceEnvValues rt fields env with
    | error failure =>
        rw [hcoerced] at h
        cases h
    | ok result =>
        rw [hcoerced] at h
        obtain rfl := Except.ok.inj h
        exact coerceEnvValues_ok hcoerced

/-- Commas and points end no line and are no white space. -/
theorem unbroken_commasToPoints {value : String} :
    Unbroken (commasToPoints value) ↔ Unbroken value := by
  have hcomma : isLineBreak ',' = false := by decide
  have hpoint : isLineBreak '.' = false := by decide
  unfold Unbroken commasToPoints
  rw [String.toList_ofList]
  simp only [List.mem_map, forall_exists_index, and_imp, forall_apply_eq_imp_iff₂]
  apply forall₂_congr
  intro c _
  by_cases hc : c = ','
  · subst hc
    simp [hcomma, hpoint]
  · rw [if_neg hc]

theorem trimmed_commasToPoints {value : String} (h : Trimmed value.toList) :
    Trimmed (commasToPoints value).toList := by
  have hspace : ∀ c : Char, isSpace c = false → isSpace (if c = ',' then '.' else c) = false := by
    intro c hc
    split
    · decide
    · exact hc
  unfold commasToPoints
  rw [String.toList_ofList]
  constructor
  · intro c hc
    rw [List.head?_map] at hc
    obtain ⟨old, hold, rfl⟩ := Option.map_eq_some_iff.1 hc
    exact hspace old (h.head old hold)
  · intro c hc
    rw [List.getLast?_map] at hc
    obtain ⟨old, hold, rfl⟩ := Option.map_eq_some_iff.1 hc
    exact hspace old (h.last old hold)

theorem Coerced.strip {raw value : String} (h : Coerced raw value) : strip value = value := by
  rcases h with rfl | rfl
  · exact strip_strip raw
  · exact strip_of_trimmed (trimmed_commasToPoints (trimmed_strip raw))

theorem Coerced.unbroken {raw value : String} (h : Coerced raw value) :
    Unbroken value ↔ Unbroken (Text.strip raw) := by
  rcases h with rfl | rfl
  · exact Iff.rfl
  · exact unbroken_commasToPoints

/-- The accepted entries can be written exactly when the keys and the stripped values they come from
can. -/
theorem readable_accepted_iff {raws entries : List (String × String)}
    (h : List.Forall₂ (fun raw entry => raw.1 = entry.1 ∧ Coerced raw.2 entry.2) raws entries) :
    (∀ entry ∈ entries, Readable entry) ↔
      ∀ raw ∈ raws, PlainKey raw.1 ∧ Unbroken (strip raw.2) := by
  induction h with
  | nil => simp
  | cons hfirst _ ih =>
      rw [List.forall_mem_cons, List.forall_mem_cons, ih]
      apply and_congr_left
      intro _
      obtain ⟨hkey, hcoerced⟩ := hfirst
      rw [hkey]
      constructor
      · exact fun hreadable => ⟨hreadable.key, hcoerced.unbroken.1 hreadable.unbroken⟩
      · exact fun hplain => ⟨hplain.1, hcoerced.strip, hcoerced.unbroken.2 hplain.2⟩

/-- A library that reads no number, no URL and no pattern. -/
def plainRuntime : ValueRuntime where
  Decimal := Unit
  int := fun _ => none
  decimal := fun _ => none
  decimalLt := fun _ _ => none
  showDecimal := fun _ => ""
  urlsplit := fun _ => none
  fullmatch := fun _ _ => none
  repr := fun text => text

end Papaia.Addons
