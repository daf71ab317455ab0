/-
Module: Papaia.Proofs.Secrets
Purpose: The credential store stays a file the ingester accepts, whoever else writes it.
Trusted boundary: HashInjective, LoadsEmpty
Main exports: Holds, firstEntryProblem_eq_none_iff, CredentialCall.Stored, stored_mutate,
  CredentialTrace, credentials_kept
-/
import Papaia.Data.Spelling
import Papaia.Ingest.Secrets
import Papaia.Lib.Paired
import Papaia.Proofs.Update

namespace Papaia.Ingest

open Text Runs

/-! ### Entries the ingester accepts -/

/-- An entry is a name the ingester reads with a token. -/
structure Holds (raw : Val) (name : String) : Prop where
  holds : ∃ fields token, raw = .map fields ∧ fields.length = 2 ∧
    Mapping.get? fields "name" = some (.str name) ∧ Mapping.get? fields "value" = some (.str token) ∧
      startsWith token encPrefix = true
  matches_ : matchesName name = true

theorem secretEntryName_eq_some {fields : Mapping} {name : String} :
    secretEntryName fields = some name ↔ fields.get? "name" = some (.str name) := by
  simp [secretEntryName, Option.bind_eq_some_iff, Val.str?_eq_some]

theorem entryProblem_eq_none_iff {index : Nat} {seen : List String} {raw : Val} :
    entryProblem index seen raw = none ↔ ∃ name, Holds raw name ∧ name ∉ seen := by
  unfold entryProblem
  constructor
  · intro h
    split at h
    · cases h
    · next fields hmap =>
        obtain rfl := Val.mapping?_eq_some.1 hmap
        split at h
        · cases h
        · next hshape =>
            split at h
            · cases h
            · next hmatches =>
                split at h
                · cases h
                · next hfresh =>
                    split at h
                    · cases h
                    · next htoken =>
                        have hlength : fields.length = 2 := by
                          by_contra hne
                          simp [hne] at hshape
                        obtain ⟨name, hname, hmatches⟩ : ∃ name, secretEntryName fields = some name ∧
                            matchesName name = true := by simpa [Option.any_eq_true] using hmatches
                        obtain ⟨token, hvalue, htoken⟩ : ∃ token,
                            (fields.get? "value").bind Val.str? = some token ∧
                              startsWith token "enc:1:" = true := by
                          simpa [Option.any_eq_true] using htoken
                        obtain ⟨value, hvalue, hstr⟩ := Option.bind_eq_some_iff.1 hvalue
                        obtain rfl := Val.str?_eq_some.1 hstr
                        refine ⟨name, ⟨⟨fields, token, rfl, hlength,
                          secretEntryName_eq_some.1 hname, hvalue, htoken⟩, hmatches⟩, ?_⟩
                        simpa [hname] using hfresh
  · rintro ⟨name, ⟨⟨fields, token, rfl, hlength, hname, hvalue, htoken⟩, hmatches⟩, hfresh⟩
    have hentry : secretEntryName fields = some name := secretEntryName_eq_some.2 hname
    rw [encPrefix] at htoken
    simp [hlength, hname, hvalue, hentry, hmatches, hfresh, htoken]

theorem Holds.entryName {raw : Val} {name : String} (h : Holds raw name) :
    raw.mapping?.bind secretEntryName = some name := by
  obtain ⟨fields, token, rfl, -, hname, -⟩ := h.holds
  simp [secretEntryName, hname]

/-- `_entry_problems` finds nothing when the entries hold different names. -/
theorem firstEntryProblem_eq_none_iff {index : Nat} {seen : List String} {entries : List Val} :
    firstEntryProblem index seen entries = none ↔
      ∃ names, List.Forall₂ Holds entries names ∧ names.Nodup ∧ ∀ name ∈ names, name ∉ seen := by
  induction entries generalizing index seen with
  | nil => simp [firstEntryProblem]
  | cons raw rest ih =>
      rw [firstEntryProblem]
      constructor
      · intro h
        split at h
        · cases h
        · next hraw =>
            obtain ⟨name, hholds, hfresh⟩ := entryProblem_eq_none_iff.1 hraw
            rw [hholds.entryName] at h
            obtain ⟨names, hall, hnodup, hseen⟩ := ih.1 h
            refine ⟨name :: names, .cons hholds hall, List.nodup_cons.2 ⟨?_, hnodup⟩, ?_⟩
            · intro hmem
              exact hseen name hmem (by simp)
            · intro other hother
              rcases List.mem_cons.1 hother with rfl | hother
              · exact hfresh
              · intro hmem
                exact hseen other hother (by simp [hmem])
      · rintro ⟨names, hall, hnodup, hseen⟩
        cases hall with
        | cons hholds hall =>
            rename_i name names
            have hraw : entryProblem index seen raw = none :=
              entryProblem_eq_none_iff.2 ⟨name, hholds, hseen name List.mem_cons_self⟩
            rw [hraw]
            apply ih.2
            rw [hholds.entryName]
            obtain ⟨hfresh, hnodup⟩ := List.nodup_cons.1 hnodup
            refine ⟨names, hall, hnodup, ?_⟩
            intro other hother hmem
            rcases List.mem_append.1 hmem with hsame | hmem
            · rw [Option.toList_some, List.mem_singleton] at hsame
              exact hfresh (hsame ▸ hother)
            · exact hseen other (List.mem_cons_of_mem _ hother) hmem

/-! ### What a call leaves -/

theorem storesName_iff {raw : Val} {held name : String} (h : Holds raw held) :
    storesName name raw = true ↔ held = name := by
  obtain ⟨fields, token, rfl, -, hname, -⟩ := h.holds
  rw [storesName, Mapping.getD_eqv_str, hname]
  simp

/-- The entries a call leaves, with the ones it found and what it returns. -/
def CredentialCall.Stored : CredentialCall → List Val → List Val → Bool → Prop
  | .set name _ body, entries, entries', created =>
      (entries'.countP (storesName name) = 1 ∧ ∀ fields, .map fields ∈ entries' →
        storesName name (.map fields) = true →
          Mapping.get? fields "value" = some (.str (encPrefix ++ body))) ∧
      ((∀ (i : Nat) entry, entries[i]? = some entry → storesName name entry = false →
        entries'[i]? = some entry) ∧
          entries'.length = entries.length + if created then 1 else 0) ∧
      (created = true ↔ ∀ entry ∈ entries, storesName name entry = false)
  | .delete name, entries, entries', removed =>
      (∀ entry ∈ entries', storesName name entry = false) ∧
      entries' = entries.filter (fun entry => !storesName name entry) ∧
      (removed = true ↔ ∃ entry ∈ entries, storesName name entry = true)

/-- A stored token is an entry the ingester accepts. -/
theorem holds_put {fields : Mapping} {name body : String} (h : Holds (.map fields) name) :
    Holds (.map (fields.put (.str "value") (.str (encPrefix ++ body)))) name := by
  obtain ⟨⟨fields', token, heq, hlength, hname, hvalue, -⟩, hmatches⟩ := h
  obtain rfl := Val.map.inj heq
  refine ⟨⟨_, encPrefix ++ body, rfl, ?_, ?_, Mapping.get?_put_self _ _ _, ?_⟩, hmatches⟩
  · have hkeys := Mapping.keys_put fields (.str "value") (.str (encPrefix ++ body))
    rw [if_pos (mem_keys_of_get? hvalue)] at hkeys
    rw [← hlength, ← List.length_map Prod.fst, hkeys, List.length_map]
  · rw [Mapping.get?_put_of_ne _ _ (by decide)]
    exact hname
  · exact startsWith_append encPrefix body

theorem holds_new {name body : String} (h : matchesName name = true) :
    Holds (.map [(.str "name", .str name), (.str "value", .str (encPrefix ++ body))]) name :=
  ⟨⟨_, encPrefix ++ body, rfl, rfl, rfl, rfl, startsWith_append encPrefix body⟩, h⟩

/-- Setting a credential keeps the names, and adds a new one at the end. -/
theorem forall₂_setEntry {name body : String} (hname : matchesName name = true) {entries : List Val}
    {names : List String} (h : List.Forall₂ Holds entries names) :
    List.Forall₂ Holds (setEntry name (encPrefix ++ body) entries).1
      (if name ∈ names then names else names ++ [name]) := by
  induction h with
  | nil => simpa [setEntry] using holds_new hname
  | cons hraw hrest ih =>
      rename_i raw held rest names
      obtain ⟨fields, token, rfl, -⟩ := hraw.holds
      rw [setEntry]
      by_cases hstores : storesName name (.map fields) = true
      · obtain rfl := (storesName_iff hraw).1 hstores
        rw [if_pos hstores, if_pos List.mem_cons_self]
        exact .cons (holds_put hraw) hrest
      · have hne : name ≠ held := fun h => hstores ((storesName_iff hraw).2 h.symm)
        rw [if_neg hstores]
        by_cases hmem : name ∈ names
        · rw [if_pos (List.mem_cons_of_mem _ hmem)]
          rw [if_pos hmem] at ih
          exact .cons hraw ih
        · rw [if_neg (by simp [hne, hmem])]
          rw [if_neg hmem] at ih
          exact .cons hraw ih

theorem any_storesName_iff {name : String} {entries : List Val} {names : List String}
    (h : List.Forall₂ Holds entries names) :
    (∃ entry ∈ entries, storesName name entry = true) ↔ name ∈ names := by
  induction h with
  | nil => simp
  | cons hraw _ ih =>
      rw [List.exists_mem_cons_iff, ih, storesName_iff hraw, List.mem_cons, eq_comm]

/-- The flag of `set` says whether the name is new. -/
theorem setEntry_flag (name token : String) (entries : List Val) :
    (setEntry name token entries).2 = true ↔
      ∀ entry ∈ entries, storesName name entry = false := by
  induction entries with
  | nil => simp [setEntry]
  | cons raw rest ih =>
      cases raw with
      | map fields =>
          rw [setEntry, List.forall_mem_cons]
          by_cases hstores : storesName name (.map fields) = true
          · simp [hstores]
          · simp [hstores, ih]
      | scalar _ | list _ | set _ => simpa [setEntry, storesName] using ih

theorem length_setEntry (name token : String) (entries : List Val) :
    (setEntry name token entries).1.length =
      entries.length + if (setEntry name token entries).2 then 1 else 0 := by
  induction entries with
  | nil => simp [setEntry]
  | cons raw rest ih =>
      cases raw with
      | map fields =>
          rw [setEntry]
          split
          · simp
          · rw [List.length_cons, ih, List.length_cons, Nat.add_right_comm]
      | scalar _ | list _ | set _ =>
          change (setEntry name token rest).1.length + 1 = _
          rw [ih, List.length_cons, Nat.add_right_comm]
          rfl

/-- `set` leaves the other entries where they are. -/
theorem getElem?_setEntry {name token : String} {entries : List Val} {i : Nat} {entry : Val}
    (hentry : entries[i]? = some entry) (hother : storesName name entry = false) :
    (setEntry name token entries).1[i]? = some entry := by
  induction entries generalizing i with
  | nil => cases hentry
  | cons raw rest ih =>
      cases i with
      | zero =>
          obtain rfl := Option.some.inj hentry
          cases raw with
          | map fields => simp [setEntry, hother]
          | scalar _ | list _ | set _ => rfl
      | succ i =>
          have hrest : rest[i]? = some entry := hentry
          cases raw with
          | map fields =>
              rw [setEntry]
              split
              · exact hrest
              · exact ih hrest
          | scalar _ | list _ | set _ => exact ih hrest

theorem countP_storesName {name : String} {entries : List Val} {names : List String}
    (h : List.Forall₂ Holds entries names) :
    entries.countP (storesName name) = names.count name := by
  induction h with
  | nil => rfl
  | cons hraw _ ih =>
      rw [List.countP_cons, List.count_cons, ih]
      simp [storesName_iff hraw]

/-- The entry of the name holds the new token. -/
theorem token_of_setEntry {name token : String} {entries : List Val} {names : List String}
    (h : List.Forall₂ Holds entries names) (hnodup : names.Nodup) {fields : Mapping}
    (hmem : .map fields ∈ (setEntry name token entries).1)
    (hstores : storesName name (.map fields) = true) :
    fields.get? "value" = some (.str token) := by
  induction h with
  | nil =>
      obtain rfl := Val.map.inj (List.mem_singleton.1 hmem)
      rfl
  | cons hraw hrest ih =>
      rename_i raw held rest names
      obtain ⟨hfresh, hnodup⟩ := List.nodup_cons.1 hnodup
      obtain ⟨old, oldToken, rfl, -⟩ := hraw.holds
      rw [setEntry] at hmem
      split at hmem
      · next hsame =>
          -- the name is taken, so no other entry has it
          obtain rfl := (storesName_iff hraw).1 hsame
          rcases List.mem_cons.1 hmem with heq | hmem
          · obtain rfl := Val.map.inj heq
            exact Mapping.get?_put_self _ _ _
          · exact absurd ((any_storesName_iff hrest).1 ⟨_, hmem, hstores⟩) hfresh
      · next hother =>
          rcases List.mem_cons.1 hmem with heq | hmem
          · obtain rfl := Val.map.inj heq
            exact absurd hstores hother
          · exact ih hnodup hmem

/-- Deleting a credential leaves the other names. -/
theorem forall₂_dropEntry {name : String} {entries : List Val} {names : List String}
    (h : List.Forall₂ Holds entries names) :
    List.Forall₂ Holds (entries.filter fun entry => !storesName name entry)
      (names.filter fun held => held ≠ name) := by
  induction h with
  | nil => exact .nil
  | cons hraw hrest ih =>
      rename_i raw held rest names
      by_cases hstores : storesName name raw = true
      · have hsame := (storesName_iff hraw).1 hstores
        simpa [hstores, hsame] using ih
      · have hother : held ≠ name := fun h => hstores ((storesName_iff hraw).2 h)
        simpa [hstores, hother] using List.Forall₂.cons hraw ih

theorem dropEntry_flag (name : String) (entries : List Val) :
    (dropEntry name entries).2 = true ↔ ∃ entry ∈ entries, storesName name entry = true := by
  rw [dropEntry, bne_iff_ne, ne_eq, List.length_filter_eq_length_iff]
  simp

/-- A call on entries the ingester accepts leaves entries it accepts, with its credential stored or
gone and everything else as it was. -/
theorem stored_mutate {call : CredentialCall} (hname : matchesName call.name = true)
    {entries : List Val} (h : firstEntryProblem 0 [] entries = none) :
    firstEntryProblem 0 [] (call.mutate entries).1 = none ∧
      call.Stored entries (call.mutate entries).1 (call.mutate entries).2 := by
  obtain ⟨names, hall, hnodup, -⟩ := firstEntryProblem_eq_none_iff.1 h
  cases call with
  | set name value body =>
      have hset : List.Forall₂ Holds (setEntry name (encPrefix ++ body) entries).1
          (if name ∈ names then names else names ++ [name]) := forall₂_setEntry hname hall
      have hnodup' : (if name ∈ names then names else names ++ [name]).Nodup := by
        split
        · exact hnodup
        · next hnew => exact hnodup.append (List.nodup_singleton _) (by simpa using hnew)
      have hmem : name ∈ if name ∈ names then names else names ++ [name] := by
        split
        · assumption
        · simp
      constructor
      · exact firstEntryProblem_eq_none_iff.2 ⟨_, hset, hnodup', by simp⟩
      · refine ⟨⟨?_, ?_⟩, ⟨?_, ?_⟩, ?_⟩
        · rw [CredentialCall.mutate, countP_storesName hset]
          exact List.count_eq_one_of_mem hnodup' hmem
        · intro fields hfields hstores
          exact token_of_setEntry hall hnodup hfields hstores
        · intro i entry hentry hother
          exact getElem?_setEntry hentry hother
        · exact length_setEntry _ _ _
        · exact setEntry_flag _ _ _
  | delete name =>
      have hdrop := @forall₂_dropEntry name _ _ hall
      constructor
      · exact firstEntryProblem_eq_none_iff.2 ⟨_, hdrop, hnodup.filter _, by simp⟩
      · refine ⟨?_, rfl, dropEntry_flag _ _⟩
        intro entry hentry
        simpa using (List.mem_filter.1 hentry).2

/-! ### Names and documents -/

theorem matchesName_of_isSecretName {chars : List Char} (h : isSecretName chars = true) :
    matchesName (String.ofList chars) = true := by
  rw [matchesName, String.toList_ofList]
  split
  · next rest hreverse =>
      have hparts := h
      simp only [isSecretName, Bool.and_eq_true] at hparts
      obtain ⟨-, hsome, hall⟩ := hparts
      have hne : chars.drop 10 ≠ [] := by
        intro hnil
        simp [hnil] at hsome
      have hlast : '\n' ∈ chars.drop 10 := by
        have hend : chars = rest.reverse ++ ['\n'] := by
          rw [← List.reverse_reverse chars, hreverse, List.reverse_cons]
        have hgetLast : (chars.drop 10).getLast hne = '\n' := by
          rw [List.getLast_drop]
          simp [hend]
        exact hgetLast ▸ List.getLast_mem hne
      exact absurd (List.all_eq_true.1 hall _ hlast) (by decide)
  · exact h

/-- A name of `full_name` is one the ingester reads. -/
theorem matchesName_of_fullName {upper : String → String} {raw name : String}
    (h : fullName upper raw = some name) : matchesName name = true := by
  have hcut : ∀ chars : List Char,
      (if isSecretName chars && (chars.drop 10).length ≤ 80 then some (String.ofList chars) else none) =
        some name → matchesName name = true := by
    intro chars hchars
    split at hchars
    · next hvalid =>
        obtain rfl := Option.some.inj hchars
        exact matchesName_of_isSecretName (Bool.and_eq_true_iff.1 hvalid).1
    · cases hchars
  exact hcut _ h

section Runs

variable (rt : Runtime) (yaml : Yaml)

/-- The document of a file that can be changed, with its entries. -/
def secretsIn (file : Option Bytes) : Option (Mapping × List Val) :=
  (secretEntries rt yaml (readFile file false)).toOption

variable {rt yaml}

theorem isVersionOne_put {document : Mapping} (h : isVersionOne document = true) (value : Val) :
    isVersionOne (document.put (.str "secrets") value) = true := by
  rwa [isVersionOne, Mapping.getD, Mapping.get?_put_of_ne _ _ (by decide)]

theorem parseDocument_ok {raw : Bytes} {document : Mapping}
    (h : parseDocument "secrets" rt yaml raw = (document, none)) :
    isVersionOne document = true ∧ ∃ entries, document.getD "secrets" = .list entries := by
  rw [parseDocument] at h
  split at h
  · cases h
  · split at h
    · cases h
    · next mapping hmapping =>
      dsimp only at h
      split at h
      · cases h
      · next hversion =>
          have hversion : isVersionOne (setDefault mapping "version" (.int 1)) = true := by
            simpa using hversion
          split at h
          · obtain rfl := (Prod.mk.inj h).1
            refine ⟨isVersionOne_put hversion _, [], ?_⟩
            rw [Mapping.getD, Mapping.get?_put_self]
            rfl
          · next entries hentries =>
              obtain rfl := (Prod.mk.inj h).1
              exact ⟨hversion, entries, hentries⟩
          · cases h

/-- What was read is a document of version one whose entries the ingester accepts. -/
theorem secretEntries_ok {read : FileRead} {document : Mapping} {entries : List Val}
    (h : secretEntries rt yaml read = .ok (document, entries)) :
    isVersionOne document = true ∧ firstEntryProblem 0 [] entries = none := by
  cases read with
  | missing =>
      cases h
      exact ⟨rfl, rfl⟩
  | unreadable reason => cases h
  | content raw =>
      rw [secretEntries] at h
      split at h
      · cases h
      · next parsed hparse =>
          dsimp only at h
          split at h
          · cases h
          · next hproblems =>
              obtain ⟨rfl, rfl⟩ := Prod.mk.inj (Except.ok.inj h)
              exact ⟨(parseDocument_ok hparse).1, hproblems⟩

/-- What is written is read again, by a library that loads what it has dumped. -/
theorem secretsIn_dump {document : Mapping} {entries : List Val}
    (hversion : isVersionOne document = true) (hentries : firstEntryProblem 0 [] entries = none)
    (hload : yaml.load (yaml.dump (document.put (.str "secrets") (.list entries))) =
      .ok (.map (document.put (.str "secrets") (.list entries)))) :
    secretsIn rt yaml (some (yaml.dump (document.put (.str "secrets") (.list entries)))) =
      some (document.put (.str "secrets") (.list entries), entries) := by
  have hversion' := isVersionOne_put hversion (.list entries)
  have hdefault : setDefault (document.put (.str "secrets") (.list entries)) "version" (.int 1) =
      document.put (.str "secrets") (.list entries) := by
    rw [setDefault]
    split
    · rfl
    · next hnone =>
        rw [isVersionOne, Mapping.getD, hnone] at hversion'
        cases hversion'
  have hlist : (document.put (.str "secrets") (.list entries)).getD "secrets" = .list entries := by
    rw [Mapping.getD, Mapping.get?_put_self]
    rfl
  simp [secretsIn, readFile, secretEntries, parseDocument, hload, topLevel, hdefault, hversion', hlist,
    hentries, Except.toOption]

/-- Files with one revision hold the same document: one that is not there holds what an empty one
does. -/
theorem secretsIn_eq (hash : HashInjective yaml) (hload : LoadsEmpty yaml)
    {file other : Option Bytes} (h : currentRevision yaml file = currentRevision yaml other) :
    secretsIn rt yaml file = secretsIn rt yaml other := by
  have hempty : secretsIn rt yaml none = secretsIn rt yaml (some []) := by
    have hparse : parseDocument "secrets" rt yaml [] = (starterOf "secrets", none) := by
      rw [parseDocument, hload]
      rfl
    have hread : secretEntries rt yaml (readFile (some []) false) = .ok (starterOf "secrets", []) := by
      change secretEntries rt yaml (.content []) = _
      rw [secretEntries, hparse]
      rfl
    rw [secretsIn, secretsIn, hread]
    rfl
  have hgetD : ∀ file : Option Bytes, secretsIn rt yaml file = secretsIn rt yaml (some (file.getD [])) := by
    intro file
    cases file with
    | none => exact hempty
    | some raw => rfl
  have hraw : file.getD [] = other.getD [] := revision_injective hash h
  rw [hgetD file, hgetD other, hraw]

/-! ### The promise and its condition -/

/-- The file and the manager, with what each step of the call found in the file and left. -/
structure CredentialTrace where
  state : CredentialState
  log : List (Option Bytes × Option Bytes)

variable (rt yaml)

/-- One step, with the steps of the call that is under way written down. -/
def credentialTracedStep (hasKey : Bool) (t : CredentialTrace) (e : CredentialEvent) :
    Option CredentialTrace :=
  (credentialStep rt yaml hasKey t.state e).map fun s =>
    { state := s
      log := match e with
        | .foreign _ => t.log
        | .call _ => []
        | .manager _ => t.log ++ [(t.state.file, s.file)] }

/-- What a call that returns has found in the file and left there. -/
structure CredentialKept (call : CredentialCall) (flag : Bool) (file left : Option Bytes) : Prop where
  kept : ∃ document entries entries', secretsIn rt yaml file = some (document, entries) ∧
    left = some (yaml.dump (document.put (.str "secrets") (.list entries'))) ∧
      firstEntryProblem 0 [] entries' = none ∧ call.Stored entries entries' flag ∧
        (yaml.load (yaml.dump (document.put (.str "secrets") (.list entries'))) =
            .ok (.map (document.put (.str "secrets") (.list entries'))) →
          secretsIn rt yaml left = some (document.put (.str "secrets") (.list entries'), entries'))

/-- A call that raises has left the file as it was.  One that returns has put the credential into the
document it replaced, or taken it out, and has left the file alone before. -/
def CredentialOutcome (t : CredentialTrace) : Prop :=
  match t.state.phase with
  | .raised _ _ => Untouched t.log
  | .returned call flag => ∃ earlier file left, t.log = earlier ++ [(file, left)] ∧
      Untouched earlier ∧ CredentialKept rt yaml call flag file left
  | _ => True

variable {rt yaml}

/-- Calls come with names of `full_name`. -/
def NamedByFullName (upper : String → String) : CredentialEvent → Prop
  | .call call => ∃ raw, fullName upper raw = some call.name
  | _ => True

/-- Nobody else writes the file between the comparison and the rename. -/
def Unraced (upper : String → String) (t : CredentialTrace) (e : CredentialEvent) : Prop :=
  NamedByFullName upper e ∧ ∀ content, e = .foreign content → ∀ attempt, t.state.phase ≠ .replacing attempt

variable (rt yaml)

/-- What an attempt knows. -/
structure AttemptKnows (attempt : Attempt) : Prop where
  name : matchesName attempt.call.name = true
  read : ∃ file document entries, secretsIn rt yaml file = some (document, entries) ∧
    attempt.revision = currentRevision yaml file ∧
      attempt.flag = (attempt.call.mutate entries).2 ∧
        attempt.data =
          yaml.dump (document.put (.str "secrets") (.list (attempt.call.mutate entries).1))

/-- What holds in each phase. -/
def CredentialProgress (t : CredentialTrace) : Prop :=
  match t.state.phase with
  | .reading call _ => Untouched t.log ∧ matchesName call.name = true
  | .staging attempt | .comparing attempt => Untouched t.log ∧ AttemptKnows rt yaml attempt
  | .replacing attempt => Untouched t.log ∧ AttemptKnows rt yaml attempt ∧
      currentRevision yaml t.state.file = attempt.revision
  | _ => CredentialOutcome rt yaml t

variable {rt yaml}

/-- A change of the entries of a document the ingester accepts is one it accepts. -/
theorem kept_of_mutate {call : CredentialCall} (hname : matchesName call.name = true)
    {file : Option Bytes} {document : Mapping} {entries : List Val}
    (h : secretsIn rt yaml file = some (document, entries)) :
    CredentialKept rt yaml call (call.mutate entries).2 file
      (some (yaml.dump (document.put (.str "secrets") (.list (call.mutate entries).1)))) := by
  have hread : secretEntries rt yaml (readFile file false) = .ok (document, entries) := by
    rw [secretsIn] at h
    cases hentries : secretEntries rt yaml (readFile file false) with
    | error problem =>
        rw [hentries] at h
        cases h
    | ok found =>
        rw [hentries] at h
        exact congrArg Except.ok (Option.some.inj h)
  obtain ⟨hversion, hproblems⟩ := secretEntries_ok hread
  obtain ⟨hproblems', hstored⟩ := stored_mutate hname hproblems
  exact ⟨document, entries, _, h, rfl, hproblems', hstored, secretsIn_dump hversion hproblems'⟩

/-- What the manager finds when it reads the file. -/
theorem progress_of_readAttempt {log : List (Option Bytes × Option Bytes)} (hlog : Untouched log)
    {call : CredentialCall} (hname : matchesName call.name = true) (left : Nat) (file : Option Bytes)
    (fails : Bool) :
    CredentialProgress rt yaml
      ⟨⟨file, readAttempt rt yaml call left file fails⟩, log ++ [(file, file)]⟩ := by
  unfold readAttempt
  split
  · exact untouched_append hlog
  · next document entries hread =>
      have hin : secretsIn rt yaml file = some (document, entries) := by
        cases fails with
        | true => cases hread
        | false =>
            rw [secretsIn, hread]
            rfl
      have hkept := kept_of_mutate hname hin
      dsimp only
      split
      · next hsame =>
          refine ⟨log, file, file, rfl, hlog, ?_⟩
          rwa [← hsame] at hkept
      · exact ⟨untouched_append hlog, hname, file, document, entries, hin, rfl, rfl, rfl⟩

/-- A step of the manager keeps what the phases know. -/
theorem credentialProgress_manager (hash : HashInjective yaml) (hload : LoadsEmpty yaml)
    {hasKey : Bool} {t t' : CredentialTrace} {fails : Bool} (h : CredentialProgress rt yaml t)
    (taken : credentialTracedStep rt yaml hasKey t (.manager fails) = some t') :
    CredentialProgress rt yaml t' := by
  obtain ⟨⟨file, phase⟩, log⟩ := t
  cases phase with
  | idle | returned call flag | raised call error => cases taken
  | reading call left =>
      cases taken
      exact progress_of_readAttempt h.1 h.2 left file fails
  | staging attempt =>
      obtain ⟨hlog, hknows⟩ := h
      simp only [credentialTracedStep, credentialStep, credentialManagerStep] at taken
      split at taken <;> cases taken
      · exact untouched_append hlog
      · exact ⟨untouched_append hlog, hknows⟩
  | comparing attempt =>
      obtain ⟨hlog, hknows⟩ := h
      simp only [credentialTracedStep, credentialStep, credentialManagerStep] at taken
      split at taken
      · cases taken
        exact untouched_append hlog
      · split at taken
        · next hrevision =>
            cases taken
            exact ⟨untouched_append hlog, hknows, hrevision⟩
        · split at taken <;> cases taken
          · exact untouched_append hlog
          · exact untouched_append hlog
          · exact ⟨untouched_append hlog, hknows.name⟩
  | replacing attempt =>
      obtain ⟨hlog, hknows, hrevision⟩ := h
      simp only [credentialTracedStep, credentialStep, credentialManagerStep] at taken
      split at taken <;> cases taken
      · exact untouched_append hlog
      · refine ⟨log, file, some attempt.data, rfl, hlog, ?_⟩
        obtain ⟨read, document, entries, hin, hread, hflag, hdata⟩ := hknows.read
        rw [hflag, hdata]
        apply kept_of_mutate hknows.name
        -- the comparison held, so the file holds the document the attempt has read
        rw [secretsIn_eq hash hload (hrevision.trans hread), hin]

theorem progress_of_firstPhase {hasKey : Bool} {call : CredentialCall} {file : Option Bytes}
    (hname : matchesName call.name = true) :
    CredentialProgress rt yaml ⟨⟨file, call.firstPhase hasKey⟩, []⟩ := by
  have hnone : Untouched [] := by
    intro change hchange
    cases hchange
  rw [CredentialCall.firstPhase]
  cases call.refusal hasKey with
  | some error => exact hnone
  | none => exact ⟨hnone, hname⟩

/-- What a call leaves does not depend on what others do after it, or before it. -/
theorem credentialProgress_step (hash : HashInjective yaml) (hload : LoadsEmpty yaml)
    {upper : String → String} {hasKey : Bool} {t t' : CredentialTrace} {e : CredentialEvent}
    (h : CredentialProgress rt yaml t) (ok : Unraced upper t e)
    (taken : credentialTracedStep rt yaml hasKey t e = some t') : CredentialProgress rt yaml t' := by
  cases e with
  | manager fails => exact credentialProgress_manager hash hload h taken
  | foreign content =>
      cases taken
      obtain ⟨⟨file, phase⟩, log⟩ := t
      cases phase with
      | replacing attempt => exact absurd rfl (ok.2 content rfl attempt)
      | idle | reading _ _ | staging _ | comparing _ | returned _ _ | raised _ _ => exact h
  | call call =>
      obtain ⟨⟨raw, hname⟩, -⟩ := ok
      obtain ⟨⟨file, phase⟩, log⟩ := t
      have hbegin : phase.begin hasKey call = some (call.firstPhase hasKey) := by
        cases phase <;> first | rfl | cases taken
      simp only [credentialTracedStep, credentialStep, hbegin, Option.map_some] at taken
      cases taken
      exact progress_of_firstPhase (matchesName_of_fullName hname)

/-! ### Calls end -/

/-- How many steps a call can still take. -/
def CredentialPhase.stepsLeft : CredentialPhase → Nat
  | .reading _ left => 4 * left + 4
  | .staging attempt => 4 * attempt.left + 3
  | .comparing attempt => 4 * attempt.left + 2
  | .replacing _ => 1
  | .idle | .returned _ _ | .raised _ _ => 0

/-- A call that has neither raised nor returned can go on, and comes nearer to its end. -/
theorem credential_goes_on {hasKey : Bool} (t : CredentialTrace) (fails : Bool)
    (h : 0 < t.state.phase.stepsLeft) :
    ∃ t', credentialTracedStep rt yaml hasKey t (.manager fails) = some t' ∧
      t'.state.phase.stepsLeft < t.state.phase.stepsLeft := by
  obtain ⟨⟨file, phase⟩, log⟩ := t
  cases phase with
  | idle | returned | raised => simp [CredentialPhase.stepsLeft] at h
  | reading call left =>
      simp only [credentialTracedStep, credentialStep, credentialManagerStep, readAttempt]
      split
      · simp [CredentialPhase.stepsLeft]
      · split <;> simp [CredentialPhase.stepsLeft]
  | staging attempt =>
      simp only [credentialTracedStep, credentialStep, credentialManagerStep]
      split <;> simp [CredentialPhase.stepsLeft]
  | comparing attempt =>
      simp only [credentialTracedStep, credentialStep, credentialManagerStep]
      split
      · simp [CredentialPhase.stepsLeft]
      · split
        · simp [CredentialPhase.stepsLeft]
        · split <;> simp_all [CredentialPhase.stepsLeft]
          omega
  | replacing attempt =>
      simp only [credentialTracedStep, credentialStep, credentialManagerStep]
      split <;> simp [CredentialPhase.stepsLeft]

/-! ### The store -/

/-- In every run in which nobody else writes between the comparison and the rename, a call that raises
has left the file as it was, and one that returns has left a document the ingester accepts, with the
credential stored or gone and everything else in place; and every call gets there. -/
theorem credentials_kept (rt : Runtime) (yaml : Yaml) (hash : HashInjective yaml)
    (hload : LoadsEmpty yaml) (upper : String → String) (hasKey : Bool) (file : Option Bytes)
    (t : CredentialTrace)
    (reached : Reaches (credentialTracedStep rt yaml hasKey) (Unraced upper)
      ⟨⟨file, .idle⟩, []⟩ t) :
    CredentialOutcome rt yaml t ∧ ∀ fails, 0 < t.state.phase.stepsLeft →
      ∃ t', credentialTracedStep rt yaml hasKey t (.manager fails) = some t' ∧
        t'.state.phase.stepsLeft < t.state.phase.stepsLeft := by
  refine ⟨?_, fun fails => credential_goes_on t fails⟩
  have hprogress : CredentialProgress rt yaml t := by
    apply reached.invariant
    · trivial
    · intro s e s' hs ok taken
      exact credentialProgress_step hash hload hs ok taken
  obtain ⟨⟨file, phase⟩, log⟩ := t
  cases phase with
  | raised _ _ | returned _ _ => exact hprogress
  | idle | reading _ _ | staging _ | comparing _ | replacing _ => trivial

end Runs

/-! ### Runs -/

/-- A document with one stored credential. -/
def oneCredential (name body : String) : Mapping :=
  [(.str "version", .int 1),
    (.str "secrets", .list [.map [(.str "name", .str name), (.str "value", .str (encPrefix ++ body))]])]

def textOfA : Bytes :=
  asciiBytes "version: 1\nsecrets:\n- name: QI_SECRET_A\n  value: enc:1:a\n"

def textOfB : Bytes :=
  asciiBytes "version: 1\nsecrets:\n- name: QI_SECRET_B\n  value: enc:1:b\n"

/-- The library on the files of the runs below: one with `QI_SECRET_A`, one with `QI_SECRET_B`. -/
def credentialYaml : Yaml where
  load raw :=
    if raw = [] then .ok .null
    else if raw = textOfA then .ok (.map (oneCredential "QI_SECRET_A" "a"))
    else if raw = textOfB then .ok (.map (oneCredential "QI_SECRET_B" "b"))
    else .error "another file"
  dump document :=
    if ((document.getD "secrets").list?.getD []).length = 1 then textOfA else asciiBytes "another text"
  sha256 := (oneFileYaml "" []).sha256

theorem credentialYaml_hashInjective : HashInjective credentialYaml :=
  ⟨(oneFileYaml_hashInjective "" []).injective, (oneFileYaml_hashInjective "" []).ne_empty⟩

def setA : CredentialCall :=
  .set "QI_SECRET_A" "secret" "a"

/-- A first credential is stored. -/
theorem first_credential_is_stored :
    CredentialOutcome plainRuntime credentialYaml
      ⟨⟨some textOfA, .returned setA true⟩,
        [(none, none), (none, none), (none, none), (none, some textOfA)]⟩ := by
  have hpermits : Permits (credentialTracedStep plainRuntime credentialYaml true) (Unraced id)
      ⟨⟨none, .idle⟩, []⟩
      [.call setA, .manager false, .manager false, .manager false, .manager false] :=
    .cons ⟨⟨"QI_SECRET_A", rfl⟩, nofun⟩ rfl (.cons ⟨trivial, nofun⟩ rfl (.cons ⟨trivial, nofun⟩ rfl
      (.cons ⟨trivial, nofun⟩ rfl (.cons ⟨trivial, nofun⟩ rfl trivial))))
  exact (credentials_kept plainRuntime credentialYaml credentialYaml_hashInjective rfl id true none _
    (reaches_of_replay hpermits rfl)).1

/-- The ingester stores another credential between the comparison and the rename; it is lost. -/
theorem write_between_comparison_and_rename_is_lost :
    ¬∀ (rt : Runtime) (yaml : Yaml), HashInjective yaml → LoadsEmpty yaml →
      ∀ (upper : String → String) (hasKey : Bool) (file : Option Bytes) (t : CredentialTrace),
        Reaches (credentialTracedStep rt yaml hasKey) (fun _ e => NamedByFullName upper e)
          ⟨⟨file, .idle⟩, []⟩ t → CredentialOutcome rt yaml t := by
  intro h
  have hpermits : Permits (credentialTracedStep plainRuntime credentialYaml true)
      (fun _ e => NamedByFullName id e) ⟨⟨none, .idle⟩, []⟩
      [.call setA, .manager false, .manager false, .manager false, .foreign (some textOfB),
        .manager false] :=
    .cons ⟨"QI_SECRET_A", rfl⟩ rfl (.cons trivial rfl (.cons trivial rfl (.cons trivial rfl
      (.cons trivial rfl (.cons trivial rfl trivial)))))
  obtain ⟨earlier, file, left, hlog, -, hkept⟩ := h plainRuntime credentialYaml
    credentialYaml_hashInjective rfl id true none
    ⟨⟨some textOfA, .returned setA true⟩,
      [(none, none), (none, none), (none, none), (some textOfB, some textOfA)]⟩
    (reaches_of_replay hpermits rfl)
  obtain ⟨rfl, rfl⟩ : some textOfB = file ∧ some textOfA = left := by
    have hlast := congrArg List.getLast? hlog
    simpa using hlast
  obtain ⟨document, entries, entries', hin, hleft, -, hstored, -⟩ := hkept.kept
  have hbefore : secretsIn plainRuntime credentialYaml (some textOfB) =
      some (oneCredential "QI_SECRET_B" "b",
        [.map [(.str "name", .str "QI_SECRET_B"), (.str "value", .str "enc:1:b")]]) := rfl
  obtain ⟨rfl, rfl⟩ := Prod.mk.inj (Option.some.inj (hbefore.symm.trans hin))
  -- two credentials should be there, and one is
  have hlength : entries'.length = 2 := hstored.2.1.2
  have hdump : credentialYaml.dump
      ((oneCredential "QI_SECRET_B" "b").put (.str "secrets") (.list entries')) =
        asciiBytes "another text" := by
    simp [credentialYaml, Mapping.getD, hlength]
  rw [hdump] at hleft
  exact absurd hleft (by decide)

end Papaia.Ingest
