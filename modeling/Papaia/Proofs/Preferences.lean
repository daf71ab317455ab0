/-
Module: Papaia.Proofs.Preferences
Purpose: When an account's choice is stored completely or not at all: the cached document is the one
  the file parses to, as long as no write fails over it.
Trusted boundary: Documented (what is dumped is loaded again, for texts that YAML keeps)
Main exports: Documented, said, Foreseen, Lawful, Coherent, preferences_runs
-/
import Papaia.Accounts.Preferences
import Papaia.Lib.Runs

namespace Papaia.Accounts

variable {Content : Type} (lib : Library Content)

/-! ### The law -/

/-- The document the file is, where it is one; no file is the empty document. -/
def onDisk : Disk Content → Option Preferences
  | .missing => some ∅
  | .blocked => none
  | .file _ content => (parse lib content).toOption

/-- What the file on disk says for a subject. -/
def said (disk : Disk Content) (subject : String) : Option String :=
  (onDisk lib disk).bind fun prefs => prefs.chosen subject

/-- What a look-up gives at this moment. -/
def answer (s : State Content) (subject : String) : Except Failed (Option String) :=
  (storedLocale lib s subject).1

/-- A text that comes back from a dumped document: it has no next-line character, which the dumper
writes as it is and the loader takes for the end of a line. -/
def Kept (text : String) : Prop :=
  text.toList.all (· != '\u0085') = true

instance (text : String) : Decidable (Kept text) :=
  inferInstanceAs (Decidable (_ = true))

/-- A document of texts that come back. -/
def Writable (prefs : Preferences) : Prop :=
  ∀ entry ∈ prefs.entries, Kept entry.1 ∧ ∀ locale ∈ entry.2.locale, Kept locale

/-- What the YAML library documents: it loads what it has dumped. -/
def Documented (lib : Library Content) : Prop :=
  ∀ prefs : Preferences, Writable prefs → lib.load (lib.dump prefs.document) = .ok prefs.document

/-- The file has an exception nobody expects in store for its reader. -/
def Stumbles (disk : Disk Content) : Prop :=
  ∃ stamp content, disk = .file stamp content ∧ parse lib content = .error .uncaught

/-- Where a step keeps to the law: nobody looks up a subject that is not valid but in the file, or
reads a file that raises; a choice that has to be put into a document that lies on the disk is
written, and the document is one that comes back; and no edit puts another document under the time
and size of the cached one. -/
def Foreseen (s : State Content) : Event Content → Prop
  | .storedLocale subject =>
      ¬ Stumbles lib s.disk ∧ (validSubject subject = true ∨ said lib s.disk subject = none)
  | .setLocale subject locale written =>
      ∀ prefs, onDisk lib s.disk = some prefs → validSubject subject = true →
        prefs.chosen subject ≠ locale →
          (written = none → s.disk = .missing) ∧ Writable (prefs.choose subject locale)
  | .edit disk =>
      ∀ stamp prefs content, s.cache = some (stamp, prefs) → disk = .file stamp content →
        parse lib content = .ok prefs

/-- A choice is stored as a whole or nothing changes, a look-up gives what the file says, and no
call changes anything for another subject. -/
def Lawful (s : State Content) (s' : State Content) : Event Content → Prop
  | .storedLocale subject =>
      answer lib s subject = .ok (said lib s.disk subject) ∧ s'.disk = s.disk ∧
        ∀ other, answer lib s' other = answer lib s other
  | .setLocale subject locale written =>
      ((setLocale lib s subject locale written).1 = .ok () →
        said lib s'.disk subject = locale) ∧
      ((setLocale lib s subject locale written).1 ≠ .ok () →
        s'.disk = s.disk ∧ ∀ other, answer lib s' other = answer lib s other) ∧
      ∀ other, other ≠ subject →
        said lib s'.disk other = said lib s.disk other ∧ answer lib s' other = answer lib s other
  | .edit _ => True

/-! ### What is written is what is read -/

theorem usersOf_dumped {entries : List (Sigma fun _ : String => AccountPreferences)}
    {users : Preferences} :
    usersOf lib (entries.map fun entry => (.str entry.1, .map entry.2.dump)) users =
      some (entries.foldl (fun users entry => users.insert entry.1 entry.2) users) := by
  induction entries generalizing users with
  | nil => rfl
  | cons entry rest ih =>
      have haccount : accountOf (.map entry.2.dump) = some entry.2 := by
        obtain ⟨subject, ⟨locale⟩⟩ := entry
        cases locale <;>
          simp [accountOf, AccountPreferences.dump, Mapping.get?, Ingest.laxText]
      rw [List.map_cons, usersOf, haccount]
      exact ih

theorem lookup_foldl_insert {entries : List (Sigma fun _ : String => AccountPreferences)}
    {users : Preferences} {subject : String} (h : entries.NodupKeys) :
    (entries.foldl (fun users entry => users.insert entry.1 entry.2) users).lookup subject =
      (entries.dlookup subject).or (users.lookup subject) := by
  induction entries generalizing users with
  | nil => rfl
  | cons entry rest ih =>
      obtain ⟨key, account⟩ := entry
      obtain ⟨hnew, hrest⟩ := List.nodupKeys_cons.1 h
      rw [List.foldl_cons, ih hrest]
      by_cases hkey : subject = key
      · subst hkey
        rw [List.dlookup_cons_eq, List.dlookup_eq_none.2 hnew, AList.lookup_insert]
        rfl
      · rw [List.dlookup_cons_ne _ _ hkey, AList.lookup_insert_ne hkey]

/-- The document that is dumped stands for the accounts it was made of. -/
theorem validate_document (prefs : Preferences) :
    ∃ users, validate lib prefs.document = some users ∧
      ∀ subject, users.lookup subject = prefs.lookup subject := by
  have hperm : prefs.sorted.Perm prefs.entries := List.mergeSort_perm _ _
  have hnodup : prefs.sorted.NodupKeys := (List.perm_nodupKeys hperm).2 prefs.nodupKeys
  refine ⟨_, usersOf_dumped lib, ?_⟩
  intro subject
  rw [lookup_foldl_insert hnodup, AList.lookup_empty, Option.or_none, AList.lookup]
  exact List.perm_dlookup subject hnodup hperm

theorem parse_document (doc : Documented lib) {prefs : Preferences} (h : Writable prefs) :
    ∃ users, parse lib (lib.dump prefs.document) = .ok users ∧
      ∀ subject, users.chosen subject = prefs.chosen subject := by
  obtain ⟨users, hvalidate, hlookup⟩ := validate_document lib prefs
  refine ⟨users, by rw [parse, doc prefs h]; simp only [hvalidate], ?_⟩
  intro subject
  rw [Preferences.chosen, hlookup subject, Preferences.chosen]

theorem chosen_choose_self {prefs : Preferences} {subject : String} {locale : Option String} :
    (prefs.choose subject locale).chosen subject = locale := by
  cases locale with
  | none => rw [Preferences.choose, Preferences.chosen, AList.lookup_erase]; rfl
  | some locale => rw [Preferences.choose, Preferences.chosen, AList.lookup_insert]; rfl

theorem chosen_choose_of_ne {prefs : Preferences} {subject other : String}
    {locale : Option String} (h : other ≠ subject) :
    (prefs.choose subject locale).chosen other = prefs.chosen other := by
  cases locale with
  | none => rw [Preferences.choose, Preferences.chosen, AList.lookup_erase_ne h, Preferences.chosen]
  | some locale =>
      rw [Preferences.choose, Preferences.chosen, AList.lookup_insert_ne h, Preferences.chosen]

/-! ### A cache that agrees with the file -/

/-- What is cached under the file's time and size is what the file parses to. -/
def Coherent (s : State Content) : Prop :=
  ∀ stamp prefs content, s.cache = some (stamp, prefs) → s.disk = .file stamp content →
    parse lib content = .ok prefs

/-- What a reader is given of the file as it is on the disk. -/
def reading : Disk Content → Except Failed Preferences
  | .missing => .ok ∅
  | .blocked => .error .preferences
  | .file _ content => parse lib content

variable {lib}

theorem Coherent.readFile {s : State Content} (h : Coherent lib s) {stamp : Stamp}
    {content : Content} (hdisk : s.disk = .file stamp content) :
    (readFile lib s stamp content).1 = parse lib content ∧
      (readFile lib s stamp content).2.disk = s.disk ∧
        Coherent lib (readFile lib s stamp content).2 := by
  unfold Accounts.readFile
  cases hparse : parse lib content with
  | error failed => exact ⟨rfl, rfl, h⟩
  | ok prefs =>
      refine ⟨rfl, rfl, ?_⟩
      intro known held other hcache hother
      obtain ⟨rfl, rfl⟩ := Prod.mk.inj (Option.some.inj hcache)
      obtain ⟨-, rfl⟩ := Disk.file.inj (hdisk.symm.trans hother)
      exact hparse

/-- A read gives what the file is, leaves the file, and leaves the cache in agreement with it. -/
theorem Coherent.read {s : State Content} (h : Coherent lib s) :
    (read lib s).1 = reading lib s.disk ∧ (read lib s).2.disk = s.disk ∧
      Coherent lib (read lib s).2 := by
  unfold Accounts.read
  split
  next hdisk => exact ⟨by rw [hdisk]; rfl, rfl, h⟩
  next hdisk => exact ⟨by rw [hdisk]; rfl, rfl, h⟩
  next stamp content hdisk =>
    rw [hdisk, reading, ← hdisk]
    split
    next known prefs hcache =>
      split
      next hknown =>
        subst hknown
        exact ⟨(h known prefs content hcache hdisk).symm, rfl, h⟩
      next => exact h.readFile hdisk
    next => exact h.readFile hdisk

/-- With such a cache an answer depends on the file alone. -/
theorem Coherent.answer_congr {s s' : State Content} (h : Coherent lib s) (h' : Coherent lib s')
    {subject : String}
    (hsame : (reading lib s'.disk).map (fun prefs => prefs.chosen subject) =
      (reading lib s.disk).map fun prefs => prefs.chosen subject) :
    answer lib s' subject = answer lib s subject := by
  have hform : ∀ t : State Content, Coherent lib t → answer lib t subject =
      if validSubject subject then
        match (reading lib t.disk).map fun prefs => prefs.chosen subject with
        | .ok locale => .ok locale
        | .error .preferences => .ok none
        | .error .uncaught => .error .uncaught
      else .ok none := by
    intro t ht
    obtain ⟨hread, -, -⟩ := ht.read
    unfold answer storedLocale
    split
    next =>
      rw [← hread]
      rcases hresult : Accounts.read lib t with ⟨failed | prefs, t'⟩
      · cases failed <;> rfl
      · rfl
    next => rfl
  rw [hform s h, hform s' h', hsame]

theorem onDisk_eq (disk : Disk Content) : onDisk lib disk = (reading lib disk).toOption := by
  cases disk <;> rfl

/-- A look-up gives what the file says. -/
theorem Coherent.answer_eq {s : State Content} (h : Coherent lib s) {subject : String}
    (hquiet : ¬ Stumbles lib s.disk)
    (hsubject : validSubject subject = true ∨ said lib s.disk subject = none) :
    answer lib s subject = .ok (said lib s.disk subject) := by
  obtain ⟨hread, -, -⟩ := h.read
  unfold answer storedLocale
  by_cases hvalid : validSubject subject = true
  · rw [if_pos hvalid, said, onDisk_eq, ← hread]
    rcases hresult : Accounts.read lib s with ⟨failed | prefs, s'⟩
    · cases failed with
      | preferences => rfl
      | uncaught =>
          exfalso
          apply hquiet
          rw [hresult] at hread
          cases hdisk : s.disk with
          | missing => rw [hdisk] at hread; cases hread
          | blocked => rw [hdisk] at hread; cases hread
          | file stamp content =>
              rw [hdisk] at hread
              exact ⟨stamp, content, rfl, hread.symm⟩
    · rfl
  · rw [if_neg hvalid, hsubject.resolve_left hvalid]

/-! ### A choice -/

/-- What saving a changed document leaves. -/
structure Saved (lib : Library Content) (s s' : State Content) (subject : String)
    (locale : Option String) (result : Except Failed Unit × State Content) : Prop where
  coherent : Coherent lib result.2
  stored : result.1 = .ok () → said lib result.2.disk subject = locale
  unchanged : result.1 ≠ .ok () → result.2 = s'
  others : ∀ other, other ≠ subject →
    (reading lib result.2.disk).map (fun prefs => prefs.chosen other) =
      (reading lib s.disk).map fun prefs => prefs.chosen other

theorem saved (doc : Documented lib) {s s' : State Content} {subject : String}
    {locale : Option String} {written : Option Stamp} {prefs : Preferences}
    (hread : reading lib s.disk = .ok prefs) (hwritten : written = none → s.disk = .missing)
    (hwritable : Writable (prefs.choose subject locale)) (hdisk : s'.disk = s.disk)
    (hcoherent : Coherent lib s') :
    Saved lib s s' subject locale (save lib (s'.changed (prefs.choose subject locale))
      (prefs.choose subject locale) written) := by
  cases written with
  | none =>
      have hsame : s'.changed (prefs.choose subject locale) = s' := by
        rw [State.changed, hdisk, hwritten rfl]
      rw [save, hsame]
      constructor
      · exact hcoherent
      · exact nofun
      · exact fun _ => rfl
      · intro other _
        rw [hdisk]
  | some stamp =>
      obtain ⟨users, hparse, hchosen⟩ := parse_document lib doc hwritable
      have hreads : reading lib (.file stamp (lib.dump (prefs.choose subject locale).document)) =
          .ok users := hparse
      constructor
      · exact nofun
      · intro _
        rw [said, onDisk_eq, save, hreads]
        exact (hchosen subject).trans chosen_choose_self
      · exact fun hfailed => absurd rfl hfailed
      · intro other hother
        rw [save, hreads, hread]
        simp only [Except.map, hchosen]
        rw [chosen_choose_of_ne hother]

theorem said_congr {disk disk' : Disk Content} {subject : String}
    (h : (reading lib disk').map (fun prefs => prefs.chosen subject) =
      (reading lib disk).map fun prefs => prefs.chosen subject) :
    said lib disk' subject = said lib disk subject := by
  have hform : ∀ disk : Disk Content, said lib disk subject =
      ((reading lib disk).map fun prefs => prefs.chosen subject).toOption.bind id := by
    intro disk
    rw [said, onDisk_eq]
    cases reading lib disk <;> rfl
  rw [hform, hform, h]

/-- A call of `set_locale` in a state whose cache agrees with the file. -/
theorem Coherent.setLocale (doc : Documented lib) {s : State Content} (h : Coherent lib s)
    {subject : String} {locale : Option String} {written : Option Stamp}
    (hforeseen : Foreseen lib s (.setLocale subject locale written)) :
    Coherent lib (setLocale lib s subject locale written).2 ∧
      Lawful lib s (setLocale lib s subject locale written).2
        (.setLocale subject locale written) := by
  obtain ⟨hread, hdisk, hcoherent⟩ := h.read
  -- A call that leaves the file as it is leaves every answer as it is.
  have hquiet : ∀ s', s'.disk = s.disk → Coherent lib s' →
      ∀ other, said lib s'.disk other = said lib s.disk other ∧
        answer lib s' other = answer lib s other := by
    intro s' hsame hs' other
    exact ⟨by rw [hsame], h.answer_congr hs' (by rw [hsame])⟩
  rw [Lawful]
  unfold Accounts.setLocale
  by_cases hvalid : validSubject subject = true
  · rw [if_pos hvalid]
    rcases hresult : Accounts.read lib s with ⟨failed | prefs, s'⟩
    · rw [hresult] at hdisk hcoherent
      refine ⟨hcoherent, nofun, ?_, ?_⟩
      · exact fun _ => ⟨hdisk, fun other => (hquiet s' hdisk hcoherent other).2⟩
      · exact fun other _ => hquiet s' hdisk hcoherent other
    · rw [hresult] at hread hdisk hcoherent
      have hon : onDisk lib s.disk = some prefs := by rw [onDisk_eq, ← hread]; rfl
      dsimp only
      split
      next hchosen =>
        refine ⟨hcoherent, ?_, fun hfailed => absurd rfl hfailed, ?_⟩
        · intro _
          rw [said, hdisk, hon]
          exact hchosen
        · exact fun other _ => hquiet s' hdisk hcoherent other
      next hchosen =>
        obtain ⟨hwritten, hwritable⟩ := hforeseen prefs hon hvalid hchosen
        have hsaved := saved doc hread.symm hwritten hwritable hdisk hcoherent
        refine ⟨hsaved.coherent, hsaved.stored, ?_, ?_⟩
        · intro hfailed
          rw [hsaved.unchanged hfailed]
          exact ⟨hdisk, fun other => (hquiet s' hdisk hcoherent other).2⟩
        · intro other hother
          have hsame := hsaved.others other hother
          exact ⟨said_congr hsame, h.answer_congr hsaved.coherent hsame⟩
  · rw [if_neg hvalid]
    exact ⟨h, nofun, fun _ => ⟨rfl, fun _ => rfl⟩, fun _ _ => ⟨rfl, rfl⟩⟩

/-- A look-up in a state whose cache agrees with the file. -/
theorem Coherent.storedLocale {s : State Content} (h : Coherent lib s) (subject : String) :
    Coherent lib (storedLocale lib s subject).2 ∧
      (storedLocale lib s subject).2.disk = s.disk := by
  obtain ⟨-, hdisk, hcoherent⟩ := h.read
  unfold Accounts.storedLocale
  split
  next =>
    rcases hresult : Accounts.read lib s with ⟨failed | prefs, s'⟩
    · rw [hresult] at hdisk hcoherent
      cases failed <;> exact ⟨hcoherent, hdisk⟩
    · rw [hresult] at hdisk hcoherent
      exact ⟨hcoherent, hdisk⟩
  next => exact ⟨h, rfl⟩

/-! ### Runs -/

theorem step_lawful (doc : Documented lib) {s s' : State Content} {e : Event Content}
    (h : Coherent lib s) (hforeseen : Foreseen lib s e) (hstep : step lib s e = some s') :
    Coherent lib s' ∧ Lawful lib s s' e := by
  cases e with
  | storedLocale subject =>
      obtain rfl := Option.some.inj hstep
      obtain ⟨hcoherent, hdisk⟩ := h.storedLocale subject
      refine ⟨hcoherent, h.answer_eq hforeseen.1 hforeseen.2, hdisk, ?_⟩
      exact fun other => h.answer_congr hcoherent (by rw [hdisk])
  | setLocale subject locale written =>
      obtain rfl := Option.some.inj hstep
      exact h.setLocale doc hforeseen
  | edit disk =>
      simp only [step, Option.ite_none_right_eq_some, Option.some.injEq] at hstep
      obtain ⟨-, rfl⟩ := hstep
      exact ⟨hforeseen, trivial⟩

/-- A process that has just started. -/
def start (disk : Disk Content) : State Content :=
  { disk := disk }

/-- In a run of such steps every choice is stored as a whole or nothing changes, and every look-up
gives what the file says at that moment. -/
theorem preferences_runs (doc : Documented lib) {disk : Disk Content} {s : State Content}
    (h : Runs.Reaches (step lib) (Foreseen lib) (start disk) s) :
    ∀ e s', Foreseen lib s e → step lib s e = some s' → Lawful lib s s' e := by
  have hcoherent : Coherent lib s := by
    apply h.invariant
    · intro stamp prefs content hcache
      cases hcache
    · exact fun s e s' hs hforeseen hstep => (step_lawful doc hs hforeseen hstep).1
  exact fun e s' hforeseen hstep => (step_lawful doc hcoherent hforeseen hstep).2

/-! ### A write that fails -/

/-- A library whose files are what they parse to. -/
def plainLibrary : Library (Except Failed Val) where
  load content := content
  dump value := .ok value
  str _ := ""

theorem documented_plainLibrary : Documented plainLibrary :=
  fun _ _ => rfl

/-- A file in which Ann has chosen German. -/
def annsFile : Disk (Except Failed Val) :=
  .file (1, 60) (.ok (.map [(.str "users", .map [(.str "ann", .map [(.str "locale", .str "de")])])]))

/-- The document of that file. -/
def annsChoice : Preferences :=
  (∅ : Preferences).insert "ann" { locale := some "de" }

theorem reading_annsFile : reading plainLibrary annsFile = .ok annsChoice :=
  rfl

/-- Ann's language is looked up, and then she chooses English, which is written. -/
theorem preferences_runs_ann :
    Lawful plainLibrary (storedLocale plainLibrary (start annsFile) "ann").2
      (setLocale plainLibrary (storedLocale plainLibrary (start annsFile) "ann").2 "ann"
        (some "en") (some (2, 60))).2 (.setLocale "ann" (some "en") (some (2, 60))) := by
  have hlooked : Foreseen plainLibrary (start annsFile) (.storedLocale "ann") := by
    refine ⟨?_, .inl (by decide)⟩
    rintro ⟨stamp, content, hdisk, hparse⟩
    have hreading := reading_annsFile
    rw [show annsFile = .file stamp content from hdisk, reading, hparse] at hreading
    cases hreading
  have hreached : Runs.Reaches (step plainLibrary) (Foreseen plainLibrary) (start annsFile)
      (storedLocale plainLibrary (start annsFile) "ann").2 := .next .refl hlooked rfl
  apply preferences_runs documented_plainLibrary hreached
  · intro prefs hprefs _ _
    have hsame : annsChoice = prefs := by
      have hdisk : (storedLocale plainLibrary (start annsFile) "ann").2.disk = annsFile :=
        rfl
      rw [hdisk, onDisk_eq, reading_annsFile] at hprefs
      exact Option.some.inj hprefs
    subst hsame
    refine ⟨nofun, ?_⟩
    have hall : ∀ entry ∈ (annsChoice.choose "ann" (some "en")).entries,
        entry.1 = "ann" ∧ entry.2.locale = some "en" := by decide
    intro entry hentry
    obtain ⟨hsubject, hlocale⟩ := hall entry hentry
    rw [hsubject, hlocale]
    refine ⟨by decide, ?_⟩
    intro locale hmem
    obtain rfl := Option.some.inj hmem
    decide
  · rfl

/-- A write that fails over the cached document: Ann is told that nothing was saved, and from then on
her pages are in English. -/
theorem failed_write_changes_language :
    ¬ ∀ (disk : Disk (Except Failed Val)) (s : State (Except Failed Val)),
      Runs.Reaches (step plainLibrary) (fun _ _ => True) (start disk) s →
        ∀ e s', step plainLibrary s e = some s' → Lawful plainLibrary s s' e := by
  intro h
  have hlawful := h annsFile (start annsFile) .refl (.setLocale "ann" (some "en") none) _ rfl
  have hraised : (setLocale plainLibrary (start annsFile) "ann" (some "en") none).1 ≠ .ok () := by
    decide
  have hanswer := (hlawful.2.1 hraised).2 "ann"
  have hbefore : answer plainLibrary (start annsFile) "ann" = .ok (some "de") := by
    decide
  have hafter : answer plainLibrary (setLocale plainLibrary (start annsFile) "ann" (some "en")
      none).2 "ann" = .ok (some "en") := by
    decide
  rw [hbefore] at hanswer
  exact absurd (hafter.symm.trans hanswer) (by decide)

end Papaia.Accounts
