/-
Module: Papaia.Proofs.Access
Purpose: Which address a stored key is sent to, over every sequence of operations on the connections.
Trusted boundary: none
Main exports: SameUrl, AllHome, allHome_step, SentHome, stored_key_stays_home
-/
import Papaia.Vectordb.Access
import Papaia.Proofs.Connections
import Papaia.Lib.Runs

namespace Papaia.Vectordb

open Text Ingest Runs

/-! ### Equal addresses -/

/-- A text without one slash at its end. -/
def withoutSlash (text : String) : String :=
  if endsWith text "/" then String.ofList text.toList.dropLast else text

/-- Scheme and host, and what follows them. -/
def urlParts (url : String) : String × String :=
  let chars := url.toList
  let scheme := if startsWith url "https://" then 8 else if startsWith url "http://" then 7 else 0
  let isHost := fun c : Char => c != '/' && c != '?' && c != '#'
  (String.ofList (chars.take scheme ++ (chars.drop scheme).takeWhile isHost),
    String.ofList ((chars.drop scheme).dropWhile isHost))

/-- Two addresses are equal up to the case of scheme and host and a trailing slash. -/
def SameUrl (lowerOf : String → String) (a b : String) : Prop :=
  lowerOf (urlParts a).1 = lowerOf (urlParts b).1 ∧
    withoutSlash (urlParts a).2 = withoutSlash (urlParts b).2

theorem SameUrl.refl (lowerOf : String → String) (a : String) : SameUrl lowerOf a a :=
  ⟨rfl, rfl⟩

theorem SameUrl.symm {lowerOf : String → String} {a b : String} (h : SameUrl lowerOf a b) :
    SameUrl lowerOf b a :=
  ⟨h.1.symm, h.2.symm⟩

theorem SameUrl.trans {lowerOf : String → String} {a b c : String} (h : SameUrl lowerOf a b)
    (h' : SameUrl lowerOf b c) : SameUrl lowerOf a c :=
  ⟨h.1.trans h'.1, h.2.trans h'.2⟩

/-! ### The promise and its condition -/

/-- An update that keeps a stored key gives the stored address, where `same_address` takes the new
one for it. -/
def KeepsAddress (rt : AccessRuntime) (store : Store) (event : Environment × Operation) : Prop :=
  match event.2 with
  | .update name url apiKey clearKey _ _ =>
      ∀ index entry, findEntry store.document name = some (index, entry) →
        hasKey entry = true → typedKey apiKey = "" → clearKey = false →
        (contextOf rt event.1).sameAddress (addressOf entry) (strip (url.getD "")) = true →
          SameUrl rt.lowerOf (urlText (.map entry)) (strip (url.getD ""))
  | _ => True

/-- A connection that carries the decryption of a stored key is reached at the address that was
given when the key was stored. -/
def SentHome (rt : AccessRuntime) (env : Environment) (store : Store) (name : String)
    (connection : Connection) : Prop :=
  connection.source = .file → connection.keyState = .ok →
    ∃ index entry given address, findEntry store.document name = some (index, entry) ∧
      store.given[index]? = some given ∧ connection.url = reach rt env address ∧
      SameUrl rt.lowerOf address given

/-- Every entry of the store stands with the address its key was given for. -/
structure AllHome (rt : AccessRuntime) (store : Store) : Prop where
  length : store.given.length = (connectionsOf store.document).length
  home : ∀ (index : Nat) (raw : Val) (given : String), (connectionsOf store.document)[index]? = some raw →
    store.given[index]? = some given → SameUrl rt.lowerOf (urlText raw) given

variable {rt : AccessRuntime}

/-! ### What a surgery does to the entries and their addresses -/

theorem connectionsOf_put (document : Mapping) (entries : List Val) :
    connectionsOf (document.put (.str "connections") (.list entries)) = entries := by
  simp [connectionsOf, Mapping.getD, Mapping.get?_put_self]

/-- A surgery on entries with addresses is the surgery on the entries. -/
theorem map_fst_on (surgery : Surgery) (address : String) (elements : List (Val × String)) :
    (surgery.on Prod.fst (fun raw => (raw, address)) elements).map Prod.fst =
      surgery.apply (elements.map Prod.fst) := by
  cases surgery with
  | remove name =>
      simp only [Surgery.on, Surgery.apply, List.filter_map]
      rfl
  | overwrite index entry => simp [Surgery.on, Surgery.apply, List.map_set]
  | append entry => simp [Surgery.on, Surgery.apply]

/-- The entry a surgery puts in. -/
def Surgery.entry : Surgery → Option Mapping
  | .remove _ => none
  | .overwrite _ entry | .append entry => some entry

theorem mem_on {surgery : Surgery} {address : String} {elements : List (Val × String)}
    {element : Val × String}
    (h : element ∈ surgery.on Prod.fst (fun raw => (raw, address)) elements) :
    element ∈ elements ∨ ∃ entry, surgery.entry = some entry ∧ element = (.map entry, address) := by
  cases surgery with
  | remove name => exact .inl (List.mem_of_mem_filter h)
  | overwrite index entry =>
      rcases List.mem_or_eq_of_mem_set h with hmem | rfl
      · exact .inl hmem
      · exact .inr ⟨entry, rfl, rfl⟩
  | append entry =>
      rcases List.mem_append.mp h with hmem | hmem
      · exact .inl hmem
      · exact .inr ⟨entry, rfl, List.mem_singleton.mp hmem⟩

theorem AllHome.mem {store : Store} (h : AllHome rt store) {raw : Val} {given : String}
    (hmem : (raw, given) ∈ (connectionsOf store.document).zip store.given) :
    SameUrl rt.lowerOf (urlText raw) given := by
  obtain ⟨index, hindex⟩ := List.mem_iff_getElem?.mp hmem
  rw [List.getElem?_zip_eq_some] at hindex
  exact h.home index raw given hindex.1 hindex.2

/-- A surgery that puts in an entry with the address its key was given for keeps all at home. -/
theorem allHome_after {store : Store} (h : AllHome rt store) {surgery : Surgery} {address : String}
    (hnew : ∀ entry, surgery.entry = some entry →
      SameUrl rt.lowerOf (urlText (.map entry)) address) :
    AllHome rt (store.after surgery address) := by
  have hfst : ((connectionsOf store.document).zip store.given).map Prod.fst =
      connectionsOf store.document := List.map_fst_zip (Nat.le_of_eq h.length.symm)
  have hentries : connectionsOf (store.after surgery address).document =
      (surgery.on Prod.fst (fun raw => (raw, address))
        ((connectionsOf store.document).zip store.given)).map Prod.fst := by
    rw [map_fst_on, hfst]
    exact connectionsOf_put _ _
  refine ⟨?_, ?_⟩
  · rw [hentries]
    simp [Store.after]
  · intro index raw given hraw hgiven
    rw [hentries, List.getElem?_map] at hraw
    simp only [Store.after, List.getElem?_map] at hgiven
    obtain ⟨element, helement, rfl⟩ := Option.map_eq_some_iff.mp hraw
    rw [helement] at hgiven
    obtain rfl := Option.some.inj hgiven
    rcases mem_on (List.mem_of_getElem? helement) with hmem | ⟨entry, hentry, rfl⟩
    · exact h.mem hmem
    · exact hnew entry hentry

/-! ### What an operation asks for -/

theorem validateUrl_eq_ok {value clean : String} (h : validateUrl rt value = .ok clean) :
    clean = strip value := by
  unfold validateUrl at h
  simp only [invalidConnection] at h
  repeat' split at h
  all_goals first | cases h; rfl | cases h

theorem encryptKey_eq_ok {env : Environment} {apiKey token : Option String}
    (h : encryptKey rt env apiKey = .ok token) : token = none ↔ typedKey apiKey = "" := by
  unfold encryptKey at h
  split at h
  next hblank =>
    obtain rfl := Except.ok.inj h
    simp [hblank]
  next hblank =>
    split at h
    next => cases h
    next =>
      obtain rfl := Except.ok.inj h
      simp [hblank]

/-- An update that is not refused before the file is read. -/
theorem asked_update {env : Environment} {document : Mapping} {structuralError : Option String}
    {name etag : String} {url apiKey : Option String} {clearKey confirmJobs : Bool} {asked : Asked}
    (h : (Operation.update name url apiKey clearKey etag confirmJobs).asked rt env document
      structuralError = .ok (some asked)) :
    ∃ token, (token = none ↔ typedKey apiKey = "") ∧
      asked = .change (.edit name (strip (url.getD "")) token clearKey etag confirmJobs) := by
  simp only [Operation.asked, bind, Except.bind] at h
  split at h
  next => cases h
  next clean hclean =>
    obtain rfl := validateUrl_eq_ok hclean
    split at h
    next => cases h
    next token htoken =>
      refine ⟨token, encryptKey_eq_ok htoken, ?_⟩
      split at h
      next => cases h
      next =>
        simp only [pure, Except.pure] at h
        exact (Option.some.inj (Except.ok.inj h)).symm

/-- An edit that keeps the stored key keeps the address, as `same_address` sees it. -/
theorem sameAddress_of_kept {rt : Runtime} {ctx : ServiceContext} {name url etag : String}
    {confirmJobs : Bool} {document : Mapping} {surgery : Surgery} {index : Nat} {entry : Mapping}
    (h : editSurgery rt ctx name url none false etag confirmJobs document = .ok surgery)
    (hfind : findEntry document name = some (index, entry)) (hkey : hasKey entry = true) :
    ctx.sameAddress (addressOf entry) url = true := by
  by_contra hmoved
  rw [Bool.not_eq_true] at hmoved
  simp only [editSurgery, hfind, hmoved, moveRefusal, hkey] at h
  split at h <;> simp_all [staleConnection]

theorem writeOn_eq_some {rt : Runtime} {mutate : Mapping → Except StoreError (Option Surgery)}
    {store : Store} {surgery : Surgery} (h : writeOn rt mutate store = .ok (some surgery)) :
    mutate store.document = .ok (some surgery) := by
  unfold writeOn at h
  split at h
  next => cases h
  next =>
    split at h
    next => cases h
    next => cases h
    next found hfound =>
      simp only at h
      split at h
      · rw [hfound, Except.ok.inj h]
      · cases h

theorem urlText_toEntry (name url : String) (token : Option String) :
    urlText (.map (toEntry name url token)) = url := by
  simp [urlText, Mapping.getD, (get?_toEntry name url token).2.1, laxText]

/-- What a change puts in stands with the address its key was given for. -/
theorem home_of_change {env : Environment} {store : Store} {change : Change} {surgery : Surgery}
    (h : AllHome rt store)
    (hmutate : change.mutate rt.toRuntime (contextOf rt env) store.document = .ok surgery)
    (hkept : ∀ name url etag confirmJobs index entry,
      change = .edit name url none false etag confirmJobs →
      findEntry store.document name = some (index, entry) → hasKey entry = true →
      (contextOf rt env).sameAddress (addressOf entry) url = true →
        SameUrl rt.lowerOf (urlText (.map entry)) url) :
    ∀ entry, surgery.entry = some entry →
      SameUrl rt.lowerOf (urlText (.map entry)) ((Asked.change change).address store) := by
  intro entry hentry
  cases change with
  | create name url token =>
      simp only [Change.mutate, createSurgery] at hmutate
      split at hmutate
      · cases hmutate
      · obtain rfl := Except.ok.inj hmutate
        obtain rfl := Option.some.inj hentry
        rw [urlText_toEntry]
        exact .refl _ _
  | edit name url token clearKey etag confirmJobs =>
      obtain ⟨index, old, hfind, rfl⟩ := editSurgery_ok hmutate
      obtain rfl := Option.some.inj hentry
      rw [urlText_toEntry]
      simp only [Asked.address, hfind]
      split
      next hkeeps =>
        simp only [Bool.and_eq_true, Option.isNone_iff_eq_none, Bool.not_eq_true'] at hkeeps
        obtain ⟨⟨rfl, rfl⟩, hkey⟩ := hkeeps
        have hsame := hkept name url etag confirmJobs index old rfl hfind hkey
          (sameAddress_of_kept hmutate hfind hkey)
        obtain ⟨hold, -⟩ := findEntry_eq_some hfind
        have hlt : index < store.given.length := by
          rw [h.length]
          exact (List.getElem?_eq_some_iff.mp hold).1
        have hgiven : store.given[index]? = some (store.given.getD index "") := by
          simp [List.getElem?_eq_getElem hlt]
        exact hsame.symm.trans (h.home index _ _ hold hgiven)
      next => exact .refl _ _
  | delete name etag =>
      obtain rfl := deleteSurgery_ok hmutate
      cases hentry
  | resetDefault token =>
      simp only [Change.mutate, resetSurgery] at hmutate
      split at hmutate <;> obtain rfl := Except.ok.inj hmutate <;>
        obtain rfl := Option.some.inj hentry <;> rw [urlText_toEntry] <;> exact .refl _ _

/-- An operation keeps every key at home. -/
theorem allHome_step {store store' : Store} {event : Environment × Operation}
    (h : AllHome rt store) (ok : KeepsAddress rt store event)
    (taken : serviceStep rt store event = some store') : AllHome rt store' := by
  obtain ⟨env, operation⟩ := event
  unfold serviceStep at taken
  split at taken
  next => exact Option.some.inj taken ▸ h
  next => exact Option.some.inj taken ▸ h
  next asked hasked =>
    split at taken
    next => exact Option.some.inj taken ▸ h
    next => exact Option.some.inj taken ▸ h
    next surgery hwrite =>
      obtain rfl := Option.some.inj taken
      refine allHome_after h ?_
      have hmutate := writeOn_eq_some hwrite
      cases asked with
      | seed token =>
          simp only [Asked.mutate] at hmutate
          split at hmutate
          next =>
            obtain rfl := Option.some.inj (Except.ok.inj hmutate)
            intro entry hentry
            obtain rfl := Option.some.inj hentry
            rw [urlText_toEntry]
            exact .refl _ _
          next => cases Except.ok.inj hmutate
      | change change =>
          have hchange : change.mutate rt.toRuntime (contextOf rt env) store.document =
              .ok surgery := by
            simp only [Asked.mutate] at hmutate
            cases hcase : change.mutate rt.toRuntime (contextOf rt env) store.document with
            | error refusal => simp [hcase, Except.map] at hmutate
            | ok found =>
                rw [hcase] at hmutate
                rw [Option.some.inj (Except.ok.inj hmutate)]
          refine home_of_change h hchange ?_
          rintro name url etag confirmJobs index entry rfl hfind hkey hsame
          cases operation with
          | update name' url' apiKey clearKey etag' confirmJobs' =>
              obtain ⟨token, htoken, hedit⟩ := asked_update hasked
              simp only [Asked.change.injEq, Change.edit.injEq] at hedit
              obtain ⟨rfl, rfl, rfl, rfl, -, -⟩ := hedit
              exact ok index entry hfind hkey (htoken.mp rfl) rfl hsame
          | ensureDefault =>
              simp only [Operation.asked] at hasked
              split at hasked <;> simp at hasked
          | resetDefault =>
              simp only [Operation.asked] at hasked
              repeat' split at hasked
              all_goals simp at hasked
          | delete => simp [Operation.asked] at hasked
          | create name' typeId url' apiKey =>
              simp only [Operation.asked, bind, Except.bind] at hasked
              repeat' split at hasked
              all_goals simp [pure, Except.pure] at hasked

/-! ### Where a stored key is sent -/

theorem laxText_of_readUrl {v : Val} {url : String} (h : readUrl v = .ok url) :
    laxText v = some url := by
  cases hlax : laxText v with
  | none => simp [readUrl, readFilledStr, readStr, hlax] at h
  | some text =>
      by_cases hempty : text = ""
      · simp [readUrl, readFilledStr, readStr, hlax, hempty, Checked.fault] at h
      · have hfilled : readFilledStr v = .ok text := by
          unfold readFilledStr readStr
          rw [hlax]
          split
          next heq => exact absurd (Except.ok.inj heq) hempty
          next => rfl
        simp only [readUrl, hfilled] at h
        split at h
        · rw [Except.ok.inj h]
        · cases h

theorem urlText_of_read {rt : Runtime} {m : Mapping} {entry : ConnectionEntry}
    (h : readConnection rt m = .ok entry) : urlText (.map m) = entry.url := by
  obtain ⟨-, hurl, -⟩ := readConnection_eq_ok.mp h
  rw [field_eq_ok] at hurl
  cases hkey : m.get? "url" with
  | none =>
      rw [hkey] at hurl
      cases hurl
  | some v =>
      rw [hkey] at hurl
      simp [urlText, Mapping.getD, hkey, laxText_of_readUrl hurl]

/-- In a store where every key is at home, the connection of a name is reached at home. -/
theorem sentHome_of_allHome {store : Store} (h : AllHome rt store) {env : Environment}
    {name address : String} {connection : Connection}
    (hstored : storedConnection rt env store name = .ok (address, connection)) :
    SentHome rt env store name connection := by
  intro hfile _
  unfold storedConnection at hstored
  split at hstored
  next index raw hfind =>
    split at hstored
    next => cases hstored
    next entry hread =>
      obtain ⟨hraw, -⟩ := findEntry_eq_some hfind
      have hlt : index < store.given.length := by
        rw [h.length]
        exact (List.getElem?_eq_some_iff.mp hraw).1
      have hgiven : store.given[index]? = some store.given[index] := List.getElem?_eq_getElem hlt
      have hhome := h.home index _ _ hraw hgiven
      rw [urlText_of_read hread] at hhome
      obtain ⟨rfl, rfl⟩ := Prod.mk.inj (Except.ok.inj hstored)
      exact ⟨index, raw, _, entry.url, hfind, hgiven, rfl, hhome⟩
  next =>
    split at hstored
    next =>
      obtain ⟨-, rfl⟩ := Prod.mk.inj (Except.ok.inj hstored)
      cases hfile
    next => cases hstored

/-- A probe carries what was typed, or it is the stored connection. -/
theorem probed {env : Environment} {store : Store} {name : Option String} {typeId : String}
    {url apiKey : Option String} {connection : Connection}
    (h : testConnection rt env store name typeId url apiKey = .ok (some connection)) :
    connection.apiKey = typedKey apiKey ∨
      ∃ stored address, name = some stored ∧
        storedConnection rt env store stored = .ok (address, connection) := by
  unfold testConnection at h
  cases name with
  | none =>
      simp only [bind, Except.bind] at h
      repeat' split at h
      all_goals first | cases h; exact .inl rfl | cases h
  | some name =>
      simp only [bind, Except.bind] at h
      split at h
      next => cases h
      next found hstored =>
        repeat' split at h
        all_goals first | cases h; exact .inl rfl | cases h
        exact .inr ⟨name, found.1, rfl, hstored⟩

/-- An update that is asked for no key and no removal leaves the stored key as it is. -/
theorem stored_key_is_kept {env : Environment} {store store' : Store} {name etag : String}
    {url apiKey : Option String} {confirmJobs : Bool}
    (taken : serviceStep rt store
      (env, .update name url apiKey false etag confirmJobs) = some store')
    (htyped : typedKey apiKey = "") {index : Nat} {entry : Mapping} {text : String}
    (hfind : findEntry store.document name = some (index, entry))
    (hstored : storedKey entry = some text) (hne : text ≠ "") :
    ∃ entry', (connectionsOf store'.document)[index]? = some (.map entry') ∧
      storedKey entry' = some text := by
  obtain ⟨hentry, -⟩ := findEntry_eq_some hfind
  unfold serviceStep at taken
  split at taken
  next => exact ⟨entry, Option.some.inj taken ▸ hentry, hstored⟩
  next => exact ⟨entry, Option.some.inj taken ▸ hentry, hstored⟩
  next asked hasked =>
    split at taken
    next => exact ⟨entry, Option.some.inj taken ▸ hentry, hstored⟩
    next => exact ⟨entry, Option.some.inj taken ▸ hentry, hstored⟩
    next surgery hwrite =>
      obtain rfl := Option.some.inj taken
      obtain ⟨token, htoken, rfl⟩ := asked_update hasked
      obtain rfl := htoken.mpr htyped
      have hmutate := writeOn_eq_some hwrite
      simp only [Asked.mutate, Change.mutate] at hmutate
      cases hedit : editSurgery rt.toRuntime (contextOf rt env) name (strip (url.getD "")) none
          false etag confirmJobs store.document with
      | error refusal => simp [hedit, Except.map] at hmutate
      | ok found =>
          rw [hedit] at hmutate
          obtain rfl := Option.some.inj (Except.ok.inj hmutate)
          obtain ⟨index', old, hfind', rfl⟩ := editSurgery_ok hedit
          obtain ⟨rfl, rfl⟩ := Prod.mk.inj (Option.some.inj (hfind.symm.trans hfind'))
          have hkept : keptToken none false entry = some text := by
            simp [keptToken, hasKey, hstored, hne]
          refine ⟨toEntry name (strip (url.getD "")) (some text), ?_, ?_⟩
          · rw [Store.after, connectionsOf_put, hkept]
            have hlt := (List.getElem?_eq_some_iff.mp hentry).1
            simp [Surgery.apply, Surgery.on, hlt]
          · simp [storedKey, (get?_toEntry name _ (some text)).2.2, writtenKey, hne]

/-- In every sequence of operations whose updates keep a key only with its address, every stored
key is sent to the address that was given when it was stored, and to no other. -/
theorem stored_key_stays_home (rt : AccessRuntime) (yaml : Yaml) (read : FileRead) (store : Store)
    (reached : Reaches (serviceStep rt) (KeepsAddress rt)
      (openedStore (readConnections rt.toRuntime yaml read)) store) :
    (∀ env name address connection,
      storedConnection rt env store name = .ok (address, connection) →
        SentHome rt env store name connection) ∧
    (∀ env name typeId url apiKey connection,
      testConnection rt env store name typeId url apiKey = .ok (some connection) →
        connection.apiKey = typedKey apiKey ∨
          ∃ stored, name = some stored ∧ SentHome rt env store stored connection) ∧
    (∀ env name url apiKey etag confirmJobs store' index entry text,
      serviceStep rt store (env, .update name url apiKey false etag confirmJobs) = some store' →
        typedKey apiKey = "" → findEntry store.document name = some (index, entry) →
          storedKey entry = some text → text ≠ "" →
            ∃ entry', (connectionsOf store'.document)[index]? = some (.map entry') ∧
              storedKey entry' = some text) := by
  have hhome : AllHome rt store := by
    refine reached.invariant ?_ ?_
    · refine ⟨by simp [openedStore], ?_⟩
      intro index raw given hraw hgiven
      simp only [openedStore, List.getElem?_map] at hgiven hraw
      rw [hraw] at hgiven
      obtain rfl := Option.some.inj hgiven
      exact .refl _ _
    · intro store event store' h ok taken
      exact allHome_step h ok taken
  refine ⟨?_, ?_, ?_⟩
  · intro env name address connection hstored
    exact sentHome_of_allHome hhome hstored
  · intro env name typeId url apiKey connection htest
    rcases probed htest with htyped | ⟨stored, address, hname, hstored⟩
    · exact .inl htyped
    · exact .inr ⟨stored, hname, sentHome_of_allHome hhome hstored⟩
  · intro env name url apiKey etag confirmJobs store' index entry text taken htyped hfind hstored hne
    exact stored_key_is_kept taken htyped hfind hstored hne

/-- An update that keeps key and address goes through. -/
theorem serviceStep_kept {env : Environment} {store : Store} {name url etag : String}
    {confirmJobs : Bool} {index : Nat} {entry : Mapping} (hstructure : store.structuralError = none)
    (hurl : validateUrl rt url = .ok url)
    (hfind : findEntry store.document name = some (index, entry)) (hetag : rt.etagOf entry = etag)
    (hkey : hasKey entry = true)
    (hsame : (contextOf rt env).sameAddress (addressOf entry) url = true)
    (hfresh : (freshIssues rt.toRuntime (connectionsOf store.document)
      ((Surgery.overwrite index (toEntry name url (storedKey entry))).apply
        (connectionsOf store.document))).isEmpty = true) :
    serviceStep rt store (env, .update name (some url) none false etag confirmJobs) =
      some (store.after (.overwrite index (toEntry name url (storedKey entry)))
        (store.given.getD index "")) := by
  have hasked : (Operation.update name (some url) none false etag confirmJobs).asked rt env
      store.document store.structuralError =
      .ok (some (.change (.edit name url none false etag confirmJobs))) := by
    have hnone : typedKey none = "" := rfl
    simp [Operation.asked, hurl, encryptKey, hnone, bind, Except.bind, pure, Except.pure]
  have hedit : editSurgery rt.toRuntime (contextOf rt env) name url none false etag confirmJobs
      store.document = .ok (.overwrite index (toEntry name url (storedKey entry))) := by
    have hetag' : (contextOf rt env).etagOf entry = etag := hetag
    simp [editSurgery, hfind, hetag', hsame, keptToken, hkey]
  have hwrite : writeOn rt.toRuntime
      ((Asked.change (.edit name url none false etag confirmJobs)).mutate rt env) store =
      .ok (some (.overwrite index (toEntry name url (storedKey entry)))) := by
    simp [writeOn, hstructure, Asked.mutate, Change.mutate, hedit, Except.map, hfresh]
  have haddress : (Asked.change (.edit name url none false etag confirmJobs)).address store =
      store.given.getD index "" := by
    simp [Asked.address, hfind, hkey]
  unfold serviceStep
  simp only [hasked, hwrite, haddress]

/-! ### Two paths of one host -/

/-- The libraries for plain texts; every token decrypts to one key. -/
def plainAccess : AccessRuntime :=
  { plainRuntime with
    etagOf := fun _ => ""
    lowerOf := lower
    urlsplit := fun _ => some ("host", "host")
    fernetEncrypt := fun _ _ _ => "token"
    fernetDecrypt := fun _ _ => some "key" }

def quietEnvironment : Environment :=
  { qdrantUrl := "http://localhost:6333", secrets := ⟨"secret", "stack"⟩, ragActive := true
    seedFailed := false, usageError := none, jobsOf := fun _ => [], nonce := 0 }

/-- A connection with a key. -/
def mainEntry : Mapping :=
  [(.str "name", .str "main"), (.str "url", .str "http://host/Team"),
    (.str "api_key", .str "enc:1:token")]

def mainDocument : Mapping :=
  [(.str "version", .int 1), (.str "connections", .list [.map mainEntry])]

/-- The file that holds it. -/
def mainRead : Mapping × Option String :=
  readConnections plainAccess.toRuntime (oneFileYaml "connections: [main]" mainDocument)
    (.content (asciiBytes "connections: [main]"))

/-- The connection is given another address and no key. -/
def moveMain (url : String) : Environment × Operation :=
  (quietEnvironment, .update "main" (some url) none false "" false)

/-- The store with the connection, and after it was given another address. -/
def mainStore : Store :=
  ⟨mainDocument, none, ["http://host/Team"]⟩

def movedStore (url : String) : Store :=
  mainStore.after (.overwrite 0 (toEntry "main" url (storedKey mainEntry))) "http://host/Team"

theorem main_opened : openedStore mainRead = mainStore :=
  rfl

theorem main_moves {url : String} (hurl : validateUrl plainAccess url = .ok url)
    (hsame : (contextOf plainAccess quietEnvironment).sameAddress (addressOf mainEntry) url = true)
    (hfresh : (freshIssues plainAccess.toRuntime (connectionsOf mainStore.document)
      ((Surgery.overwrite 0 (toEntry "main" url (storedKey mainEntry))).apply
        (connectionsOf mainStore.document))).isEmpty = true) :
    serviceStep plainAccess mainStore (moveMain url) = some (movedStore url) := by
  have hfind : findEntry mainStore.document "main" = some (0, mainEntry) := rfl
  have hkey : hasKey mainEntry = true := by decide +kernel
  exact serviceStep_kept rfl hurl hfind rfl hkey hsame hfresh

/-- A path in other letters is taken for the stored address, and the key goes there. -/
theorem key_goes_to_another_path :
    ¬∀ (rt : AccessRuntime) (yaml : Yaml) (read : FileRead) (store : Store),
      Reaches (serviceStep rt) (fun _ _ => True)
        (openedStore (readConnections rt.toRuntime yaml read)) store →
      ∀ env name address connection,
        storedConnection rt env store name = .ok (address, connection) →
          SentHome rt env store name connection := by
  intro h
  have hstep : serviceStep plainAccess mainStore (moveMain "http://host/team") =
      some (movedStore "http://host/team") :=
    main_moves (by decide +kernel) (by decide +kernel) (by decide +kernel)
  have hreached : Reaches (serviceStep plainAccess) (fun _ _ => True) (openedStore mainRead)
      (movedStore "http://host/team") := by
    rw [main_opened]
    exact Reaches.refl.next trivial hstep
  obtain ⟨index, entry, given, address, hfind, hgiven, hurl, hsame⟩ :=
    h plainAccess _ _ _ hreached quietEnvironment "main" "http://host/team"
      ⟨"main", "http://host/team", "key", .ok, .file, false⟩ (by decide +kernel) rfl rfl
  obtain ⟨rfl, -⟩ := Prod.mk.inj (Option.some.inj hfind)
  obtain rfl : "http://host/Team" = given := Option.some.inj hgiven
  have haddress : address = "http://host/team" := by
    unfold reach at hurl
    split at hurl
    · exact absurd hurl (by decide)
    · exact hurl.symm
  subst haddress
  revert hsame
  unfold SameUrl
  decide +kernel

/-- A slash at the end and a host in other letters are the same address. -/
theorem key_stays_with_host_in_capitals :
    SentHome plainAccess quietEnvironment (movedStore "http://HOST/Team/") "main"
      ⟨"main", "http://HOST/Team/", "key", .ok, .file, false⟩ := by
  have hstep : serviceStep plainAccess mainStore (moveMain "http://HOST/Team/") =
      some (movedStore "http://HOST/Team/") :=
    main_moves (by decide +kernel) (by decide +kernel) (by decide +kernel)
  have hkeeps : KeepsAddress plainAccess mainStore (moveMain "http://HOST/Team/") := by
    intro index entry hfind _ _ _ _
    obtain ⟨-, rfl⟩ := Prod.mk.inj (Option.some.inj hfind)
    unfold SameUrl
    decide +kernel
  have hreached : Reaches (serviceStep plainAccess) (KeepsAddress plainAccess)
      (openedStore mainRead) (movedStore "http://HOST/Team/") := by
    rw [main_opened]
    exact Reaches.refl.next hkeeps hstep
  exact (stored_key_stays_home plainAccess _ _ _ hreached).1 quietEnvironment "main"
    "http://HOST/Team/" _ (by decide +kernel)

end Papaia.Vectordb
