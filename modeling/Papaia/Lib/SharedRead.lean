/-
Module: Papaia.Lib.SharedRead
Purpose: Readings that are kept for a while, of sources that are read for all who ask at the same
  time: what is served without a read, who waits for which read, and when the next one begins.
Trusted boundary: what happens between two waits takes no time
Main exports: Policy, Read, Entry, Caller, State, State.ask, State.finish, State.forget,
  State.resumeAt, Inv, Crowded, Given,
  Inv.tick, Inv.ask, Inv.finish, Inv.forget, Inv.resumeAt, Inv.spaced_all
-/
import Mathlib.Data.Nat.Find
import Mathlib.Logic.Function.Iterate
import Papaia.Lib.Keyed

namespace Papaia.SharedRead

variable {κ γ ν : Type*}

/-! ### Reads and what is kept of them -/

/-- What is served from the readings kept: those that pass for a key, for what somebody who asks brings
along, at an age.  No more readings than the capacity are kept.  A read that has ended may still be
joined until it is forgotten. -/
structure Policy (κ γ ν : Type*) where
  serves : κ → γ → ν → Int → Bool
  capacity : Option Nat := none
  joinsEnded : Bool := false

/-- A read of a source, begun for somebody who brought something along; when it ended, with a reading
or without one, and when it was forgotten. -/
structure Read (κ γ ν : Type*) where
  key : κ
  origin : γ
  began : Int
  ended : Option (Int × Option ν) := none
  forgotten : Option Int := none
deriving DecidableEq, Repr

/-- What a read has left to be kept, and when. -/
def Read.kept (read : Read κ γ ν) : Option (Int × ν) :=
  read.ended.bind fun ended => ended.2.map fun value => (ended.1, value)

structure Entry (κ ν : Type*) where
  key : κ
  stamp : Int
  value : ν
deriving DecidableEq, Repr

/-- Somebody who asks; the read that is waited for, and how the wait ended: with a reading, or with the
failure of the read. -/
structure Caller (κ γ ν : Type*) where
  key : κ
  origin : γ
  asked : Int
  read : Option Nat := none
  given : Option (Option ν) := none
deriving DecidableEq, Repr

structure State (κ γ ν : Type*) where
  clock : Int
  entries : List (Entry κ ν) := []
  inflight : κ → Option Nat := fun _ => none
  reads : List (Read κ γ ν) := []
  callers : List (Caller κ γ ν) := []

section Operations

variable [DecidableEq κ]

/-- The oldest entry is dropped; of several, the first. -/
def dropOldest (entries : List (Entry κ ν)) : List (Entry κ ν) :=
  ((entries.find? fun oldest => entries.all fun entry => oldest.stamp ≤ entry.stamp).map fun oldest =>
    entries.filter fun entry => entry.key ≠ oldest.key).getD entries

/-- As long as there are too many, the oldest is dropped. -/
def keepWithin (capacity : Option Nat) (entries : List (Entry κ ν)) : List (Entry κ ν) :=
  capacity.elim entries fun most => dropOldest^[entries.length - most] entries

variable (p : Policy κ γ ν) (s : State κ γ ν)

/-- The reading that is served without a read. -/
def State.cached (key : κ) (origin : γ) : Option ν :=
  (s.entries.find? fun entry => entry.key = key).bind fun entry =>
    if p.serves key origin entry.value (s.clock - entry.stamp) then some entry.value else none

/-- The read that is waited for instead of another one. -/
def State.joined (key : κ) : Option Nat :=
  (s.inflight key).filter fun i =>
    p.joinsEnded || (s.reads[i]?).any fun read => read.ended.isNone

/-- Somebody is served what is kept. -/
def State.serve (key : κ) (origin : γ) (value : ν) : State κ γ ν :=
  { s with callers := s.callers ++ [⟨key, origin, s.clock, none, some (some value)⟩] }

/-- Somebody waits for a read. -/
def State.wait (key : κ) (origin : γ) (i : Nat) : State κ γ ν :=
  { s with callers := s.callers ++ [⟨key, origin, s.clock, some i, none⟩] }

/-- A read begins. -/
def State.start (key : κ) (origin : γ) : State κ γ ν :=
  { s with
    reads := s.reads ++ [⟨key, origin, s.clock, none, none⟩]
    inflight := Function.update s.inflight key (some s.reads.length) }

/-- Somebody asks. -/
def State.ask (key : κ) (origin : γ) : State κ γ ν :=
  (s.cached p key origin).elim
    ((s.joined p key).elim ((s.start key origin).wait key origin s.reads.length)
      (s.wait key origin))
    (s.serve key origin)

/-- A read ends, with a reading that is kept or without one. -/
def State.finish (i : Nat) (read : Read κ γ ν) (outcome : Option ν) : State κ γ ν :=
  { s with
    reads := s.reads.set i { read with ended := some (s.clock, outcome) }
    entries := outcome.elim s.entries fun value =>
      keepWithin p.capacity (Keyed.assign Entry.key s.entries ⟨read.key, s.clock, value⟩) }

/-- A read that has ended is forgotten. -/
def State.forget (i : Nat) (read : Read κ γ ν) : State κ γ ν :=
  { s with
    reads := s.reads.set i { read with forgotten := some s.clock }
    inflight :=
      if s.inflight read.key = some i then Function.update s.inflight read.key none
      else s.inflight }

end Operations

/-- Who has waited is given what the read ended with. -/
def State.resume (s : State κ γ ν) (c : Nat) (caller : Caller κ γ ν) (outcome : Option ν) :
    State κ γ ν :=
  { s with callers := s.callers.set c { caller with given := some outcome } }

/-- Who has waited for a read that has ended goes on. -/
def State.resumeAt (s : State κ γ ν) (c : Nat) : Option (State κ γ ν) :=
  (s.callers[c]?).bind fun caller =>
    if caller.given.isSome then none
    else
      (caller.read.bind fun i => s.reads[i]?).bind fun read =>
        read.ended.map fun ended => s.resume c caller ended.2

def State.tick (s : State κ γ ν) (d : Nat) : State κ γ ν :=
  { s with clock := s.clock + d }

/-! ### What holds in every run -/

variable {p : Policy κ γ ν} {s s' : State κ γ ν} {i j : Nat} {key : κ}

/-- As many readings of other keys as can be kept are not older. -/
def Crowded (p : Policy κ γ ν) (s : State κ γ ν) (key : κ) (stamp : Int) : Prop :=
  ∃ most ∈ p.capacity, ∃ keys : List κ, keys.Nodup ∧ keys.length = most ∧ ∀ other ∈ keys,
    other ≠ key ∧ ∃ read ∈ s.reads, read.key = other ∧ ∃ t v, read.kept = some (t, v) ∧ stamp ≤ t

/-- A read that had not ended when it was asked for, or had not been forgotten. -/
def Joined (p : Policy κ γ ν) (caller : Caller κ γ ν) (read : Read κ γ ν) : Prop :=
  (∀ t outcome, read.ended = some (t, outcome) → caller.asked ≤ t) ∨
    (p.joinsEnded = true ∧ ∀ t, read.forgotten = some t → caller.asked ≤ t)

/-- What a read of the source that was asked for ended with: a reading that was served at its age, or
the end of a read that was joined. -/
def Given (p : Policy κ γ ν) (s : State κ γ ν) (caller : Caller κ γ ν) (outcome : Option ν) : Prop :=
  ∃ read ∈ s.reads, read.key = caller.key ∧ ∃ t, read.ended = some (t, outcome) ∧
    ((∃ value ∈ outcome, p.serves caller.key caller.origin value (caller.asked - t) = true) ∨
      Joined p caller read)

/-- No read of a key between two has left something to be kept. -/
def NoneKept (s : State κ γ ν) (key : κ) (i j : Nat) : Prop :=
  ∀ (m : Nat) (read : Read κ γ ν), i < m → m < j → s.reads[m]? = some read → read.key = key → read.kept = none

/-- What a caller waits for and has been given. -/
structure Waits (p : Policy κ γ ν) (s : State κ γ ν) (caller : Caller κ γ ν) : Prop where
  asked : caller.asked ≤ s.clock
  read : ∀ i, caller.read = some i →
    ∃ read, s.reads[i]? = some read ∧ read.key = caller.key ∧ Joined p caller read
  given : ∀ outcome, caller.given = some outcome → Given p s caller outcome

structure Inv (p : Policy κ γ ν) (s : State κ γ ν) : Prop where
  began : ∀ read ∈ s.reads, read.began ≤ s.clock
  ended : ∀ read ∈ s.reads, ∀ t outcome, read.ended = some (t, outcome) →
    read.began ≤ t ∧ t ≤ s.clock
  underway : ∀ (i : Nat) (read : Read κ γ ν), s.reads[i]? = some read → read.ended = none → s.inflight read.key = some i
  recorded : ∀ key i, s.inflight key = some i →
    ∃ read, s.reads[i]? = some read ∧ read.key = key ∧ read.forgotten = none
  inTurn : ∀ (i j : Nat) (first next : Read κ γ ν), i < j → s.reads[i]? = some first → s.reads[j]? = some next →
    next.key = first.key → ∃ t outcome, first.ended = some (t, outcome) ∧ t ≤ next.began
  distinct : Keyed.Distinct Entry.key s.entries
  bounded : ∀ most ∈ p.capacity, s.entries.length ≤ most
  entries : ∀ entry ∈ s.entries, ∃ read ∈ s.reads, read.key = entry.key ∧
    read.kept = some (entry.stamp, entry.value)
  held : ∀ (i : Nat) (read : Read κ γ ν) (t : Int) (v : ν), s.reads[i]? = some read → read.kept = some (t, v) →
    NoneKept s read.key i s.reads.length → ⟨read.key, t, v⟩ ∈ s.entries ∨ Crowded p s read.key t
  spaced : ∀ (i j : Nat) (first next : Read κ γ ν) (t : Int) (v : ν), i < j → s.reads[i]? = some first → s.reads[j]? = some next →
    next.key = first.key → first.kept = some (t, v) → NoneKept s first.key i j →
    p.serves next.key next.origin v (next.began - t) = false ∨ Crowded p s first.key t
  callers : ∀ caller ∈ s.callers, Waits p s caller

theorem Read.kept_eq_some {read : Read κ γ ν} {t : Int} {value : ν} :
    read.kept = some (t, value) ↔ read.ended = some (t, some value) := by
  cases read with
  | mk key origin began ended forgotten =>
      rcases ended with - | ⟨when, - | v⟩ <;> simp [Read.kept]

/-! ### What stays as it is -/

/-- Time passes, reads begin, end and are forgotten, and no read changes otherwise. -/
structure Grows (s s' : State κ γ ν) : Prop where
  clock : s.clock ≤ s'.clock
  reads : ∀ (i : Nat) (read : Read κ γ ν), s.reads[i]? = some read →
    ∃ read' : Read κ γ ν, s'.reads[i]? = some read' ∧
    read'.key = read.key ∧ (∀ ended, read.ended = some ended → read'.ended = some ended) ∧
    (∀ t outcome, read'.ended = some (t, outcome) → read.ended = some (t, outcome) ∨ s.clock ≤ t) ∧
    (∀ t, read'.forgotten = some t → read.forgotten = some t ∨ s.clock ≤ t)

theorem Grows.of_reads (clock : s.clock ≤ s'.clock) (reads : s'.reads = s.reads) : Grows s s' where
  clock := clock
  reads := fun _ read hread =>
    ⟨read, reads ▸ hread, rfl, fun _ h => h, fun _ _ h => .inl h, fun _ h => .inl h⟩

theorem Grows.kept (grows : Grows s s') {read : Read κ γ ν} (hread : read ∈ s.reads) {t : Int} {value : ν}
    (hkept : read.kept = some (t, value)) :
    ∃ read' ∈ s'.reads, read'.key = read.key ∧ read'.kept = some (t, value) := by
  obtain ⟨i, hi⟩ := List.mem_iff_getElem?.1 hread
  obtain ⟨read', hread', hkey, hended, -⟩ := grows.reads i read hi
  refine ⟨read', List.mem_of_getElem? hread', hkey, ?_⟩
  exact Read.kept_eq_some.2 (hended _ (Read.kept_eq_some.1 hkept))

theorem Crowded.grows (grows : Grows s s') {stamp : Int} (h : Crowded p s key stamp) :
    Crowded p s' key stamp := by
  obtain ⟨most, hmost, keys, hnodup, hlength, hkeys⟩ := h
  refine ⟨most, hmost, keys, hnodup, hlength, ?_⟩
  intro other hother
  obtain ⟨hne, read, hread, hkey, t, v, hkept, hle⟩ := hkeys other hother
  obtain ⟨read', hread', hkey', hkept'⟩ := grows.kept hread hkept
  exact ⟨hne, read', hread', hkey'.trans hkey, t, v, hkept', hle⟩

theorem NoneKept.before (grows : Grows s s') (h : NoneKept s' key i j) : NoneKept s key i j := by
  intro m read hi hj hread hkey
  obtain ⟨read', hread', hkey', hended, -⟩ := grows.reads m read hread
  have hnone : read'.kept = none := h m read' hi hj hread' (hkey'.trans hkey)
  cases hkept : read.kept with
  | none => rfl
  | some kept =>
      have hkept' : read'.kept = some kept :=
        Read.kept_eq_some.2 (hended _ (Read.kept_eq_some.1 hkept))
      simp [hnone] at hkept'

theorem Joined.grows {caller : Caller κ γ ν} {read read' : Read κ γ ν} (h : Joined p caller read)
    (hasked : caller.asked ≤ s.clock)
    (hended : ∀ t outcome, read'.ended = some (t, outcome) →
      read.ended = some (t, outcome) ∨ s.clock ≤ t)
    (hforgotten : ∀ t, read'.forgotten = some t → read.forgotten = some t ∨ s.clock ≤ t) :
    Joined p caller read' := by
  rcases h with h | ⟨hjoins, h⟩
  · refine .inl fun t outcome ht => ?_
    rcases hended t outcome ht with ht | hle
    · exact h t outcome ht
    · exact Int.le_trans hasked hle
  · refine .inr ⟨hjoins, fun t ht => ?_⟩
    rcases hforgotten t ht with ht | hle
    · exact h t ht
    · exact Int.le_trans hasked hle

theorem Waits.grows (grows : Grows s s') {caller : Caller κ γ ν} (h : Waits p s caller) :
    Waits p s' caller where
  asked := Int.le_trans h.asked grows.clock
  read := by
    intro i hi
    obtain ⟨read, hread, hkey, hjoined⟩ := h.read i hi
    obtain ⟨read', hread', hkey', -, hended, hforgotten⟩ := grows.reads i read hread
    exact ⟨read', hread', hkey'.trans hkey, hjoined.grows h.asked hended hforgotten⟩
  given := by
    intro outcome houtcome
    obtain ⟨read, hread, hkey, t, hend, hserved⟩ := h.given outcome houtcome
    obtain ⟨i, hi⟩ := List.mem_iff_getElem?.1 hread
    obtain ⟨read', hread', hkey', hsame, hended, hforgotten⟩ := grows.reads i read hi
    refine ⟨read', List.mem_of_getElem? hread', hkey'.trans hkey, t, hsame _ hend, ?_⟩
    exact hserved.imp_right fun hjoined => hjoined.grows h.asked hended hforgotten

/-! ### Time passes, and callers are served -/

theorem Inv.tick (inv : Inv p s) (d : Nat) : Inv p (s.tick d) := by
  have hclock : s.clock ≤ (s.tick d).clock :=
    Int.le_add_of_nonneg_right (Int.natCast_nonneg d)
  have grows : Grows s (s.tick d) := .of_reads hclock rfl
  exact {
    began := fun read hread => Int.le_trans (inv.began read hread) hclock
    ended := fun read hread t outcome h =>
      (inv.ended read hread t outcome h).imp_right fun hle => Int.le_trans hle hclock
    underway := inv.underway
    recorded := inv.recorded
    inTurn := inv.inTurn
    distinct := inv.distinct
    bounded := inv.bounded
    entries := inv.entries
    held := fun i read t v hread hkept hnone =>
      (inv.held i read t v hread hkept hnone).imp_right (Crowded.grows grows)
    spaced := fun i j first next t v hlt hfirst hnext hkey hkept hnone =>
      (inv.spaced i j first next t v hlt hfirst hnext hkey hkept hnone).imp_right
        (Crowded.grows grows)
    callers := fun caller hcaller => (inv.callers caller hcaller).grows grows }

/-- The callers change, and nothing else. -/
theorem Inv.withCallers (inv : Inv p s) {callers : List (Caller κ γ ν)}
    (hcallers : ∀ caller ∈ callers, Waits p s caller) :
    Inv p { s with callers := callers } := by
  have grows : Grows s { s with callers := callers } := .of_reads (Int.le_refl _) rfl
  exact {
    began := inv.began
    ended := inv.ended
    underway := inv.underway
    recorded := inv.recorded
    inTurn := inv.inTurn
    distinct := inv.distinct
    bounded := inv.bounded
    entries := inv.entries
    held := inv.held
    spaced := inv.spaced
    callers := fun caller hcaller => (hcallers caller hcaller).grows grows }

/-! ### The readings kept -/

section Kept

variable [DecidableEq κ]

omit [DecidableEq κ] in
theorem exists_oldest {entries : List (Entry κ ν)} (h : entries ≠ []) :
    ∃ oldest ∈ entries, ∀ entry ∈ entries, oldest.stamp ≤ entry.stamp := by
  induction entries with
  | nil => exact absurd rfl h
  | cons first rest ih =>
      by_cases hrest : rest = []
      · exact ⟨first, by simp, by simp [hrest]⟩
      · obtain ⟨oldest, holdest, holder⟩ := ih hrest
        rcases Int.le_total first.stamp oldest.stamp with hle | hle
        · refine ⟨first, List.mem_cons_self, ?_⟩
          intro entry hentry
          rcases List.mem_cons.1 hentry with rfl | hmem
          · exact Int.le_refl _
          · exact Int.le_trans hle (holder entry hmem)
        · refine ⟨oldest, List.mem_cons_of_mem _ holdest, ?_⟩
          intro entry hentry
          rcases List.mem_cons.1 hentry with rfl | hmem
          · exact hle
          · exact holder entry hmem

theorem dropOldest_eq {entries : List (Entry κ ν)} (h : entries ≠ []) :
    ∃ oldest ∈ entries, (∀ entry ∈ entries, oldest.stamp ≤ entry.stamp) ∧
      dropOldest entries = entries.filter fun entry => entry.key ≠ oldest.key := by
  cases hfind : entries.find? fun oldest => entries.all fun entry => oldest.stamp ≤ entry.stamp with
  | none =>
      obtain ⟨oldest, holdest, holder⟩ := exists_oldest h
      exact absurd (by simpa using holder) (List.find?_eq_none.1 hfind oldest holdest)
  | some oldest =>
      refine ⟨oldest, List.mem_of_find?_eq_some hfind, ?_, by rw [dropOldest, hfind]; rfl⟩
      simpa using List.find?_some hfind

theorem length_dropped {entries : List (Entry κ ν)} (distinct : Keyed.Distinct Entry.key entries)
    {oldest : Entry κ ν} (holdest : oldest ∈ entries) :
    (entries.filter fun entry => entry.key ≠ oldest.key).length = entries.length - 1 := by
  have hkeys : ((entries.filter fun entry => entry.key ≠ oldest.key).map Entry.key) =
      (entries.map Entry.key).erase oldest.key := by
    rw [List.Nodup.erase_eq_filter distinct, List.filter_map]
    congr 1
    apply List.filter_congr
    intro entry _
    simp [bne, Function.comp, beq_eq_decide]
  have hlength := congrArg List.length hkeys
  rw [List.length_map, List.length_erase_of_mem (List.mem_map_of_mem holdest), List.length_map]
    at hlength
  exact hlength

variable {capacity : Option Nat} {entries : List (Entry κ ν)}

/-- Either nothing is dropped, or the oldest one is. -/
theorem keepWithin_cases (distinct : Keyed.Distinct Entry.key entries)
    (fits : ∀ most ∈ capacity, entries.length ≤ most + 1) :
    (keepWithin capacity entries = entries ∧ ∀ most ∈ capacity, entries.length ≤ most) ∨
      ∃ most ∈ capacity, (keepWithin capacity entries).length = most ∧
        ∃ oldest ∈ entries, (∀ entry ∈ entries, oldest.stamp ≤ entry.stamp) ∧
          keepWithin capacity entries = entries.filter fun entry => entry.key ≠ oldest.key := by
  cases capacity with
  | none => exact .inl ⟨rfl, by simp⟩
  | some most =>
      have hfits : entries.length ≤ most + 1 := fits most rfl
      rcases Nat.lt_or_ge most entries.length with hmore | hless
      · have hlength : entries.length - most = 1 := by omega
        have hne : entries ≠ [] := List.ne_nil_of_length_pos (Nat.zero_lt_of_lt hmore)
        obtain ⟨oldest, holdest, holder, hdrop⟩ := dropOldest_eq hne
        have hkept : keepWithin (some most) entries =
            entries.filter fun entry => entry.key ≠ oldest.key := by
          rw [← hdrop]
          simp [keepWithin, hlength]
        refine .inr ⟨most, rfl, ?_, oldest, holdest, holder, hkept⟩
        rw [hkept, length_dropped distinct holdest]
        omega
      · have hlength : entries.length - most = 0 := by omega
        refine .inl ⟨by simp [keepWithin, hlength], ?_⟩
        intro other hother
        obtain rfl : most = other := Option.some.inj hother
        exact hless

theorem mem_of_mem_keepWithin (distinct : Keyed.Distinct Entry.key entries)
    (fits : ∀ most ∈ capacity, entries.length ≤ most + 1) {entry : Entry κ ν}
    (h : entry ∈ keepWithin capacity entries) : entry ∈ entries := by
  rcases keepWithin_cases distinct fits with ⟨hsame, -⟩ | ⟨most, -, -, oldest, -, -, hdropped⟩
  · rwa [hsame] at h
  · rw [hdropped] at h
    exact (List.mem_filter.1 h).1

theorem distinct_keepWithin (distinct : Keyed.Distinct Entry.key entries)
    (fits : ∀ most ∈ capacity, entries.length ≤ most + 1) :
    Keyed.Distinct Entry.key (keepWithin capacity entries) := by
  rcases keepWithin_cases distinct fits with ⟨hsame, -⟩ | ⟨most, -, -, oldest, -, -, hdropped⟩
  · rwa [hsame]
  · rw [hdropped]
    exact distinct.filter _

theorem length_keepWithin (distinct : Keyed.Distinct Entry.key entries)
    (fits : ∀ most ∈ capacity, entries.length ≤ most + 1) :
    ∀ most ∈ capacity, (keepWithin capacity entries).length ≤ most := by
  intro most hmost
  rcases keepWithin_cases distinct fits with ⟨hsame, hless⟩ | ⟨other, hother, hlength, -⟩
  · rw [hsame]
    exact hless most hmost
  · obtain rfl : other = most := Option.mem_unique hother hmost
    exact Nat.le_of_eq hlength

/-- What is dropped is not younger than anything that stays, and the place is full. -/
theorem mem_keepWithin_or_full (distinct : Keyed.Distinct Entry.key entries)
    (fits : ∀ most ∈ capacity, entries.length ≤ most + 1) {entry : Entry κ ν} (h : entry ∈ entries) :
    entry ∈ keepWithin capacity entries ∨ ∃ most ∈ capacity,
      (keepWithin capacity entries).length = most ∧ ∀ other ∈ keepWithin capacity entries,
        other.key ≠ entry.key ∧ entry.stamp ≤ other.stamp := by
  rcases keepWithin_cases distinct fits with
    ⟨hsame, -⟩ | ⟨most, hmost, hlength, oldest, holdest, holder, hdropped⟩
  · exact .inl (by rwa [hsame])
  · by_cases hkey : entry.key = oldest.key
    · obtain rfl : entry = oldest := distinct.eq h holdest hkey
      refine .inr ⟨most, hmost, hlength, ?_⟩
      intro other hother
      rw [hdropped] at hother
      obtain ⟨hmem, hne⟩ := List.mem_filter.1 hother
      exact ⟨by simpa using hne, holder other hmem⟩
    · left
      rw [hdropped]
      exact List.mem_filter.2 ⟨h, by simpa using hkey⟩

end Kept

/-! ### A read ends, or is forgotten -/

theorem getElem?_set_eq_some {α : Type*} {items : List α} {old new item : α} (h : items[i]? = some old) :
    (items.set i new)[j]? = some item ↔ (j = i ∧ item = new) ∨ (j ≠ i ∧ items[j]? = some item) := by
  have hlt : i < items.length := (List.getElem?_eq_some_iff.1 h).1
  by_cases hji : j = i
  · subst hji
    simp [hlt, eq_comm]
  · simp [hji, List.getElem?_set_ne (Ne.symm hji)]

/-- What stands in a list of reads of which one has been changed, but for how it ended. -/
theorem exists_before {read read' : Read κ γ ν} (hread : s.reads[i]? = some read) (new : Read κ γ ν)
    (hkey : new.key = read.key) (horigin : new.origin = read.origin) (hbegan : new.began = read.began)
    (h : (s.reads.set i new)[j]? = some read') :
    ∃ before, s.reads[j]? = some before ∧ read'.key = before.key ∧ read'.origin = before.origin ∧
      read'.began = before.began ∧ ((j = i ∧ before = read ∧ read' = new) ∨ (j ≠ i ∧ read' = before)) := by
  rcases (getElem?_set_eq_some hread).1 h with ⟨rfl, rfl⟩ | ⟨hne, hold⟩
  · exact ⟨read, hread, hkey, horigin, hbegan, .inl ⟨rfl, rfl, rfl⟩⟩
  · exact ⟨read', hold, rfl, rfl, rfl, .inr ⟨hne, rfl⟩⟩

section Steps

variable [DecidableEq κ] {read : Read κ γ ν}

theorem grows_finish (hread : s.reads[i]? = some read) (hopen : read.ended = none)
    (outcome : Option ν) : Grows s (s.finish p i read outcome) where
  clock := Int.le_refl _
  reads := by
    intro j other hother
    by_cases hji : j = i
    · subst hji
      obtain rfl : read = other := Option.some.inj (hread.symm.trans hother)
      refine ⟨_, (getElem?_set_eq_some hread).2 (.inl ⟨rfl, rfl⟩), rfl, ?_, ?_, fun _ h => .inl h⟩
      · simp [hopen]
      · rintro t result h
        obtain ⟨rfl, -⟩ := Prod.mk.inj (Option.some.inj h)
        exact .inr (Int.le_refl _)
    · exact ⟨other, (getElem?_set_eq_some hread).2 (.inr ⟨hji, hother⟩), rfl, fun _ h => h,
        fun _ _ h => .inl h, fun _ h => .inl h⟩

theorem grows_forget (hread : s.reads[i]? = some read) : Grows s (s.forget i read) where
  clock := Int.le_refl _
  reads := by
    intro j other hother
    by_cases hji : j = i
    · subst hji
      obtain rfl : read = other := Option.some.inj (hread.symm.trans hother)
      refine ⟨_, (getElem?_set_eq_some hread).2 (.inl ⟨rfl, rfl⟩), rfl, fun _ h => h,
        fun _ _ h => .inl h, ?_⟩
      rintro t h
      obtain rfl := Option.some.inj h
      exact .inr (Int.le_refl _)
    · exact ⟨other, (getElem?_set_eq_some hread).2 (.inr ⟨hji, hother⟩), rfl, fun _ h => h,
        fun _ _ h => .inl h, fun _ h => .inl h⟩

theorem Inv.fits (inv : Inv p s) (new : Entry κ ν) :
    ∀ most ∈ p.capacity, (Keyed.assign Entry.key s.entries new).length ≤ most + 1 := by
  intro most hmost
  exact Nat.le_trans (Keyed.length_assign_le s.entries new)
    (Nat.succ_le_succ (inv.bounded most hmost))

theorem Inv.finish_entries (inv : Inv p s) (hread : s.reads[i]? = some read)
    (hopen : read.ended = none) (outcome : Option ν) :
    ∀ entry ∈ (s.finish p i read outcome).entries, ∃ other ∈ (s.finish p i read outcome).reads,
      other.key = entry.key ∧ other.kept = some (entry.stamp, entry.value) := by
  have grows := grows_finish (p := p) hread hopen outcome
  have hold : ∀ entry ∈ s.entries, ∃ other ∈ (s.finish p i read outcome).reads,
      other.key = entry.key ∧ other.kept = some (entry.stamp, entry.value) := by
    intro entry hentry
    obtain ⟨other, hother, hkey, hkept⟩ := inv.entries entry hentry
    obtain ⟨other', hother', hkey', hkept'⟩ := grows.kept hother hkept
    exact ⟨other', hother', hkey'.trans hkey, hkept'⟩
  cases outcome with
  | none => exact hold
  | some value =>
      intro entry hentry
      have hmem := mem_of_mem_keepWithin (inv.distinct.assign _) (inv.fits _) hentry
      rcases Keyed.mem_assign.1 hmem with ⟨hentry, -⟩ | rfl
      · exact hold entry hentry
      · refine ⟨{ read with ended := some (s.clock, some value) }, ?_, rfl, rfl⟩
        exact List.mem_of_getElem? ((getElem?_set_eq_some hread).2 (.inl ⟨rfl, rfl⟩))

/-- What has been kept, or is kept now, stays where it is or makes way for younger ones. -/
theorem Inv.stays_or_crowded (inv : Inv p s) (hread : s.reads[i]? = some read)
    (hopen : read.ended = none) (value : ν) {entry : Entry κ ν}
    (hentry : entry ∈ Keyed.assign Entry.key s.entries ⟨read.key, s.clock, value⟩) :
    entry ∈ (s.finish p i read (some value)).entries ∨
      Crowded p (s.finish p i read (some value)) entry.key entry.stamp := by
  have hdistinct := inv.distinct.assign ⟨read.key, s.clock, value⟩
  refine (mem_keepWithin_or_full hdistinct (inv.fits _) hentry).imp_right ?_
  rintro ⟨most, hmost, hlength, hother⟩
  refine ⟨most, hmost, (s.finish p i read (some value)).entries.map Entry.key,
    distinct_keepWithin hdistinct (inv.fits _), by rwa [List.length_map], ?_⟩
  intro other hmem
  obtain ⟨entry', hentry', rfl⟩ := List.mem_map.1 hmem
  obtain ⟨other, hread', hkey, hkept⟩ := inv.finish_entries hread hopen (some value) entry' hentry'
  obtain ⟨hne, hle⟩ := hother entry' hentry'
  exact ⟨hne, other, hread', hkey, entry'.stamp, entry'.value, hkept, hle⟩

omit [DecidableEq κ] in
/-- A read that has not ended is the last one of its key. -/
theorem Inv.last_of_open (inv : Inv p s) (hread : s.reads[i]? = some read) (hopen : read.ended = none)
    {other : Read κ γ ν} (hother : s.reads[j]? = some other) (hkey : other.key = read.key) : j ≤ i := by
  by_contra hlt
  obtain ⟨t, outcome, hended, -⟩ :=
    inv.inTurn i j read other (Nat.lt_of_not_le hlt) hread hother hkey
  simp [hopen] at hended

theorem Inv.finish_held (inv : Inv p s) (hread : s.reads[i]? = some read) (hopen : read.ended = none)
    (outcome : Option ν) {other : Read κ γ ν} {t : Int} {v : ν}
    (hother : (s.finish p i read outcome).reads[j]? = some other) (hkept : other.kept = some (t, v))
    (hnone : NoneKept (s.finish p i read outcome) other.key j (s.finish p i read outcome).reads.length) :
    ⟨other.key, t, v⟩ ∈ (s.finish p i read outcome).entries ∨
      Crowded p (s.finish p i read outcome) other.key t := by
  have grows := grows_finish (p := p) hread hopen outcome
  have hlength : (s.finish p i read outcome).reads.length = s.reads.length := List.length_set
  rcases (getElem?_set_eq_some hread).1 hother with ⟨rfl, rfl⟩ | ⟨hne, hold⟩
  · obtain ⟨rfl, rfl⟩ := Prod.mk.inj (Option.some.inj (Read.kept_eq_some.1 hkept))
    exact inv.stays_or_crowded hread hopen v (Keyed.mem_assign.2 (.inr rfl))
  · have hbefore : NoneKept s other.key j s.reads.length := hlength ▸ hnone.before grows
    rcases inv.held j other t v hold hkept hbefore with hentry | hcrowded
    · cases outcome with
      | none => exact .inl hentry
      | some value =>
          refine inv.stays_or_crowded hread hopen value (Keyed.mem_assign.2 (.inl ⟨hentry, ?_⟩))
          -- otherwise the read that ends now would have kept something behind the other
          intro hkey
          have hle : j ≤ i := inv.last_of_open hread hopen hold hkey
          have hlt : i < s.reads.length := (List.getElem?_eq_some_iff.1 hread).1
          have hnow := hnone i _ (Nat.lt_of_le_of_ne hle hne) (hlength ▸ hlt)
            ((getElem?_set_eq_some hread).2 (.inl ⟨rfl, rfl⟩)) hkey.symm
          simp [Read.kept] at hnow
    · exact .inr (hcrowded.grows grows)

theorem Inv.finish (inv : Inv p s) (hread : s.reads[i]? = some read) (hopen : read.ended = none)
    (outcome : Option ν) : Inv p (s.finish p i read outcome) := by
  have grows := grows_finish (p := p) hread hopen outcome
  have before {j : Nat} {read' : Read κ γ ν}
      (h : (s.finish p i read outcome).reads[j]? = some read') :=
    exists_before hread { read with ended := some (s.clock, outcome) } rfl rfl rfl h
  constructor
  case began =>
    intro read' hread'
    obtain ⟨j, hj⟩ := List.mem_iff_getElem?.1 hread'
    obtain ⟨old, hold, -, -, hbegan, -⟩ := before hj
    rw [hbegan]
    exact inv.began old (List.mem_of_getElem? hold)
  case ended =>
    intro read' hread' t result hended
    obtain ⟨j, hj⟩ := List.mem_iff_getElem?.1 hread'
    obtain ⟨old, hold, -, -, -, ⟨-, -, rfl⟩ | ⟨-, rfl⟩⟩ := before hj
    · obtain ⟨rfl, -⟩ := Prod.mk.inj (Option.some.inj hended)
      exact ⟨inv.began read (List.mem_of_getElem? hread), Int.le_refl _⟩
    · exact inv.ended read' (List.mem_of_getElem? hold) t result hended
  case underway =>
    intro j read' hj hended
    obtain ⟨old, hold, -, -, -, ⟨-, -, rfl⟩ | ⟨-, rfl⟩⟩ := before hj
    · cases hended
    · exact inv.underway j read' hold hended
  case recorded =>
    intro key j hj
    obtain ⟨old, hold, hkey, hforgotten⟩ := inv.recorded key j hj
    by_cases hji : j = i
    · subst hji
      obtain rfl : read = old := Option.some.inj (hread.symm.trans hold)
      exact ⟨_, (getElem?_set_eq_some hread).2 (.inl ⟨rfl, rfl⟩), hkey, hforgotten⟩
    · exact ⟨old, (getElem?_set_eq_some hread).2 (.inr ⟨hji, hold⟩), hkey, hforgotten⟩
  case inTurn =>
    intro a b first next hlt hfirst hnext hkey
    obtain ⟨first', hfirst', hkeyFirst, -, -, hcases⟩ := before hfirst
    obtain ⟨next', hnext', hkeyNext, -, hbegan, -⟩ := before hnext
    obtain ⟨t, result, hended, hle⟩ := inv.inTurn a b first' next' hlt hfirst' hnext'
      (hkeyNext.symm.trans (hkey.trans hkeyFirst))
    rcases hcases with ⟨-, rfl, -⟩ | ⟨-, rfl⟩
    · simp [hopen] at hended
    · exact ⟨t, result, hended, hbegan ▸ hle⟩
  case distinct =>
    cases outcome with
    | none => exact inv.distinct
    | some value => exact distinct_keepWithin (inv.distinct.assign _) (inv.fits _)
  case bounded =>
    cases outcome with
    | none => exact inv.bounded
    | some value => exact length_keepWithin (inv.distinct.assign _) (inv.fits _)
  case entries => exact inv.finish_entries hread hopen outcome
  case held => exact fun j other t v => inv.finish_held hread hopen outcome
  case spaced =>
    intro a b first next t v hlt hfirst hnext hkey hkept hnone
    obtain ⟨first', hfirst', hkeyFirst, -, -, hcases⟩ := before hfirst
    obtain ⟨next', hnext', hkeyNext, horigin, hbegan, -⟩ := before hnext
    have hsame : next'.key = first'.key := hkeyNext.symm.trans (hkey.trans hkeyFirst)
    rcases hcases with ⟨rfl, rfl, -⟩ | ⟨-, rfl⟩
    · exact absurd (inv.last_of_open hread hopen hnext' hsame) (Nat.not_le_of_lt hlt)
    · rw [hkeyNext, horigin, hbegan]
      exact (inv.spaced a b first next' t v hlt hfirst' hnext' hsame hkept
        (hnone.before grows)).imp_right (Crowded.grows grows)
  case callers => exact fun caller hcaller => (inv.callers caller hcaller).grows grows

theorem Inv.forget (inv : Inv p s) (hread : s.reads[i]? = some read) (hended : read.ended ≠ none) :
    Inv p (s.forget i read) := by
  have grows := grows_forget hread
  have before {j : Nat} {read' : Read κ γ ν} (h : (s.forget i read).reads[j]? = some read') :=
    exists_before hread { read with forgotten := some s.clock } rfl rfl rfl h
  have beforeEnded : ∀ {j : Nat} {read' : Read κ γ ν}, (s.forget i read).reads[j]? = some read' →
      ∃ old : Read κ γ ν, s.reads[j]? = some old ∧ read'.key = old.key ∧ read'.origin = old.origin ∧
        read'.began = old.began ∧ read'.ended = old.ended := by
    intro j read' hj
    obtain ⟨old, hold, hkey, horigin, hbegan, ⟨-, rfl, rfl⟩ | ⟨-, rfl⟩⟩ := before hj
    · exact ⟨old, hold, hkey, horigin, hbegan, rfl⟩
    · exact ⟨read', hold, hkey, horigin, hbegan, rfl⟩
  have hkeptEq : ∀ {one other : Read κ γ ν}, one.ended = other.ended → one.kept = other.kept := by
    intro one other h
    rw [Read.kept, Read.kept, h]
  constructor
  case began =>
    intro read' hread'
    obtain ⟨j, hj⟩ := List.mem_iff_getElem?.1 hread'
    obtain ⟨old, hold, -, -, hbegan, -⟩ := beforeEnded hj
    rw [hbegan]
    exact inv.began old (List.mem_of_getElem? hold)
  case ended =>
    intro read' hread' t result hended'
    obtain ⟨j, hj⟩ := List.mem_iff_getElem?.1 hread'
    obtain ⟨old, hold, -, -, hbegan, hsame⟩ := beforeEnded hj
    rw [hbegan]
    exact inv.ended old (List.mem_of_getElem? hold) t result (hsame ▸ hended')
  case underway =>
    intro j read' hj hopen
    obtain ⟨old, hold, -, -, -, ⟨-, rfl, rfl⟩ | ⟨hne, rfl⟩⟩ := before hj
    · exact absurd hopen hended
    · have hrecorded := inv.underway j read' hold hopen
      simp only [State.forget]
      split
      next hthis =>
        rw [Function.update_apply, if_neg]
        · exact hrecorded
        · intro hkey
          rw [hkey, hthis] at hrecorded
          exact hne (Option.some.inj hrecorded).symm
      next => exact hrecorded
  case recorded =>
    intro key j hj
    have hne : j ≠ i ∧ s.inflight key = some j := by
      simp only [State.forget] at hj
      split at hj
      next hthis =>
        rw [Function.update_apply] at hj
        split at hj
        next => cases hj
        next hkey =>
          refine ⟨?_, hj⟩
          rintro rfl
          obtain ⟨old, hold, hkeyOld, -⟩ := inv.recorded key j hj
          obtain rfl : read = old := Option.some.inj (hread.symm.trans hold)
          exact hkey hkeyOld.symm
      next hother =>
        refine ⟨?_, hj⟩
        rintro rfl
        obtain ⟨old, hold, hkeyOld, -⟩ := inv.recorded key j hj
        obtain rfl : read = old := Option.some.inj (hread.symm.trans hold)
        exact hother (hkeyOld ▸ hj)
    obtain ⟨old, hold, hkey, hforgotten⟩ := inv.recorded key j hne.2
    exact ⟨old, (getElem?_set_eq_some hread).2 (.inr ⟨hne.1, hold⟩), hkey, hforgotten⟩
  case inTurn =>
    intro a b first next hlt hfirst hnext hkey
    obtain ⟨first', hfirst', hkeyFirst, -, -, hsame⟩ := beforeEnded hfirst
    obtain ⟨next', hnext', hkeyNext, -, hbegan, -⟩ := beforeEnded hnext
    obtain ⟨t, result, hended', hle⟩ := inv.inTurn a b first' next' hlt hfirst' hnext'
      (hkeyNext.symm.trans (hkey.trans hkeyFirst))
    exact ⟨t, result, hsame.trans hended', hbegan ▸ hle⟩
  case distinct => exact inv.distinct
  case bounded => exact inv.bounded
  case entries =>
    intro entry hentry
    obtain ⟨other, hother, hkey, hkept⟩ := inv.entries entry hentry
    obtain ⟨other', hother', hkey', hkept'⟩ := grows.kept hother hkept
    exact ⟨other', hother', hkey'.trans hkey, hkept'⟩
  case held =>
    intro j other t v hother hkept hnone
    obtain ⟨old, hold, hkey, -, -, hsame⟩ := beforeEnded hother
    have hlength : (s.forget i read).reads.length = s.reads.length := List.length_set
    rw [hkey] at hnone ⊢
    exact (inv.held j old t v hold (hkeptEq hsame ▸ hkept)
      (hlength ▸ hnone.before grows)).imp_right (Crowded.grows grows)
  case spaced =>
    intro a b first next t v hlt hfirst hnext hkey hkept hnone
    obtain ⟨first', hfirst', hkeyFirst, -, -, hsame⟩ := beforeEnded hfirst
    obtain ⟨next', hnext', hkeyNext, horigin, hbegan, -⟩ := beforeEnded hnext
    rw [hkeyFirst] at hnone ⊢
    rw [hkeyNext, horigin, hbegan]
    exact (inv.spaced a b first' next' t v hlt hfirst' hnext'
      (hkeyNext.symm.trans (hkey.trans hkeyFirst)) (hkeptEq hsame ▸ hkept)
      (hnone.before grows)).imp_right (Crowded.grows grows)
  case callers => exact fun caller hcaller => (inv.callers caller hcaller).grows grows

end Steps

/-! ### Somebody asks -/

theorem getElem?_append_one {α : Type*} {items : List α} {new item : α} :
    (items ++ [new])[j]? = some item ↔ items[j]? = some item ∨ (j = items.length ∧ item = new) := by
  rcases Nat.lt_trichotomy j items.length with hlt | rfl | hgt
  · rw [List.getElem?_append_left hlt]
    refine ⟨.inl, ?_⟩
    rintro (h | ⟨rfl, -⟩)
    · exact h
    · exact absurd hlt (Nat.lt_irrefl _)
  · simp [eq_comm]
  · have hlong : (items ++ [new]).length ≤ j := by
      simpa using Nat.succ_le_of_lt hgt
    rw [List.getElem?_eq_none hlong, List.getElem?_eq_none (Nat.le_of_lt hgt)]
    simp [Nat.ne_of_gt hgt]

section Asking

variable [DecidableEq κ] {origin : γ}

omit [DecidableEq κ] in
theorem Inv.ended_of_joined (inv : Inv p s) (h : s.joined p key = none) {read : Read κ γ ν}
    (hread : s.reads[i]? = some read) (hkey : read.key = key) : ∃ t outcome, read.ended = some (t, outcome) := by
  cases hended : read.ended with
  | some ended => exact ⟨ended.1, ended.2, rfl⟩
  | none =>
      have hinflight := inv.underway i read hread hended
      rw [hkey] at hinflight
      simp [State.joined, hinflight, hread, hended] at h

theorem Inv.not_served_of_cached (inv : Inv p s) (h : s.cached p key origin = none)
    {entry : Entry κ ν} (hentry : entry ∈ s.entries) (hkey : entry.key = key) :
    p.serves key origin entry.value (s.clock - entry.stamp) = false := by
  cases hfind : s.entries.find? fun entry => entry.key = key with
  | none =>
      have hne := List.find?_eq_none.1 hfind entry hentry
      simp [hkey] at hne
  | some found =>
      have hfound : found.key = key := by simpa using List.find?_some hfind
      obtain rfl : found = entry :=
        inv.distinct.eq (List.mem_of_find?_eq_some hfind) hentry (hfound.trans hkey.symm)
      simpa [State.cached, hfind] using h

theorem grows_start : Grows s (s.start key origin) where
  clock := Int.le_refl _
  reads := fun _ read hread =>
    ⟨read, getElem?_append_one.2 (.inl hread), rfl, fun _ h => h, fun _ _ h => .inl h,
      fun _ h => .inl h⟩

theorem Inv.start (inv : Inv p s) (hcached : s.cached p key origin = none)
    (hjoined : s.joined p key = none) : Inv p (s.start key origin) := by
  have grows : Grows s (s.start key origin) := grows_start
  constructor
  case began =>
    intro read hread
    rcases List.mem_append.1 hread with hold | hnew
    · exact inv.began read hold
    · obtain rfl := List.mem_singleton.1 hnew
      exact Int.le_refl _
  case ended =>
    intro read hread t outcome hended
    rcases List.mem_append.1 hread with hold | hnew
    · exact inv.ended read hold t outcome hended
    · obtain rfl := List.mem_singleton.1 hnew
      cases hended
  case underway =>
    intro j read hj hopen
    simp only [State.start, Function.update_apply]
    rcases getElem?_append_one.1 hj with hold | ⟨rfl, rfl⟩
    · rw [if_neg]
      · exact inv.underway j read hold hopen
      · intro hkey
        obtain ⟨t, outcome, hended⟩ := inv.ended_of_joined hjoined hold hkey
        simp [hopen] at hended
    · rw [if_pos rfl]
  case recorded =>
    intro other j hj
    simp only [State.start, Function.update_apply] at hj
    split at hj
    next hother =>
      obtain rfl := Option.some.inj hj
      exact ⟨_, getElem?_append_one.2 (.inr ⟨rfl, rfl⟩), hother.symm, rfl⟩
    next =>
      obtain ⟨read, hread, hkey, hforgotten⟩ := inv.recorded other j hj
      exact ⟨read, getElem?_append_one.2 (.inl hread), hkey, hforgotten⟩
  case inTurn =>
    intro a b first next hlt hfirst hnext hkey
    rcases getElem?_append_one.1 hnext with hnext | ⟨rfl, rfl⟩
    · have hold : s.reads[a]? = some first := by
        rcases getElem?_append_one.1 hfirst with hold | ⟨rfl, -⟩
        · exact hold
        · have hb := (List.getElem?_eq_some_iff.1 hnext).1
          exact absurd hlt (Nat.lt_asymm hb)
      exact inv.inTurn a b first next hlt hold hnext hkey
    · rcases getElem?_append_one.1 hfirst with hold | ⟨rfl, -⟩
      · obtain ⟨t, outcome, hended⟩ := inv.ended_of_joined hjoined hold hkey.symm
        exact ⟨t, outcome, hended, (inv.ended first (List.mem_of_getElem? hold) t outcome hended).2⟩
      · exact absurd hlt (Nat.lt_irrefl _)
  case distinct => exact inv.distinct
  case bounded => exact inv.bounded
  case entries =>
    intro entry hentry
    obtain ⟨read, hread, hkey, hkept⟩ := inv.entries entry hentry
    exact ⟨read, List.mem_append_left _ hread, hkey, hkept⟩
  case held =>
    intro j read t v hread hkept hnone
    rcases getElem?_append_one.1 hread with hold | ⟨rfl, rfl⟩
    · have hbefore : NoneKept s read.key j s.reads.length := by
        intro m other hj hm
        refine (hnone.before grows) m other hj (Nat.lt_of_lt_of_le hm ?_)
        simp [State.start]
      exact (inv.held j read t v hold hkept hbefore).imp_right (Crowded.grows grows)
    · cases hkept
  case spaced =>
    intro a b first next t v hlt hfirst hnext hkey hkept hnone
    have hold : s.reads[a]? = some first := by
      rcases getElem?_append_one.1 hfirst with hold | ⟨-, rfl⟩
      · exact hold
      · cases hkept
    rcases getElem?_append_one.1 hnext with hnext | ⟨rfl, rfl⟩
    · exact (inv.spaced a b first next t v hlt hold hnext hkey hkept
        (hnone.before grows)).imp_right (Crowded.grows grows)
    · rcases inv.held a first t v hold hkept (hnone.before grows) with hentry | hcrowded
      · exact .inl (inv.not_served_of_cached hcached hentry hkey.symm)
      · exact .inr (hcrowded.grows grows)
  case callers => exact fun caller hcaller => (inv.callers caller hcaller).grows grows

theorem Inv.ask (inv : Inv p s) (key : κ) (origin : γ) : Inv p (s.ask p key origin) := by
  unfold State.ask
  cases hcached : s.cached p key origin with
  | some value =>
      refine inv.withCallers fun caller hcaller => ?_
      rcases List.mem_append.1 hcaller with hold | hnew
      · exact inv.callers caller hold
      · obtain rfl := List.mem_singleton.1 hnew
        refine ⟨Int.le_refl _, by simp, ?_⟩
        intro outcome houtcome
        obtain rfl : some value = outcome := by simpa using houtcome
        obtain ⟨entry, hfind, hserved⟩ := Option.bind_eq_some_iff.1 hcached
        simp only [Option.ite_none_right_eq_some, Option.some.injEq] at hserved
        obtain ⟨hserved, rfl⟩ := hserved
        obtain ⟨read, hread, hkey, hkept⟩ := inv.entries entry (List.mem_of_find?_eq_some hfind)
        have hentry : entry.key = key := by simpa using List.find?_some hfind
        exact ⟨read, hread, hkey.trans hentry, entry.stamp, Read.kept_eq_some.1 hkept,
          .inl ⟨entry.value, rfl, hserved⟩⟩
  | none =>
      cases hjoined : s.joined p key with
      | some i =>
          refine inv.withCallers fun caller hcaller => ?_
          rcases List.mem_append.1 hcaller with hold | hnew
          · exact inv.callers caller hold
          · obtain rfl := List.mem_singleton.1 hnew
            refine ⟨Int.le_refl _, ?_, by simp⟩
            intro j hj
            obtain rfl : i = j := by simpa using hj
            obtain ⟨hinflight, hjoins⟩ := Option.filter_eq_some_iff.1 hjoined
            obtain ⟨read, hread, hkey, hforgotten⟩ := inv.recorded key i hinflight
            refine ⟨read, hread, hkey, ?_⟩
            rcases Bool.or_eq_true_iff.1 hjoins with hjoins | hopen
            · exact .inr ⟨hjoins, by simp [hforgotten]⟩
            · have hnone : read.ended = none := by simpa [hread] using hopen
              exact .inl (by simp [hnone])
      | none =>
          have hstart := inv.start hcached hjoined
          refine hstart.withCallers fun caller hcaller => ?_
          rcases List.mem_append.1 hcaller with hold | hnew
          · exact hstart.callers caller hold
          · obtain rfl := List.mem_singleton.1 hnew
            refine ⟨Int.le_refl _, ?_, by simp⟩
            intro j hj
            obtain rfl : s.reads.length = j := by simpa using hj
            exact ⟨_, getElem?_append_one.2 (.inr ⟨rfl, rfl⟩), rfl, .inl (by simp)⟩

end Asking

theorem Inv.resume (inv : Inv p s) {c : Nat} {caller : Caller κ γ ν} {read : Read κ γ ν} {t : Int}
    {outcome : Option ν} (hcaller : s.callers[c]? = some caller) (hwaits : caller.read = some i)
    (hread : s.reads[i]? = some read) (hended : read.ended = some (t, outcome)) :
    Inv p (s.resume c caller outcome) := by
  have hwait := inv.callers caller (List.mem_of_getElem? hcaller)
  refine inv.withCallers fun other hother => ?_
  rcases List.mem_or_eq_of_mem_set hother with hold | rfl
  · exact inv.callers other hold
  · refine ⟨hwait.asked, hwait.read, ?_⟩
    intro other hother
    obtain rfl : outcome = other := by simpa using hother
    obtain ⟨joined, hjoined, hkey, hlate⟩ := hwait.read i hwaits
    obtain rfl : read = joined := Option.some.inj (hread.symm.trans hjoined)
    exact ⟨read, List.mem_of_getElem? hread, hkey, t, hended, .inr hlate⟩

theorem Inv.resumeAt (inv : Inv p s) {c : Nat} (h : s.resumeAt c = some s') : Inv p s' := by
  obtain ⟨caller, hcaller, hrest⟩ := Option.bind_eq_some_iff.1 h
  simp only [Option.ite_none_left_eq_some] at hrest
  obtain ⟨read, hwaits, hended⟩ := Option.bind_eq_some_iff.1 hrest.2
  obtain ⟨i, hi, hread⟩ := Option.bind_eq_some_iff.1 hwaits
  obtain ⟨⟨t, outcome⟩, hend, rfl⟩ := Option.map_eq_some_iff.1 hended
  exact inv.resume hcaller hi hread hend

theorem reads_of_resumeAt {c : Nat} (h : s.resumeAt c = some s') : s'.reads = s.reads := by
  obtain ⟨caller, -, hrest⟩ := Option.bind_eq_some_iff.1 h
  simp only [Option.ite_none_left_eq_some] at hrest
  obtain ⟨read, -, hended⟩ := Option.bind_eq_some_iff.1 hrest.2
  obtain ⟨ended, -, rfl⟩ := Option.map_eq_some_iff.1 hended
  rfl

/-- Going on changes nothing that does not depend on what a caller is given. -/
theorem forall_callers_of_resumeAt {c : Nat} (h : s.resumeAt c = some s')
    {good : Caller κ γ ν → Prop} (hold : ∀ caller ∈ s.callers, good caller)
    (hgiven : ∀ caller outcome, good caller → good { caller with given := some outcome }) :
    ∀ caller ∈ s'.callers, good caller := by
  obtain ⟨caller, hcaller, hrest⟩ := Option.bind_eq_some_iff.1 h
  simp only [Option.ite_none_left_eq_some] at hrest
  obtain ⟨read, -, hended⟩ := Option.bind_eq_some_iff.1 hrest.2
  obtain ⟨ended, -, rfl⟩ := Option.map_eq_some_iff.1 hended
  intro other hother
  rcases List.mem_or_eq_of_mem_set hother with hmem | rfl
  · exact hold other hmem
  · exact hgiven caller _ (hold caller (List.mem_of_getElem? hcaller))

theorem inv_start (clock : Int) : Inv p { clock := clock } := by
  constructor <;> simp [Keyed.Distinct]

/-! ### How soon a source is read again -/

/-- Where what is served depends on its age alone, and what is old enough stays so, no read of a key
begins as long as the reading of an earlier one is served. -/
theorem Inv.spaced_all (inv : Inv p s) (steady : ∀ key origin other value age later, age ≤ later →
      p.serves key origin value later = true → p.serves key other value age = true)
    {first next : Read κ γ ν} {t : Int} {v : ν} (hlt : i < j) (hfirst : s.reads[i]? = some first)
    (hnext : s.reads[j]? = some next) (hkey : next.key = first.key) (hkept : first.kept = some (t, v)) :
    p.serves next.key next.origin v (next.began - t) = false ∨ Crowded p s first.key t := by
  -- the first read of the key behind the earlier one decides
  have hexists : ∃ m, i < m ∧ ∃ read, s.reads[m]? = some read ∧ read.key = first.key :=
    ⟨j, hlt, next, hnext, hkey⟩
  classical
  obtain ⟨m, ⟨him, read, hread, hkeyRead⟩, hfirstOne⟩ :
      ∃ m, (i < m ∧ ∃ read, s.reads[m]? = some read ∧ read.key = first.key) ∧
        ∀ n < m, ¬(i < n ∧ ∃ read, s.reads[n]? = some read ∧ read.key = first.key) :=
    ⟨Nat.find hexists, Nat.find_spec hexists, fun n hn => Nat.find_min hexists hn⟩
  have hnone : NoneKept s first.key i m := fun n other hin hnm hother hkeyOther =>
    absurd ⟨hin, other, hother, hkeyOther⟩ (hfirstOne n hnm)
  refine (inv.spaced i m first read t v him hfirst hread hkeyRead hkept hnone).imp_left ?_
  intro hold
  have hle : read.began ≤ next.began := by
    rcases Nat.lt_trichotomy m j with hmj | rfl | hjm
    · obtain ⟨ended, outcome, hended, hbegan⟩ :=
        inv.inTurn m j read next hmj hread hnext (hkey.trans hkeyRead.symm)
      exact Int.le_trans ((inv.ended read (List.mem_of_getElem? hread) _ _ hended).1) hbegan
    · obtain rfl : read = next := Option.some.inj (hread.symm.trans hnext)
      exact Int.le_refl _
    · exact absurd ⟨hlt, next, hnext, hkey⟩ (hfirstOne j hjm)
  rw [Bool.eq_false_iff] at hold ⊢
  intro hserved
  rw [hkey] at hserved
  rw [hkeyRead] at hold
  exact hold (steady first.key next.origin read.origin v _ _ (Int.sub_le_sub_right hle t) hserved)

end Papaia.SharedRead
