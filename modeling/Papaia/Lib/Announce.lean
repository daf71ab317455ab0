/-
Module: Papaia.Lib.Announce
Purpose: Announcing what is found by looking at a thing again and again: once per marker, or once per
  occurrence and at most once per window.  A look can find the thing, find that it is gone, or be no
  look at all.
Trusted boundary: none
Main exports: Look, remember, announced, announced_nodup_iff, Track, opens, track, sentAt, trackAll,
  sentAt_pairwise, opens_trackAll_iff, sentAt_ne_nil_iff, StaysQuiet,
  sentAt_eq_nil_iff
-/
import Mathlib.Data.List.Basic

namespace Papaia.Announce

/-- What one look says about a thing. -/
inductive Look (μ : Type*) where
  | unread
  | absent
  | present (marker : μ)
deriving DecidableEq, Repr

variable {μ : Type*}

/-- Whether a look finds the thing. -/
def Look.finds : Look μ → Bool
  | .present _ => true
  | _ => false

/-! ### A marker that stays -/

/-- Between two looks that find a marker nothing else is found. -/
def Steady (marker : μ) (looks : List (Look μ)) : Prop :=
  ∀ before between after, looks = before ++ .present marker :: (between ++ .present marker :: after) →
    ∀ look ∈ between, look = .unread ∨ look = .present marker

theorem steady_nil (marker : μ) : Steady marker [] := by
  intro before between after h
  simp at h

/-- A look in front matters only for the marker it finds. -/
theorem steady_cons {marker : μ} {look : Look μ} {rest : List (Look μ)} :
    Steady marker (look :: rest) ↔ Steady marker rest ∧
      (look = .present marker → ∀ between after, rest = between ++ .present marker :: after →
        ∀ other ∈ between, other = .unread ∨ other = .present marker) := by
  constructor
  · intro h
    refine ⟨?_, ?_⟩
    · rintro before between after rfl
      exact h (look :: before) between after rfl
    · rintro rfl between after rfl
      exact h [] between after rfl
  · rintro ⟨hrest, hfirst⟩ before between after hsplit
    cases before with
    | nil =>
        obtain ⟨rfl, rfl⟩ := List.cons.inj hsplit
        exact hfirst rfl between after rfl
    | cons first before =>
        obtain ⟨rfl, rfl⟩ := List.cons.inj hsplit
        exact hrest before between after rfl

/-- A marker that is found again after something else was found. -/
theorem steady_present_cons {marker : μ} {look : Look μ} {rest : List (Look μ)}
    (hunread : look ≠ .unread) (hother : look ≠ .present marker) :
    Steady marker (.present marker :: look :: rest) ↔
      Steady marker (look :: rest) ∧ .present marker ∉ rest := by
  rw [steady_cons]
  refine and_congr Iff.rfl ?_
  constructor
  · intro h hmem
    obtain ⟨between, after, rfl⟩ := List.append_of_mem hmem
    rcases h rfl (look :: between) after rfl look (List.mem_cons_self ..) with heq | heq
    · exact hunread heq
    · exact hother heq
  · rintro hnot - between after hsplit
    cases between with
    | nil => exact absurd (List.cons.inj hsplit).1 hother
    | cons first between =>
        obtain ⟨rfl, rfl⟩ := List.cons.inj hsplit
        simp at hnot

theorem steady_present_unread {marker other : μ} {rest : List (Look μ)} :
    Steady marker (.present other :: .unread :: rest) ↔ Steady marker (.present other :: rest) := by
  have hright : Steady marker (.present other :: rest) ↔ _ := steady_cons
  rw [hright, steady_cons, steady_cons]
  constructor
  · rintro ⟨⟨hrest, -⟩, hfirst⟩
    refine ⟨hrest, ?_⟩
    rintro hsame between after rfl look hlook
    exact hfirst hsame (.unread :: between) after rfl look (List.mem_cons_of_mem _ hlook)
  · rintro ⟨hrest, hfirst⟩
    refine ⟨⟨hrest, by simp⟩, ?_⟩
    intro hsame between after hsplit look hlook
    cases between with
    | nil => cases hlook
    | cons first between =>
        obtain ⟨rfl, rfl⟩ := List.cons.inj hsplit
        rcases List.mem_cons.1 hlook with rfl | hmem
        · exact .inl rfl
        · exact hfirst hsame between after rfl look hmem

theorem steady_present_present {marker other : μ} {rest : List (Look μ)} :
    Steady marker (.present other :: .present other :: rest) ↔
      Steady marker (.present other :: rest) := by
  rw [steady_cons]
  refine and_iff_left_of_imp ?_
  rintro h hsame between after hsplit look hlook
  obtain rfl : other = marker := by simpa using hsame
  cases between with
  | nil => cases hlook
  | cons first between =>
      obtain ⟨rfl, rfl⟩ := List.cons.inj hsplit
      rcases List.mem_cons.1 hlook with rfl | hmem
      · exact .inr rfl
      · exact (steady_cons.1 h).2 rfl between after rfl look hmem

theorem steady_skip {marker : μ} {look : Look μ} {rest : List (Look μ)}
    (h : look ≠ .present marker) : Steady marker (look :: rest) ↔ Steady marker rest := by
  rw [steady_cons]
  exact and_iff_left fun heq => absurd heq h

/-- All markers stay after one that is followed by something else, when it does not come back. -/
theorem steady_all_present {found : μ} {look : Look μ} {rest : List (Look μ)}
    (hunread : look ≠ .unread) (hother : look ≠ .present found) :
    (∀ marker, Steady marker (.present found :: look :: rest)) ↔
      (∀ marker, Steady marker (look :: rest)) ∧ .present found ∉ rest := by
  constructor
  · intro h
    refine ⟨fun marker => (steady_cons.1 (h marker)).1, ?_⟩
    exact ((steady_present_cons hunread hother).1 (h found)).2
  · rintro ⟨hrest, hnot⟩ marker
    by_cases hsame : found = marker
    · subst hsame
      exact (steady_present_cons hunread hother).2 ⟨hrest found, hnot⟩
    · exact (steady_skip (by simpa using hsame)).2 (hrest marker)

/-! ### Once per marker -/

section Markers

variable [DecidableEq μ]

/-- The marker that is remembered after a look; one that finds nothing forgets it. -/
def remember (s : Option μ) : Look μ → Option μ
  | .unread => s
  | .absent => none
  | .present marker => some marker

/-- The markers that are announced: each one that is not the one remembered. -/
def announced (s : Option μ) : List (Look μ) → List μ
  | [] => []
  | .present marker :: rest =>
      if s = some marker then announced s rest else marker :: announced (some marker) rest
  | look :: rest => announced (remember s look) rest

@[simp] theorem announced_unread (s : Option μ) (rest : List (Look μ)) :
    announced s (.unread :: rest) = announced s rest := rfl

@[simp] theorem announced_absent (s : Option μ) (rest : List (Look μ)) :
    announced s (.absent :: rest) = announced none rest := rfl

/-- A marker that is not remembered is announced as soon as it is found. -/
theorem mem_announced_iff {s : Option μ} {marker : μ} (h : s ≠ some marker)
    {looks : List (Look μ)} : marker ∈ announced s looks ↔ .present marker ∈ looks := by
  induction looks generalizing s with
  | nil => simp [announced]
  | cons look rest ih =>
      cases look with
      | unread => simp [ih h]
      | absent => simp [ih (s := none) (by simp)]
      | present found =>
          by_cases hfound : found = marker
          · subst hfound
            simp [announced, h]
          · have hother : (some found : Option μ) ≠ some marker := by simpa using hfound
            have hne : marker ≠ found := Ne.symm hfound
            by_cases hs : s = some found
            · simp [announced, hs, ih hother, hne]
            · simp [announced, hs, ih hother, hne]

/-- No marker is announced twice, and a remembered one not at all, exactly when every marker stays
once it is found. -/
theorem announced_nodup_iff_from (s : Option μ) (looks : List (Look μ)) :
    ((announced s looks).Nodup ∧ ∀ marker, s = some marker → marker ∉ announced s looks) ↔
      ∀ marker, Steady marker (s.toList.map .present ++ looks) := by
  induction looks generalizing s with
  | nil =>
      cases s with
      | none => simp [announced, steady_nil]
      | some found =>
          simp only [announced, List.nodup_nil, List.not_mem_nil, not_false_eq_true, implies_true,
            and_self, Option.toList_some, List.map_cons, List.map_nil, List.append_nil, true_iff]
          intro marker
          exact steady_cons.2 ⟨steady_nil marker, by simp⟩
  | cons look rest ih =>
      cases s with
      | none =>
          cases look with
          | unread => simpa [steady_skip] using ih none
          | absent => simpa [steady_skip] using ih none
          | present found => simpa [announced, and_comm] using ih (some found)
      | some found =>
          cases look with
          | unread => simpa [steady_present_unread] using ih (some found)
          | absent =>
              have hrest : (announced none rest).Nodup ↔ ∀ marker, Steady marker rest := by
                simpa using ih none
              have hskip : (∀ marker, Steady marker (.absent :: rest)) ↔
                  ∀ marker, Steady marker rest :=
                forall_congr' fun marker => steady_skip (by simp)
              simp only [announced_absent, Option.some.injEq, forall_eq', Option.toList_some,
                List.map_cons, List.map_nil, List.cons_append, List.nil_append]
              rw [steady_all_present (by simp) (by simp), hskip, hrest,
                mem_announced_iff (by simp)]
          | present other =>
              simp only [Option.some.injEq, forall_eq', Option.toList_some, List.map_cons,
                List.map_nil, List.cons_append, List.nil_append]
              by_cases hsame : found = other
              · subst hsame
                simpa [announced, steady_present_present] using ih (some found)
              · have hrest : ((announced (some other) rest).Nodup ∧
                    other ∉ announced (some other) rest) ↔
                      ∀ marker, Steady marker (.present other :: rest) := by
                  simpa using ih (some other)
                rw [steady_all_present (by simp) (by simpa using Ne.symm hsame), ← hrest,
                  ← mem_announced_iff (s := some other) (by simpa using Ne.symm hsame)]
                simp only [announced, Option.some.injEq, hsame, if_false, List.nodup_cons,
                  List.mem_cons, not_or, not_false_eq_true, true_and]
                exact and_congr_left fun _ => and_comm

theorem announced_nodup_iff (looks : List (Look μ)) :
    (announced none looks).Nodup ↔ ∀ marker, Steady marker looks := by
  simpa using announced_nodup_iff_from none looks

/-- Whether a look says anything. -/
def Look.isRead : Look μ → Bool
  | .unread => false
  | _ => true

/-- A look that was none changes nothing. -/
theorem announced_filter_isRead (s : Option μ) (looks : List (Look μ)) :
    announced s (looks.filter Look.isRead) = announced s looks := by
  induction looks generalizing s with
  | nil => rfl
  | cons look rest ih =>
      cases look with
      | unread => exact ih s
      | absent => exact ih none
      | present marker =>
          simp only [List.filter_cons, Look.isRead, if_true, announced]
          split
          · exact ih s
          · rw [ih]

/-- What is never found is never announced. -/
theorem announced_eq_nil {looks : List (Look μ)} (h : ∀ look ∈ looks, look.finds = false) :
    announced none looks = [] := by
  rw [List.eq_nil_iff_forall_not_mem]
  intro marker hmem
  have hfound := (mem_announced_iff (by simp)).1 hmem
  have hfinds := h _ hfound
  cases hfinds

end Markers

/-! ### Once per occurrence, and once per window -/

/-- What is remembered of a thing: whether it was there at the last look, and when it was announced
last. -/
structure Track where
  active : Bool
  last : Option Int
deriving DecidableEq, Repr

/-- Whether the window of the last announcement is over. -/
def outside (window : Int) (last : Option Int) (now : Int) : Bool :=
  last.all fun sent => window ≤ now - sent

/-- Whether the last announcement is too old to be remembered. -/
def stale (keep : Int) (last : Option Int) (now : Int) : Bool :=
  last.all fun sent => keep < now - sent

section Edges

variable (window keep : Int)

/-- Whether a thing that is found now is announced. -/
def opens (now : Int) : Option Track → Bool
  | none => true
  | some entry => !entry.active && outside window entry.last now

/-- What is remembered after a look. -/
def track (s : Option Track) (now : Int) : Look μ → Option Track
  | .unread => s
  | .absent => s.bind fun entry =>
      if stale keep entry.last now then none else some { entry with active := false }
  | .present _ =>
      some { active := true, last := if opens window now s then some now else s.bind Track.last }

/-- What is remembered after some looks. -/
def trackAll (s : Option Track) : List (Int × Look μ) → Option Track
  | [] => s
  | (now, look) :: rest => trackAll (track window keep s now look) rest

/-- When the thing is announced. -/
def sentAt (s : Option Track) : List (Int × Look μ) → List Int
  | [] => []
  | (now, look) :: rest =>
      (if look.finds && opens window now s then [now] else []) ++
        sentAt (track window keep s now look) rest

/-- Whether the last look that was one missed the thing; `lost` is what is known before. -/
def lostAfter (lost : Bool) : List (Look μ) → Bool
  | [] => lost
  | .unread :: rest => lostAfter lost rest
  | .absent :: rest => lostAfter true rest
  | .present _ :: rest => lostAfter false rest

/-- The looks are in the order of time. -/
def Ascending (looks : List (Int × Look μ)) : Prop :=
  looks.Pairwise fun one other => one.1 ≤ other.1

variable {window keep}

@[simp] theorem trackAll_unread (s : Option Track) (now : Int) (rest : List (Int × Look μ)) :
    trackAll window keep s ((now, .unread) :: rest) = trackAll window keep s rest := rfl

@[simp] theorem sentAt_unread (s : Option Track) (now : Int) (rest : List (Int × Look μ)) :
    sentAt window keep s ((now, .unread) :: rest) = sentAt window keep s rest := rfl

@[simp] theorem sentAt_absent (s : Option Track) (now : Int) (rest : List (Int × Look μ)) :
    sentAt window keep s ((now, .absent) :: rest) =
      sentAt window keep (track window keep s now (.absent : Look μ)) rest := rfl

theorem trackAll_append (s : Option Track) (looks more : List (Int × Look μ)) :
    trackAll window keep s (looks ++ more) =
      trackAll window keep (trackAll window keep s looks) more := by
  induction looks generalizing s with
  | nil => rfl
  | cons x rest ih => exact ih _

theorem sentAt_append (s : Option Track) (looks more : List (Int × Look μ)) :
    sentAt window keep s (looks ++ more) =
      sentAt window keep s looks ++ sentAt window keep (trackAll window keep s looks) more := by
  induction looks generalizing s with
  | nil => rfl
  | cons x rest ih =>
      obtain ⟨now, look⟩ := x
      simp [sentAt, trackAll, ih]

theorem Ascending.of_append {looks more : List (Int × Look μ)} (h : Ascending (looks ++ more)) :
    Ascending looks ∧ Ascending more ∧ ∀ one ∈ looks, ∀ other ∈ more, one.1 ≤ other.1 :=
  List.pairwise_append.1 h

variable (window keep) in
/-- The memory is true to what was announced: an entry holds the last announcement, and without one
every announcement is too old. -/
structure Remembers (latest : Int) (sent : List Int) (s : Option Track) : Prop where
  past : ∀ one ∈ sent, one ≤ latest
  spaced : sent.Pairwise fun one other => window ≤ other - one
  entry : ∀ e, s = some e → ∃ last, e.last = some last ∧ last ∈ sent ∧ ∀ one ∈ sent, one ≤ last
  nothing : s = none → ∀ one ∈ sent, keep < latest - one

theorem remembers_start (latest : Int) : Remembers window keep latest [] none where
  past := by simp
  spaced := .nil
  entry := by simp
  nothing := by simp

/-- A thing is announced when it was not there at the last look and every window is over. -/
theorem Remembers.opens_iff {latest now : Int} {sent : List Int} {s : Option Track}
    (h : Remembers window keep latest sent s) (hkeep : window ≤ keep) (hnow : latest ≤ now) :
    opens window now s = true ↔
      (∀ e, s = some e → e.active = false) ∧ ∀ one ∈ sent, window ≤ now - one := by
  cases s with
  | none =>
      simp only [opens, reduceCtorEq, false_implies, implies_true, true_and, true_iff]
      intro one hone
      have hold := h.nothing rfl one hone
      omega
  | some e =>
      obtain ⟨last, hlast, hmem, hmax⟩ := h.entry e rfl
      simp only [opens, outside, hlast, Option.all_some, Bool.and_eq_true, Bool.not_eq_true',
        decide_eq_true_eq, Option.some.injEq, forall_eq']
      refine and_congr_right fun _ => ⟨?_, fun hall => hall last hmem⟩
      intro hwindow one hone
      have hle := hmax one hone
      omega

theorem Remembers.look {latest now : Int} {sent : List Int} {s : Option Track}
    (h : Remembers window keep latest sent s) (hkeep : window ≤ keep) (hnow : latest ≤ now)
    (look : Look μ) :
    Remembers window keep now (sent ++ if look.finds && opens window now s then [now] else [])
      (track window keep s now look) := by
  have hpast : ∀ one ∈ sent, one ≤ now := fun one hone =>
    Int.le_trans (h.past one hone) hnow
  cases look with
  | unread =>
      simp only [Look.finds, Bool.false_and, Bool.false_eq_true, if_false, List.append_nil, track]
      refine ⟨hpast, h.spaced, h.entry, ?_⟩
      intro hs one hone
      have hold := h.nothing hs one hone
      omega
  | absent =>
      simp only [Look.finds, Bool.false_and, Bool.false_eq_true, if_false, List.append_nil, track]
      cases s with
      | none =>
          refine ⟨hpast, h.spaced, by simp, ?_⟩
          intro _ one hone
          have hold := h.nothing rfl one hone
          omega
      | some e =>
          obtain ⟨active, _⟩ := e
          obtain ⟨last, rfl, hmem, hmax⟩ := h.entry _ rfl
          simp only [Option.bind_some, stale, Option.all_some, decide_eq_true_eq]
          split
          next hstale =>
            refine ⟨hpast, h.spaced, by simp, ?_⟩
            intro _ one hone
            have hle := hmax one hone
            omega
          next =>
            refine ⟨hpast, h.spaced, ?_, by simp⟩
            intro e' he'
            obtain rfl := Option.some.inj he'
            exact ⟨last, rfl, hmem, hmax⟩
  | present marker =>
      by_cases hopens : opens window now s = true
      · simp only [Look.finds, hopens, Bool.and_self, if_true, track]
        have hwindow := ((h.opens_iff hkeep hnow).1 hopens).2
        refine ⟨?_, ?_, ?_, by simp⟩
        · intro one hone
          rcases List.mem_append.1 hone with hone | hone
          · exact hpast one hone
          · exact Int.le_of_eq (List.mem_singleton.1 hone)
        · refine List.pairwise_append.2 ⟨h.spaced, List.pairwise_singleton .., ?_⟩
          intro one hone other hother
          rw [List.mem_singleton.1 hother]
          exact hwindow one hone
        · intro e he
          obtain rfl := Option.some.inj he
          refine ⟨now, rfl, by simp, ?_⟩
          intro one hone
          rcases List.mem_append.1 hone with hone | hone
          · exact hpast one hone
          · exact Int.le_of_eq (List.mem_singleton.1 hone)
      · simp only [Look.finds, hopens, Bool.and_false, Bool.false_eq_true, if_false,
          List.append_nil, track]
        refine ⟨hpast, h.spaced, ?_, by simp⟩
        intro e he
        obtain rfl := Option.some.inj he
        cases s with
        | none => simp [opens] at hopens
        | some before => exact h.entry before rfl

/-- The memory stays true over any looks. -/
theorem Remembers.looks {latest : Int} {sent : List Int} {s : Option Track}
    (h : Remembers window keep latest sent s) (hkeep : window ≤ keep)
    {looks : List (Int × Look μ)} (hascending : Ascending looks)
    (hfirst : ∀ x ∈ looks, latest ≤ x.1) :
    ∃ now ∈ latest :: looks.map Prod.fst,
      Remembers window keep now (sent ++ sentAt window keep s looks)
        (trackAll window keep s looks) := by
  induction looks generalizing latest sent s with
  | nil => exact ⟨latest, List.mem_singleton_self _, by simpa [sentAt, trackAll] using h⟩
  | cons x rest ih =>
      obtain ⟨now, look⟩ := x
      obtain ⟨hbefore, hrest⟩ := List.pairwise_cons.1 hascending
      have hnext := h.look hkeep (hfirst _ (List.mem_cons_self ..)) look
      obtain ⟨final, hfinal, hrun⟩ := ih hnext hrest hbefore
      refine ⟨final, List.mem_cons_of_mem _ hfinal, ?_⟩
      simpa [sentAt, trackAll] using hrun

/-- What is remembered of looks that were all taken before now. -/
theorem remembers_looks (hkeep : window ≤ keep) {looks : List (Int × Look μ)}
    (h : Ascending looks) {now : Int} (hnow : ∀ x ∈ looks, x.1 ≤ now) :
    ∃ latest ≤ now, Remembers window keep latest (sentAt window keep none looks)
      (trackAll window keep none looks) := by
  cases looks with
  | nil => exact ⟨now, Int.le_refl _, remembers_start now⟩
  | cons x rest =>
      obtain ⟨hbefore, -⟩ := List.pairwise_cons.1 h
      have hfirst : ∀ y ∈ x :: rest, x.1 ≤ y.1 := by
        intro y hy
        rcases List.mem_cons.1 hy with rfl | hy
        · exact Int.le_refl _
        · exact hbefore y hy
      obtain ⟨latest, hlatest, hrun⟩ := (remembers_start x.1).looks hkeep h hfirst
      refine ⟨latest, ?_, by simpa using hrun⟩
      rcases List.mem_cons.1 hlatest with rfl | hmem
      · exact hnow x (List.mem_cons_self ..)
      · obtain ⟨y, hy, rfl⟩ := List.mem_map.1 hmem
        exact hnow y hy

/-- Two announcements are a window apart. -/
theorem sentAt_pairwise (hkeep : window ≤ keep) {looks : List (Int × Look μ)}
    (h : Ascending looks) :
    (sentAt window keep none looks).Pairwise fun one other => window ≤ other - one := by
  cases looks with
  | nil => exact .nil
  | cons x rest =>
      obtain ⟨hbefore, -⟩ := List.pairwise_cons.1 h
      have hfirst : ∀ y ∈ x :: rest, x.1 ≤ y.1 := by
        intro y hy
        rcases List.mem_cons.1 hy with rfl | hy
        · exact Int.le_refl _
        · exact hbefore y hy
      obtain ⟨latest, -, hrun⟩ := (remembers_start x.1).looks hkeep h hfirst
      simpa using hrun.spaced

/-- What the memory says about a thing being there is what the last look said. -/
def Follows (lost : Bool) : Option Track → Prop
  | none => lost = true
  | some e => e.active = !lost

theorem lostAfter_append (lost : Bool) (looks more : List (Look μ)) :
    lostAfter lost (looks ++ more) = lostAfter (lostAfter lost looks) more := by
  induction looks generalizing lost with
  | nil => rfl
  | cons look rest ih => cases look <;> exact ih _

theorem lostAfter_of_unread {looks : List (Look μ)} (h : ∀ look ∈ looks, look = .unread)
    (lost : Bool) : lostAfter lost looks = lost := by
  induction looks with
  | nil => rfl
  | cons look rest ih =>
      rw [h look (List.mem_cons_self ..)]
      exact ih fun other hother => h other (List.mem_cons_of_mem _ hother)

theorem lostAfter_of_not_absent {looks : List (Look μ)} (h : .absent ∉ looks) :
    lostAfter false looks = false := by
  induction looks with
  | nil => rfl
  | cons look rest ih =>
      have hrest := ih fun hmem => h (List.mem_cons_of_mem _ hmem)
      cases look with
      | unread => exact hrest
      | present marker => exact hrest
      | absent => exact absurd (List.mem_cons_self ..) h

theorem Follows.look {lost : Bool} {s : Option Track} (h : Follows lost s) (now : Int)
    (look : Look μ) : Follows (lostAfter lost [look]) (track window keep s now look) := by
  cases look with
  | unread => exact h
  | absent =>
      cases s with
      | none => rfl
      | some e =>
          simp only [track, Option.bind_some]
          split
          · rfl
          · rfl
  | present marker => rfl

theorem Follows.looks {lost : Bool} {s : Option Track} (h : Follows lost s)
    (looks : List (Int × Look μ)) :
    Follows (lostAfter lost (looks.map Prod.snd)) (trackAll window keep s looks) := by
  induction looks generalizing lost s with
  | nil => exact h
  | cons x rest ih =>
      obtain ⟨now, look⟩ := x
      have hrest := ih (s := track window keep s now look) (h.look now look)
      rw [← lostAfter_append] at hrest
      exact hrest

/-- A thing is announced when the last look that was one missed it and every window is over. -/
theorem opens_trackAll_iff (hkeep : window ≤ keep) {looks : List (Int × Look μ)}
    (h : Ascending looks) {now : Int} (hnow : ∀ x ∈ looks, x.1 ≤ now) :
    opens window now (trackAll window keep none looks) = true ↔
      lostAfter true (looks.map Prod.snd) = true ∧
        ∀ one ∈ sentAt window keep none looks, window ≤ now - one := by
  obtain ⟨latest, hlatest, hremembers⟩ := remembers_looks hkeep h hnow
  have hfollows : Follows (lostAfter true (looks.map Prod.snd))
      (trackAll window keep none looks) := Follows.looks (s := none) rfl looks
  rw [hremembers.opens_iff hkeep hlatest]
  apply and_congr_left
  intro _
  cases hs : trackAll window keep none looks with
  | none =>
      rw [hs] at hfollows
      exact ⟨fun _ => hfollows, by simp⟩
  | some e =>
      rw [hs] at hfollows
      have hactive : e.active = !lostAfter true (looks.map Prod.snd) := hfollows
      simp [hactive]

/-- The first announcement of some looks. -/
theorem exists_first_sent {s : Option Track} {looks : List (Int × Look μ)}
    (h : sentAt window keep s looks ≠ []) :
    ∃ skipped now marker rest, looks = skipped ++ (now, .present marker) :: rest ∧
      sentAt window keep s skipped = [] ∧
      opens window now (trackAll window keep s skipped) = true := by
  induction looks generalizing s with
  | nil => exact absurd rfl h
  | cons x rest ih =>
      obtain ⟨now, look⟩ := x
      by_cases hfirst : (look.finds && opens window now s) = true
      · obtain ⟨hfinds, hopens⟩ := Bool.and_eq_true_iff.1 hfirst
        cases look with
        | present marker => exact ⟨[], now, marker, rest, rfl, rfl, hopens⟩
        | unread => cases hfinds
        | absent => cases hfinds
      · rw [sentAt, if_neg hfirst, List.nil_append] at h
        obtain ⟨skipped, later, marker, after, rfl, hnil, hopens⟩ := ih h
        refine ⟨(now, look) :: skipped, later, marker, after, rfl, ?_, hopens⟩
        rw [sentAt, if_neg hfirst, hnil, List.append_nil]

/-- Something is announced in the looks that come next exactly when one of them finds the thing
after it was missed and after every window so far. -/
theorem sentAt_ne_nil_iff (hkeep : window ≤ keep) {before looks : List (Int × Look μ)}
    (h : Ascending (before ++ looks)) :
    sentAt window keep (trackAll window keep none before) looks ≠ [] ↔
      ∃ skipped now marker rest, looks = skipped ++ (now, .present marker) :: rest ∧
        lostAfter true ((before ++ skipped).map Prod.snd) = true ∧
        ∀ one ∈ sentAt window keep none before, window ≤ now - one := by
  have hopens : ∀ skipped now marker rest, looks = skipped ++ (now, .present marker) :: rest →
      sentAt window keep (trackAll window keep none before) skipped = [] →
      (opens window now (trackAll window keep none (before ++ skipped)) = true ↔
        lostAfter true ((before ++ skipped).map Prod.snd) = true ∧
          ∀ one ∈ sentAt window keep none before, window ≤ now - one) := by
    rintro skipped now marker rest rfl hnil
    rw [← List.append_assoc] at h
    obtain ⟨hpast, -, hlater⟩ := h.of_append
    have hnow : ∀ x ∈ before ++ skipped, x.1 ≤ now := fun x hx =>
      hlater x hx _ (List.mem_cons_self ..)
    rw [opens_trackAll_iff hkeep hpast hnow, sentAt_append, hnil, List.append_nil]
  constructor
  · intro hsent
    obtain ⟨skipped, now, marker, rest, hsplit, hnil, hopen⟩ := exists_first_sent hsent
    rw [← trackAll_append] at hopen
    exact ⟨skipped, now, marker, rest, hsplit, (hopens _ _ _ _ hsplit hnil).1 hopen⟩
  · rintro ⟨skipped, now, marker, rest, hsplit, hdue⟩ hquiet
    rw [hsplit, sentAt_append, ← trackAll_append] at hquiet
    obtain ⟨hnil, hrest⟩ := List.append_eq_nil_iff.1 hquiet
    have hopen := (hopens _ _ _ _ hsplit hnil).2 hdue
    simp [sentAt, Look.finds, hopen] at hrest

/-- A thing that is not remembered is announced as soon as it is found. -/
theorem sentAt_none_eq_nil_iff {looks : List (Int × Look μ)} :
    sentAt window keep none looks = [] ↔ ∀ x ∈ looks, x.2.finds = false := by
  induction looks with
  | nil => simp [sentAt]
  | cons x rest ih =>
      obtain ⟨now, look⟩ := x
      cases look with
      | unread => simpa [Look.finds] using ih
      | absent => simpa [Look.finds, track] using ih
      | present marker => simp [sentAt, Look.finds, opens]

/-- The last look that was one missed a thing that no look finds. -/
theorem lostAfter_of_not_finds {looks : List (Look μ)} (h : ∀ look ∈ looks, look.finds = false) :
    lostAfter true looks = true := by
  induction looks with
  | nil => rfl
  | cons look rest ih =>
      have hrest := ih fun other hother => h other (List.mem_cons_of_mem _ hother)
      have hlook := h look (List.mem_cons_self ..)
      cases look with
      | unread => exact hrest
      | absent => exact hrest
      | present marker => cases hlook

variable (window keep) in
/-- A thing that was announced stays quiet: every return comes inside the window, and no look that
missed it before comes so late that the announcement is forgotten. -/
def StaysQuiet (last : Int) (lost : Bool) (looks : List (Int × Look μ)) : Prop :=
  ∀ skipped now marker rest, looks = skipped ++ (now, .present marker) :: rest →
    lostAfter lost (skipped.map Prod.snd) = true →
    now - last < window ∧ ∀ moment, (moment, .absent) ∈ skipped → moment - last ≤ keep

/-- Quietness of some looks, when nothing can return before the first of them is over. -/
theorem staysQuiet_cons_of_not_finds {last now : Int} {lost : Bool} {look : Look μ}
    {rest : List (Int × Look μ)} (hfinds : look.finds = false) :
    StaysQuiet window keep last lost ((now, look) :: rest) ↔
      ∀ skipped later marker after, rest = skipped ++ (later, .present marker) :: after →
        lostAfter (lostAfter lost [look]) (skipped.map Prod.snd) = true →
        later - last < window ∧ (look = .absent → now - last ≤ keep) ∧
          ∀ moment, (moment, .absent) ∈ skipped → moment - last ≤ keep := by
  have hlost : ∀ skipped : List (Int × Look μ),
      lostAfter lost (((now, look) :: skipped).map Prod.snd) =
        lostAfter (lostAfter lost [look]) (skipped.map Prod.snd) :=
    fun skipped => lostAfter_append lost [look] (skipped.map Prod.snd)
  constructor
  · rintro h skipped later marker after rfl hafter
    obtain ⟨hwindow, hkeep⟩ := h ((now, look) :: skipped) later marker after rfl
      ((hlost skipped).trans hafter)
    refine ⟨hwindow, ?_, ?_⟩
    · rintro rfl
      exact hkeep now (List.mem_cons_self ..)
    · exact fun moment hmem => hkeep moment (List.mem_cons_of_mem _ hmem)
  · intro h skipped later marker after hsplit hafter
    cases skipped with
    | nil =>
        obtain ⟨hx, -⟩ := List.cons.inj hsplit
        obtain ⟨-, rfl⟩ := Prod.mk.inj hx
        cases hfinds
    | cons x skipped =>
        obtain ⟨rfl, hrest⟩ := List.cons.inj hsplit
        obtain ⟨hwindow, hfirst, hkeep⟩ := h skipped later marker after hrest
          ((hlost skipped).symm.trans hafter)
        refine ⟨hwindow, ?_⟩
        intro moment hmem
        rcases List.mem_cons.1 hmem with hsame | hmem
        · obtain ⟨rfl, rfl⟩ := Prod.mk.inj hsame
          exact hfirst rfl
        · exact hkeep moment hmem

theorem staysQuiet_cons_present {last now : Int} {lost : Bool} {marker : μ}
    {rest : List (Int × Look μ)} :
    StaysQuiet window keep last lost ((now, .present marker) :: rest) ↔
      (lost = true → now - last < window) ∧ StaysQuiet window keep last false rest := by
  constructor
  · intro h
    refine ⟨?_, ?_⟩
    · exact fun hlost => (h [] now marker rest rfl hlost).1
    · rintro skipped later other after rfl hafter
      obtain ⟨hwindow, hkeep⟩ := h ((now, .present marker) :: skipped) later other after rfl hafter
      exact ⟨hwindow, fun moment hmem => hkeep moment (List.mem_cons_of_mem _ hmem)⟩
  · rintro ⟨hfirst, hrest⟩ skipped later other after hsplit hafter
    cases skipped with
    | nil =>
        obtain ⟨hx, -⟩ := List.cons.inj hsplit
        obtain ⟨rfl, -⟩ := Prod.mk.inj hx
        exact ⟨hfirst hafter, by simp⟩
    | cons x skipped =>
        obtain ⟨rfl, htail⟩ := List.cons.inj hsplit
        obtain ⟨hwindow, hkeep⟩ := hrest skipped later other after htail hafter
        refine ⟨hwindow, ?_⟩
        intro moment hmem
        rcases List.mem_cons.1 hmem with hsame | hmem
        · cases hsame
        · exact hkeep moment hmem

/-- A thing that was announced is not announced again exactly when it stays quiet. -/
theorem sentAt_eq_nil_iff {last : Int} {lost : Bool} {looks : List (Int × Look μ)} :
    sentAt window keep (some { active := !lost, last := some last }) looks = [] ↔
      StaysQuiet window keep last lost looks := by
  induction looks generalizing lost with
  | nil => simp [sentAt, StaysQuiet]
  | cons x rest ih =>
      obtain ⟨now, look⟩ := x
      cases look with
      | unread =>
          rw [sentAt_unread, ih, staysQuiet_cons_of_not_finds rfl]
          simp [StaysQuiet, lostAfter]
      | absent =>
          rw [sentAt_absent, staysQuiet_cons_of_not_finds rfl]
          by_cases hstale : keep < now - last
          · -- the announcement is forgotten: whatever comes back is new
            have htrack : track window keep (some { active := !lost, last := some last }) now
                (.absent : Look μ) = none := by simp [track, stale, hstale]
            rw [htrack, sentAt_none_eq_nil_iff]
            constructor
            · rintro hnone skipped later marker after rfl -
              have hfinds := hnone (later, .present marker) (by simp)
              cases hfinds
            · intro h
              by_contra hfound
              have hsent : sentAt window keep none rest ≠ [] :=
                fun hnil => hfound (sentAt_none_eq_nil_iff.1 hnil)
              obtain ⟨skipped, later, marker, after, hsplit, hnil, -⟩ := exists_first_sent hsent
              have hlost : lostAfter true (skipped.map Prod.snd) = true := by
                apply lostAfter_of_not_finds
                rw [List.forall_mem_map]
                exact sentAt_none_eq_nil_iff.1 hnil
              obtain ⟨-, hkeep, -⟩ := h skipped later marker after hsplit hlost
              have hnow := hkeep rfl
              omega
          · have htrack : track window keep (some { active := !lost, last := some last }) now
                (.absent : Look μ) = some { active := !true, last := some last } := by
              simp [track, stale, hstale]
            have hnow : now - last ≤ keep := by omega
            rw [htrack, ih]
            simp [StaysQuiet, lostAfter, hnow]
      | present marker =>
          rw [staysQuiet_cons_present, sentAt, Look.finds, Bool.true_and]
          by_cases hopens : opens window now (some { active := !lost, last := some last }) = true
          · have hlate : lost = true ∧ window ≤ now - last := by
              simpa [opens, outside] using hopens
            simp only [hopens, if_true, List.cons_append, List.cons_ne_nil, false_iff, not_and]
            intro hinside
            have hless := hinside hlate.1
            omega
          · have hinside : lost = true → now - last < window := by
              intro hlost
              simpa [opens, outside, hlost] using hopens
            have htrack : track window keep (some { active := !lost, last := some last }) now
                (.present marker) = some { active := !false, last := some last } := by
              simp [track, hopens]
            rw [if_neg hopens, List.nil_append, htrack, ih]
            exact (and_iff_right hinside).symm

end Edges

end Papaia.Announce
