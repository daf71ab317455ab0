/-
Module: Papaia.Lib.Walk
Purpose: Directed graphs given by their successors: a depth-first walk that stops once it has seen a
  number of nodes, when it finds what can be reached, and edits that make no loop.
Trusted boundary: none
Main exports: Edge, walk, walk_sound, walk_complete, Loopless, Loopless.insert, Loopless.of_rank,
  reflTransGen_before
-/
import Mathlib.Data.List.Nodup
import Mathlib.Data.List.Perm.Subperm
import Mathlib.Logic.Relation

namespace Papaia.Walk

open Relation

variable {α : Type*}

/-! ### A bounded walk -/

/-- One node is a successor of another. -/
def Edge (next : α → List α) (one other : α) : Prop :=
  other ∈ next one

section Search

variable [DecidableEq α]

/-- A node that is new is seen and stacked; `found` holds the nodes seen and the stack. -/
def discover (found : List α × List α) (node : α) : List α × List α :=
  if node ∈ found.1 then found else (found.1 ++ [node], node :: found.2)

/-- A depth-first walk.  It stops when it has seen as many nodes as the cap says. -/
def walk (next : α → List α) (target : α) (cap : Nat) : Nat → List α × List α → Bool
  | 0, found => found.1.contains target
  | _ + 1, (seen, []) => seen.contains target
  | fuel + 1, (seen, current :: stack) =>
      if seen.length < cap then
        if current = target then true
        else walk next target cap fuel ((next current).foldl discover (seen, stack))
      else seen.contains target

/-- What a walk has seen is what it looked at and what is on the stack, and all of it can be
reached. -/
structure Searched (next : α → List α) (start : α) (done : List α) (found : List α × List α) :
    Prop where
  split : found.1.Perm (done ++ found.2)
  distinct : found.1.Nodup
  started : start ∈ found.1
  reached : ∀ node ∈ found.1, ReflTransGen (Edge next) start node

/-- The target is not among the nodes a walk looked at, and their successors are seen. -/
def Looked (next : α → List α) (target : α) (done seen : List α) : Prop :=
  ∀ node ∈ done, node ≠ target ∧ ∀ other ∈ next node, other ∈ seen

variable {next : α → List α} {start target : α} {done : List α}

theorem discover_subset (nodes : List α) (found : List α × List α) :
    ∀ node ∈ found.1, node ∈ (nodes.foldl discover found).1 := by
  induction nodes generalizing found with
  | nil => exact fun _ hnode => hnode
  | cons first rest ih =>
      intro node hnode
      apply ih
      simp only [discover]
      split
      · exact hnode
      · exact List.mem_append_left _ hnode

theorem discover_nodes (nodes : List α) (found : List α × List α) :
    ∀ node ∈ nodes, node ∈ (nodes.foldl discover found).1 := by
  induction nodes generalizing found with
  | nil => simp
  | cons first rest ih =>
      intro node hnode
      rcases List.mem_cons.1 hnode with rfl | hrest
      · rw [List.foldl_cons]
        apply discover_subset
        simp only [discover]
        split
        next hold => exact hold
        next => simp
      · exact ih _ node hrest

/-- Seeing more nodes that can be reached keeps what the walk knows. -/
theorem Searched.discover {found : List α × List α} (h : Searched next start done found)
    {nodes : List α} (hnodes : ∀ node ∈ nodes, ReflTransGen (Edge next) start node) :
    Searched next start done (nodes.foldl Walk.discover found) := by
  induction nodes generalizing found with
  | nil => exact h
  | cons first rest ih =>
      apply ih
      · by_cases hold : first ∈ found.1
        · rwa [Walk.discover, if_pos hold]
        · rw [Walk.discover, if_neg hold]
          constructor
          · have hpush : (done ++ found.2 ++ [first]).Perm (done ++ first :: found.2) := by
              rw [List.append_assoc]
              exact List.perm_append_comm.append_left done
            exact (h.split.append_right [first]).trans hpush
          · apply List.nodup_append.2
            refine ⟨h.distinct, List.nodup_singleton _, ?_⟩
            intro one hone other hother hsame
            rw [hsame, List.mem_singleton.1 hother] at hone
            exact hold hone
          · exact List.mem_append_left _ h.started
          · intro node hnode
            rcases List.mem_append.1 hnode with hnode | hnode
            · exact h.reached node hnode
            · rw [List.mem_singleton.1 hnode]
              exact hnodes first (List.mem_cons_self ..)
      · exact fun node hnode => hnodes node (List.mem_cons_of_mem _ hnode)

/-- Looking at the top of the stack. -/
theorem Searched.look {seen stack : List α} {current : α}
    (h : Searched next start done (seen, current :: stack)) :
    Searched next start (current :: done) ((next current).foldl Walk.discover (seen, stack)) := by
  have hcurrent : current ∈ seen := h.split.mem_iff.2 (by simp)
  have hpop : Searched next start (current :: done) (seen, stack) := by
    constructor
    · exact h.split.trans List.perm_middle
    · exact h.distinct
    · exact h.started
    · exact h.reached
  apply hpop.discover
  intro other hother
  exact (h.reached current hcurrent).tail hother

theorem Looked.look {seen stack : List α} {current : α} (h : Looked next target done seen)
    (hne : current ≠ target) :
    Looked next target (current :: done) ((next current).foldl Walk.discover (seen, stack)).1 := by
  intro node hnode
  rcases List.mem_cons.1 hnode with rfl | hnode
  · exact ⟨hne, discover_nodes _ _⟩
  · obtain ⟨hnot, hnext⟩ := h node hnode
    exact ⟨hnot, fun other hother => discover_subset _ _ other (hnext other hother)⟩

/-- What a walk finds can be reached. -/
theorem walk_sound_from {cap fuel : Nat} {found : List α × List α}
    (h : Searched next start done found) (hwalk : walk next target cap fuel found = true) :
    ReflTransGen (Edge next) start target := by
  induction fuel generalizing found done with
  | zero => exact h.reached target (List.contains_iff_mem.1 hwalk)
  | succ fuel ih =>
      obtain ⟨seen, stack⟩ := found
      cases stack with
      | nil => exact h.reached target (List.contains_iff_mem.1 hwalk)
      | cons current stack =>
          rw [walk] at hwalk
          split at hwalk
          · split at hwalk
            next heq =>
              have hcurrent : current ∈ seen := h.split.mem_iff.2 (by simp)
              exact heq ▸ h.reached current hcurrent
            next => exact ih h.look hwalk
          · exact h.reached target (List.contains_iff_mem.1 hwalk)

/-- A walk that looked at all it has seen, or has seen all that can be reached, has seen the
target. -/
theorem mem_of_looked {seen : List α} (hstart : start ∈ seen)
    (h : ∀ node ∈ seen, node ≠ target → ∀ other ∈ next node, other ∈ seen)
    (hreach : ReflTransGen (Edge next) start target) : target ∈ seen := by
  have hall : ∀ node, ReflTransGen (Edge next) start node → node ∈ seen ∨ target ∈ seen := by
    intro node hnode
    induction hnode with
    | refl => exact .inl hstart
    | @tail one other _ hedge ih =>
        rcases ih with hone | htarget
        · by_cases hone' : one = target
          · exact .inr (hone' ▸ hone)
          · exact .inl (h one hone hone' other hedge)
        · exact .inr htarget
  exact (hall target hreach).elim id id

/-- A walk with fuel for every node up to its cap finds what can be reached, when no more nodes than
the cap can be reached. -/
theorem walk_complete_from {cap fuel : Nat} {found : List α × List α} {below : List α}
    (h : Searched next start done found) (hlooked : Looked next target done found.1)
    (hfuel : cap ≤ fuel + done.length)
    (hbelow : ∀ node, ReflTransGen (Edge next) start node → node ∈ below)
    (hcap : below.length ≤ cap) (hreach : ReflTransGen (Edge next) start target) :
    walk next target cap fuel found = true := by
  have hfull : ∀ seen : List α, seen.Nodup → (∀ node ∈ seen, node ∈ below) →
      cap ≤ seen.length → target ∈ seen := by
    intro seen hdistinct hsub hlength
    have hperm := (hdistinct.subperm hsub).perm_of_length_le (Nat.le_trans hcap hlength)
    exact hperm.mem_iff.2 (hbelow target hreach)
  have hsub : ∀ {done : List α} {found : List α × List α}, Searched next start done found →
      ∀ node ∈ found.1, node ∈ below := fun h node hnode => hbelow node (h.reached node hnode)
  induction fuel generalizing found done with
  | zero =>
      have hlength : cap ≤ found.1.length := by
        have hsplit := h.split.length_eq
        rw [List.length_append] at hsplit
        omega
      exact List.contains_iff_mem.2 (hfull found.1 h.distinct (hsub h) hlength)
  | succ fuel ih =>
      obtain ⟨seen, stack⟩ := found
      cases stack with
      | nil =>
          rw [walk, List.contains_iff_mem]
          apply mem_of_looked h.started _ hreach
          intro node hnode _
          have hdone : node ∈ done := by simpa using h.split.mem_iff.1 hnode
          exact (hlooked node hdone).2
      | cons current stack =>
          rw [walk]
          split
          · split
            · rfl
            next hne =>
              apply ih h.look (hlooked.look hne)
              rw [List.length_cons]
              omega
          next hlength =>
            exact List.contains_iff_mem.2 (hfull seen h.distinct (hsub h) (Nat.le_of_not_lt hlength))

omit [DecidableEq α] in
theorem searched_start (start : α) : Searched next start [] ([start], [start]) where
  split := by simp
  distinct := List.nodup_singleton _
  started := List.mem_singleton_self _
  reached := by
    intro node hnode
    rw [List.mem_singleton.1 hnode]

theorem walk_sound {cap fuel : Nat} (h : walk next target cap fuel ([start], [start]) = true) :
    ReflTransGen (Edge next) start target :=
  walk_sound_from (searched_start start) h

theorem walk_complete {cap : Nat} {below : List α}
    (hbelow : ∀ node, ReflTransGen (Edge next) start node → node ∈ below)
    (hcap : below.length ≤ cap) (hreach : ReflTransGen (Edge next) start target) :
    walk next target cap cap ([start], [start]) = true :=
  walk_complete_from (searched_start start) (by simp [Looked]) (by simp) hbelow hcap hreach

end Search

/-! ### Graphs without a loop -/

/-- No node can be reached from itself. -/
def Loopless (r : α → α → Prop) : Prop :=
  ∀ node, ¬TransGen r node node

theorem Loopless.mono {r s : α → α → Prop} (h : Loopless s) (hrs : ∀ one other, r one other →
    s one other) : Loopless r :=
  fun node hloop => h node (TransGen.mono hrs _ _ hloop)

/-- Steps that all go down make no loop. -/
theorem Loopless.of_rank {r : α → α → Prop} (rank : α → Nat)
    (h : ∀ one other, r one other → rank other < rank one) : Loopless r := by
  have hdown : ∀ one other, TransGen r one other → rank other < rank one := by
    intro one other hway
    induction hway with
    | single hstep => exact h _ _ hstep
    | tail _ hstep ih => exact Nat.lt_trans (h _ _ hstep) ih
  exact fun node hloop => Nat.lt_irrefl _ (hdown node node hloop)

/-- A way to a node need not leave the node. -/
theorem reflTransGen_before {r : α → α → Prop} {one node : α} (h : ReflTransGen r one node) :
    ReflTransGen (fun a b => a ≠ node ∧ r a b) one node := by
  induction h using ReflTransGen.head_induction_on with
  | refl => exact .refl
  | @head a b hstep _ ih =>
      by_cases hsame : a = node
      · rw [hsame]
      · exact .head ⟨hsame, hstep⟩ ih

/-- A way that may use new successors of one node uses none of them, or goes through the node. -/
theorem reflTransGen_insert {r : α → α → Prop} {node : α} {new : α → Prop}
    (hnew : ∀ one, new one → ¬ReflTransGen r one node) {one other : α}
    (h : ReflTransGen (fun a b => r a b ∨ (a = node ∧ new b)) one other) :
    ReflTransGen r one other ∨
      ReflTransGen r one node ∧ ∃ first, new first ∧ ReflTransGen r first other := by
  induction h with
  | refl => exact .inl .refl
  | @tail b c _ hstep ih =>
      rcases hstep with hold | ⟨rfl, hfirst⟩
      · rcases ih with hway | ⟨hto, first, hfirst, hfrom⟩
        · exact .inl (hway.tail hold)
        · exact .inr ⟨hto, first, hfirst, hfrom.tail hold⟩
      · rcases ih with hway | ⟨_, first, hother, hfrom⟩
        · exact .inr ⟨hway, c, hfirst, .refl⟩
        · exact absurd hfrom (hnew first hother)

/-- New successors of a node that do not lead back to it make no loop. -/
theorem Loopless.insert {r : α → α → Prop} (h : Loopless r) {node : α} {new : α → Prop}
    (hnew : ∀ one, new one → ¬ReflTransGen r one node) :
    Loopless fun a b => r a b ∨ (a = node ∧ new b) := by
  intro one hloop
  obtain ⟨next, hstep, hback⟩ := TransGen.head'_iff.1 hloop
  rcases hstep with hold | ⟨rfl, hfirst⟩
  · rcases reflTransGen_insert hnew hback with hway | ⟨hto, first, hfirst, hfrom⟩
    · exact h one (TransGen.head' hold hway)
    · exact hnew first hfirst ((hfrom.tail hold).trans hto)
  · rcases reflTransGen_insert hnew hback with hway | ⟨hto, -⟩
    · exact hnew next hfirst hway
    · exact hnew next hfirst hto

end Papaia.Walk
