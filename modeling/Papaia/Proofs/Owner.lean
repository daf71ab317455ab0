/-
Module: Papaia.Proofs.Owner
Purpose: When the stack has one owner at a time: what a request has checked still holds when it
  starts its runner or queues its job, as long as nobody else starts what it has checked for.
Trusted boundary: none
Main exports: Owner, Free, Flight.passed, Foreseen, Lawful, Good, sound_step, owner_runs
-/
import Papaia.Stack.Requests
import Papaia.Lib.Runs

namespace Papaia.Stack

open Backup

/-! ### What is checked -/

/-- What owns the stack: a runner of a kind, or a job. -/
inductive Owner where
  | runner (kind : RunnerKind)
  | job
deriving DecidableEq, Repr

/-- What an act looks for before its request goes on. -/
def Act.sees : Act → Option Owner
  | whileRunning kind | whilePresent kind | clearFinished kind => some (.runner kind)
  | whileJob => some .job
  | clearFound _ | lookAgain _ _ | remove _ _ | run _ _ | enqueue _ _ _ => none

def awaited (acts : List Act) : List Owner :=
  acts.filterMap Act.sees

/-- What a request in flight has checked. -/
def Flight.passed (flight : Flight) : List Owner :=
  if flight.acts = [] then []
  else (awaited flight.request.acts).filter (· ∉ awaited flight.acts)

theorem Flight.mem_passed {flight : Flight} {owner : Owner} :
    owner ∈ flight.passed ↔ flight.acts ≠ [] ∧ owner ∈ awaited flight.request.acts ∧
      owner ∉ awaited flight.acts := by
  rw [passed]
  split
  next h => simp [h]
  next h => simp [h]

/-- No runner of the kind runs; none of the jobs that must have the stack for themselves is
active. -/
def Free (s : State) : Owner → Prop
  | .runner kind => ∀ runner ∈ s.docker, runner.kind = kind → runner.isRunning = false
  | .job => ∀ job ∈ s.jobs, job.isActive = true → job.action ∉ ownActions

/-! ### The law -/

/-- No other request in flight has checked for an owner. -/
def NobodyPassed (s : State) (i : Nat) (owner : Owner) : Prop :=
  ∀ (j : Nat) (other : Flight), s.flights[j]? = some other → j ≠ i → owner ∉ other.passed

/-- An act that does not come between what another request has checked and what it does, and that
finds no restore where a stack action begins, and no stack action where a restore does. -/
def Undisturbing (s : State) (i : Nat) : Act → Prop
  | .run kind _ => NobodyPassed s i (.runner kind) ∧
      (kind = .stack → Free s (.runner .restore)) ∧ (kind = .restore → Free s (.runner .stack))
  | .enqueue _ _ _ => NobodyPassed s i .job
  | _ => True

def Foreseen (s : State) : Event → Prop
  | .advance i => ∀ flight act rest, s.flights[i]? = some flight → flight.acts = act :: rest →
      Undisturbing s i act
  | _ => True

/-- The runners that run. -/
def State.running (s : State) : List Runner :=
  s.docker.filter Runner.isRunning

/-- What a step may do. -/
structure Lawful (s s' : State) : Prop where
  /-- A runner is started while no job is active that must have the stack for itself. -/
  starts : ∀ runner ∈ s'.docker, runner.isRunning = true → runner ∉ s.docker → Free s .job
  /-- Such a job is accepted while no restore and no upgrade runs. -/
  accepts : ∀ job, s'.jobs = s.jobs ++ [job] → job.action ∈ ownActions →
    Free s (.runner .restore) ∧ Free s (.runner .upgrade)

/-! ### The order of the acts -/

def Act.isCleaning : Act → Bool
  | lookAgain _ _ | remove _ _ => true
  | _ => false

/-- What a request has yet to do is what is left of its acts, after a removal it came to. -/
def Flight.InOrder (flight : Flight) : Prop :=
  ∃ cleaning left, flight.acts = cleaning ++ left ∧ (∀ act ∈ cleaning, act.isCleaning = true) ∧
    left <:+ flight.request.acts

theorem Flight.InOrder.suffix {flight : Flight} (h : flight.InOrder) {act : Act} {rest : List Act}
    (hacts : flight.acts = act :: rest) (hact : act.isCleaning = false) :
    act :: rest <:+ flight.request.acts := by
  obtain ⟨cleaning, left, heq, hcleaning, hleft⟩ := h
  cases cleaning with
  | nil => rwa [← hacts, heq]
  | cons first others =>
      rw [hacts, List.cons_append] at heq
      obtain ⟨rfl, -⟩ := List.cons.inj heq
      rw [hcleaning act List.mem_cons_self] at hact
      cases hact

/-- A request that goes on stays in order, also where it first removes a runner. -/
theorem Flight.InOrder.next {flight : Flight} (h : flight.InOrder) {act : Act} {rest : List Act}
    (hacts : flight.acts = act :: rest) : ({ flight with acts := rest } : Flight).InOrder := by
  obtain ⟨cleaning, left, heq, hcleaning, hleft⟩ := h
  cases cleaning with
  | nil =>
      rw [List.nil_append, hacts] at heq
      subst heq
      exact ⟨[], rest, rfl, by simp, (List.suffix_cons act rest).trans hleft⟩
  | cons first others =>
      rw [hacts, List.cons_append] at heq
      obtain ⟨-, rfl⟩ := List.cons.inj heq
      exact ⟨others, left, rfl, fun other hother => hcleaning other (List.mem_cons_of_mem _ hother),
        hleft⟩

theorem Flight.InOrder.clean {flight : Flight} {rest : List Act}
    (h : ({ flight with acts := rest } : Flight).InOrder) (kind : RunnerKind) (target : String) :
    ({ flight with acts := .lookAgain kind target :: .remove kind target :: rest } :
      Flight).InOrder := by
  obtain ⟨cleaning, left, heq, hcleaning, hleft⟩ := h
  refine ⟨.lookAgain kind target :: .remove kind target :: cleaning, left, ?_, ?_, hleft⟩
  · simp only at heq
    rw [heq]
    rfl
  · intro act hact
    rcases List.mem_cons.1 hact with rfl | hact
    · rfl
    · rcases List.mem_cons.1 hact with rfl | hact
      · rfl
      · exact hcleaning act hact

theorem inOrder_ended (flight : Flight) (refusal : Option Refusal) :
    ({ flight with acts := [], refusal := refusal } : Flight).InOrder :=
  ⟨[], [], rfl, by simp, List.nil_suffix⟩

/-- A runner is the last thing a request starts, once it has checked for the others: only a stack
action has not checked for restores, and only a restore not for stack actions. -/
theorem run_checked {flight : Flight} (h : flight.InOrder) {kind : RunnerKind} {target : String}
    {rest : List Act} (hacts : flight.acts = .run kind target :: rest) :
    rest = [] ∧ .job ∈ flight.passed ∧ ∀ other,
      .runner other ∈ flight.passed ∨ (kind = .stack ∧ other = .restore) ∨
        (kind = .restore ∧ other = .stack) := by
  have hsuffix := h.suffix hacts rfl
  cases hrequest : flight.request with
  | job => simp [hrequest, Request.acts, List.suffix_cons_iff] at hsuffix
  | acknowledge => simp [hrequest, Request.acts, List.suffix_cons_iff] at hsuffix
  | restore =>
      simp [hrequest, Request.acts, List.suffix_cons_iff] at hsuffix
      obtain ⟨⟨rfl, rfl⟩, rfl⟩ := hsuffix
      refine ⟨rfl, ?_, ?_⟩
      · simp [Flight.mem_passed, hacts, hrequest, Request.acts, awaited, Act.sees]
      · intro other
        cases other <;> simp [Flight.mem_passed, hacts, hrequest, Request.acts, awaited, Act.sees]
  | stackAction =>
      simp [hrequest, Request.acts, List.suffix_cons_iff] at hsuffix
      obtain ⟨⟨rfl, rfl⟩, rfl⟩ := hsuffix
      refine ⟨rfl, ?_, ?_⟩
      · simp [Flight.mem_passed, hacts, hrequest, Request.acts, awaited, Act.sees]
      · intro other
        cases other <;> simp [Flight.mem_passed, hacts, hrequest, Request.acts, awaited, Act.sees]
  | upgrade =>
      simp [hrequest, Request.acts, List.suffix_cons_iff] at hsuffix
      obtain ⟨⟨rfl, rfl⟩, rfl⟩ := hsuffix
      refine ⟨rfl, ?_, ?_⟩
      · simp [Flight.mem_passed, hacts, hrequest, Request.acts, awaited, Act.sees]
      · intro other
        cases other <;> simp [Flight.mem_passed, hacts, hrequest, Request.acts, awaited, Act.sees]

/-- A job is queued last, once the request has checked for restores and upgrades. -/
theorem enqueue_checked {flight : Flight} (h : flight.InOrder) {kind : JobRequest}
    {target user : String} {rest : List Act}
    (hacts : flight.acts = .enqueue kind target user :: rest) :
    rest = [] ∧ .runner .restore ∈ flight.passed ∧ .runner .upgrade ∈ flight.passed := by
  have hsuffix := h.suffix hacts rfl
  cases hrequest : flight.request with
  | job =>
      simp [hrequest, Request.acts, List.suffix_cons_iff] at hsuffix
      obtain ⟨⟨rfl, rfl, rfl⟩, rfl⟩ := hsuffix
      simp [Flight.mem_passed, hacts, hrequest, Request.acts, awaited, Act.sees]
  | restore => simp [hrequest, Request.acts, List.suffix_cons_iff] at hsuffix
  | stackAction => simp [hrequest, Request.acts, List.suffix_cons_iff] at hsuffix
  | upgrade => simp [hrequest, Request.acts, List.suffix_cons_iff] at hsuffix
  | acknowledge => simp [hrequest, Request.acts, List.suffix_cons_iff] at hsuffix

/-! ### What stays free -/

variable {s s' : State}

/-- An owner that is free stays free where no runner begins to run and no job is queued. -/
theorem Free.mono {owner : Owner} (h : Free s owner)
    (hdocker : ∀ runner ∈ s'.docker, runner.isRunning = true → runner ∈ s.docker)
    (hjobs : ∀ job ∈ s'.jobs, job.isActive = true → job.action ∈ ownActions →
      ∃ old ∈ s.jobs, old.isActive = true ∧ old.action = job.action) : Free s' owner := by
  cases owner with
  | runner kind =>
      intro runner hrunner hkind
      by_contra hrunning
      rw [Bool.not_eq_false] at hrunning
      have hold := h runner (hdocker runner hrunner hrunning) hkind
      rw [hrunning] at hold
      cases hold
  | job =>
      intro job hjob hactive hown
      obtain ⟨old, hold, holdActive, haction⟩ := hjobs job hjob hactive hown
      exact h old hold holdActive (haction ▸ hown)

theorem free_of_findRunner_none {kind : RunnerKind} (h : findRunner s.docker kind = none) :
    Free s (.runner kind) := by
  intro runner hrunner hkind
  simp only [findRunner] at h
  split at h
  · cases h
  next =>
    rw [List.getLast?_eq_none_iff] at h
    have hmem : runner ∈ s.docker.filter fun runner => runner.kind = kind :=
      List.mem_filter.2 ⟨hrunner, by simpa using hkind⟩
    rw [h] at hmem
    cases hmem

/-- A runner that has finished is found where none of its kind runs. -/
theorem free_of_findRunner_finished {kind : RunnerKind} {found : Runner}
    (h : findRunner s.docker kind = some found) (hfinished : found.isRunning = false) :
    Free s (.runner kind) := by
  intro runner hrunner hkind
  simp only [findRunner] at h
  split at h
  next running hfound =>
    obtain rfl := Option.some.inj h
    rw [List.find?_some hfound] at hfinished
    cases hfinished
  next hnone =>
    rw [List.find?_eq_none] at hnone
    have hmem : runner ∈ (s.docker.filter fun runner => runner.kind = kind).reverse := by
      rw [List.mem_reverse, List.mem_filter]
      exact ⟨hrunner, by simpa using hkind⟩
    simpa using hnone runner hmem

theorem free_of_activeJob_none (h : activeJob s.jobs = none) : Free s .job := by
  intro job hjob hactive
  have := List.find?_eq_none.1 h job hjob
  exact absurd hactive this

/-! ### The invariant -/

/-- At most one runner runs, the requests are in order, and what they have checked still holds. -/
structure Good (s : State) : Prop where
  alone : s.running.length ≤ 1
  order : ∀ (i : Nat) (flight : Flight), s.flights[i]? = some flight → flight.InOrder
  free : ∀ (i : Nat) (flight : Flight), s.flights[i]? = some flight → ∀ owner ∈ flight.passed, Free s owner

/-- One request takes a step, and the others keep what they have checked. -/
theorem good_set (h : Good s) {i : Nat} {next : Flight}
    (hset : s'.flights = s.flights.set i next) (halone : s'.running.length ≤ 1)
    (horder : next.InOrder) (hnext : ∀ owner ∈ next.passed, Free s' owner)
    (hothers : ∀ (j : Nat) (other : Flight), s.flights[j]? = some other → j ≠ i → ∀ owner ∈ other.passed,
      Free s' owner) : Good s' := by
  have hcases : ∀ (j : Nat) (other : Flight), s'.flights[j]? = some other →
      other = next ∨ (s.flights[j]? = some other ∧ j ≠ i) := by
    intro j other hother
    rw [hset, List.getElem?_set] at hother
    split at hother
    next heq =>
      left
      split at hother
      · exact (Option.some.inj hother).symm
      · cases hother
    next hne => exact .inr ⟨hother, fun heq => hne heq.symm⟩
  refine ⟨halone, ?_, ?_⟩
  · intro j other hother
    rcases hcases j other hother with rfl | ⟨hold, -⟩
    · exact horder
    · exact h.order j other hold
  · intro j other hother
    rcases hcases j other hother with rfl | ⟨hold, hne⟩
    · exact hnext
    · exact hothers j other hold hne

/-- A request goes on, and has checked what it has just looked for. -/
theorem good_goOn (h : Good s) {i : Nat} {flight : Flight} {act : Act} {rest acts : List Act}
    (hnow : s.flights[i]? = some flight) (hacts : flight.acts = act :: rest)
    (horder : ({ flight with acts := acts } : Flight).InOrder) (hrest : awaited acts = awaited rest)
    (hsees : ∀ owner, act.sees = some owner → Free s owner) :
    Good (s.goOn i flight acts) := by
  have hsame : ∀ owner, Free s owner → Free (s.goOn i flight acts) owner := by
    intro owner hfree
    exact hfree.mono (fun _ hrunner _ => hrunner) fun job hjob hactive _ => ⟨job, hjob, hactive, rfl⟩
  refine good_set h rfl h.alone horder ?_ ?_
  · intro owner howner
    obtain ⟨-, hrequest, hawaited⟩ := Flight.mem_passed.1 howner
    apply hsame
    simp only [hrest] at hrequest hawaited
    by_cases hact : act.sees = some owner
    · exact hsees owner hact
    · apply h.free i flight hnow owner
      refine Flight.mem_passed.2 ⟨by simp [hacts], hrequest, ?_⟩
      rw [hacts, awaited, List.filterMap_cons]
      cases hnone : act.sees with
      | none => exact hawaited
      | some other =>
          rw [hnone] at hact
          have hne : owner ≠ other := fun heq => hact (heq ▸ rfl)
          exact fun hmem => (List.mem_cons.1 hmem).elim hne hawaited
  · exact fun j other hother _ owner howner => hsame owner (h.free j other hother owner howner)

theorem good_refuse (h : Good s) {i : Nat} {flight : Flight} (refusal : Refusal) :
    Good (s.refuse i flight refusal) := by
  refine good_set h rfl h.alone (inOrder_ended flight _) ?_ ?_
  · intro owner howner
    exact absurd rfl (Flight.mem_passed.1 howner).1
  · intro j other hother _ owner howner
    exact (h.free j other hother owner howner).mono (fun _ hrunner _ => hrunner)
      fun job hjob hactive _ => ⟨job, hjob, hactive, rfl⟩

/-- Runners end, or are removed. -/
theorem good_fewer (h : Good s) {docker : List Runner}
    (halone : (docker.filter Runner.isRunning).length ≤ s.running.length)
    (hdocker : ∀ runner ∈ docker, runner.isRunning = true → runner ∈ s.docker) :
    Good { s with docker := docker } where
  alone := Nat.le_trans halone h.alone
  order := h.order
  free := fun i flight hflight owner howner => (h.free i flight hflight owner howner).mono hdocker
    fun job hjob hactive _ => ⟨job, hjob, hactive, rfl⟩

/-- A step that starts nothing. -/
theorem lawful_same (hdocker : ∀ runner ∈ s'.docker, runner.isRunning = true → runner ∈ s.docker)
    (hjobs : s'.jobs.length = s.jobs.length) : Lawful s s' where
  starts := fun runner hrunner hrunning hnew => absurd (hdocker runner hrunner hrunning) hnew
  accepts := by
    intro job heq
    have hlength := congrArg List.length heq
    rw [hjobs, List.length_append, List.length_singleton] at hlength
    omega

/-! ### The acts -/

theorem sound_check (h : Good s) {i : Nat} {flight : Flight} {act : Act} {rest acts : List Act}
    (hnow : s.flights[i]? = some flight) (hacts : flight.acts = act :: rest)
    (horder : ({ flight with acts := acts } : Flight).InOrder) (hrest : awaited acts = awaited rest)
    (hsees : ∀ owner, act.sees = some owner → Free s owner) :
    Good (s.goOn i flight acts) ∧ Lawful s (s.goOn i flight acts) :=
  ⟨good_goOn h hnow hacts horder hrest hsees, lawful_same (fun _ hrunner _ => hrunner) rfl⟩

theorem sound_refuse (h : Good s) {i : Nat} {flight : Flight} (refusal : Refusal) :
    Good (s.refuse i flight refusal) ∧ Lawful s (s.refuse i flight refusal) :=
  ⟨good_refuse h refusal, lawful_same (fun _ hrunner _ => hrunner) rfl⟩

/-- `docker run`: what the request has checked still holds. -/
theorem sound_run (h : Good s) {i : Nat} {flight : Flight} {kind : RunnerKind} {target : String}
    {rest : List Act} (hnow : s.flights[i]? = some flight)
    (hacts : flight.acts = .run kind target :: rest)
    (hundisturbing : Undisturbing s i (.run kind target)) :
    Good { s.goOn i flight rest with docker := s.docker ++ [⟨kind, target, true⟩] } ∧
      Lawful s { s.goOn i flight rest with docker := s.docker ++ [⟨kind, target, true⟩] } := by
  obtain ⟨rfl, hjob, hrunners⟩ := run_checked (h.order i flight hnow) hacts
  obtain ⟨hnobody, hstack, hrestore⟩ := hundisturbing
  have hfree : ∀ other, Free s (.runner other) := by
    intro other
    rcases hrunners other with hpassed | ⟨hkind, rfl⟩ | ⟨hkind, rfl⟩
    · exact h.free i flight hnow _ hpassed
    · exact hstack hkind
    · exact hrestore hkind
  have hnone : s.running = [] := by
    rw [State.running, List.filter_eq_nil_iff]
    intro runner hrunner
    simpa using hfree runner.kind runner hrunner rfl
  constructor
  · refine good_set h rfl ?_ (inOrder_ended flight _) ?_ ?_
    · rw [State.running, List.filter_append]
      rw [State.running] at hnone
      simp [hnone]
    · intro owner howner
      exact absurd rfl (Flight.mem_passed.1 howner).1
    · intro j other hother hne owner howner
      have hold := h.free j other hother owner howner
      cases owner with
      | job => exact hold
      | runner seen =>
          intro runner hrunner hseen
          rcases List.mem_append.1 hrunner with hrunner | hrunner
          · exact hold runner hrunner hseen
          · -- the new one is of a kind that no other request has checked for
            obtain rfl := List.mem_singleton.1 hrunner
            obtain rfl : kind = seen := hseen
            exact absurd howner (hnobody j other hother hne)
  · refine ⟨fun _ _ _ _ => h.free i flight hnow _ hjob, ?_⟩
    intro job heq
    have hlength := congrArg List.length heq
    rw [List.length_append, List.length_singleton] at hlength
    exact absurd hlength (Nat.ne_of_lt (Nat.lt_succ_self _))

/-- The job is queued: what the request has checked still holds. -/
theorem sound_enqueue (h : Good s) {i : Nat} {flight : Flight} {kind : JobRequest}
    {target user : String} {rest : List Act} (hnow : s.flights[i]? = some flight)
    (hacts : flight.acts = .enqueue kind target user :: rest)
    (hundisturbing : Undisturbing s i (.enqueue kind target user)) {job : Job} :
    Good { s.goOn i flight rest with jobs := s.jobs ++ [job] } ∧
      Lawful s { s.goOn i flight rest with jobs := s.jobs ++ [job] } := by
  obtain ⟨rfl, hrestore, hupgrade⟩ := enqueue_checked (h.order i flight hnow) hacts
  constructor
  · refine good_set h rfl h.alone (inOrder_ended flight _) ?_ ?_
    · intro owner howner
      exact absurd rfl (Flight.mem_passed.1 howner).1
    · intro j other hother hne owner howner
      have hold := h.free j other hother owner howner
      cases owner with
      | runner => exact hold
      | job => exact absurd howner (hundisturbing j other hother hne)
  · refine ⟨fun runner hrunner _ hnew => absurd hrunner hnew, fun _ _ _ => ⟨?_, ?_⟩⟩
    · exact h.free i flight hnow _ hrestore
    · exact h.free i flight hnow _ hupgrade

theorem sound_perform (h : Good s) {i : Nat} {flight : Flight} {act : Act} {rest : List Act}
    (hnow : s.flights[i]? = some flight) (hacts : flight.acts = act :: rest)
    (hundisturbing : Undisturbing s i act) :
    Good (perform s i flight rest act) ∧ Lawful s (perform s i flight rest act) := by
  have hnext := (h.order i flight hnow).next hacts
  cases act with
  | whileRunning kind =>
      simp only [perform]
      split
      next runner hfound =>
        split
        · exact sound_refuse h _
        next hfinished =>
          apply sound_check h hnow hacts hnext rfl
          rintro owner ⟨⟩
          exact free_of_findRunner_finished hfound (by simpa using hfinished)
      next hnone =>
        apply sound_check h hnow hacts hnext rfl
        rintro owner ⟨⟩
        exact free_of_findRunner_none hnone
  | whilePresent kind =>
      simp only [perform]
      split
      next runner hfound =>
        split
        · exact sound_refuse h _
        · exact sound_refuse h _
      next hnone =>
        apply sound_check h hnow hacts hnext rfl
        rintro owner ⟨⟩
        exact free_of_findRunner_none hnone
  | whileJob =>
      simp only [perform]
      split
      · exact sound_refuse h _
      next hnone =>
        apply sound_check h hnow hacts hnext rfl
        rintro owner ⟨⟩
        exact free_of_activeJob_none hnone
  | clearFinished kind =>
      simp only [perform]
      split
      next runner hfound =>
        split
        · exact sound_refuse h _
        next hfinished =>
          apply sound_check h hnow hacts (hnext.clean kind runner.target) rfl
          rintro owner ⟨⟩
          exact free_of_findRunner_finished hfound (by simpa using hfinished)
      next hnone =>
        apply sound_check h hnow hacts hnext rfl
        rintro owner ⟨⟩
        exact free_of_findRunner_none hnone
  | clearFound kind =>
      simp only [perform]
      split
      next runner hfound =>
        apply sound_check h hnow hacts (hnext.clean kind runner.target) rfl
        rintro owner ⟨⟩
      · exact sound_refuse h _
  | lookAgain kind target =>
      have hgone : Good (s.goOn i flight rest) ∧ Lawful s (s.goOn i flight rest) := by
        apply sound_check h hnow hacts hnext rfl
        rintro owner ⟨⟩
      simp only [perform]
      split
      · split
        · exact sound_refuse h _
        · exact hgone
      · exact hgone
  | remove kind target =>
      simp only [perform]
      split
      · have hsub : ∀ runner ∈ s.docker.filter fun runner =>
            !(runner.kind = kind && runner.target = target), runner ∈ s.docker :=
          fun runner hrunner => List.mem_of_mem_filter hrunner
        have hgone : Good (s.goOn i flight rest) := by
          apply good_goOn h hnow hacts hnext rfl
          rintro owner ⟨⟩
        refine ⟨good_fewer hgone ?_ fun runner hrunner _ => hsub runner hrunner,
          lawful_same (fun runner hrunner _ => hsub runner hrunner) rfl⟩
        exact (List.filter_sublist.filter _).length_le
      · exact sound_refuse h _
  | run kind target =>
      simp only [perform]
      split
      · exact sound_refuse h _
      · exact sound_run h hnow hacts hundisturbing
  | enqueue kind target user =>
      simp only [perform]
      split
      · exact sound_refuse h _
      · exact sound_enqueue h hnow hacts hundisturbing

/-! ### Every step -/

theorem moveFirst_active {source target : JobStatus} {jobs : List Job}
    (hsource : source = .queued ∨ source = .running) {job : Job}
    (hjob : job ∈ moveFirst source target jobs) (hactive : job.isActive = true) :
    ∃ old ∈ jobs, old.isActive = true ∧ old.action = job.action := by
  induction jobs with
  | nil => cases hjob
  | cons first rest ih =>
      rw [moveFirst] at hjob
      split at hjob
      next hfirst =>
        rcases List.mem_cons.1 hjob with rfl | hjob
        · refine ⟨first, List.mem_cons_self, ?_, rfl⟩
          rcases hsource with rfl | rfl <;> simp [Job.isActive, hfirst]
        · exact ⟨job, List.mem_cons_of_mem _ hjob, hactive, rfl⟩
      · rcases List.mem_cons.1 hjob with rfl | hjob
        · exact ⟨job, List.mem_cons_self, hactive, rfl⟩
        · obtain ⟨old, hold, hsame⟩ := ih hjob
          exact ⟨old, List.mem_cons_of_mem _ hold, hsame⟩

theorem work_active {succeeds : Bool} {jobs : List Job} {job : Job}
    (hjob : job ∈ work succeeds jobs) (hactive : job.isActive = true) :
    ∃ old ∈ jobs, old.isActive = true ∧ old.action = job.action := by
  rw [work] at hjob
  split at hjob
  · exact moveFirst_active (.inr rfl) hjob hactive
  · exact moveFirst_active (.inl rfl) hjob hactive

theorem length_moveFirst (source target : JobStatus) (jobs : List Job) :
    (moveFirst source target jobs).length = jobs.length := by
  induction jobs with
  | nil => rfl
  | cons first rest ih =>
      rw [moveFirst]
      split
      · rfl
      · rw [List.length_cons, List.length_cons, ih]

theorem length_work (succeeds : Bool) (jobs : List Job) :
    (work succeeds jobs).length = jobs.length := by
  rw [work]
  split
  · exact length_moveFirst _ _ _
  · exact length_moveFirst _ _ _

/-- The jobs change, and none that must have the stack for itself becomes active. -/
theorem good_jobs (h : Good s) {jobs : List Job}
    (hjobs : ∀ job ∈ jobs, job.isActive = true → job.action ∈ ownActions →
      ∃ old ∈ s.jobs, old.isActive = true ∧ old.action = job.action) :
    Good { s with jobs := jobs } where
  alone := h.alone
  order := h.order
  free := fun i flight hflight owner howner => (h.free i flight hflight owner howner).mono
    (fun _ hrunner _ => hrunner) hjobs

theorem sound_step (h : Good s) {e : Event} (hforeseen : Foreseen s e)
    (hstep : step s e = some s') : Good s' ∧ Lawful s s' := by
  cases e with
  | arrive request =>
      obtain rfl := Option.some.inj hstep
      refine ⟨⟨h.alone, ?_, ?_⟩, lawful_same (fun _ hrunner _ => hrunner) rfl⟩
      · intro i flight hflight
        rw [List.getElem?_append] at hflight
        split at hflight
        · exact h.order i flight hflight
        · obtain rfl := List.mem_singleton.1 (List.mem_of_getElem? hflight)
          exact ⟨[], request.acts, rfl, by simp, List.suffix_refl _⟩
      · intro i flight hflight owner howner
        rw [List.getElem?_append] at hflight
        split at hflight
        · exact h.free i flight hflight owner howner
        · obtain rfl := List.mem_singleton.1 (List.mem_of_getElem? hflight)
          obtain ⟨-, hmem, hnot⟩ := Flight.mem_passed.1 howner
          exact absurd hmem hnot
  | advance i =>
      simp only [step] at hstep
      split at hstep
      next flight hnow =>
        split at hstep
        next act rest hacts =>
          obtain rfl := Option.some.inj hstep
          exact sound_perform h hnow hacts (hforeseen flight act rest hnow hacts)
        · cases hstep
      · cases hstep
  | runnerEnds kind target =>
      obtain rfl := Option.some.inj hstep
      have hended : ∀ runner ∈ s.docker.map fun runner =>
          if runner.kind = kind ∧ runner.target = target then { runner with isRunning := false }
          else runner, runner.isRunning = true → runner ∈ s.docker := by
        intro runner hrunner hrunning
        obtain ⟨old, hold, rfl⟩ := List.mem_map.1 hrunner
        split at hrunning
        · cases hrunning
        next hother => rwa [if_neg hother]
      refine ⟨good_fewer h ?_ hended, lawful_same hended rfl⟩
      rw [State.running, ← List.countP_eq_length_filter, ← List.countP_eq_length_filter,
        List.countP_map]
      apply List.countP_mono_left
      intro runner _ hrunning
      simp only [Function.comp_apply] at hrunning
      split at hrunning
      · cases hrunning
      · exact hrunning
  | works succeeds =>
      obtain rfl := Option.some.inj hstep
      exact ⟨good_jobs h fun job hjob hactive _ => work_active hjob hactive,
        lawful_same (fun _ hrunner _ => hrunner) (length_work succeeds s.jobs)⟩
  | otherJob job =>
      simp only [step] at hstep
      split at hstep
      · cases hstep
      next hother =>
        obtain rfl := Option.some.inj hstep
        refine ⟨good_jobs h ?_, fun runner hrunner _ hnew => absurd hrunner hnew, ?_⟩
        · intro queued hqueued hactive hown
          rcases List.mem_append.1 hqueued with hqueued | hqueued
          · exact ⟨queued, hqueued, hactive, rfl⟩
          · rw [List.mem_singleton.1 hqueued] at hown
            exact absurd hown hother
        · intro queued heq hown
          obtain rfl : job = queued := by simpa using heq
          exact absurd hown hother

/-! ### Runs -/

/-- Over every run of requests, runners and jobs in which nobody starts what another request has
already checked for, the stack has one owner at a time. -/
theorem owner_runs {start s : State} (halone : start.running.length ≤ 1)
    (hidle : start.flights = []) (hrun : Runs.Reaches step Foreseen start s) :
    s.running.length ≤ 1 ∧ ∀ e s', Foreseen s e → step s e = some s' → Lawful s s' := by
  have hgood : Good s := by
    apply hrun.invariant
    · exact ⟨halone, by simp [hidle], by simp [hidle]⟩
    · exact fun s e s' hs hforeseen hstep => (sound_step hs hforeseen hstep).1
  exact ⟨hgood.alone, fun e s' hforeseen hstep => (sound_step hgood hforeseen hstep).2⟩

def nothing : State :=
  ⟨[], [], []⟩

/-- A restore is asked for, finds nothing, and starts. -/
def restoreEvents : List Event :=
  [.arrive (.restore "20260105-020000"), .advance 0, .advance 0, .advance 0, .advance 0]

/-- The state a list of events leads to. -/
def afterEvents (events : List Event) : State :=
  (Runs.replay step nothing events).getD nothing

/-- A request that is alone disturbs nobody. -/
theorem foreseen_alone {s : State} {flight : Flight} (hflights : s.flights = [flight])
    (hfree : ∀ kind, Free s (.runner kind)) : Foreseen s (.advance 0) := by
  have hnobody : ∀ owner, NobodyPassed s 0 owner := by
    intro owner j other hother hne
    rw [hflights, List.getElem?_cons, if_neg hne] at hother
    cases hother
  intro other act rest hother hacts
  cases act with
  | run kind target => exact ⟨hnobody _, fun _ => hfree _, fun _ => hfree _⟩
  | enqueue kind target user => exact hnobody _
  | whileRunning | whilePresent | whileJob => trivial
  | clearFinished | clearFound | lookAgain | remove => trivial

theorem restoreEvents_foreseen : Runs.Permits step Foreseen nothing restoreEvents := by
  have hnone : ∀ s : State, s.docker = [] → ∀ kind, Free s (.runner kind) := by
    intro s hdocker kind runner hrunner
    rw [hdocker] at hrunner
    cases hrunner
  refine .cons trivial rfl (.cons ?_ rfl (.cons ?_ rfl (.cons ?_ rfl (.cons ?_ rfl trivial))))
  all_goals exact foreseen_alone rfl (hnone _ rfl)

theorem owner_runs_restoreEvents :
    (afterEvents restoreEvents).running.length ≤ 1 ∧
      ∀ e s', Foreseen (afterEvents restoreEvents) e →
        step (afterEvents restoreEvents) e = some s' → Lawful (afterEvents restoreEvents) s' :=
  owner_runs (Nat.zero_le _) rfl (Runs.reaches_of_replay restoreEvents_foreseen rfl)

/-- While the restore runs, a stack action is asked for, and starts. -/
def stackEvents : List Event :=
  restoreEvents ++ [.arrive (.stackAction "restart"), .advance 1, .advance 1, .advance 1,
    .advance 1]

/-- A stack action is started while a restore runs. -/
theorem stack_started_during_restore :
    ¬∀ start s : State, start.running.length ≤ 1 → start.flights = [] →
      Runs.Reaches step (fun _ _ => True) start s →
      s.running.length ≤ 1 ∧ ∀ e s', step s e = some s' → Lawful s s' := by
  intro h
  obtain ⟨halone, -⟩ := h nothing (afterEvents stackEvents) (Nat.zero_le _) rfl
    (Runs.reaches_of_replay (Runs.permits_all _ stackEvents) rfl)
  exact absurd halone (by decide)

end Papaia.Stack
