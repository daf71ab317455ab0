/-
Module: Papaia.Proofs.Doctor
Purpose: When the readers of `doctor`'s output end without an exception: exactly when the numbers
  they convert have a float and those they print have few enough digits.  The rows have the core's
  own states, the verdict is the worst of them, and no other check matters.
Trusted boundary: Documented (a report that is dumped is loaded again)
Main exports: ReportFits, UsageFits, Answers, Verdicts, SameChecks, doctor_reads
-/
import Papaia.Lib.Paired
import Mathlib.Data.Nat.Cast.Order.Field
import Papaia.Host.DockerUsage

namespace Papaia.Host

open Text Binary64

/-! ### Computations that return -/

section Returns

variable {α β : Type}

@[simp] theorem returns_ok {a : α} : Returns (.ok a) :=
  ⟨a, rfl⟩

@[simp] theorem not_returns_error {raised : Raised} : ¬ Returns (.error raised : Except Raised α) := by
  rintro ⟨a, h⟩
  cases h

@[simp] theorem returns_pure {a : α} : Returns (pure a) :=
  ⟨a, rfl⟩

@[simp] theorem returns_map {x : Except Raised α} {f : α → β} : Returns (x.map f) ↔ Returns x := by
  cases x with
  | error raised => simp [Except.map]
  | ok a => simp [Except.map]

/-- A step whose result has no say in whether the rest returns. -/
theorem returns_bind {x : Except Raised α} {f : α → Except Raised β} {rest : Prop}
    (h : ∀ a, x = .ok a → (Returns (f a) ↔ rest)) : Returns (x >>= f) ↔ Returns x ∧ rest := by
  cases x with
  | error raised => simp [Bind.bind, Except.bind]
  | ok a => simp [Bind.bind, Except.bind, h a rfl]

/-- The last step. -/
theorem returns_last {x : Except Raised α} {f : α → β} :
    Returns (x >>= fun a => pure (f a)) ↔ Returns x :=
  (returns_bind fun _ _ => iff_of_true returns_pure trivial).trans (and_iff_left trivial)

theorem returns_ite {c : Prop} [Decidable c] {a : α} {raised : Raised} :
    Returns (if c then .ok a else .error raised) ↔ c := by
  split
  next h => simp [h]
  next h => simp [h]

end Returns

/-! ### Numbers -/

/-- A whole number that has a float. -/
def Fits (number : Option Int) : Prop :=
  ∀ n ∈ number, ¬ Overflows (n : Rat)

instance (number : Option Int) : Decidable (Fits number) :=
  inferInstanceAs (Decidable (∀ n ∈ number, _))

@[simp] theorem returns_toFloat {n : Int} : Returns (toFloat n) ↔ ¬ Overflows (n : Rat) := by
  rw [toFloat, checkedFloat]
  split
  next h => simp [h]
  next h => simp [h]

@[simp] theorem returns_formatBytes {n : Int} : Returns (formatBytes n) ↔ ¬ Overflows (n : Rat) := by
  rw [formatBytes, returns_map, returns_toFloat]

@[simp] theorem returns_textOf {n : Int} : Returns (textOf n) ↔ printableInt n = true :=
  returns_ite

@[simp] theorem returns_number? {v : Val} : Returns (number? v) ↔ Fits (int? v) := by
  cases v with
  | scalar s => cases s <;> simp [number?, int?, Fits]
  | list items => simp [number?, int?, Fits]
  | set items => simp [number?, int?, Fits]
  | map entries => simp [number?, int?, Fits]

theorem returns_sizeOrNothing {size : Option Int} : Returns (sizeOrNothing size) ↔ Fits size := by
  cases size <;> simp [sizeOrNothing, Fits]

/-- Dividing by a whole number makes nothing larger. -/
theorem not_overflows_div {n d : Int} (hd : d ≠ 0) (h : ¬ Overflows (n : Rat)) :
    ¬ Overflows ((n : Rat) / d) := by
  have hn : |(n : Rat)| < overflowBound := not_le.1 h
  apply not_le.2
  refine lt_of_le_of_lt ?_ hn
  rw [abs_div]
  apply div_le_self (abs_nonneg _)
  exact_mod_cast Int.one_le_abs hd

/-- Cutting off the fraction makes nothing larger. -/
theorem not_overflows_truncated {q : Rat} (h : ¬ Overflows q) :
    ¬ Overflows ((q.num.tdiv q.den : Int) : Rat) := by
  have hq : |q| < overflowBound := not_le.1 h
  apply not_le.2
  refine lt_of_le_of_lt ?_ hq
  have habs : |((q.num.tdiv q.den : Int) : Rat)| = ((q.num.natAbs / q.den : Nat) : Rat) := by
    rw [← Int.cast_abs, ← Int.natCast_natAbs, Int.natAbs_tdiv, Int.natAbs_natCast, Int.cast_natCast]
    rfl
  have hsize : |q| = (q.num.natAbs : Rat) / q.den := by
    conv_lhs => rw [← Rat.num_div_den q]
    rw [abs_div, ← Int.cast_abs, ← Int.natCast_natAbs, Int.cast_natCast, Nat.abs_cast]
  rw [habs, hsize]
  exact Nat.cast_div_le

/-! ### Rows -/

/-- A row whose texts can all be made. -/
def RowAnswers (row : HostCheck) : Prop :=
  Returns row.usedPercent ∧ Returns row.freeText ∧ Returns row.totalText

theorem rowAnswers_iff {row : HostCheck} :
    RowAnswers row ↔ Fits row.freeBytes ∧ Fits row.totalBytes := by
  rw [RowAnswers, HostCheck.freeText, HostCheck.totalText, returns_sizeOrNothing,
    returns_sizeOrNothing]
  constructor
  · exact And.right
  · rintro ⟨hfree, htotal⟩
    refine ⟨?_, hfree, htotal⟩
    unfold HostCheck.usedPercent
    split
    next => exact returns_ok
    next free total _ hfreeBytes _ =>
      split
      next => exact returns_ok
      next hzero =>
        have hshare := not_overflows_div hzero (hfree free hfreeBytes)
        rw [returns_map, checkedFloat, if_neg hshare]
        exact returns_ok
    next => exact returns_ok

theorem rowAnswers_of_none {row : HostCheck} (hfree : row.freeBytes = none)
    (htotal : row.totalBytes = none) : RowAnswers row := by
  rw [rowAnswers_iff, hfree, htotal]
  exact ⟨nofun, nofun⟩

/-- A reader that returns, with rows whose texts can all be made. -/
def Answers (computed : Except Raised HostHealth) : Prop :=
  ∃ health, computed = .ok health ∧ ∀ row ∈ health.checks, RowAnswers row

/-! ### Resources -/

/-- What the reading of the memory converts. -/
def MemoryFits (details : Mapping) : Prop :=
  Fits (int? (details.getD "used_percent")) ∧
  (∀ total ∈ int? (details.getD "total_bytes"), ¬ Overflows (total : Rat) ∧
    Fits (int? (details.getD "available_bytes"))) ∧
  ∀ total ∈ int? (details.getD "swap_total_bytes"),
    ∀ used ∈ int? (details.getD "swap_used_bytes"), total ≠ 0 →
      ¬ Overflows (used : Rat) ∧ ¬ Overflows (total : Rat)

/-- What the reading of the CPU converts and prints. -/
def CpuFits (details : Mapping) : Prop :=
  (∀ key ∈ ["load1", "load5", "load15", "load_per_core"], Fits (int? (details.getD key))) ∧
  ∀ cores ∈ int? (details.getD "cores"), printableInt cores = true

/-- A number of MiB that has a number of bytes. -/
def MibFits : PyFloat → Prop
  | .finite q => ¬ Overflows (q * 1048576)
  | _ => False

/-- A value that `_number` takes for a number. -/
def asFloat : Val → Option PyFloat
  | .int i => some (.finite (nearest i))
  | .float f => some f
  | _ => none

/-- What the reading of one GPU converts and prints. -/
def GpuFits (position : Nat) (gpu : Mapping) : Prop :=
  (∀ key ∈ ["memory_used_mib", "memory_total_mib", "vram_percent", "utilization_percent",
      "temperature_c"], Fits (int? (gpu.getD key))) ∧
  (∀ used ∈ asFloat (gpu.getD "memory_used_mib"),
    ∀ total ∈ asFloat (gpu.getD "memory_total_mib"), MibFits used ∧ MibFits total) ∧
  printableInt ((int? (gpu.getD "index")).getD position) = true

/-- What the readings of some GPUs convert and print. -/
def GpusFit : Nat → List Mapping → Prop
  | _, [] => True
  | position, gpu :: rest => GpuFits position gpu ∧ GpusFit (position + 1) rest

theorem returns_memoryMeasure {total available : Option Int} {summary : String} :
    Returns (memoryMeasure total available summary) ↔
      ∀ n ∈ total, ¬ Overflows (n : Rat) ∧ Fits available := by
  cases total with
  | none => simp [memoryMeasure]
  | some total =>
      cases available with
      | none => simp [memoryMeasure, Fits]
      | some available =>
          rw [memoryMeasure, returns_bind fun _ _ => returns_last]
          simp [Fits, and_comm]

theorem returns_swapText {total used : Option Int} :
    Returns (swapText total used) ↔ ∀ n ∈ total, ∀ m ∈ used, n ≠ 0 →
      ¬ Overflows (m : Rat) ∧ ¬ Overflows (n : Rat) := by
  cases total with
  | none => simp [swapText]
  | some total =>
      cases used with
      | none => simp [swapText]
      | some used =>
          rw [swapText]
          split
          next hzero => simp [hzero]
          next hzero =>
          rw [returns_bind fun _ _ => returns_last]
          simp [hzero]

theorem returns_parseMemory {check : Mapping} {state : HostState} :
    Returns (parseMemory check state) ↔ MemoryFits (detailsOf check) := by
  rw [parseMemory, returns_bind fun _ _ => returns_bind fun _ _ => returns_last, returns_number?,
    returns_memoryMeasure, returns_swapText]
  rfl

theorem returns_coresText {cores : Option Int} :
    Returns (coresText cores) ↔ ∀ n ∈ cores, printableInt n = true := by
  cases cores <;> simp [coresText]

theorem returns_parseCpu {check : Mapping} {state : HostState} :
    Returns (parseCpu check state) ↔ CpuFits (detailsOf check) := by
  rw [parseCpu, returns_bind fun _ _ => returns_bind fun _ _ => returns_bind fun _ _ =>
    returns_bind fun _ _ => returns_last]
  simp only [returns_number?, returns_coresText, CpuFits, List.forall_mem_cons,
    List.not_mem_nil, false_implies, implies_true, and_true, and_assoc]

/-- The text of a number of MiB; cut to a whole number of bytes it still has a float. -/
theorem returns_mibText {mib : PyFloat} : Returns (mibText mib) ↔ MibFits mib := by
  cases mib with
  | nan => simp [mibText, times, truncate, MibFits, Bind.bind, Except.bind]
  | infinite negative => simp [mibText, times, truncate, MibFits, Bind.bind, Except.bind]
  | finite q =>
      rw [mibText, times, ofExact, MibFits]
      split
      next h => simp [truncate, Bind.bind, Except.bind, h]
      next h =>
        have hbytes := not_overflows_truncated (not_overflows_nearest h)
        simp only [truncate, Bind.bind, Except.bind, returns_formatBytes]
        exact iff_of_true hbytes h

theorem returns_vramMeasure {used total : Option PyFloat} :
    Returns (vramMeasure used total) ↔
      ∀ one ∈ used, ∀ other ∈ total, MibFits one ∧ MibFits other := by
  cases used with
  | none => simp [vramMeasure]
  | some used =>
      cases total with
      | none => simp [vramMeasure]
      | some total =>
          rw [vramMeasure, returns_bind fun _ _ => returns_last]
          simp [returns_mibText]

theorem number?_eq_ok {v : Val} {number : Option PyFloat} (h : number? v = .ok number) :
    number = asFloat v := by
  unfold number? at h
  split at h
  next i =>
    rw [toFloat, checkedFloat] at h
    split at h
    next => cases h
    next => exact (Except.ok.inj h).symm
  next => exact (Except.ok.inj h).symm
  next hint hfloat =>
    rw [← Except.ok.inj h]
    unfold asFloat
    split
    next i => exact absurd rfl (hint i)
    next f => exact absurd rfl (hfloat f)
    next => rfl

theorem returns_gpuRow {state : HostState} {summary : String} {position : Nat} {gpu : Mapping} :
    Returns (gpuRow state summary position gpu) ↔ GpuFits position gpu := by
  have hused : ∀ used total, number? (gpu.getD "memory_used_mib") = .ok used →
      number? (gpu.getD "memory_total_mib") = .ok total →
      (Returns (vramMeasure used total) ↔ ∀ one ∈ asFloat (gpu.getD "memory_used_mib"),
        ∀ other ∈ asFloat (gpu.getD "memory_total_mib"), MibFits one ∧ MibFits other) := by
    intro used total hused htotal
    rw [returns_vramMeasure, number?_eq_ok hused, number?_eq_ok htotal]
  rw [gpuRow, returns_bind fun used husedRead => returns_bind fun total htotalRead =>
    returns_bind fun _ _ => returns_bind fun _ _ => returns_bind fun _ _ =>
    (returns_bind fun _ _ => returns_last).trans
      (and_congr_left' (hused used total husedRead htotalRead))]
  simp only [returns_number?, returns_textOf, GpuFits, List.forall_mem_cons,
    List.not_mem_nil, false_implies, implies_true, and_true, and_assoc]

theorem returns_gpuRows {state : HostState} {summary : String} {position : Nat}
    {devices : List Mapping} :
    Returns (gpuRows state summary position devices) ↔ GpusFit position devices := by
  induction devices generalizing position with
  | nil => simp [gpuRows, GpusFit]
  | cons gpu rest ih =>
      rw [gpuRows, returns_bind fun _ _ => returns_last, returns_gpuRow, ih]
      rfl

theorem returns_parseGpu {check : Mapping} {state : HostState} :
    Returns (parseGpu check state) ↔ GpusFit 0 (gpuDevices (detailsOf check)) := by
  unfold parseGpu
  dsimp only
  split
  next h => simp [h, GpusFit]
  next => rw [returns_gpuRows]

theorem returns_parseClock {check : Mapping} {state : HostState} :
    Returns (parseClock check state) :=
  returns_ok

/-- A check that has a verdict. -/
def Judged (check : Mapping) : Prop :=
  stateOf (check.getD "status") ≠ .unknown

/-- What the readings of the resources convert and print. -/
structure ResourcesFit (byName : String → Option Mapping) : Prop where
  memory : ∀ check ∈ byName "memory", Judged check → MemoryFits (detailsOf check)
  cpu : ∀ check ∈ byName "cpu", Judged check → CpuFits (detailsOf check)
  gpu : ∀ check ∈ byName "gpu", Judged check → GpusFit 0 (gpuDevices (detailsOf check))

theorem returns_resourceRowsOf {byName : String → Option Mapping} {resource : ResourceCheck} :
    Returns (resourceRowsOf byName resource) ↔
      ∀ check ∈ byName resource.name, Judged check →
        Returns (resource.parse check (stateOf (check.getD "status"))) := by
  unfold resourceRowsOf
  cases byName resource.name with
  | none => simp
  | some check =>
      simp only [Option.mem_def, Option.some.injEq, forall_eq', Judged]
      split
      next hunknown =>
        refine iff_of_true ?_ fun hjudged => absurd hunknown hjudged
        split <;> exact returns_ok
      next hjudged => exact ⟨fun h _ => h, fun h => h hjudged⟩

theorem returns_resourceRowsFrom {byName : String → Option Mapping}
    {resources : List ResourceCheck} :
    Returns (resourceRowsFrom byName resources) ↔
      ∀ resource ∈ resources, Returns (resourceRowsOf byName resource) := by
  induction resources with
  | nil => simp [resourceRowsFrom]
  | cons resource rest ih =>
      rw [resourceRowsFrom, returns_bind fun _ _ => returns_last, ih, List.forall_mem_cons]

theorem returns_resourceRows {byName : String → Option Mapping} :
    Returns (resourceRows byName) ↔ ResourcesFit byName := by
  rw [resourceRows, returns_resourceRowsFrom, resourceChecks]
  simp only [List.forall_mem_cons, List.not_mem_nil, false_implies, implies_true, and_true,
    returns_resourceRowsOf, returns_parseMemory, returns_parseCpu, returns_parseGpu,
    returns_parseClock]
  constructor
  · rintro ⟨hmemory, hcpu, hgpu⟩
    exact ⟨hmemory, hcpu, hgpu⟩
  · intro h
    exact ⟨h.memory, h.cpu, h.gpu⟩

/-- A row of a resource: the check it was made of. -/
structure ResourceRow (byName : String → Option Mapping) (row : HostCheck) : Prop where
  sizes : row.freeBytes = none ∧ row.totalBytes = none
  verdict : ∃ resource ∈ resourceChecks, ∃ check, byName resource.name = some check ∧
    row.kind = resource.kind ∧ row.state = stateOf (check.getD "status")

/-- The rows a parser makes of a check: no sizes, its own kind, and the state it was given. -/
def Plain (kind : String) (state : HostState) (rows : List HostCheck) : Prop :=
  ∀ row ∈ rows, row.freeBytes = none ∧ row.totalBytes = none ∧ row.kind = kind ∧ row.state = state

theorem plain_parseMemory {check : Mapping} {state : HostState} {rows : List HostCheck}
    (h : parseMemory check state = .ok rows) : Plain "memory" state rows := by
  unfold parseMemory at h
  obtain ⟨used, -, h⟩ := Paired.bind_eq_ok.1 h
  obtain ⟨measure, -, h⟩ := Paired.bind_eq_ok.1 h
  obtain ⟨swap, -, h⟩ := Paired.bind_eq_ok.1 h
  obtain rfl := Except.ok.inj h
  intro row hrow
  obtain rfl := List.mem_singleton.1 hrow
  exact ⟨rfl, rfl, rfl, rfl⟩

theorem plain_parseCpu {check : Mapping} {state : HostState} {rows : List HostCheck}
    (h : parseCpu check state = .ok rows) : Plain "cpu" state rows := by
  unfold parseCpu at h
  obtain ⟨load1, -, h⟩ := Paired.bind_eq_ok.1 h
  obtain ⟨load5, -, h⟩ := Paired.bind_eq_ok.1 h
  obtain ⟨load15, -, h⟩ := Paired.bind_eq_ok.1 h
  obtain ⟨perCore, -, h⟩ := Paired.bind_eq_ok.1 h
  obtain ⟨cores, -, h⟩ := Paired.bind_eq_ok.1 h
  obtain rfl := Except.ok.inj h
  intro row hrow
  obtain rfl := List.mem_singleton.1 hrow
  exact ⟨rfl, rfl, rfl, rfl⟩

theorem plain_gpuRow {state : HostState} {summary : String} {position : Nat} {gpu : Mapping}
    {row : HostCheck} (h : gpuRow state summary position gpu = .ok row) :
    row.freeBytes = none ∧ row.totalBytes = none ∧ row.kind = "gpu" ∧ row.state = state := by
  unfold gpuRow at h
  obtain ⟨used, -, h⟩ := Paired.bind_eq_ok.1 h
  obtain ⟨total, -, h⟩ := Paired.bind_eq_ok.1 h
  obtain ⟨vram, -, h⟩ := Paired.bind_eq_ok.1 h
  obtain ⟨util, -, h⟩ := Paired.bind_eq_ok.1 h
  obtain ⟨temperature, -, h⟩ := Paired.bind_eq_ok.1 h
  obtain ⟨measure, -, h⟩ := Paired.bind_eq_ok.1 h
  obtain ⟨numberText, -, h⟩ := Paired.bind_eq_ok.1 h
  obtain rfl := Except.ok.inj h
  exact ⟨rfl, rfl, rfl, rfl⟩

theorem plain_gpuRows {state : HostState} {summary : String} {position : Nat}
    {devices : List Mapping} {rows : List HostCheck}
    (h : gpuRows state summary position devices = .ok rows) : Plain "gpu" state rows := by
  induction devices generalizing position rows with
  | nil =>
      obtain rfl := Except.ok.inj h
      exact List.forall_mem_nil _
  | cons gpu rest ih =>
      unfold gpuRows at h
      obtain ⟨row, hrow, h⟩ := Paired.bind_eq_ok.1 h
      obtain ⟨more, hmore, h⟩ := Paired.bind_eq_ok.1 h
      obtain rfl := Except.ok.inj h
      exact List.forall_mem_cons.2 ⟨plain_gpuRow hrow, ih hmore⟩

theorem plain_parseGpu {check : Mapping} {state : HostState} {rows : List HostCheck}
    (h : parseGpu check state = .ok rows) : Plain "gpu" state rows := by
  unfold parseGpu at h
  dsimp only at h
  split at h
  next =>
    obtain rfl := Except.ok.inj h
    intro row hrow
    obtain rfl := List.mem_singleton.1 hrow
    exact ⟨rfl, rfl, rfl, rfl⟩
  next => exact plain_gpuRows h

theorem plain_parseClock {check : Mapping} {state : HostState} {rows : List HostCheck}
    (h : parseClock check state = .ok rows) : Plain "clock" state rows := by
  obtain rfl := Except.ok.inj h
  intro row hrow
  obtain rfl := List.mem_singleton.1 hrow
  exact ⟨rfl, rfl, rfl, rfl⟩

/-- Every parser makes such rows. -/
theorem plain_parse {resource : ResourceCheck} (hresource : resource ∈ resourceChecks)
    {check : Mapping} {state : HostState} {rows : List HostCheck}
    (h : resource.parse check state = .ok rows) : Plain resource.kind state rows := by
  simp only [resourceChecks, List.mem_cons, List.not_mem_nil, or_false] at hresource
  rcases hresource with rfl | rfl | rfl | rfl
  · exact plain_parseMemory h
  · exact plain_parseCpu h
  · exact plain_parseGpu h
  · exact plain_parseClock h

theorem plain_resourceRowsOf {byName : String → Option Mapping} {resource : ResourceCheck}
    (hresource : resource ∈ resourceChecks) {rows : List HostCheck}
    (h : resourceRowsOf byName resource = .ok rows) : ∀ row ∈ rows, ResourceRow byName row := by
  unfold resourceRowsOf at h
  cases hcheck : byName resource.name with
  | none =>
      rw [hcheck] at h
      obtain rfl := Except.ok.inj h
      exact List.forall_mem_nil _
  | some check =>
      simp only [hcheck] at h
      by_cases hunknown : stateOf (check.getD "status") = .unknown
      · rw [if_pos hunknown] at h
        split at h
        next =>
          obtain rfl := Except.ok.inj h
          exact List.forall_mem_nil _
        next =>
          obtain rfl := Except.ok.inj h
          intro row hrow
          rw [List.mem_singleton.1 hrow]
          exact ⟨⟨rfl, rfl⟩, resource, hresource, check, hcheck, rfl, hunknown.symm⟩
      · rw [if_neg hunknown] at h
        intro row hrow
        obtain ⟨hfree, htotal, hkind, hstate⟩ := plain_parse hresource h row hrow
        exact ⟨⟨hfree, htotal⟩, resource, hresource, check, hcheck, hkind, hstate⟩

theorem resourceRow_of_mem {byName : String → Option Mapping} {rows : List HostCheck}
    (h : resourceRows byName = .ok rows) : ∀ row ∈ rows, ResourceRow byName row := by
  have hall : ∀ resources : List ResourceCheck, (∀ resource ∈ resources, resource ∈ resourceChecks) →
      ∀ rows, resourceRowsFrom byName resources = .ok rows → ∀ row ∈ rows, ResourceRow byName row := by
    intro resources
    induction resources with
    | nil =>
        intro _ rows h
        obtain rfl := Except.ok.inj h
        exact List.forall_mem_nil _
    | cons resource rest ih =>
        intro hmem rows h
        unfold resourceRowsFrom at h
        obtain ⟨first, hfirst, h⟩ := Paired.bind_eq_ok.1 h
        obtain ⟨more, hmore, h⟩ := Paired.bind_eq_ok.1 h
        obtain rfl := Except.ok.inj h
        obtain ⟨hresource, hrest⟩ := List.forall_mem_cons.1 hmem
        intro row hrow
        rcases List.mem_append.1 hrow with hrow | hrow
        · exact plain_resourceRowsOf hresource hfirst row hrow
        · exact ih hrest more hmore row hrow
  exact hall resourceChecks (fun _ h => h) rows h

/-! ### Disks and certificates -/

theorem returns_rowsFrom {parse : Val → Except Raised (Option HostCheck)} {entries : List Val} :
    Returns (rowsFrom parse entries) ↔ ∀ entry ∈ entries, Returns (parse entry) := by
  induction entries with
  | nil => simp [rowsFrom]
  | cons entry rest ih =>
      rw [rowsFrom, returns_bind fun _ _ => returns_last, ih, List.forall_mem_cons]

theorem mem_rowsFrom {parse : Val → Except Raised (Option HostCheck)} {entries : List Val}
    {rows : List HostCheck} (h : rowsFrom parse entries = .ok rows) {row : HostCheck} :
    row ∈ rows ↔ ∃ entry ∈ entries, parse entry = .ok (some row) := by
  induction entries generalizing rows with
  | nil =>
      obtain rfl := Except.ok.inj h
      simp
  | cons entry rest ih =>
      unfold rowsFrom at h
      obtain ⟨first, hfirst, h⟩ := Paired.bind_eq_ok.1 h
      obtain ⟨more, hmore, h⟩ := Paired.bind_eq_ok.1 h
      obtain rfl := Except.ok.inj h
      rw [List.mem_append, ih hmore, List.exists_mem_cons_iff, hfirst]
      simp

variable (pkg : DoctorPackage)

/-- What the reading of a disk converts and prints. -/
def DiskFits (entry : Val) : Prop :=
  ∀ disk ∈ entry.mapping?, (filledText (disk.getD "label")).isSome →
    printable ((disk.get? "path").getD (.str "")) = true ∧
      Fits (int? (disk.getD "free_bytes")) ∧ Fits (int? (disk.getD "total_bytes"))

/-- What the reading of a certificate prints. -/
def CertFits (entry : Val) : Prop :=
  ∀ cert ∈ entry.mapping?, (filledText (cert.getD "path")).isSome →
    printable ((cert.get? "reason").getD (.str "")) = true

/-- A row of a disk: the entry it was made of. -/
def DiskRow (entry : Val) (row : HostCheck) : Prop :=
  ∃ disk, entry.mapping? = some disk ∧ filledText (disk.getD "label") = some row.key ∧
    row.kind = "disk" ∧ row.state = stateOf (disk.getD "status") ∧
      row.freeBytes = int? (disk.getD "free_bytes") ∧
        row.totalBytes = int? (disk.getD "total_bytes")

/-- A row of a certificate: the entry it was made of. -/
def CertRow (entry : Val) (row : HostCheck) : Prop :=
  ∃ cert, entry.mapping? = some cert ∧ filledText (cert.getD "path") = some row.key ∧
    row.kind = "cert" ∧ row.state = stateOf (cert.getD "status") ∧
      row.freeBytes = none ∧ row.totalBytes = none

theorem returns_strOf {v : Val} : Returns (strOf pkg v) ↔ printable v = true :=
  returns_ite

theorem parseDisk_row {entry : Val} {row : HostCheck}
    (h : parseDisk pkg entry = .ok (some row)) : DiskRow entry row := by
  unfold parseDisk at h
  split at h
  next disk hdisk =>
    split at h
    next => cases h
    next key hkey =>
      cases hdetail : strOf pkg ((disk.get? "path").getD (.str "")) with
      | error raised => simp [hdetail, Except.map] at h
      | ok detail =>
          rw [hdetail] at h
          obtain rfl := Option.some.inj (Except.ok.inj h)
          exact ⟨disk, hdisk, hkey, rfl, rfl, rfl, rfl⟩
  next => cases h

theorem parseCert_row {entry : Val} {row : HostCheck}
    (h : parseCert pkg entry = .ok (some row)) : CertRow entry row := by
  unfold parseCert at h
  split at h
  next cert hcert =>
    split at h
    next => cases h
    next path hpath =>
      cases hreason : strOf pkg ((cert.get? "reason").getD (.str "")) with
      | error raised => simp [hreason, Except.map] at h
      | ok reason =>
          rw [hreason] at h
          obtain rfl := Option.some.inj (Except.ok.inj h)
          exact ⟨cert, hcert, hpath, rfl, rfl, rfl, rfl⟩
  next => cases h

/-- A disk is read, with texts for its row, exactly when it fits. -/
theorem parseDisk_answers {entry : Val} :
    (Returns (parseDisk pkg entry) ∧ ∀ row, parseDisk pkg entry = .ok (some row) → RowAnswers row) ↔
      DiskFits entry := by
  unfold parseDisk DiskFits
  cases entry.mapping? with
  | none => simp
  | some disk =>
      cases hkey : filledText (disk.getD "label") with
      | none => simp [hkey]
      | some key =>
          simp only [returns_map, returns_strOf, Option.mem_def, Option.some.injEq, forall_eq', hkey,
            Option.isSome_some, true_implies]
          apply and_congr_right
          intro hprints
          rw [strOf, if_pos hprints]
          simp [Except.map, rowAnswers_iff]

/-- A certificate is read exactly when it fits. -/
theorem returns_parseCert {entry : Val} : Returns (parseCert pkg entry) ↔ CertFits entry := by
  unfold parseCert CertFits
  cases entry.mapping? with
  | none => simp
  | some cert =>
      cases hpath : filledText (cert.getD "path") with
      | none => simp [hpath]
      | some path => simp [returns_map, returns_strOf, hpath]

/-! ### Readings -/

/-- What the reading of some checks converts and prints. -/
structure ChecksFit (byName : String → Option Mapping) : Prop where
  resources : ResourcesFit byName
  disks : ∀ entry ∈ entriesOf (byName "disk_space") "paths", DiskFits entry
  certs : ∀ entry ∈ entriesOf (byName "certs") "certificates", CertFits entry

theorem mem_sortCerts {certs : List HostCheck} {row : HostCheck} :
    row ∈ sortCerts certs ↔ row ∈ certs :=
  (List.mergeSort_perm certs certBefore).mem_iff

/-- What a reading of some checks holds. -/
theorem readChecks_eq_ok {now : Int} {byName : String → Option Mapping} {health : HostHealth}
    (h : readChecks pkg now byName = .ok health) :
    health.available = true ∧ resourceRows byName = .ok health.resources ∧
      rowsOf (byName "disk_space") "paths" (parseDisk pkg) = .ok health.disks ∧
      ∃ certs, rowsOf (byName "certs") "certificates" (parseCert pkg) = .ok certs ∧
        health.certs = sortCerts certs := by
  unfold readChecks at h
  dsimp only at h
  obtain ⟨resources, hresources, h⟩ := Paired.bind_eq_ok.1 h
  obtain ⟨disks, hdisks, h⟩ := Paired.bind_eq_ok.1 h
  obtain ⟨certs, hcerts, h⟩ := Paired.bind_eq_ok.1 h
  obtain rfl := Except.ok.inj h
  exact ⟨rfl, hresources, hdisks, certs, hcerts, rfl⟩

theorem returns_readChecks {now : Int} {byName : String → Option Mapping} :
    Returns (readChecks pkg now byName) ↔ ResourcesFit byName ∧
      (∀ entry ∈ entriesOf (byName "disk_space") "paths", Returns (parseDisk pkg entry)) ∧
        ∀ entry ∈ entriesOf (byName "certs") "certificates", CertFits entry := by
  rw [readChecks]
  dsimp only
  rw [returns_bind fun _ _ => returns_bind fun _ _ => returns_last, returns_resourceRows, rowsOf,
    rowsOf, returns_rowsFrom, returns_rowsFrom]
  simp only [returns_parseCert]

theorem answers_readChecks {now : Int} {byName : String → Option Mapping} :
    Answers (readChecks pkg now byName) ↔ ChecksFit byName := by
  constructor
  · rintro ⟨health, hread, hrows⟩
    obtain ⟨hresources, hdisks, hcerts⟩ := (returns_readChecks pkg).1 ⟨health, hread⟩
    obtain ⟨-, -, hdiskRows, -⟩ := readChecks_eq_ok pkg hread
    refine ⟨hresources, ?_, hcerts⟩
    intro entry hentry
    apply (parseDisk_answers pkg).1
    refine ⟨hdisks entry hentry, ?_⟩
    intro row hrow
    apply hrows
    have hmem := (mem_rowsFrom hdiskRows).2 ⟨entry, hentry, hrow⟩
    simp [HostHealth.checks, hmem]
  · intro h
    have hdisks := fun entry hentry => (parseDisk_answers pkg).2 (h.disks entry hentry)
    obtain ⟨health, hread⟩ := (returns_readChecks pkg).2
      ⟨h.resources, fun entry hentry => (hdisks entry hentry).1, h.certs⟩
    obtain ⟨-, hresources, hdiskRows, certs, hcertRows, hcerts⟩ := readChecks_eq_ok pkg hread
    refine ⟨health, hread, ?_⟩
    intro row hrow
    simp only [HostHealth.checks, List.mem_append, hcerts, mem_sortCerts] at hrow
    rcases hrow with (hrow | hrow) | hrow
    · obtain ⟨hfree, htotal⟩ := (resourceRow_of_mem hresources row hrow).sizes
      exact rowAnswers_of_none hfree htotal
    · obtain ⟨entry, hentry, hparsed⟩ := (mem_rowsFrom hdiskRows).1 hrow
      exact (hdisks entry hentry).2 row hparsed
    · obtain ⟨entry, -, hparsed⟩ := (mem_rowsFrom hcertRows).1 hrow
      obtain ⟨-, -, -, -, -, hfree, htotal⟩ := parseCert_row pkg hparsed
      exact rowAnswers_of_none hfree htotal

/-! ### Documents -/

/-- What the reading of a document converts and prints. -/
def ReportFits (document : Val) : Prop :=
  ∀ entries ∈ document.mapping?,
    if (entries.getD "schema_version").eqv (.int 1) then
      (∃ name ∈ wantedChecks, (checkNamed (checksOf entries) name).isSome) →
        ChecksFit (checkNamed (checksOf entries))
    else printable (entries.getD "schema_version") = true

theorem answers_unavailable {now : Int} {reason : String} : Answers (.ok (unavailable now reason)) :=
  ⟨_, rfl, List.forall_mem_nil _⟩

theorem answers_map_unavailable {now : Int} {x : Except Raised String} :
    Answers (x.map (unavailable now)) ↔ Returns x := by
  cases x with
  | error raised =>
      refine iff_of_false ?_ not_returns_error
      rintro ⟨health, h, -⟩
      cases h
  | ok reason => exact iff_of_true answers_unavailable returns_ok

theorem answers_readDocument {now : Int} {document : Val} :
    Answers (readDocument pkg now document) ↔ ReportFits document := by
  unfold readDocument ReportFits
  cases document.mapping? with
  | none => exact iff_of_true answers_unavailable nofun
  | some entries =>
      simp only [Option.mem_def, Option.some.injEq, forall_eq']
      split
      next =>
        split
        next hwanted =>
          rw [answers_readChecks]
          have hsome : ∃ name ∈ wantedChecks, (checkNamed (checksOf entries) name).isSome :=
            List.any_eq_true.1 hwanted
          exact ⟨fun h _ => h, fun h => h hsome⟩
        next hwanted =>
          refine iff_of_true answers_unavailable ?_
          intro hsome
          exact absurd (List.any_eq_true.2 hsome) hwanted
      next => rw [answers_map_unavailable, otherSchema, returns_ite]

/-! ### The verdicts -/

/-- A reading shows the core's own verdicts: the state of every row is that of the check or the
entry it was made of, and the verdict over them is the worst of those that have one. -/
structure Verdicts (checks : List Val) (health : HostHealth) : Prop where
  resources : ∀ row ∈ health.resources, ResourceRow (checkNamed checks) row
  disks : ∀ row ∈ health.disks,
    ∃ entry ∈ entriesOf (checkNamed checks "disk_space") "paths", DiskRow entry row
  certs : ∀ row ∈ health.certs,
    ∃ entry ∈ entriesOf (checkNamed checks "certs") "certificates", CertRow entry row
  unknown : health.overall = .unknown ↔ ∀ row ∈ health.checks, row.state = .unknown
  worst : health.overall ≠ .unknown →
    (∃ row ∈ health.checks, row.state = health.overall) ∧
      ∀ row ∈ health.checks, row.state ≠ .unknown →
        health.overall.severity ≤ row.state.severity

theorem severity_worse (one other : HostState) :
    (one.worse other).severity = min one.severity other.severity ∧
      (one.worse other = one ∨ one.worse other = other) := by
  unfold HostState.worse
  split
  next h => exact ⟨(min_eq_right h.le).symm, .inr rfl⟩
  next h => exact ⟨(min_eq_left (not_lt.1 h)).symm, .inl rfl⟩

/-- The worst of some states is one of them, and none is worse. -/
theorem worst_of_states (first : HostState) (rest : List HostState) :
    rest.foldl HostState.worse first ∈ first :: rest ∧
      ∀ state ∈ first :: rest, (rest.foldl HostState.worse first).severity ≤ state.severity := by
  induction rest generalizing first with
  | nil => simp
  | cons second rest ih =>
      obtain ⟨hmem, hworst⟩ := ih (first.worse second)
      obtain ⟨hseverity, hone⟩ := severity_worse first second
      obtain ⟨hfirst, hrest⟩ := List.forall_mem_cons.1 hworst
      rw [List.foldl_cons]
      constructor
      · rcases List.mem_cons.1 hmem with heq | hmem
        · rw [heq]
          rcases hone with h | h <;> simp [h]
        · simp [hmem]
      · intro state hstate
        rcases List.mem_cons.1 hstate with rfl | hstate
        · omega
        · rcases List.mem_cons.1 hstate with rfl | hstate
          · omega
          · exact hrest state hstate

theorem mem_judged {health : HostHealth} {state : HostState} :
    state ∈ health.judged ↔ state ≠ .unknown ∧ ∃ row ∈ health.checks, row.state = state := by
  simp [HostHealth.judged, and_comm]

theorem overall_verdict (health : HostHealth) :
    (health.overall = .unknown ↔ ∀ row ∈ health.checks, row.state = .unknown) ∧
      (health.overall ≠ .unknown →
        (∃ row ∈ health.checks, row.state = health.overall) ∧
          ∀ row ∈ health.checks, row.state ≠ .unknown →
            health.overall.severity ≤ row.state.severity) := by
  unfold HostHealth.overall
  split
  next hnone =>
    refine ⟨iff_of_true rfl ?_, fun h => absurd rfl h⟩
    intro row hrow
    by_contra hstate
    have hmem := mem_judged.2 ⟨hstate, row, hrow, rfl⟩
    rw [hnone] at hmem
    exact absurd hmem List.not_mem_nil
  next first rest hjudged =>
    obtain ⟨hmem, hworst⟩ := worst_of_states first rest
    rw [← hjudged] at hmem hworst
    obtain ⟨hknown, row, hrow, hstate⟩ := mem_judged.1 hmem
    refine ⟨iff_of_false hknown ?_, fun _ => ⟨⟨row, hrow, hstate⟩, ?_⟩⟩
    · intro hall
      rw [← hstate] at hknown
      exact hknown (hall row hrow)
    · intro other hother hnotUnknown
      exact hworst other.state (mem_judged.2 ⟨hnotUnknown, other, hother, rfl⟩)

/-- A reading without rows. -/
theorem verdicts_unavailable {checks : List Val} {now : Int} {reason : String} :
    Verdicts checks (unavailable now reason) := by
  obtain ⟨hunknown, hworst⟩ := overall_verdict (unavailable now reason)
  constructor
  case unknown => exact hunknown
  case worst => exact hworst
  all_goals exact List.forall_mem_nil _

theorem verdicts_readChecks {now : Int} {checks : List Val} {health : HostHealth}
    (h : readChecks pkg now (checkNamed checks) = .ok health) : Verdicts checks health := by
  obtain ⟨-, hresources, hdiskRows, certs, hcertRows, hcerts⟩ := readChecks_eq_ok pkg h
  obtain ⟨hunknown, hworst⟩ := overall_verdict health
  refine ⟨resourceRow_of_mem hresources, ?_, ?_, hunknown, hworst⟩
  · intro row hrow
    obtain ⟨entry, hentry, hparsed⟩ := (mem_rowsFrom hdiskRows).1 hrow
    exact ⟨entry, hentry, parseDisk_row pkg hparsed⟩
  · intro row hrow
    rw [hcerts, mem_sortCerts] at hrow
    obtain ⟨entry, hentry, hparsed⟩ := (mem_rowsFrom hcertRows).1 hrow
    exact ⟨entry, hentry, parseCert_row pkg hparsed⟩

/-- The checks of a document. -/
def reportChecks (document : Val) : List Val :=
  (document.mapping?.map checksOf).getD []

theorem verdicts_readDocument {now : Int} {document : Val} {health : HostHealth}
    (h : readDocument pkg now document = .ok health) : Verdicts (reportChecks document) health := by
  unfold readDocument at h
  cases hentries : document.mapping? with
  | none =>
      rw [hentries] at h
      obtain rfl := Except.ok.inj h
      exact verdicts_unavailable
  | some entries =>
      simp only [hentries] at h
      rw [reportChecks, hentries]
      split at h
      next =>
        split at h
        next => exact verdicts_readChecks pkg h
        next =>
          obtain rfl := Except.ok.inj h
          exact verdicts_unavailable
      next =>
        cases hschema : otherSchema pkg entries with
        | error raised => simp [hschema, Except.map] at h
        | ok reason =>
            rw [hschema] at h
            obtain rfl := Except.ok.inj h
            exact verdicts_unavailable

/-! ### Nodes -/

/-- What the JSON library documents: a report that came out of a text and is dumped is loaded
again. -/
def Documented (pkg : DoctorPackage) : Prop :=
  ∀ text report, envelopeReport pkg text = some report → printable report = true →
    pkg.loads (pkg.dumps report) = some report

/-- What the reading of a node's answer converts and prints. -/
def NodeFits (text : String) : Prop :=
  ∀ report ∈ envelopeReport pkg text, printable report = true ∧ ReportFits report

variable {pkg}

/-- A node's answer is read as the report in it. -/
theorem parseNodeDoctor_eq (doc : Documented pkg) {now : Int} {text : String} :
    parseNodeDoctor pkg now text =
      match envelopeReport pkg text with
      | none => .ok (unavailable now "The node's doctor gave no readable answer.")
      | some report => if printable report then readDocument pkg now report else .error .value := by
  unfold parseNodeDoctor nodeReport
  cases hreport : envelopeReport pkg text with
  | none => rfl
  | some report =>
      dsimp only
      split
      next hprints =>
        simp only [Bind.bind, Except.bind, parseDoctor, doc text report hreport hprints]
      next => rfl

theorem answers_parseNodeDoctor (doc : Documented pkg) {now : Int} {text : String} :
    Answers (parseNodeDoctor pkg now text) ↔ NodeFits pkg text := by
  rw [parseNodeDoctor_eq doc, NodeFits]
  cases envelopeReport pkg text with
  | none => exact iff_of_true answers_unavailable nofun
  | some report =>
      simp only [Option.mem_def, Option.some.injEq, forall_eq']
      split
      next hprints => rw [answers_readDocument, and_iff_right hprints]
      next hprints =>
        refine iff_of_false ?_ fun h => hprints h.1
        rintro ⟨health, h, -⟩
        cases h

theorem verdicts_parseNodeDoctor (doc : Documented pkg) {now : Int} {text : String}
    {health : HostHealth} (h : parseNodeDoctor pkg now text = .ok health) :
    Verdicts (((envelopeReport pkg text).map reportChecks).getD []) health := by
  rw [parseNodeDoctor_eq doc] at h
  cases hreport : envelopeReport pkg text with
  | none =>
      rw [hreport] at h
      obtain rfl := Except.ok.inj h
      exact verdicts_unavailable
  | some report =>
      simp only [hreport] at h
      split at h
      next => exact verdicts_readDocument pkg h
      next => cases h

/-! ### Other checks -/

/-- A check with one of some names. -/
def isNamed (known : List String) (check : Val) : Bool :=
  known.any fun name => (namedCheck name check).isSome

/-- Two documents that differ in other checks only, and in what is read of none. -/
structure SameReport (known : List String) (one other : Mapping) : Prop where
  schema : one.getD "schema_version" = other.getD "schema_version"
  checks : (checksOf one).filter (isNamed known) = (checksOf other).filter (isNamed known)

/-- The checks that `parse_doctor` reads. -/
def knownChecks : List String :=
  wantedChecks ++ clusterTitles.map Prod.fst

theorem findSome?_named {known : List String} {name : String} (h : name ∈ known)
    (checks : List Val) :
    (checks.filter (isNamed known)).findSome? (namedCheck name) =
      checks.findSome? (namedCheck name) := by
  induction checks with
  | nil => rfl
  | cons check rest ih =>
      rw [List.filter_cons]
      split
      next => rw [List.findSome?_cons, List.findSome?_cons, ih]
      next hother =>
        have hnone : namedCheck name check = none := by
          by_contra hsome
          apply hother
          exact List.any_eq_true.2 ⟨name, h, Option.isSome_iff_ne_none.2 hsome⟩
        rw [List.findSome?_cons, hnone, ih]

/-- A check of a known name is found without the others. -/
theorem SameReport.checkNamed {known : List String} {one other : Mapping}
    (h : SameReport known one other) {name : String} (hname : name ∈ known) :
    checkNamed (checksOf one) name = checkNamed (checksOf other) name := by
  have hfound : ∀ checks : List Val, Host.checkNamed checks name =
      Host.checkNamed (checks.filter (isNamed known)) name := by
    intro checks
    rw [Host.checkNamed, Host.checkNamed, ← List.filter_reverse, findSome?_named hname]
  rw [hfound, h.checks, ← hfound]

theorem readChecks_congr {now : Int} {byName byName' : String → Option Mapping}
    (h : ∀ name ∈ knownChecks, byName name = byName' name) :
    readChecks pkg now byName = readChecks pkg now byName' := by
  have hresources : resourceRows byName = resourceRows byName' := by
    have hmemory := h "memory" (by decide)
    have hcpu := h "cpu" (by decide)
    have hgpu := h "gpu" (by decide)
    have hclock := h "time_sync" (by decide)
    simp only [resourceRows, resourceChecks, resourceRowsFrom, resourceRowsOf, hmemory, hcpu, hgpu,
      hclock]
  have hcluster : clusterChecksOf byName = clusterChecksOf byName' := by
    have hnodes := h "nodes" (by decide)
    have hlinks := h "links" (by decide)
    simp only [clusterChecksOf, clusterTitles, List.filterMap_cons, hnodes, hlinks,
      List.filterMap_nil]
  unfold readChecks
  rw [hresources, hcluster, h "disk_space" (by decide), h "certs" (by decide)]

/-- Other checks do not change a reading. -/
theorem readDocument_congr {now : Int} {one other : Mapping}
    (h : SameReport knownChecks one other) :
    readDocument pkg now (.map one) = readDocument pkg now (.map other) := by
  have hnamed : ∀ name ∈ knownChecks,
      checkNamed (checksOf one) name = checkNamed (checksOf other) name :=
    fun name hname => h.checkNamed hname
  have hwanted : (wantedChecks.any fun name => (checkNamed (checksOf one) name).isSome) =
      wantedChecks.any fun name => (checkNamed (checksOf other) name).isSome := by
    have hmap : wantedChecks.map (fun name => (checkNamed (checksOf one) name).isSome) =
        wantedChecks.map fun name => (checkNamed (checksOf other) name).isSome := by
      apply List.map_congr_left
      intro name hname
      rw [hnamed name (List.mem_append_left _ hname)]
    have hany := congrArg (List.any · id) hmap
    simpa only [List.any_map, Function.id_comp] using hany
  simp only [readDocument, Val.mapping?_map, otherSchema, h.schema, hwanted,
    readChecks_congr hnamed]

theorem parseDoctor_congr {now : Int} {text text' : String} {one other : Mapping}
    (htext : pkg.loads text = some (.map one)) (htext' : pkg.loads text' = some (.map other))
    (h : SameReport knownChecks one other) :
    parseDoctor pkg now text = parseDoctor pkg now text' := by
  rw [parseDoctor, htext, parseDoctor, htext']
  exact readDocument_congr h

theorem parseNodeDoctor_congr (doc : Documented pkg) {now : Int} {text text' : String}
    {one other : Mapping} (htext : envelopeReport pkg text = some (.map one))
    (htext' : envelopeReport pkg text' = some (.map other))
    (hone : printable (.map one) = true) (hother : printable (.map other) = true)
    (h : SameReport knownChecks one other) :
    parseNodeDoctor pkg now text = parseNodeDoctor pkg now text' := by
  rw [parseNodeDoctor_eq doc, htext, parseNodeDoctor_eq doc, htext']
  simp only [hone, hother, if_true]
  exact readDocument_congr h

/-! ### Docker usage -/

/-- What the reading of Docker's disk use converts and prints. -/
def UsageFits (document : Val) : Prop :=
  ∀ entries ∈ document.mapping?,
    if (entries.getD "schema_version").eqv (.int 1) then
      ∀ check ∈ usageCheck (checksOf entries), (check.getD "status").str? = some "pass" →
        ∀ types ∈ ((detailsOf check).getD "types").mapping?, (usageSizes types).sum ≠ 0 →
          ∀ size ∈ usageSizes types,
            ¬ Overflows (size : Rat) ∧ ¬ Overflows ((usageSizes types).sum : Rat)
    else printable (entries.getD "schema_version") = true

theorem returns_shareOf {size total : Int} :
    Returns (shareOf size total) ↔
      (total ≠ 0 → ¬ Overflows (size : Rat) ∧ ¬ Overflows (total : Rat)) := by
  unfold shareOf
  split
  next hzero => simp [hzero]
  next hzero =>
    rw [returns_bind fun _ _ => returns_last, returns_toFloat, returns_toFloat]
    simp [hzero]

theorem returns_usageRow {key label : String} {entry : Val} {total : Int} :
    Returns (usageRow key label entry total) ↔ ∀ size ∈ sizeOf? entry, total ≠ 0 →
      ¬ Overflows (size : Rat) ∧ ¬ Overflows (total : Rat) := by
  unfold usageRow sizeOf?
  cases entry.mapping? with
  | none => simp
  | some entry =>
      cases hsize : int? (entry.getD "size_bytes") with
      | none => simp [hsize]
      | some size => simp [hsize, returns_shareOf]

theorem returns_usageRows {types : Mapping} {total : Int} {labels : List (String × String)} :
    Returns (usageRows types total labels) ↔
      ∀ size ∈ labels.filterMap fun entry => sizeOf? (types.getD entry.1), total ≠ 0 →
        ¬ Overflows (size : Rat) ∧ ¬ Overflows (total : Rat) := by
  induction labels with
  | nil => simp [usageRows]
  | cons label rest ih =>
      rw [usageRows, returns_bind fun _ _ => returns_last, returns_usageRow, ih]
      cases hsize : sizeOf? (types.getD label.1) with
      | none => simp [hsize]
      | some size => simp [hsize]

theorem returns_readUsage {now : Int} {check : Mapping} :
    Returns (readUsage now check) ↔ ((check.getD "status").str? = some "pass" →
      ∀ types ∈ ((detailsOf check).getD "types").mapping?, (usageSizes types).sum ≠ 0 →
        ∀ size ∈ usageSizes types,
          ¬ Overflows (size : Rat) ∧ ¬ Overflows ((usageSizes types).sum : Rat)) := by
  unfold readUsage
  dsimp only
  split
  next hstatus => exact iff_of_true returns_ok fun h => absurd h hstatus
  next hstatus =>
    rw [not_not] at hstatus
    cases ((detailsOf check).getD "types").mapping? with
    | none => simp
    | some types =>
        simp only [returns_map, returns_usageRows, hstatus, true_implies, Option.mem_def,
          Option.some.injEq, forall_eq']
        exact ⟨fun h hsum size hsize => h size hsize hsum,
          fun h size hsize hsum => h hsum size hsize⟩

theorem returns_parseDockerUsage {now : Int} {text : String} :
    Returns (parseDockerUsage pkg now text) ↔ ∀ document ∈ pkg.loads text, UsageFits document := by
  unfold parseDockerUsage
  cases pkg.loads text with
  | none => simp
  | some document =>
      simp only [Option.mem_def, Option.some.injEq, forall_eq', UsageFits]
      cases document.mapping? with
      | none => simp
      | some entries =>
          simp only [Option.some.injEq, forall_eq']
          split
          next =>
            cases usageCheck (checksOf entries) with
            | none => simp
            | some check => simp [returns_readUsage]
          next => rw [returns_map, otherSchema, returns_ite]

theorem parseDockerUsage_congr {now : Int} {text text' : String} {one other : Mapping}
    (htext : pkg.loads text = some (.map one)) (htext' : pkg.loads text' = some (.map other))
    (h : SameReport ["docker_usage"] one other) :
    parseDockerUsage pkg now text = parseDockerUsage pkg now text' := by
  have hcheck : usageCheck (checksOf one) = usageCheck (checksOf other) := by
    have hname : "docker_usage" ∈ ["docker_usage"] := List.mem_singleton_self _
    rw [usageCheck, ← findSome?_named hname, h.checks, findSome?_named hname, usageCheck]
  simp only [parseDockerUsage, htext, htext', Val.mapping?_map, otherSchema, h.schema, hcheck]

/-! ### The readers -/

theorem answers_parseDoctor {now : Int} {text : String} :
    Answers (parseDoctor pkg now text) ↔ ∀ document ∈ pkg.loads text, ReportFits document := by
  unfold parseDoctor
  cases pkg.loads text with
  | none => exact iff_of_true answers_unavailable nofun
  | some document => simp [answers_readDocument]

theorem verdicts_parseDoctor {now : Int} {text : String} {health : HostHealth}
    (h : parseDoctor pkg now text = .ok health) :
    Verdicts (((pkg.loads text).map reportChecks).getD []) health := by
  unfold parseDoctor at h
  cases hdocument : pkg.loads text with
  | none =>
      rw [hdocument] at h
      obtain rfl := Except.ok.inj h
      exact verdicts_unavailable
  | some document =>
      rw [hdocument] at h
      exact verdicts_readDocument pkg h

/-- The readers answer, texts of the rows included, exactly for documents whose numbers fit; what
they answer are the core's own verdicts; and other checks do not change it. -/
theorem doctor_reads (doc : Documented pkg) :
    (∀ now text,
      (Answers (parseDoctor pkg now text) ↔ ∀ document ∈ pkg.loads text, ReportFits document) ∧
      (Answers (parseNodeDoctor pkg now text) ↔ NodeFits pkg text) ∧
      (Returns (parseDockerUsage pkg now text) ↔
        ∀ document ∈ pkg.loads text, UsageFits document)) ∧
    (∀ now text health, parseDoctor pkg now text = .ok health →
      Verdicts (((pkg.loads text).map reportChecks).getD []) health) ∧
    (∀ now text health, parseNodeDoctor pkg now text = .ok health →
      Verdicts (((envelopeReport pkg text).map reportChecks).getD []) health) ∧
    (∀ now text text' one other, pkg.loads text = some (.map one) →
      pkg.loads text' = some (.map other) → SameReport knownChecks one other →
        parseDoctor pkg now text = parseDoctor pkg now text') ∧
    (∀ now text text' one other, envelopeReport pkg text = some (.map one) →
      envelopeReport pkg text' = some (.map other) → printable (.map one) = true →
        printable (.map other) = true → SameReport knownChecks one other →
          parseNodeDoctor pkg now text = parseNodeDoctor pkg now text') ∧
    ∀ now text text' one other, pkg.loads text = some (.map one) →
      pkg.loads text' = some (.map other) → SameReport ["docker_usage"] one other →
        parseDockerUsage pkg now text = parseDockerUsage pkg now text' := by
  refine ⟨?_, ?_, ?_, ?_, ?_, ?_⟩
  · exact fun now text =>
      ⟨answers_parseDoctor, answers_parseNodeDoctor doc, returns_parseDockerUsage⟩
  · exact fun now text health h => verdicts_parseDoctor h
  · exact fun now text health h => verdicts_parseNodeDoctor doc h
  · exact fun now text text' one other htext htext' h => parseDoctor_congr htext htext' h
  · exact fun now text text' one other htext htext' hone hother h =>
      parseNodeDoctor_congr doc htext htext' hone hother h
  · exact fun now text text' one other htext htext' h => parseDockerUsage_congr htext htext' h

/-! ### Concrete documents -/

/-- A clock that is in time. -/
def clockReport : Mapping :=
  [(.str "schema_version", .int 1),
    (.str "checks", .list [.map [(.str "name", .str "time_sync"), (.str "status", .str "pass")]])]

def clockText : String :=
  "\x7b\"schema_version\":1,\"checks\":[\x7b\"name\":\"time_sync\",\"status\":\"pass\"\x7d]\x7d"

/-- The answer of a node with that report. -/
def clockAnswer : String :=
  "\x7b\"doctor\":" ++ clockText ++ "\x7d"

/-- The JSON library on the two texts. -/
def clockPackage : DoctorPackage where
  loads text :=
    if text = clockText then some (.map clockReport)
    else if text = clockAnswer then some (.map [(.str "doctor", .map clockReport)])
    else none
  dumps _ := clockText
  str _ := ""
  repr _ := ""

theorem documented_clockPackage : Documented clockPackage := by
  intro text report hreport _
  have hloads : clockPackage.loads clockText = some (.map clockReport) := by
    simp only [clockPackage, if_true]
  unfold envelopeReport at hreport
  split at hreport
  next => cases hreport
  next line _ =>
    have hfrom : ∀ document, (clockPackage.loads line).bind Val.mapping? = some document →
        ((document.getD "doctor").mapping?).map Val.map = some report →
          report = .map clockReport := by
      intro document hline hdoctor
      simp only [clockPackage] at hline
      split at hline
      next =>
        obtain rfl := Option.some.inj hline
        cases hdoctor
      next =>
        split at hline
        next =>
          obtain rfl := Option.some.inj hline
          exact (Option.some.inj hdoctor).symm
        next => cases hline
    split at hreport
    next document hline => rw [hfrom document hline hreport]; exact hloads
    next => cases hreport

theorem envelopeReport_clockAnswer :
    envelopeReport clockPackage clockAnswer = some (.map clockReport) := by
  have hline : (splitLines (strip clockAnswer)).getLast? = some clockAnswer := by decide
  have hother : clockAnswer ≠ clockText := by decide
  simp [envelopeReport, hline, clockPackage, hother, Mapping.getD, Mapping.get?]

/-- The node's answer is read, and the clock is what the core calls it. -/
theorem doctor_reads_clock :
    Answers (parseNodeDoctor clockPackage 0 clockAnswer) := by
  have hreads := doctor_reads documented_clockPackage
  apply (hreads.1 0 clockAnswer).2.1.2
  intro report hreport
  rw [envelopeReport_clockAnswer] at hreport
  obtain rfl := Option.some.inj hreport
  refine ⟨by decide, ?_⟩
  intro entries hentries
  obtain rfl := Option.some.inj hentries
  have hchecks : checksOf clockReport = [.map [(.str "name", .str "time_sync"),
      (.str "status", .str "pass")]] :=
    rfl
  have hnone : ∀ name, name ≠ "time_sync" → checkNamed (checksOf clockReport) name = none := by
    intro name hname
    rw [hchecks]
    simp [checkNamed, namedCheck, Mapping.getD, Mapping.get?, Ne.symm hname]
  have hschema : (Mapping.getD clockReport "schema_version").eqv (.int 1) = true := by
    simp [clockReport, Mapping.getD, Mapping.get?, Val.eqv, Scalar.eqv, Scalar.number?]
  rw [if_pos hschema]
  intro _
  have hmemory := hnone "memory" (by decide)
  have hcpu := hnone "cpu" (by decide)
  have hgpu := hnone "gpu" (by decide)
  have hdisk := hnone "disk_space" (by decide)
  have hcerts := hnone "certs" (by decide)
  refine ⟨⟨?_, ?_, ?_⟩, ?_, ?_⟩
  · simp [hmemory]
  · simp [hcpu]
  · simp [hgpu]
  · simp [hdisk, entriesOf]
  · simp [hcerts, entriesOf]

/-- A number to JSON and to Python that has no float. -/
def hugeBytes : Int := 10 ^ 309

/-- A memory of that many bytes. -/
def hugeReport : Mapping :=
  [(.str "schema_version", .int 1),
    (.str "checks", .list [.map [(.str "name", .str "memory"), (.str "status", .str "pass"),
      (.str "details", .map [(.str "total_bytes", .int hugeBytes)])]])]

def hugeText : String :=
  "\x7b\"schema_version\": 1, \"checks\": [\x7b\"name\": \"memory\", \"status\": \"pass\", " ++
    "\"details\": \x7b\"total_bytes\": 1" ++ String.ofList (List.replicate 309 '0') ++ "\x7d\x7d]\x7d"

def hugePackage : DoctorPackage where
  loads text := if text = hugeText then some (.map hugeReport) else none
  dumps _ := hugeText
  str _ := ""
  repr _ := ""

/-- The reader raises on it. -/
theorem huge_memory_raises : ¬ Answers (parseDoctor hugePackage 0 hugeText) := by
  intro h
  have hloads : hugePackage.loads hugeText = some (.map hugeReport) := by
    simp only [hugePackage, if_true]
  have hfits := answers_parseDoctor.1 h _ hloads hugeReport rfl
  have hschema : (Mapping.getD hugeReport "schema_version").eqv (.int 1) = true := by
    simp [hugeReport, Mapping.getD, Mapping.get?, Val.eqv, Scalar.eqv, Scalar.number?]
  have hcheck : checkNamed (checksOf hugeReport) "memory" = some [(.str "name", .str "memory"),
      (.str "status", .str "pass"),
      (.str "details", .map [(.str "total_bytes", .int hugeBytes)])] :=
    rfl
  rw [if_pos hschema] at hfits
  have hchecks := hfits ⟨"memory", by decide, by rw [hcheck]; rfl⟩
  have hmemory := hchecks.resources.memory _ hcheck (fun hempty => by cases hempty)
  have htotal : ¬ Overflows (hugeBytes : Rat) := (hmemory.2.1 _ rfl).1
  apply htotal
  have hcast : (hugeBytes : Rat) = ((10 ^ 309 : Nat) : Rat) := by
    rw [hugeBytes, Int.cast_pow, Nat.cast_pow]
    rfl
  rw [hcast, overflows_natCast]
  decide +kernel

end Papaia.Host
