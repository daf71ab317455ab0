/-
Module: Papaia.Lib.FileTree
Purpose: Directory trees: what a path leads to when no link is followed, and the directories a walk
  visits.
Trusted boundary: none
Main exports: Node, Path, Leads, Node.Plain, Leads.unique, get?, get?_eq_some_iff, walk, mem_walk_iff
-/
import Mathlib.Data.List.Nodup

namespace Papaia.FileTree

/-- The names from a directory down. -/
abbrev Path :=
  List String

/-- What stands under a name, with what `lstat` says of it. -/
inductive Node (α δ σ : Type) where
  | file (content : α)
  /-- A symbolic link, and whether a directory is found where it points to. -/
  | link (target : String) (toFolder : Bool)
  /-- What is none of these, such as a socket, a device or a pipe. -/
  | special (kind : σ)
  | dir (info : δ) (entries : List (String × Node α δ σ))

variable {α δ σ : Type}

namespace Node

def isLink : Node α δ σ → Bool
  | .link _ _ => true
  | _ => false

def isDir : Node α δ σ → Bool
  | .dir _ _ => true
  | _ => false

/-- `DirEntry.is_dir`, which follows a link. -/
def isFolder : Node α δ σ → Bool
  | .dir _ _ => true
  | .link _ toFolder => toFolder
  | _ => false

theorem isDir_iff {node : Node α δ σ} : node.isDir = true ↔ ∃ info entries, node = .dir info entries := by
  cases node <;> simp [isDir]

end Node

/-! ### Paths -/

/-- Where a path leads to: through directories alone, so no link is followed on the way. -/
inductive Leads : Node α δ σ → Path → Node α δ σ → Prop where
  | here (node : Node α δ σ) : Leads node [] node
  | step {info : δ} {entries : List (String × Node α δ σ)} {name : String}
      {child node : Node α δ σ} {path : Path} :
      (name, child) ∈ entries → Leads child path node → Leads (.dir info entries) (name :: path) node

theorem leads_nil {node other : Node α δ σ} : Leads node [] other ↔ node = other := by
  constructor
  · intro h
    cases h
    rfl
  · rintro rfl
    exact .here node

theorem leads_cons {node other : Node α δ σ} {name : String} {path : Path} :
    Leads node (name :: path) other ↔
      ∃ info entries child, node = .dir info entries ∧ (name, child) ∈ entries ∧
        Leads child path other := by
  constructor
  · intro h
    cases h with
    | step hmem hbelow => exact ⟨_, _, _, rfl, hmem, hbelow⟩
  · rintro ⟨info, entries, child, rfl, hmem, hbelow⟩
    exact .step hmem hbelow

theorem leads_append {node other : Node α δ σ} {before behind : Path} :
    Leads node (before ++ behind) other ↔
      ∃ middle, Leads node before middle ∧ Leads middle behind other := by
  induction before generalizing node with
  | nil => simp [leads_nil]
  | cons name rest ih =>
      rw [List.cons_append, leads_cons]
      constructor
      · rintro ⟨info, entries, child, rfl, hmem, hbelow⟩
        obtain ⟨middle, hbefore, hbehind⟩ := ih.1 hbelow
        exact ⟨middle, .step hmem hbefore, hbehind⟩
      · rintro ⟨middle, hbefore, hbehind⟩
        obtain ⟨info, entries, child, rfl, hmem, hbelow⟩ := leads_cons.1 hbefore
        exact ⟨info, entries, child, rfl, hmem, ih.2 ⟨middle, hbelow, hbehind⟩⟩

/-- A path that goes on leads through a directory. -/
theorem Leads.isDir_of_cons {node other : Node α δ σ} {name : String} {path : Path}
    (h : Leads node (name :: path) other) : node.isDir = true := by
  obtain ⟨info, entries, -, rfl, -⟩ := leads_cons.1 h
  rfl

/-! ### Trees a file system can hold -/

/-- A name of an entry. -/
def IsName (name : String) : Prop :=
  name ≠ "" ∧ name ≠ "." ∧ name ≠ ".." ∧ '/' ∉ name.toList

instance (name : String) : Decidable (IsName name) :=
  inferInstanceAs (Decidable (_ ∧ _))

mutual

/-- The entries of each directory have different names. -/
def Node.Plain : Node α δ σ → Prop
  | .dir _ entries => (entries.map Prod.fst).Nodup ∧ PlainEntries entries
  | _ => True

def PlainEntries : List (String × Node α δ σ) → Prop
  | [] => True
  | (name, node) :: rest => IsName name ∧ node.Plain ∧ PlainEntries rest

end

theorem plainEntries_iff {entries : List (String × Node α δ σ)} :
    PlainEntries entries ↔ ∀ entry ∈ entries, IsName entry.1 ∧ entry.2.Plain := by
  induction entries with
  | nil => simp [PlainEntries]
  | cons entry rest ih => simp [PlainEntries, ih, and_assoc]

theorem Node.plain_dir {info : δ} {entries : List (String × Node α δ σ)} :
    (Node.dir info entries).Plain ↔
      (entries.map Prod.fst).Nodup ∧ ∀ entry ∈ entries, IsName entry.1 ∧ entry.2.Plain := by
  rw [Node.Plain, plainEntries_iff]

theorem Node.Plain.below {info : δ} {entries : List (String × Node α δ σ)} {name : String}
    {child : Node α δ σ} (h : (Node.dir info entries).Plain) (hmem : (name, child) ∈ entries) :
    IsName name ∧ child.Plain :=
  (Node.plain_dir.1 h).2 _ hmem

theorem Node.Plain.same {info : δ} {entries : List (String × Node α δ σ)} {name : String}
    {one other : Node α δ σ} (h : (Node.dir info entries).Plain) (hone : (name, one) ∈ entries)
    (hother : (name, other) ∈ entries) : one = other := by
  have hinj := List.inj_on_of_nodup_map (Node.plain_dir.1 h).1 hone hother rfl
  exact (Prod.mk.inj hinj).2

/-- A path leads to one thing. -/
theorem Leads.unique {node one other : Node α δ σ} {path : Path} (hone : Leads node path one)
    (hplain : node.Plain) (hother : Leads node path other) : one = other := by
  induction hone with
  | here node => exact leads_nil.1 hother
  | step hmem _ ih =>
      obtain ⟨info, entries, child, hnode, hmem', hbelow⟩ := leads_cons.1 hother
      cases hnode
      obtain rfl := hplain.same hmem hmem'
      exact ih (hplain.below hmem).2 hbelow

theorem Leads.plain {node other : Node α δ σ} {path : Path} (h : Leads node path other)
    (hplain : node.Plain) : other.Plain := by
  induction h with
  | here node => exact hplain
  | step hmem _ ih => exact ih (hplain.below hmem).2

/-- Every part of a path that leads somewhere is a name. -/
theorem Leads.names {node other : Node α δ σ} {path : Path} (h : Leads node path other)
    (hplain : node.Plain) : ∀ name ∈ path, IsName name := by
  induction h with
  | here node => simp
  | step hmem _ ih => exact List.forall_mem_cons.2 ⟨(hplain.below hmem).1, ih (hplain.below hmem).2⟩

/-! ### Looking an entry up -/

/-- The entry of a directory under a name. -/
def find (entries : List (String × Node α δ σ)) (name : String) : Option (Node α δ σ) :=
  (entries.find? fun entry => entry.1 = name).map Prod.snd

theorem find_eq_some_iff {info : δ} {entries : List (String × Node α δ σ)} {name : String}
    {child : Node α δ σ} (hplain : (Node.dir info entries).Plain) :
    find entries name = some child ↔ (name, child) ∈ entries := by
  unfold find
  constructor
  · intro h
    obtain ⟨⟨name', node⟩, hfind, rfl⟩ := Option.map_eq_some_iff.1 h
    have hname : name' = name := by simpa using List.find?_some hfind
    rw [← hname]
    exact List.mem_of_find?_eq_some hfind
  · intro hmem
    cases hfind : entries.find? fun entry => entry.1 = name with
    | none =>
        have hno := List.find?_eq_none.1 hfind _ hmem
        simp at hno
    | some entry =>
        obtain ⟨name', node⟩ := entry
        have hname : name' = name := by simpa using List.find?_some hfind
        have hnode : (name, node) ∈ entries := by
          rw [← hname]
          exact List.mem_of_find?_eq_some hfind
        rw [Option.map_some, hplain.same hnode hmem]

/-! ### The walk -/

mutual

/-- The directories `os.walk` visits below a node, each with its entries; it follows no link. -/
def walk : Node α δ σ → List (Path × List (String × Node α δ σ))
  | .dir _ entries => ([], entries) :: walkEntries entries
  | _ => []

def walkEntries : List (String × Node α δ σ) → List (Path × List (String × Node α δ σ))
  | [] => []
  | (name, node) :: rest =>
      (walk node).map (fun visit => (name :: visit.1, visit.2)) ++ walkEntries rest

end

theorem mem_walkEntries_iff {entries : List (String × Node α δ σ)}
    {visit : Path × List (String × Node α δ σ)} :
    visit ∈ walkEntries entries ↔
      ∃ name child path, (name, child) ∈ entries ∧ (path, visit.2) ∈ walk child ∧
        visit.1 = name :: path := by
  induction entries with
  | nil => simp [walkEntries]
  | cons entry rest ih =>
      obtain ⟨name, node⟩ := entry
      rw [walkEntries, List.mem_append, ih]
      constructor
      · rintro (h | ⟨name', child, path, hmem, hwalk, hpath⟩)
        · obtain ⟨⟨path, here⟩, hwalk, rfl⟩ := List.mem_map.1 h
          exact ⟨name, node, path, List.mem_cons_self, hwalk, rfl⟩
        · exact ⟨name', child, path, List.mem_cons_of_mem _ hmem, hwalk, hpath⟩
      · rintro ⟨name', child, path, hmem, hwalk, hpath⟩
        rcases List.mem_cons.1 hmem with hsame | hmem
        · obtain ⟨rfl, rfl⟩ := Prod.mk.inj hsame
          exact .inl (List.mem_map.2 ⟨(path, visit.2), hwalk, by rw [← hpath]⟩)
        · exact .inr ⟨name', child, path, hmem, hwalk, hpath⟩

/-- The walk visits each directory that a path leads to. -/
theorem mem_walk_iff {node : Node α δ σ} {path : Path} {here : List (String × Node α δ σ)} :
    (path, here) ∈ walk node ↔ ∃ info, Leads node path (.dir info here) := by
  induction path generalizing node with
  | nil =>
      cases node with
      | dir info entries =>
          have hno : ([], here) ∉ walkEntries entries := by
            rw [mem_walkEntries_iff]
            rintro ⟨name, child, path, -, -, hpath⟩
            cases hpath
          simp [walk, leads_nil, hno, eq_comm]
      | file => simp [walk, leads_nil]
      | link => simp [walk, leads_nil]
      | special => simp [walk, leads_nil]
  | cons name rest ih =>
      cases node with
      | dir info entries =>
          have hwalk : (name :: rest, here) ∈ walk (Node.dir info entries) ↔
              ∃ child, (name, child) ∈ entries ∧ (rest, here) ∈ walk child := by
            rw [walk, List.mem_cons, or_iff_right (by simp), mem_walkEntries_iff]
            constructor
            · rintro ⟨name', child, path, hmem, hwalk, hpath⟩
              obtain ⟨rfl, rfl⟩ := List.cons.inj hpath
              exact ⟨child, hmem, hwalk⟩
            · rintro ⟨child, hmem, hwalk⟩
              exact ⟨name, child, rest, hmem, hwalk, rfl⟩
          rw [hwalk]
          simp only [leads_cons, ih]
          constructor
          · rintro ⟨child, hmem, info', hleads⟩
            exact ⟨info', info, entries, child, rfl, hmem, hleads⟩
          · rintro ⟨info', _, _, child, heq, hmem, hleads⟩
            cases heq
            exact ⟨child, hmem, info', hleads⟩
      | file => simp [walk, leads_cons]
      | link => simp [walk, leads_cons]
      | special => simp [walk, leads_cons]

mutual

/-- The walk visits a directory once. -/
theorem nodup_walk {node : Node α δ σ} (hplain : node.Plain) : ((walk node).map Prod.fst).Nodup := by
  match node with
  | .file _ | .link _ _ | .special _ => simp [walk]
  | .dir info entries =>
      obtain ⟨hnames, hbelow⟩ := hplain
      rw [walk, List.map_cons, List.nodup_cons]
      constructor
      · intro hmem
        obtain ⟨visit, hvisit, hpath⟩ := List.mem_map.1 hmem
        obtain ⟨_, _, _, -, -, hcons⟩ := mem_walkEntries_iff.1 hvisit
        rw [hpath] at hcons
        cases hcons
      · exact nodup_walkEntries hnames hbelow

theorem nodup_walkEntries {entries : List (String × Node α δ σ)}
    (hnames : (entries.map Prod.fst).Nodup) (hplain : PlainEntries entries) :
    ((walkEntries entries).map Prod.fst).Nodup := by
  match entries with
  | [] => simp [walkEntries]
  | (name, node) :: rest =>
      obtain ⟨-, hnode, hrest⟩ := hplain
      obtain ⟨hfresh, hnames⟩ := List.nodup_cons.1 hnames
      rw [walkEntries, List.map_append, List.nodup_append]
      refine ⟨?_, nodup_walkEntries hnames hrest, ?_⟩
      · have hmap : ((walk node).map fun visit => (name :: visit.1, visit.2)).map Prod.fst =
            ((walk node).map Prod.fst).map (name :: ·) := by simp
        rw [hmap]
        exact (nodup_walk hnode).map (List.cons_injective)
      · intro one hone other hother
        obtain ⟨first, hfirst, rfl⟩ := List.mem_map.1 hone
        obtain ⟨second, hsecond, rfl⟩ := List.mem_map.1 hother
        obtain ⟨below, -, rfl⟩ := List.mem_map.1 hfirst
        obtain ⟨name', child, path, hmem, -, hpath⟩ := mem_walkEntries_iff.1 hsecond
        rw [hpath]
        intro heq
        apply hfresh
        rw [(List.cons.inj heq).1]
        exact List.mem_map.2 ⟨_, hmem, rfl⟩

end

end Papaia.FileTree
