/-
Module: Papaia.Proofs.TilesFile
Purpose: A `tiles.yaml` is read, or refused with its own error, exactly where every level of the
  document can be coerced; and a save that raises leaves the stored file.
Trusted boundary: none
Main exports: Digests, Usable, configFromDict_ok_iff, TilesFileLaw, tiles_file_law_iff
-/
import Mathlib.Data.Finset.Prod
import Papaia.Lib.Paired
import Papaia.Editors.TilesFile

namespace Papaia.TilesFile

variable {lib : Library}

/-! ### Eight hexadecimal digits -/

def hexDigits : PyText :=
  PyText.of "0123456789abcdef"

/-- The texts of so many hexadecimal digits. -/
def hexTexts : Nat → Finset PyText
  | 0 => {[]}
  | n + 1 => (hexDigits.toFinset ×ˢ hexTexts n).image fun (c, rest) => c :: rest

/-- What an id that is given can be. -/
def eightDigits : Finset PyText :=
  hexTexts 8

theorem mem_hexTexts {n : Nat} {text : PyText} :
    text ∈ hexTexts n ↔ text.length = n ∧ ∀ c ∈ text, c ∈ hexDigits := by
  induction n generalizing text with
  | zero =>
      rw [hexTexts, Finset.mem_singleton]
      constructor
      · rintro rfl
        exact ⟨rfl, fun _ hc => absurd hc List.not_mem_nil⟩
      · exact fun h => List.eq_nil_of_length_eq_zero h.1
  | succ n ih =>
      rw [hexTexts, Finset.mem_image]
      constructor
      · rintro ⟨⟨c, rest⟩, hmem, rfl⟩
        obtain ⟨hc, hrest⟩ := Finset.mem_product.1 hmem
        obtain ⟨hlength, hdigits⟩ := ih.1 hrest
        refine ⟨congrArg (· + 1) hlength, ?_⟩
        rw [List.forall_mem_cons]
        exact ⟨List.mem_toFinset.1 hc, hdigits⟩
      · rintro ⟨hlength, hdigits⟩
        cases text with
        | nil => cases hlength
        | cons c rest =>
            rw [List.forall_mem_cons] at hdigits
            have hrest := ih.2 ⟨Nat.succ.inj hlength, hdigits.2⟩
            exact ⟨(c, rest), Finset.mem_product.2 ⟨List.mem_toFinset.2 hdigits.1, hrest⟩, rfl⟩

/-- What the library promises of its digests: they are 64 hexadecimal digits, and among the later
numbers of a type every eight digits begin the digest of one. -/
structure Digests (lib : Library) : Prop where
  hexdigest : ∀ raw, (lib.hexdigest raw).length = 64 ∧ ∀ c ∈ lib.hexdigest raw, c ∈ hexDigits
  spread : ∀ widget, (∀ c ∈ widget, PyText.surrogate c = false) → ∀ number, ∀ text ∈ eightDigits,
    ∃ n raw, number ≤ n ∧ (numbered widget n).encode = some raw ∧ (lib.hexdigest raw).take 8 = text

/-! ### What can be coerced -/

/-- `str(value)` does not raise. -/
def Printed (lib : Library) (value : Node) : Prop :=
  (∃ text, value = .text text) ∨ lib.str value ≠ none

/-- `int(value)` does not raise. -/
def Counted (lib : Library) : Node → Prop
  | .bool _ | .int _ | .float (.finite _) => True
  | .text text => lib.int (.text text) ≠ none
  | .bytes raw => lib.int (.bytes raw) ≠ none
  | _ => False

/-- A value that stands for a list is iterated over, or is false. -/
def Iterable (value : Node) : Prop :=
  value.truthy = true → value.iterate ≠ none

/-- `str(raw.get(key, ""))` does not raise. -/
def PrintedAt (lib : Library) (raw : Entries) (key : String) : Prop :=
  Printed lib ((get? raw key).getD (.text []))

/-- `str(raw.get(key))` does not raise where it is asked for. -/
def PrintedIf (lib : Library) (raw : Entries) (key : String) : Prop :=
  (get raw key).truthy = true → Printed lib (get raw key)

def isWidget (raw : Entries) : Bool :=
  (get raw "type").isText "widget"

/-- The texts of a tile can be printed. -/
def PrintedTile (lib : Library) (raw : Entries) : Prop :=
  if isWidget raw then PrintedAt lib raw "widget" ∧ PrintedIf lib raw "title"
  else PrintedAt lib raw "name" ∧ PrintedAt lib raw "href" ∧ PrintedAt lib raw "description" ∧
    PrintedIf lib raw "icon"

theorem textOf_ok_iff {value : Node} : (∃ text, textOf lib value = .ok text) ↔ Printed lib value := by
  unfold Printed
  cases value with
  | text chars => exact iff_of_true ⟨chars, rfl⟩ (.inl ⟨chars, rfl⟩)
  | _ =>
      simp only [textOf, reduceCtorEq, exists_false, false_or]
      split
      · next text htext => simp [htext]
      · next hnone => simp [hnone]

theorem textAt_ok_iff {raw : Entries} {key : String} :
    (∃ text, textAt lib raw key = .ok text) ↔ PrintedAt lib raw key :=
  textOf_ok_iff

theorem textOr_ok_iff {raw : Entries} {key : String} :
    (∃ text, textOr lib (get raw key) = .ok text) ↔ PrintedIf lib raw key := by
  unfold textOr PrintedIf
  split
  · next htruthy =>
      rw [← textOf_ok_iff]
      cases textOf lib (get raw key) with
      | error raised => simp [Except.map, htruthy]
      | ok text => simp [Except.map]
  · next hfalsy => simp [hfalsy]

theorem intOf_ok_iff {value : Node} : (∃ number, intOf lib value = .ok number) ↔ Counted lib value := by
  cases value with
  | float value => cases value <;> simp [intOf, Counted]
  | text chars =>
      simp only [intOf, Counted]
      split
      · next number hnumber => simp [hnumber]
      · next hnone => simp [hnone]
  | bytes raw =>
      simp only [intOf, Counted]
      split
      · next number hnumber => simp [hnumber]
      · next hnone => simp [hnone]
  | _ => simp [intOf, Counted]

/-! ### The mappings of a document -/

/-- The mappings in a value that stands for a list. -/
def dictsOf (value : Node) : List Entries :=
  if value.truthy then (value.iterate.getD []).filterMap Node.entries? else []

def groupDicts (raw : Entries) : List Entries :=
  dictsOf (get raw "groups")

def tileDicts (group : Entries) : List Entries :=
  dictsOf (get group "tiles")

theorem dictsAt_eq_ok_iff {raw : Entries} {key : String} {dicts : List Entries} :
    dictsAt raw key = .ok dicts ↔ Iterable (get raw key) ∧ dicts = dictsOf (get raw key) := by
  unfold dictsAt Iterable dictsOf
  split
  · next htruthy =>
      cases (get raw key).iterate with
      | none => simp [htruthy]
      | some items =>
          simp only [ne_eq, reduceCtorEq, not_false_eq_true, implies_true, true_and,
            Option.getD_some, Except.ok.injEq]
          exact eq_comm
  · next hfalsy =>
      simp only [hfalsy, Bool.false_eq_true, false_implies, true_and, Except.ok.injEq]
      exact eq_comm

/-- The type and the valid id of a tile's mapping. -/
def clueOf (lib : Library) (raw : Entries) : PyText × PyText :=
  ((textAt lib raw "widget").toOption.getD [], idFromRaw (get raw "id"))

/-- The type and the valid id of each widget of a document, in order. -/
def clues (lib : Library) (raw : Entries) : List (PyText × PyText) :=
  (((groupDicts raw).flatMap tileDicts).filter isWidget).map (clueOf lib)

/-- The valid ids among them. -/
def idsOf (clues : List (PyText × PyText)) : Finset PyText :=
  ((clues.map Prod.snd).filter (· ≠ [])).toFinset

/-- A document whose every part can be coerced. -/
structure Usable (lib : Library) (raw : Entries) : Prop where
  groups : Iterable (get raw "groups")
  tiles : ∀ group ∈ groupDicts raw, Iterable (get group "tiles")
  names : ∀ group ∈ groupDicts raw, PrintedAt lib group "name"
  texts : ∀ group ∈ groupDicts raw, ∀ tile ∈ tileDicts group, PrintedTile lib tile
  version : Counted lib ((get? raw "version").getD (.int 1))
  /-- The type of a widget that has no valid id of its own, or repeats one, can be encoded. -/
  encoded : ∀ before clue after, clues lib raw = before ++ clue :: after →
    (clue.2 = [] ∨ ∃ other ∈ before, other.2 = clue.2) → ∀ c ∈ clue.1, PyText.surrogate c = false
  /-- There are as many free ids as such widgets. -/
  room : (clues lib raw).length ≤
    (idsOf (clues lib raw)).card + (eightDigits \ idsOf (clues lib raw)).card

/-! ### The tiles and the groups -/

/-- What the assignment of ids looks at. -/
def WidgetTile.clue (tile : WidgetTile) : PyText × PyText :=
  (tile.widget, tile.id)

theorem widgetFromDict_ok_iff {raw : Entries} :
    (∃ tile, widgetFromDict lib raw = .ok tile) ↔
      PrintedAt lib raw "widget" ∧ PrintedIf lib raw "title" := by
  rw [← textAt_ok_iff, ← textOr_ok_iff]
  constructor
  · rintro ⟨tile, htile⟩
    obtain ⟨widget, hwidget, hafter⟩ := Paired.bind_eq_ok.1 htile
    obtain ⟨title, htitle, -⟩ := Paired.bind_eq_ok.1 hafter
    exact ⟨⟨widget, hwidget⟩, title, htitle⟩
  · rintro ⟨⟨widget, hwidget⟩, title, htitle⟩
    exact ⟨_, Paired.bind_eq_ok.2 ⟨widget, hwidget, Paired.bind_eq_ok.2 ⟨title, htitle, rfl⟩⟩⟩

theorem clue_widgetFromDict {raw : Entries} {tile : WidgetTile}
    (h : widgetFromDict lib raw = .ok tile) : tile.clue = clueOf lib raw := by
  obtain ⟨widget, hwidget, hafter⟩ := Paired.bind_eq_ok.1 h
  obtain ⟨title, -, hresult⟩ := Paired.bind_eq_ok.1 hafter
  obtain rfl := Except.ok.inj hresult
  unfold clueOf
  rw [hwidget]
  rfl

theorem tileFromDict_ok_iff {raw : Entries} :
    (∃ tile, tileFromDict lib raw = .ok tile) ↔ PrintedTile lib raw := by
  unfold tileFromDict PrintedTile isWidget
  split
  · rw [← widgetFromDict_ok_iff]
    cases widgetFromDict lib raw with
    | error raised => simp [Except.map]
    | ok tile => simp [Except.map]
  · rw [← textAt_ok_iff, ← textAt_ok_iff, ← textAt_ok_iff, ← textOr_ok_iff]
    constructor
    · rintro ⟨tile, htile⟩
      obtain ⟨name, hname, hafter⟩ := Paired.bind_eq_ok.1 htile
      obtain ⟨href, hhref, hafter⟩ := Paired.bind_eq_ok.1 hafter
      obtain ⟨description, hdescription, hafter⟩ := Paired.bind_eq_ok.1 hafter
      obtain ⟨icon, hicon, -⟩ := Paired.bind_eq_ok.1 hafter
      exact ⟨⟨name, hname⟩, ⟨href, hhref⟩, ⟨description, hdescription⟩, icon, hicon⟩
    · rintro ⟨⟨name, hname⟩, ⟨href, hhref⟩, ⟨description, hdescription⟩, icon, hicon⟩
      exact ⟨_, Paired.bind_eq_ok.2 ⟨name, hname, Paired.bind_eq_ok.2 ⟨href, hhref,
        Paired.bind_eq_ok.2 ⟨description, hdescription, Paired.bind_eq_ok.2 ⟨icon, hicon, rfl⟩⟩⟩⟩⟩

theorem clues_tileFromDict {raw : Entries} {tile : Tile} (h : tileFromDict lib raw = .ok tile) :
    (widgetsOf [tile]).map WidgetTile.clue = ([raw].filter isWidget).map (clueOf lib) := by
  unfold tileFromDict at h
  split at h
  · next hwidget =>
      cases hread : widgetFromDict lib raw with
      | error raised =>
          rw [hread] at h
          cases h
      | ok found =>
          rw [hread] at h
          obtain rfl := Except.ok.inj h
          rw [List.filter_cons_of_pos (p := isWidget) hwidget]
          exact congrArg (· :: []) (clue_widgetFromDict hread)
  · next hlink =>
      obtain ⟨name, -, hafter⟩ := Paired.bind_eq_ok.1 h
      obtain ⟨href, -, hafter⟩ := Paired.bind_eq_ok.1 hafter
      obtain ⟨description, -, hafter⟩ := Paired.bind_eq_ok.1 hafter
      obtain ⟨icon, -, hresult⟩ := Paired.bind_eq_ok.1 hafter
      obtain rfl := Except.ok.inj hresult
      rw [List.filter_cons_of_neg (p := isWidget) hlink]
      rfl

theorem clues_tiles {dicts : List Entries} {tiles : List Tile}
    (h : dicts.mapM (tileFromDict lib) = .ok tiles) :
    (widgetsOf tiles).map WidgetTile.clue = (dicts.filter isWidget).map (clueOf lib) := by
  induction Paired.mapM_eq_ok_iff.1 h with
  | nil => rfl
  | @cons dict tile dicts tiles htile hrest ih =>
      have hfirst := clues_tileFromDict htile
      have htail := ih (Paired.mapM_eq_ok_iff.2 hrest)
      calc (widgetsOf (tile :: tiles)).map WidgetTile.clue
          = (widgetsOf [tile]).map WidgetTile.clue ++ (widgetsOf tiles).map WidgetTile.clue := by
            rw [← List.map_append]
            exact congrArg (List.map WidgetTile.clue) (List.filterMap_append (l := [tile]))
        _ = (([dict] ++ dicts).filter isWidget).map (clueOf lib) := by
            rw [hfirst, htail, List.filter_append, List.map_append]

theorem groupFromDict_ok_iff {raw : Entries} :
    (∃ group, groupFromDict lib raw = .ok group) ↔
      Iterable (get raw "tiles") ∧ (∀ tile ∈ tileDicts raw, PrintedTile lib tile) ∧
        PrintedAt lib raw "name" := by
  have htiles : (∃ tiles, (tileDicts raw).mapM (tileFromDict lib) = .ok tiles) ↔
      ∀ tile ∈ tileDicts raw, PrintedTile lib tile := by
    rw [Paired.exists_mapM_eq_ok_iff]
    exact forall₂_congr fun tile _ => tileFromDict_ok_iff
  rw [← htiles, ← textAt_ok_iff]
  constructor
  · rintro ⟨group, hgroup⟩
    obtain ⟨dicts, hdicts, hafter⟩ := Paired.bind_eq_ok.1 hgroup
    obtain ⟨tiles, hread, hafter⟩ := Paired.bind_eq_ok.1 hafter
    obtain ⟨name, hname, -⟩ := Paired.bind_eq_ok.1 hafter
    obtain ⟨hiterable, rfl⟩ := dictsAt_eq_ok_iff.1 hdicts
    exact ⟨hiterable, ⟨tiles, hread⟩, name, hname⟩
  · rintro ⟨hiterable, ⟨tiles, hread⟩, name, hname⟩
    exact ⟨_, Paired.bind_eq_ok.2 ⟨_, dictsAt_eq_ok_iff.2 ⟨hiterable, rfl⟩,
      Paired.bind_eq_ok.2 ⟨tiles, hread, Paired.bind_eq_ok.2 ⟨name, hname, rfl⟩⟩⟩⟩

theorem clues_group {raw : Entries} {group : TileGroup} (h : groupFromDict lib raw = .ok group) :
    (widgetsOf group.tiles).map WidgetTile.clue =
      ((tileDicts raw).filter isWidget).map (clueOf lib) := by
  obtain ⟨dicts, hdicts, hafter⟩ := Paired.bind_eq_ok.1 h
  obtain ⟨tiles, hread, hafter⟩ := Paired.bind_eq_ok.1 hafter
  obtain ⟨name, -, hresult⟩ := Paired.bind_eq_ok.1 hafter
  obtain ⟨-, rfl⟩ := dictsAt_eq_ok_iff.1 hdicts
  obtain rfl := Except.ok.inj hresult
  exact clues_tiles hread

theorem clues_groups {dicts : List Entries} {groups : List TileGroup}
    (h : dicts.mapM (groupFromDict lib) = .ok groups) :
    (widgetsOf (groups.flatMap TileGroup.tiles)).map WidgetTile.clue =
      ((dicts.flatMap tileDicts).filter isWidget).map (clueOf lib) := by
  induction Paired.mapM_eq_ok_iff.1 h with
  | nil => rfl
  | @cons dict group dicts groups hgroup hrest ih =>
      have htail := ih (Paired.mapM_eq_ok_iff.2 hrest)
      rw [List.flatMap_cons, List.flatMap_cons, List.filter_append, List.map_append, ← htail,
        ← clues_group hgroup, ← List.map_append]
      exact congrArg (List.map WidgetTile.clue) List.filterMap_append

/-! ### The ids that are kept -/

/-- The types of the widgets that need an id. -/
def needing (taken : List PyText) : List (PyText × PyText) → List PyText
  | [] => []
  | clue :: rest =>
      if clue.2 = [] ∨ clue.2 ∈ taken then clue.1 :: needing taken rest
      else needing (clue.2 :: taken) rest

/-- The types of the tiles that have no id. -/
def nameless (tiles : List WidgetTile) : List PyText :=
  (tiles.filter (·.id = [])).map WidgetTile.widget

theorem nameless_cons_of_empty {tile : WidgetTile} {rest : List WidgetTile} (h : tile.id = []) :
    nameless (tile :: rest) = tile.widget :: nameless rest := by
  unfold nameless
  rw [List.filter_cons_of_pos (by simpa using h), List.map_cons]

theorem nameless_cons_of_ne {tile : WidgetTile} {rest : List WidgetTile} (h : tile.id ≠ []) :
    nameless (tile :: rest) = nameless rest := by
  unfold nameless
  rw [List.filter_cons_of_neg (by simpa using h)]

theorem idsOf_cons_of_empty {clue : PyText × PyText} {rest : List (PyText × PyText)}
    (h : clue.2 = []) : idsOf (clue :: rest) = idsOf rest := by
  unfold idsOf
  rw [List.map_cons, List.filter_cons_of_neg (by simpa using h)]

theorem idsOf_cons_of_ne {clue : PyText × PyText} {rest : List (PyText × PyText)}
    (h : clue.2 ≠ []) : idsOf (clue :: rest) = insert clue.2 (idsOf rest) := by
  unfold idsOf
  rw [List.map_cons, List.filter_cons_of_pos (by simpa using h), List.toFinset_cons]

theorem nameless_keepIds (taken : List PyText) (tiles : List WidgetTile) :
    nameless (keepIds taken tiles).2 = needing taken (tiles.map WidgetTile.clue) := by
  induction tiles generalizing taken with
  | nil => rfl
  | cons tile rest ih =>
      rw [List.map_cons, keepIds, needing]
      have hid : tile.clue.2 = tile.id := rfl
      rw [hid]
      split
      · next hmem =>
          rw [if_pos (.inr hmem)]
          exact (nameless_cons_of_empty rfl).trans (congrArg (tile.widget :: ·) (ih taken))
      · next hfree =>
          split
          · next hempty =>
              rw [if_pos (.inl hempty)]
              exact (nameless_cons_of_empty hempty).trans (congrArg (tile.widget :: ·) (ih taken))
          · next hsome =>
              rw [if_neg (not_or.2 ⟨hsome, hfree⟩)]
              exact (nameless_cons_of_ne hsome).trans (ih (tile.id :: taken))

theorem taken_keepIds (taken : List PyText) (tiles : List WidgetTile) :
    (keepIds taken tiles).1.toFinset = taken.toFinset ∪ idsOf (tiles.map WidgetTile.clue) := by
  induction tiles generalizing taken with
  | nil => exact (Finset.union_empty _).symm
  | cons tile rest ih =>
      rw [List.map_cons, keepIds]
      split
      · next hmem =>
          rw [ih taken]
          by_cases hempty : tile.id = []
          · rw [idsOf_cons_of_empty hempty]
          · rw [idsOf_cons_of_ne hempty, Finset.union_insert]
            exact (Finset.insert_eq_self.2 (Finset.mem_union_left _ (List.mem_toFinset.2 hmem))).symm
      · split
        · next hempty => rw [ih taken, idsOf_cons_of_empty hempty]
        · next hsome =>
            rw [ih (tile.id :: taken), idsOf_cons_of_ne hsome, List.toFinset_cons,
              Finset.union_insert, Finset.insert_union]
            rfl

/-- Who needs an id makes up for the ids that are there. -/
theorem length_needing (taken : List PyText) (clues : List (PyText × PyText)) :
    (needing taken clues).length + (taken.toFinset ∪ idsOf clues).card =
      clues.length + taken.toFinset.card := by
  induction clues generalizing taken with
  | nil =>
      have hnone : idsOf [] = ∅ := rfl
      rw [needing, hnone, Finset.union_empty]
      rfl
  | cons clue rest ih =>
      rw [needing]
      split
      · next hneeds =>
          have hsame : taken.toFinset ∪ idsOf (clue :: rest) = taken.toFinset ∪ idsOf rest := by
            by_cases hempty : clue.2 = []
            · rw [idsOf_cons_of_empty hempty]
            · have hmem := List.mem_toFinset.2 (hneeds.resolve_left hempty)
              rw [idsOf_cons_of_ne hempty, Finset.union_insert,
                Finset.insert_eq_self.2 (Finset.mem_union_left _ hmem)]
          have hrest := ih taken
          rw [hsame, List.length_cons, List.length_cons]
          omega
      · next hfree =>
          obtain ⟨hsome, hnew⟩ := not_or.1 hfree
          have hsame : taken.toFinset ∪ idsOf (clue :: rest) =
              (clue.2 :: taken).toFinset ∪ idsOf rest := by
            rw [idsOf_cons_of_ne hsome, List.toFinset_cons, Finset.union_insert, Finset.insert_union]
          have hcard : (clue.2 :: taken).toFinset.card = taken.toFinset.card + 1 := by
            rw [List.toFinset_cons, Finset.card_insert_of_notMem (by simpa using hnew)]
          have hrest := ih (clue.2 :: taken)
          rw [hsame, List.length_cons]
          omega

/-- Which tiles need an id: those without a valid one, and those that repeat one. -/
theorem forall_needing {P : PyText → Prop} (taken : List PyText) (clues : List (PyText × PyText)) :
    (∀ widget ∈ needing taken clues, P widget) ↔
      ∀ before clue after, clues = before ++ clue :: after →
        (clue.2 = [] ∨ clue.2 ∈ taken ∨ ∃ other ∈ before, other.2 = clue.2) → P clue.1 := by
  induction clues generalizing taken with
  | nil =>
      refine iff_of_true (fun _ hwidget => absurd hwidget List.not_mem_nil) ?_
      intro before clue after h
      simp at h
  | cons first rest ih =>
      rw [needing]
      constructor
      · intro h before clue after hsplit hneeds
        cases before with
        | nil =>
            obtain ⟨rfl, rfl⟩ := List.cons.inj hsplit
            have hfirst : first.2 = [] ∨ first.2 ∈ taken := by simpa using hneeds
            rw [if_pos hfirst, List.forall_mem_cons] at h
            exact h.1
        | cons one before =>
            obtain ⟨rfl, rfl⟩ := List.cons.inj hsplit
            split at h
            · next hfirst =>
                rw [List.forall_mem_cons] at h
                apply (ih taken).1 h.2 before clue after rfl
                rcases hneeds with hempty | hmem | ⟨other, hother, hsame⟩
                · exact .inl hempty
                · exact .inr (.inl hmem)
                · rcases List.mem_cons.1 hother with rfl | hbefore
                  · rcases hfirst with hnone | htaken
                    · exact .inl (hsame.symm.trans hnone)
                    · exact .inr (.inl (hsame ▸ htaken))
                  · exact .inr (.inr ⟨other, hbefore, hsame⟩)
            · next hfirst =>
                apply (ih (first.2 :: taken)).1 h before clue after rfl
                rcases hneeds with hempty | hmem | ⟨other, hother, hsame⟩
                · exact .inl hempty
                · exact .inr (.inl (List.mem_cons_of_mem _ hmem))
                · rcases List.mem_cons.1 hother with rfl | hbefore
                  · exact .inr (.inl (hsame ▸ List.mem_cons_self))
                  · exact .inr (.inr ⟨other, hbefore, hsame⟩)
      · intro h
        split
        · next hfirst =>
            rw [List.forall_mem_cons]
            refine ⟨h [] first rest rfl (hfirst.imp_right .inl), (ih taken).2 ?_⟩
            intro before clue after hsplit hneeds
            apply h (first :: before) clue after (congrArg (first :: ·) hsplit)
            rcases hneeds with hempty | hmem | ⟨other, hother, hsame⟩
            · exact .inl hempty
            · exact .inr (.inl hmem)
            · exact .inr (.inr ⟨other, List.mem_cons_of_mem _ hother, hsame⟩)
        · next hfirst =>
            apply (ih (first.2 :: taken)).2
            intro before clue after hsplit hneeds
            apply h (first :: before) clue after (congrArg (first :: ·) hsplit)
            rcases hneeds with hempty | hmem | ⟨other, hother, hsame⟩
            · exact .inl hempty
            · rcases List.mem_cons.1 hmem with heq | htaken
              · exact .inr (.inr ⟨first, List.mem_cons_self, heq.symm⟩)
              · exact .inr (.inl htaken)
            · exact .inr (.inr ⟨other, List.mem_cons_of_mem _ hother, hsame⟩)

/-! ### The ids that are given -/

/-- A text without lone surrogates. -/
def Encodable (text : PyText) : Prop :=
  ∀ c ∈ text, PyText.surrogate c = false

theorem numbered_isSome_iff (widget : PyText) (number : Nat) :
    (numbered widget number).encode.isSome = true ↔ Encodable widget := by
  rw [PyText.encode_isSome_iff, numbered]
  constructor
  · exact fun h c hc => h c (List.mem_append_left _ hc)
  · intro h c hc
    rcases List.mem_append.1 hc with hwidget | hnumber
    · exact h c hwidget
    · exact PyText.surrogate_of _ c hnumber

theorem take_hexdigest (hdigests : Digests lib) (raw : List UInt8) :
    (lib.hexdigest raw).take 8 ∈ eightDigits := by
  obtain ⟨hlength, hdigits⟩ := hdigests.hexdigest raw
  apply mem_hexTexts.2
  refine ⟨?_, fun c hc => hdigits c (List.mem_of_mem_take hc)⟩
  rw [List.length_take, hlength]
  rfl

theorem freeId_succ {widget : PyText} {taken : List PyText} {rounds number : Nat} {raw : List UInt8}
    (hraw : (numbered widget number).encode = some raw) :
    freeId lib widget taken (rounds + 1) number =
      if (lib.hexdigest raw).take 8 ∈ taken then freeId lib widget taken rounds (number + 1)
      else .ok ((lib.hexdigest raw).take 8, number + 1) := by
  rw [freeId, hraw]

/-- A search that has found something could encode what it looked at. -/
theorem encoded_of_freeId {widget : PyText} {taken : List PyText} {rounds number : Nat}
    {result : PyText × Nat} (h : freeId lib widget taken (rounds + 1) number = .ok result) :
    ∃ raw, (numbered widget number).encode = some raw := by
  rw [freeId] at h
  split at h
  · cases h
  · next raw hraw => exact ⟨raw, hraw⟩

theorem freeId_spec (hdigests : Digests lib) {widget : PyText} {taken : List PyText}
    {rounds number : Nat} {result : PyText × Nat}
    (h : freeId lib widget taken rounds number = .ok result) :
    Encodable widget ∧ result.1 ∉ taken ∧ result.1 ∈ eightDigits := by
  induction rounds generalizing number with
  | zero => cases h
  | succ rounds ih =>
      obtain ⟨raw, hraw⟩ := encoded_of_freeId h
      rw [freeId_succ hraw] at h
      split at h
      · exact ih h
      · next hfree =>
          obtain rfl := Except.ok.inj h
          refine ⟨(numbered_isSome_iff widget number).1 ?_, hfree, take_hexdigest hdigests raw⟩
          rw [hraw]
          rfl

/-- More rounds find what fewer have found. -/
theorem freeId_mono {widget : PyText} {taken : List PyText} {rounds rounds' number : Nat}
    {result : PyText × Nat} (hle : rounds ≤ rounds')
    (h : freeId lib widget taken rounds number = .ok result) :
    freeId lib widget taken rounds' number = .ok result := by
  induction rounds generalizing rounds' number with
  | zero => cases h
  | succ rounds ih =>
      obtain ⟨more, rfl⟩ : ∃ more, rounds' = more + 1 := ⟨rounds' - 1, by omega⟩
      obtain ⟨raw, hraw⟩ := encoded_of_freeId h
      rw [freeId_succ hraw] at h ⊢
      split at h
      · next htaken =>
          rw [if_pos htaken]
          exact ih (by omega) h
      · next hfree =>
          rw [if_neg hfree]
          exact h

/-- The search ends where a later number has a free digest. -/
theorem freeId_of_later {widget : PyText} (hwidget : Encodable widget) {taken : List PyText}
    {n : Nat} {raw : List UInt8} (hraw : (numbered widget n).encode = some raw)
    (hfree : (lib.hexdigest raw).take 8 ∉ taken) {number : Nat} (hle : number ≤ n) :
    ∃ result, freeId lib widget taken (n - number + 1) number = .ok result := by
  obtain ⟨distance, rfl⟩ := Nat.exists_eq_add_of_le hle
  induction distance generalizing number with
  | zero =>
      rw [Nat.add_zero] at hraw ⊢
      rw [Nat.add_sub_cancel_left, freeId_succ hraw]
      exact ⟨_, if_neg hfree⟩
  | succ distance ih =>
      have hrounds : number + (distance + 1) - number + 1 =
          (number + 1 + distance - (number + 1) + 1) + 1 := by omega
      obtain ⟨first, hfirst⟩ :=
        Option.isSome_iff_exists.1 ((numbered_isSome_iff widget number).2 hwidget)
      rw [hrounds, freeId_succ hfirst]
      by_cases htaken : (lib.hexdigest first).take 8 ∈ taken
      · have hnext : number + 1 + distance = number + (distance + 1) := by omega
        rw [← hnext] at hraw
        obtain ⟨result, hresult⟩ := ih hraw (by omega)
        exact ⟨result, (if_pos htaken).trans hresult⟩
      · exact ⟨_, if_neg htaken⟩

theorem freeId_ends (hdigests : Digests lib) {widget : PyText} (hwidget : Encodable widget)
    {taken : List PyText} (hroom : 0 < (eightDigits \ taken.toFinset).card) (number : Nat) :
    ∃ rounds result, freeId lib widget taken rounds number = .ok result := by
  obtain ⟨text, htext⟩ := Finset.card_pos.1 hroom
  obtain ⟨hdigits, hfree⟩ := Finset.mem_sdiff.1 htext
  obtain ⟨n, raw, hle, hraw, hdigest⟩ := hdigests.spread widget hwidget number text hdigits
  have hnew : (lib.hexdigest raw).take 8 ∉ taken := by
    rw [hdigest]
    simpa using hfree
  exact ⟨_, freeId_of_later hwidget hraw hnew hle⟩

theorem giveIds_cons_of_ne {rounds : Nat} {taken : List PyText} {counters : List (PyText × Nat)}
    {tile : WidgetTile} {rest : List WidgetTile} (h : tile.id ≠ []) :
    giveIds lib rounds taken counters (tile :: rest) =
      (giveIds lib rounds taken counters rest).map (tile :: ·) := by
  rw [giveIds, if_pos h]

theorem giveIds_cons_of_empty {rounds : Nat} {taken : List PyText} {counters : List (PyText × Nat)}
    {tile : WidgetTile} {rest named : List WidgetTile} (h : tile.id = []) :
    giveIds lib rounds taken counters (tile :: rest) = .ok named ↔
      ∃ digest number more,
        freeId lib tile.widget taken rounds ((counters.lookup tile.widget).getD 0) =
          .ok (digest, number) ∧
        giveIds lib rounds (digest :: taken) ((tile.widget, number) :: counters) rest = .ok more ∧
        named = { tile with id := digest } :: more := by
  rw [giveIds, if_neg (not_not.2 h)]
  constructor
  · intro hgiven
    obtain ⟨⟨digest, number⟩, hfree, hafter⟩ := Paired.bind_eq_ok.1 hgiven
    obtain ⟨more, hmore, hresult⟩ := Paired.bind_eq_ok.1 hafter
    exact ⟨digest, number, more, hfree, hmore, (Except.ok.inj hresult).symm⟩
  · rintro ⟨digest, number, more, hfree, hmore, rfl⟩
    exact Paired.bind_eq_ok.2 ⟨(digest, number), hfree, Paired.bind_eq_ok.2 ⟨more, hmore, rfl⟩⟩

theorem map_eq_ok_iff {α β : Type} {x : Except Raised α} {f : α → β} {b : β} :
    x.map f = .ok b ↔ ∃ a, x = .ok a ∧ f a = b := by
  cases x with
  | error raised => simp [Except.map]
  | ok a => simp [Except.map]

theorem giveIds_mono {rounds rounds' : Nat} (hle : rounds ≤ rounds') {taken : List PyText}
    {counters : List (PyText × Nat)} {tiles named : List WidgetTile}
    (h : giveIds lib rounds taken counters tiles = .ok named) :
    giveIds lib rounds' taken counters tiles = .ok named := by
  induction tiles generalizing taken counters named with
  | nil => exact h
  | cons tile rest ih =>
      by_cases hempty : tile.id = []
      · obtain ⟨digest, number, more, hfree, hmore, rfl⟩ := (giveIds_cons_of_empty hempty).1 h
        exact (giveIds_cons_of_empty hempty).2
          ⟨digest, number, more, freeId_mono hle hfree, ih hmore, rfl⟩
      · rw [giveIds_cons_of_ne hempty] at h ⊢
        obtain ⟨more, hmore, rfl⟩ := map_eq_ok_iff.1 h
        exact map_eq_ok_iff.2 ⟨more, ih hmore, rfl⟩

theorem card_sdiff_cons {taken : List PyText} {digest : PyText} (hfree : digest ∉ taken)
    (hdigits : digest ∈ eightDigits) :
    (eightDigits \ (digest :: taken).toFinset).card + 1 = (eightDigits \ taken.toFinset).card := by
  have hmem : digest ∈ eightDigits \ taken.toFinset :=
    Finset.mem_sdiff.2 ⟨hdigits, by simpa using hfree⟩
  have hsame : eightDigits \ (digest :: taken).toFinset =
      (eightDigits \ taken.toFinset).erase digest := by
    rw [List.toFinset_cons, Finset.sdiff_insert]
  rw [hsame, Finset.card_erase_add_one hmem]

/-- The tiles without an id all get one exactly where their types can be encoded and there are as
many free ids. -/
theorem giveIds_ok_iff (hdigests : Digests lib) (taken : List PyText)
    (counters : List (PyText × Nat)) (tiles : List WidgetTile) :
    (∃ rounds named, giveIds lib rounds taken counters tiles = .ok named) ↔
      (∀ widget ∈ nameless tiles, Encodable widget) ∧
        (nameless tiles).length ≤ (eightDigits \ taken.toFinset).card := by
  induction tiles generalizing taken counters with
  | nil =>
      exact iff_of_true ⟨0, [], rfl⟩ ⟨fun _ h => absurd h List.not_mem_nil, Nat.zero_le _⟩
  | cons tile rest ih =>
      by_cases hempty : tile.id = []
      · rw [nameless_cons_of_empty hempty, List.forall_mem_cons, List.length_cons]
        constructor
        · rintro ⟨rounds, named, hgiven⟩
          obtain ⟨digest, number, more, hfree, hmore, -⟩ := (giveIds_cons_of_empty hempty).1 hgiven
          obtain ⟨hwidget, hnew, hdigits⟩ := freeId_spec hdigests hfree
          obtain ⟨hrest, hroom⟩ := (ih _ _).1 ⟨rounds, more, hmore⟩
          have hcard : (eightDigits \ (digest :: taken).toFinset).card + 1 =
            (eightDigits \ taken.toFinset).card := card_sdiff_cons hnew hdigits
          exact ⟨⟨hwidget, hrest⟩, by omega⟩
        · rintro ⟨⟨hwidget, hrest⟩, hroom⟩
          obtain ⟨rounds₁, ⟨digest, number⟩, hfree⟩ :=
            freeId_ends hdigests hwidget (Nat.lt_of_lt_of_le (Nat.succ_pos _) hroom)
              ((counters.lookup tile.widget).getD 0)
          obtain ⟨-, hnew, hdigits⟩ := freeId_spec hdigests hfree
          have hcard : (eightDigits \ (digest :: taken).toFinset).card + 1 =
            (eightDigits \ taken.toFinset).card := card_sdiff_cons hnew hdigits
          obtain ⟨rounds₂, more, hmore⟩ :=
            (ih (digest :: taken) ((tile.widget, number) :: counters)).2 ⟨hrest, by omega⟩
          have hfound := freeId_mono (Nat.le_max_left rounds₁ rounds₂) hfree
          have hgiven := giveIds_mono (Nat.le_max_right rounds₁ rounds₂) hmore
          exact ⟨max rounds₁ rounds₂, { tile with id := digest } :: more,
            (giveIds_cons_of_empty hempty).2 ⟨digest, number, more, hfound, hgiven, rfl⟩⟩
      · rw [nameless_cons_of_ne hempty, ← ih taken counters]
        simp only [giveIds_cons_of_ne hempty, map_eq_ok_iff]
        constructor
        · rintro ⟨rounds, named, more, hmore, -⟩
          exact ⟨rounds, more, hmore⟩
        · rintro ⟨rounds, more, hmore⟩
          exact ⟨rounds, _, more, hmore, rfl⟩

/-- The ids are assigned exactly where those who need one have a type that can be encoded, and there
are enough of them. -/
theorem assignWidgetIds_ok_iff (hdigests : Digests lib) {groups : List TileGroup}
    {clues : List (PyText × PyText)}
    (hclues : (widgetsOf (groups.flatMap TileGroup.tiles)).map WidgetTile.clue = clues) :
    (∃ rounds groups', assignWidgetIds lib rounds groups = .ok groups') ↔
      (∀ before clue after, clues = before ++ clue :: after →
        (clue.2 = [] ∨ ∃ other ∈ before, other.2 = clue.2) → Encodable clue.1) ∧
        clues.length ≤ (idsOf clues).card + (eightDigits \ idsOf clues).card := by
  have hkept := nameless_keepIds [] (widgetsOf (groups.flatMap TileGroup.tiles))
  have htaken := taken_keepIds [] (widgetsOf (groups.flatMap TileGroup.tiles))
  have hcount := length_needing [] clues
  rw [hclues] at hkept htaken
  rw [List.toFinset_nil, Finset.empty_union] at htaken hcount
  have hgiven := giveIds_ok_iff hdigests
    (keepIds [] (widgetsOf (groups.flatMap TileGroup.tiles))).1 []
    (keepIds [] (widgetsOf (groups.flatMap TileGroup.tiles))).2
  rw [hkept, htaken, forall_needing] at hgiven
  have hassign : (∃ rounds groups', assignWidgetIds lib rounds groups = .ok groups') ↔
      ∃ rounds named, giveIds lib rounds (keepIds [] (widgetsOf (groups.flatMap TileGroup.tiles))).1 []
        (keepIds [] (widgetsOf (groups.flatMap TileGroup.tiles))).2 = .ok named := by
    constructor
    · rintro ⟨rounds, groups', h⟩
      obtain ⟨named, hnamed, -⟩ := Paired.bind_eq_ok.1 h
      exact ⟨rounds, named, hnamed⟩
    · rintro ⟨rounds, named, hnamed⟩
      exact ⟨rounds, _, Paired.bind_eq_ok.2 ⟨named, hnamed, rfl⟩⟩
  rw [hassign, hgiven]
  have hnone : ∀ id : PyText, id ∉ ([] : List PyText) := fun _ => List.not_mem_nil
  simp only [hnone, false_or]
  rw [Finset.card_empty] at hcount
  refine and_congr Iff.rfl ?_
  omega

/-! ### The document -/

/-- A mapping is read as a configuration exactly where it is usable. -/
theorem configFromDict_ok_iff (hdigests : Digests lib) {raw : Entries} :
    (∃ rounds config, configFromDict lib rounds raw = .ok config) ↔ Usable lib raw := by
  constructor
  · rintro ⟨rounds, config, h⟩
    obtain ⟨dicts, hdicts, hafter⟩ := Paired.bind_eq_ok.1 h
    obtain ⟨read, hread, hafter⟩ := Paired.bind_eq_ok.1 hafter
    obtain ⟨groups, hgroups, hafter⟩ := Paired.bind_eq_ok.1 hafter
    obtain ⟨version, hversion, -⟩ := Paired.bind_eq_ok.1 hafter
    obtain ⟨hiterable, rfl⟩ := dictsAt_eq_ok_iff.1 hdicts
    have hclues : _ = clues lib raw := clues_groups hread
    obtain ⟨hencoded, hroom⟩ := (assignWidgetIds_ok_iff hdigests hclues).1 ⟨rounds, groups, hgroups⟩
    have hgood : ∀ group ∈ groupDicts raw, _ := fun group hgroup =>
      groupFromDict_ok_iff.1 (Paired.exists_mapM_eq_ok_iff.1 ⟨read, hread⟩ group hgroup)
    exact
      { groups := hiterable
        tiles := fun group hgroup => (hgood group hgroup).1
        names := fun group hgroup => (hgood group hgroup).2.2
        texts := fun group hgroup => (hgood group hgroup).2.1
        version := intOf_ok_iff.1 ⟨version, hversion⟩
        encoded := hencoded
        room := hroom }
  · intro h
    have hgood : ∀ group ∈ groupDicts raw, ∃ read, groupFromDict lib group = .ok read :=
      fun group hgroup => groupFromDict_ok_iff.2
        ⟨h.tiles group hgroup, h.texts group hgroup, h.names group hgroup⟩
    obtain ⟨read, hread⟩ := Paired.exists_mapM_eq_ok hgood
    have hclues : _ = clues lib raw := clues_groups hread
    obtain ⟨rounds, groups, hgroups⟩ :=
      (assignWidgetIds_ok_iff hdigests hclues).2 ⟨h.encoded, h.room⟩
    obtain ⟨version, hversion⟩ := intOf_ok_iff.2 h.version
    exact ⟨rounds, _, Paired.bind_eq_ok.2 ⟨groupDicts raw, dictsAt_eq_ok_iff.2 ⟨h.groups, rfl⟩,
      Paired.bind_eq_ok.2 ⟨read, hread, Paired.bind_eq_ok.2 ⟨groups, hgroups,
        Paired.bind_eq_ok.2 ⟨version, hversion, rfl⟩⟩⟩⟩⟩

/-! ### Errors of other kinds -/

/-- The outcome is no error for a document that cannot be used. -/
def Foreign {α : Type} (outcome : Except Raised α) : Prop :=
  ∀ message, outcome ≠ .error (.tilesFile message)

theorem foreign_ok {α : Type} (a : α) : Foreign (.ok a) := by
  intro message h
  cases h

theorem Foreign.bind {α β : Type} {x : Except Raised α} {f : α → Except Raised β} (hx : Foreign x)
    (hf : ∀ a, Foreign (f a)) : Foreign (x >>= f) := by
  cases x with
  | error raised => exact fun message h => hx message (congrArg Except.error (Except.error.inj h))
  | ok a => exact hf a

theorem Foreign.map {α β : Type} {x : Except Raised α} (f : α → β) (hx : Foreign x) :
    Foreign (x.map f) :=
  hx.bind fun a => foreign_ok (f a)

theorem foreign_mapM {α β : Type} {f : α → Except Raised β} (hf : ∀ a, Foreign (f a))
    (items : List α) : Foreign (items.mapM f) := by
  induction items with
  | nil => exact foreign_ok []
  | cons item rest ih =>
      rw [List.mapM_cons]
      exact (hf item).bind fun first => ih.bind fun more => foreign_ok (first :: more)

theorem foreign_textOf (value : Node) : Foreign (textOf lib value) := by
  intro message h
  unfold textOf at h
  split at h
  · cases h
  · split at h <;> cases h

theorem foreign_textOr (value : Node) : Foreign (textOr lib value) := by
  unfold textOr
  split
  · exact (foreign_textOf value).map some
  · exact foreign_ok none

theorem foreign_intOf (value : Node) : Foreign (intOf lib value) := by
  intro message h
  unfold intOf at h
  split at h
  case h_6 => split at h <;> cases h
  case h_7 => split at h <;> cases h
  all_goals cases h

theorem foreign_dictsAt (raw : Entries) (key : String) : Foreign (dictsAt raw key) := by
  intro message h
  unfold dictsAt at h
  split at h
  · split at h <;> cases h
  · cases h

theorem foreign_tileFromDict (raw : Entries) : Foreign (tileFromDict lib raw) := by
  unfold tileFromDict
  split
  · apply Foreign.map
    exact (foreign_textOf _).bind fun _ => (foreign_textOr _).bind fun _ => foreign_ok _
  · exact (foreign_textOf _).bind fun _ => (foreign_textOf _).bind fun _ =>
      (foreign_textOf _).bind fun _ => (foreign_textOr _).bind fun _ => foreign_ok _

theorem foreign_groupFromDict (raw : Entries) : Foreign (groupFromDict lib raw) :=
  (foreign_dictsAt raw "tiles").bind fun dicts =>
    (foreign_mapM foreign_tileFromDict dicts).bind fun _ =>
      (foreign_textOf _).bind fun _ => foreign_ok _

theorem foreign_freeId (widget : PyText) (taken : List PyText) (rounds number : Nat) :
    Foreign (freeId lib widget taken rounds number) := by
  induction rounds generalizing number with
  | zero =>
      intro message h
      cases h
  | succ rounds ih =>
      intro message h
      rw [freeId] at h
      split at h
      · cases h
      · next raw hraw =>
          by_cases htaken : (lib.hexdigest raw).take 8 ∈ taken
          · exact ih (number + 1) message ((if_pos htaken).symm.trans h)
          · have hfound := (if_neg htaken).symm.trans h
            cases hfound

theorem foreign_giveIds (rounds : Nat) (taken : List PyText) (counters : List (PyText × Nat))
    (tiles : List WidgetTile) : Foreign (giveIds lib rounds taken counters tiles) := by
  induction tiles generalizing taken counters with
  | nil => exact foreign_ok []
  | cons tile rest ih =>
      rw [giveIds]
      split
      · exact (ih taken counters).map _
      · exact (foreign_freeId _ _ _ _).bind fun _ => (ih _ _).bind fun _ => foreign_ok _

/-- A mapping is never refused with the error for a document that cannot be used. -/
theorem foreign_configFromDict (rounds : Nat) (raw : Entries) :
    Foreign (configFromDict lib rounds raw) :=
  (foreign_dictsAt raw "groups").bind fun dicts =>
    (foreign_mapM foreign_groupFromDict dicts).bind fun _ =>
      ((foreign_giveIds rounds _ [] _).bind fun _ => foreign_ok _).bind fun _ =>
        (foreign_intOf _).bind fun _ => foreign_ok _

/-! ### The law -/

/-- What is asked of a text: it is read or refused with its own error, and a save that raises leaves
the stored file. -/
structure TilesFileLaw (lib : Library) (text : PyText) : Prop where
  parses : ∃ rounds, (∃ config, parseTiles lib rounds text = .ok config) ∨
    ∃ message, parseTiles lib rounds text = .error (.tilesFile message)
  unchanged : ∀ rounds weather files raised,
    (saveTilesRaw lib rounds weather text files).1 = .error raised →
      (saveTilesRaw lib rounds weather text files).2.stored = files.stored

/-- A save that raises has not come to the step that takes the stored file's place. -/
theorem saveTiles_raised (weather : Weather) (config : TilesConfig) (files : Files)
    (raised : Raised) : (saveTiles lib weather config files).1 = .error raised →
      (saveTiles lib weather config files).2.stored = files.stored := by
  -- which text the header is makes no difference, and it is long: it is not to be computed
  obtain ⟨header, hheader⟩ : ∃ header, PyText.of Editors.fileHeader = header := ⟨_, rfl⟩
  rw [saveTiles, hheader]
  cases weather.mkdir with
  | false => exact fun _ => rfl
  | true =>
      rw [if_neg (by decide)]
      cases lib.dump (configToDict config) with
      | error refused => exact fun _ => rfl
      | ok document =>
          cases weather.torn with
          | some content => exact fun _ => rfl
          | none =>
              dsimp only
              cases (header ++ document).encode with
              | none => exact fun _ => rfl
              | some raw =>
                  cases weather.replace with
                  | false => exact fun _ => rfl
                  | true =>
                      intro h
                      cases h

theorem saveTilesRaw_raised (rounds : Nat) (weather : Weather) (text : PyText) (files : Files)
    (raised : Raised) : (saveTilesRaw lib rounds weather text files).1 = .error raised →
      (saveTilesRaw lib rounds weather text files).2.stored = files.stored := by
  unfold saveTilesRaw
  split
  · exact fun _ => rfl
  · next config hconfig =>
      have hsave := @saveTiles_raised lib weather config files
      split
      · next error files' hraised =>
          rw [hraised] at hsave
          exact fun _ => hsave error rfl
      · intro h
        cases h

/-- An empty mapping is usable. -/
theorem usable_nil : Usable lib [] where
  groups := fun h => absurd h (by decide)
  tiles := fun _ h => absurd h List.not_mem_nil
  names := fun _ h => absurd h List.not_mem_nil
  texts := fun _ h => absurd h List.not_mem_nil
  version := trivial
  encoded := by
    intro before clue after h
    have hnone : clues lib [] = [] := rfl
    rw [hnone] at h
    simp at h
  room := Nat.zero_le _

/-- What the text comes to is told by its mapping, where it has one. -/
theorem parses_iff (hdigests : Digests lib) (text : PyText) :
    (∃ rounds, (∃ config, parseTiles lib rounds text = .ok config) ∨
      ∃ message, parseTiles lib rounds text = .error (.tilesFile message)) ↔
      ∀ raw, lib.safeLoad text = .ok (.map raw) → Usable lib raw := by
  cases hload : lib.safeLoad text with
  | error exc =>
      have hrefused : parseTiles lib 0 text =
          .error (.tilesFile (PyText.of "tiles.yaml is not valid YAML: " ++ exc)) := by
        rw [parseTiles, hload]
      refine iff_of_true ⟨0, .inr ⟨_, hrefused⟩⟩ ?_
      intro raw h
      cases h
  | ok value =>
      cases htop : (if value.truthy then value else .map []).entries? with
      | none =>
          have hrefused : parseTiles lib 0 text =
              .error (.tilesFile (PyText.of "tiles.yaml must hold a mapping at the top level")) := by
            rw [parseTiles, hload]
            simp only [htop]
          refine iff_of_true ⟨0, .inr ⟨_, hrefused⟩⟩ ?_
          intro raw h
          obtain rfl := Except.ok.inj h
          split at htop <;> cases htop
      | some raw =>
          have hread : ∀ rounds, parseTiles lib rounds text = configFromDict lib rounds raw := by
            intro rounds
            rw [parseTiles, hload]
            simp only [htop]
          have hparsed : (∃ rounds, (∃ config, parseTiles lib rounds text = .ok config) ∨
              ∃ message, parseTiles lib rounds text = .error (.tilesFile message)) ↔
                Usable lib raw := by
            rw [← configFromDict_ok_iff hdigests]
            refine exists_congr fun rounds => ?_
            rw [hread]
            refine or_iff_left ?_
            rintro ⟨message, hmessage⟩
            exact foreign_configFromDict rounds raw message hmessage
          rw [hparsed]
          split at htop
          · next htruthy =>
              have hvalue : value = .map raw := by
                cases value with
                | map entries => exact congrArg Node.map (Option.some.inj htop)
                | _ => cases htop
              constructor
              · intro h raw' hraw'
                obtain rfl := Node.map.inj (hvalue.symm.trans (Except.ok.inj hraw'))
                exact h
              · exact fun h => h raw (congrArg Except.ok hvalue)
          · next hfalsy =>
              obtain rfl := Option.some.inj htop
              refine iff_of_true usable_nil ?_
              intro raw' hraw'
              obtain rfl := Except.ok.inj hraw'
              cases raw' with
              | nil => exact usable_nil
              | cons entry rest => exact absurd rfl hfalsy

/-- The law holds of a text exactly where its mapping, if it has one, is usable. -/
theorem tiles_file_law_iff (hdigests : Digests lib) (text : PyText) :
    TilesFileLaw lib text ↔ ∀ raw, lib.safeLoad text = .ok (.map raw) → Usable lib raw := by
  rw [← parses_iff hdigests]
  exact ⟨TilesFileLaw.parses, fun h => ⟨h, fun rounds weather files raised =>
    saveTilesRaw_raised rounds weather text files raised⟩⟩

/-! ### A document that is usable, and some that are not -/

/-- The low hexadecimal digits of a number, the lowest first. -/
def lowDigits : Nat → Nat → PyText
  | 0, _ => []
  | rounds + 1, n => hexDigits.getD (n % 16) 0 :: lowDigits rounds (n / 16)

theorem hexDigits_length : hexDigits.length = 16 := by decide

theorem lowDigits_mem (k n : Nat) : (lowDigits k n).length = k ∧ ∀ c ∈ lowDigits k n, c ∈ hexDigits := by
  induction k generalizing n with
  | zero => exact ⟨rfl, fun _ hc => absurd hc List.not_mem_nil⟩
  | succ k ih =>
      obtain ⟨hlength, hdigits⟩ := ih (n / 16)
      have hlt : n % 16 < hexDigits.length := by
        rw [hexDigits_length]
        exact Nat.mod_lt n (by decide)
      have hdigit : hexDigits.getD (n % 16) 0 ∈ hexDigits := by
        rw [List.getD_eq_getElem?_getD, List.getElem?_eq_getElem hlt, Option.getD_some]
        exact List.getElem_mem hlt
      refine ⟨congrArg (· + 1) hlength, ?_⟩
      rw [lowDigits, List.forall_mem_cons]
      exact ⟨hdigit, hdigits⟩

/-- Every text of hexadecimal digits is that of numbers as large as one likes. -/
theorem lowDigits_surjective {k : Nat} {text : PyText} (hlength : text.length = k)
    (hdigits : ∀ c ∈ text, c ∈ hexDigits) (bound : Nat) : ∃ n, bound ≤ n ∧ lowDigits k n = text := by
  induction k generalizing text with
  | zero =>
      obtain rfl := List.eq_nil_of_length_eq_zero hlength
      exact ⟨bound, Nat.le_refl bound, rfl⟩
  | succ k ih =>
      cases text with
      | nil => cases hlength
      | cons c rest =>
          rw [List.forall_mem_cons] at hdigits
          obtain ⟨n, hbound, hrest⟩ := ih (Nat.succ.inj hlength) hdigits.2
          obtain ⟨i, hi, hdigit⟩ := List.getElem_of_mem hdigits.1
          have hlt : i < 16 := hexDigits_length ▸ hi
          have hmod : (i + 16 * n) % 16 = i := by omega
          have hdiv : (i + 16 * n) / 16 = n := by omega
          refine ⟨i + 16 * n, by omega, ?_⟩
          rw [lowDigits, hmod, hdiv, hrest, List.getD_eq_getElem?_getD, List.getElem?_eq_getElem hi,
            Option.getD_some, hdigit]

theorem encode_ascii (chars : List Char) (h : ∀ c ∈ chars, c.toNat < 0x80) :
    ∃ raw, PyText.encode (chars.map fun c => Fin.ofNat 0x110000 c.toNat) = some raw ∧
      raw.length = chars.length := by
  induction chars with
  | nil => exact ⟨[], rfl, rfl⟩
  | cons c rest ih =>
      rw [List.forall_mem_cons] at h
      obtain ⟨raw, hraw, hlength⟩ := ih h.2
      have hval : (Fin.ofNat 0x110000 c.toNat).val = c.toNat := Nat.mod_eq_of_lt (by omega)
      have hplain : PyText.surrogate (Fin.ofNat 0x110000 c.toNat) = false := by
        simp only [PyText.surrogate, hval, Bool.and_eq_false_iff, decide_eq_false_iff_not]
        omega
      have hfirst : PyText.utf8 (Fin.ofNat 0x110000 c.toNat) = some [c.toNat.toUInt8] := by
        rw [PyText.utf8, hplain, hval, PyText.bytesOf, if_pos h.1]
        rfl
      refine ⟨c.toNat.toUInt8 :: raw, ?_, congrArg (· + 1) hlength⟩
      rw [List.map_cons, PyText.encode, hfirst, hraw]
      rfl

/-- The bytes of a type and a number are as many as those of the type, a colon and the digits. -/
theorem length_numbered {widget : PyText} {first : List UInt8} (hwidget : widget.encode = some first)
    (number : Nat) : ∃ raw, (numbered widget number).encode = some raw ∧
      raw.length = first.length + 1 + (Nat.toDigits 10 number).length := by
  have hchars : (":" ++ toString number).toList = ':' :: Nat.toDigits 10 number := by
    rw [String.toList_append]
    exact congrArg (':' :: ·) Nat.toList_repr
  have hascii : ∀ c ∈ ':' :: Nat.toDigits 10 number, c.toNat < 0x80 := by
    rw [List.forall_mem_cons]
    refine ⟨by decide, ?_⟩
    intro c hc
    have hdigit := Char.isDigit_iff_toNat.1 (Nat.isDigit_of_mem_toDigits (by decide) (by decide) hc)
    exact Nat.lt_of_le_of_lt hdigit.2 (by decide)
  obtain ⟨raw, hraw, hlength⟩ := encode_ascii _ hascii
  refine ⟨first ++ raw, ?_, ?_⟩
  · rw [numbered, PyText.encode_append, hwidget, Option.bind_some, PyText.of, hchars, hraw]
    rfl
  · rw [List.length_append, hlength, List.length_cons]
    omega

theorem length_digits_pow {n : Nat} (h : 0 < n) : (Nat.toDigits 10 (10 ^ n)).length = n + 1 := by
  have hle := (Nat.length_toDigits_le_iff (n := 10 ^ n) (k := n + 1) (b := 10) (by decide)
    (Nat.succ_pos n)).2 (Nat.pow_lt_pow_right (by decide) (Nat.lt_succ_self n))
  have hgt := mt (Nat.length_toDigits_le_iff (n := 10 ^ n) (k := n) (b := 10) (by decide) h).1
    (Nat.lt_irrefl _)
  omega

/-- A library that knows one digest, and tells the others apart by how many bytes they are of. -/
def exampleLibrary (safeLoad : PyText → Except PyText Node) : Library where
  safeLoad := safeLoad
  dump := fun _ => .ok (PyText.of "version: 1\ngroups: []\n")
  hexdigest := fun raw =>
    if some raw = (PyText.of "backup-age:0").encode then
      PyText.of "f9ead5aba9c498b95f279279ab3c1169b949d3364f518a00e240ca1f6c8ff79a"
    else lowDigits 8 raw.length ++ lowDigits 56 0
  str := fun _ => some (PyText.of "None")
  int := fun _ => none

theorem exampleLibrary_digests (safeLoad : PyText → Except PyText Node) :
    Digests (exampleLibrary safeLoad) where
  hexdigest := by
    intro raw
    simp only [exampleLibrary]
    split
    · have hdigits : "f9ead5aba9c498b95f279279ab3c1169b949d3364f518a00e240ca1f6c8ff79a".toList ⊆
          "0123456789abcdef".toList := by decide
      exact ⟨by decide, fun c hc => List.map_subset _ hdigits hc⟩
    · refine ⟨?_, ?_⟩
      · rw [List.length_append, (lowDigits_mem 8 _).1, (lowDigits_mem 56 _).1]
      · intro c hc
        rcases List.mem_append.1 hc with hlow | hzero
        · exact (lowDigits_mem 8 _).2 c hlow
        · exact (lowDigits_mem 56 _).2 c hzero
  spread := by
    intro widget hwidget number text htext
    obtain ⟨first, hfirst⟩ := Option.isSome_iff_exists.1 ((PyText.encode_isSome_iff widget).2 hwidget)
    obtain ⟨hlength, hdigits⟩ := mem_hexTexts.1 htext
    obtain ⟨target, hbound, hdigest⟩ :=
      lowDigits_surjective hlength hdigits (first.length + number + 20)
    obtain ⟨exponent, htarget⟩ : ∃ exponent, target = first.length + 1 + (exponent + 1) :=
      ⟨target - first.length - 2, by omega⟩
    obtain ⟨raw, hraw, hrawLength⟩ := length_numbered hfirst (10 ^ exponent)
    rw [length_digits_pow (by omega), ← htarget] at hrawLength
    refine ⟨10 ^ exponent, raw, ?_, hraw, ?_⟩
    · have hpow : exponent < 10 ^ exponent := Nat.lt_pow_self (by decide)
      omega
    · have hother : ¬some raw = (PyText.of "backup-age:0").encode := by
        intro h
        have hknown : (PyText.of "backup-age:0").encode.map List.length = some 12 := by decide
        rw [← h, Option.map_some, hrawLength, Option.some.injEq] at hknown
        omega
      simp only [exampleLibrary, if_neg hother, hrawLength]
      rw [List.take_append_of_le_length (Nat.le_of_eq (lowDigits_mem 8 target).1.symm)]
      exact (List.take_of_length_le (Nat.le_of_eq (lowDigits_mem 8 target).1)).trans hdigest

/-- A mapping with texts for its keys. -/
def mapping (entries : List (String × Node)) : Entries :=
  entries.map fun (key, value) => (.text (.of key), value)

/-- A group with one widget of this type, which has no id. -/
def widgetDocument (widget : PyText) : Entries :=
  mapping [("groups", .list [.map (mapping [("name", .text (.of "Ops")), ("tiles", .list
    [.map (mapping [("type", .text (.of "widget")), ("widget", .text widget)])])])])]

theorem tiles_file_law_of_widget :
    TilesFileLaw (exampleLibrary fun _ => .ok (.map (widgetDocument (.of "backup-age"))))
      (.of "groups:\n- name: Ops\n  tiles:\n  - type: widget\n    widget: backup-age\n") := by
  apply (tiles_file_law_iff (exampleLibrary_digests _) _).2
  intro raw hraw
  obtain rfl := Node.map.inj (Except.ok.inj hraw)
  apply (configFromDict_ok_iff (exampleLibrary_digests _)).1
  exact ⟨1,
    { version := 1
      groups := [{ name := .of "Ops", tiles := [.widget
        { widget := .of "backup-age", id := .of "f9ead5ab", title := [], size := .s,
          visibility := .admin }] }] }, by decide +kernel⟩

/-- A version that is null, groups that are a number, and a widget type with half of a surrogate pair
all raise something else. -/
theorem null_version_number_groups_surrogate_type_raise :
    ¬TilesFileLaw (exampleLibrary fun _ => .ok (.map (mapping [("version", .null)])))
      (.of "version:\n") ∧
    ¬TilesFileLaw (exampleLibrary fun _ => .ok (.map (mapping [("groups", .int 5)])))
      (.of "groups: 5\n") ∧
    ¬TilesFileLaw (exampleLibrary fun _ => .ok (.map (widgetDocument [0xd800])))
      (.of "groups:\n- name: Ops\n  tiles:\n  - type: widget\n    widget: \"\\ud800\"\n") := by
  refine ⟨?_, ?_, ?_⟩
  · intro law
    exact ((parses_iff (exampleLibrary_digests _) _).1 law.parses _ rfl).version
  · intro law
    exact ((parses_iff (exampleLibrary_digests _) _).1 law.parses _ rfl).groups rfl rfl
  · intro law
    have husable := (parses_iff (exampleLibrary_digests _) _).1 law.parses _ rfl
    have hplain := husable.encoded [] ([0xd800], []) [] rfl (.inl rfl) 0xd800 List.mem_cons_self
    revert hplain
    decide

end Papaia.TilesFile
