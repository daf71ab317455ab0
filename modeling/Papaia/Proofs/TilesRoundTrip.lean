/-
Module: Papaia.Proofs.TilesRoundTrip
Purpose: What a save writes into `tiles.yaml` is read back as what its answer carries: configurations
  that were read have distinct ids, and a document written from one of them means the same.
Trusted boundary: none
Main exports: TilesConfig.Settled, settled_of_configFromDict, configFromDict_configToDict,
  parseFile_tilesText
-/
import Papaia.Editors.Tiles

namespace Papaia.Editors

/-! ### What is settled -/

/-- The widgets of a list of tiles. -/
def widgetsOf (tiles : List Tile) : List WidgetTile :=
  tiles.filterMap fun
    | .link _ => none
    | .widget tile => some tile

/-- The links of a list of tiles. -/
def linksOf (tiles : List Tile) : List LinkTile :=
  tiles.filterMap fun
    | .link tile => some tile
    | .widget _ => none

/-- All tiles of a configuration. -/
def tilesOf (groups : List TileGroup) : List Tile :=
  groups.flatMap TileGroup.tiles

/-- Tiles whose icons are no empty texts, and whose ids are good and differ. -/
structure Settled (groups : List TileGroup) : Prop where
  icons : ∀ tile ∈ linksOf (tilesOf groups), tile.icon ≠ some ""
  good : ∀ tile ∈ widgetsOf (tilesOf groups), isWidgetId tile.id = true
  distinct : ((widgetsOf (tilesOf groups)).map WidgetTile.id).Nodup

@[simp] theorem widgetsOf_link (tile : LinkTile) (rest : List Tile) :
    widgetsOf (.link tile :: rest) = widgetsOf rest := rfl

@[simp] theorem widgetsOf_widget (tile : WidgetTile) (rest : List Tile) :
    widgetsOf (.widget tile :: rest) = tile :: widgetsOf rest := rfl

@[simp] theorem linksOf_link (tile : LinkTile) (rest : List Tile) :
    linksOf (.link tile :: rest) = tile :: linksOf rest := rfl

@[simp] theorem linksOf_widget (tile : WidgetTile) (rest : List Tile) :
    linksOf (.widget tile :: rest) = linksOf rest := rfl

theorem widgetsOf_append (tiles more : List Tile) :
    widgetsOf (tiles ++ more) = widgetsOf tiles ++ widgetsOf more :=
  List.filterMap_append

theorem linksOf_append (tiles more : List Tile) :
    linksOf (tiles ++ more) = linksOf tiles ++ linksOf more :=
  List.filterMap_append

@[simp] theorem tilesOf_cons (group : TileGroup) (groups : List TileGroup) :
    tilesOf (group :: groups) = group.tiles ++ tilesOf groups :=
  List.flatMap_cons

theorem ne_empty_of_isWidgetId {id : String} (h : isWidgetId id = true) : id ≠ "" := by
  rintro rfl
  revert h
  decide

/-! ### One pass over the widgets -/

section Passes

variable {σ : Type} {f : σ → WidgetTile → Option (σ × WidgetTile)}

/-- A pass over the widgets alone. -/
def thread (f : σ → WidgetTile → Option (σ × WidgetTile)) :
    σ → List WidgetTile → Option (σ × List WidgetTile)
  | s, [] => some (s, [])
  | s, tile :: rest => do
      let (s', tile') ← f s tile
      let (s'', tiles) ← thread f s' rest
      pure (s'', tile' :: tiles)

theorem thread_cons {s s'' : σ} {tile : WidgetTile} {rest tiles : List WidgetTile} :
    thread f s (tile :: rest) = some (s'', tiles) ↔
      ∃ s' tile' rest', f s tile = some (s', tile') ∧ thread f s' rest = some (s'', rest') ∧
        tiles = tile' :: rest' := by
  simp only [thread, Option.bind_eq_bind, Option.bind_eq_some_iff, Option.pure_def, Prod.exists,
    Option.some.injEq, Prod.mk.injEq]
  constructor
  · rintro ⟨s', tile', htile, s₂, rest', hrest, rfl, rfl⟩
    exact ⟨s', tile', rest', htile, hrest, rfl⟩
  · rintro ⟨s', tile', rest', htile, hrest, rfl⟩
    exact ⟨s', tile', htile, s'', rest', hrest, rfl, rfl⟩

theorem thread_append {s s' s'' : σ} {one more one' more' : List WidgetTile}
    (hone : thread f s one = some (s', one')) (hmore : thread f s' more = some (s'', more')) :
    thread f s (one ++ more) = some (s'', one' ++ more') := by
  induction one generalizing s one' with
  | nil =>
      obtain ⟨rfl, rfl⟩ := Prod.mk.inj (Option.some.inj hone)
      exact hmore
  | cons tile rest ih =>
      obtain ⟨s₁, tile', rest', htile, hrest, rfl⟩ := thread_cons.1 hone
      exact thread_cons.2 ⟨s₁, tile', rest' ++ more', htile, ih hrest, rfl⟩

/-- A pass over tiles is one over their widgets, and leaves the links. -/
theorem overTiles_spec {s s' : σ} {tiles tiles' : List Tile}
    (h : overTiles f s tiles = some (s', tiles')) :
    thread f s (widgetsOf tiles) = some (s', widgetsOf tiles') ∧ linksOf tiles' = linksOf tiles := by
  induction tiles generalizing s tiles' with
  | nil =>
      obtain ⟨rfl, rfl⟩ := Prod.mk.inj (Option.some.inj h)
      exact ⟨rfl, rfl⟩
  | cons tile rest ih =>
      cases tile with
      | link tile =>
          obtain ⟨⟨s₁, rest'⟩, hrest, hresult⟩ := Option.bind_eq_some_iff.1 h
          obtain ⟨rfl, rfl⟩ := Prod.mk.inj (Option.some.inj hresult)
          obtain ⟨hwidgets, hlinks⟩ := ih hrest
          exact ⟨hwidgets, congrArg (tile :: ·) hlinks⟩
      | widget tile =>
          obtain ⟨⟨s₁, tile'⟩, htile, hafter⟩ := Option.bind_eq_some_iff.1 h
          obtain ⟨⟨s₂, rest'⟩, hrest, hresult⟩ := Option.bind_eq_some_iff.1 hafter
          obtain ⟨rfl, rfl⟩ := Prod.mk.inj (Option.some.inj hresult)
          obtain ⟨hwidgets, hlinks⟩ := ih hrest
          exact ⟨thread_cons.2 ⟨s₁, tile', _, htile, hwidgets, rfl⟩, hlinks⟩

theorem overGroups_spec {s s' : σ} {groups groups' : List TileGroup}
    (h : overGroups f s groups = some (s', groups')) :
    thread f s (widgetsOf (tilesOf groups)) = some (s', widgetsOf (tilesOf groups')) ∧
      linksOf (tilesOf groups') = linksOf (tilesOf groups) := by
  induction groups generalizing s groups' with
  | nil =>
      obtain ⟨rfl, rfl⟩ := Prod.mk.inj (Option.some.inj h)
      exact ⟨rfl, rfl⟩
  | cons group rest ih =>
      obtain ⟨⟨s₁, tiles⟩, htiles, hafter⟩ := Option.bind_eq_some_iff.1 h
      obtain ⟨⟨s₂, rest'⟩, hrest, hresult⟩ := Option.bind_eq_some_iff.1 hafter
      obtain ⟨rfl, rfl⟩ := Prod.mk.inj (Option.some.inj hresult)
      obtain ⟨hwidgets, hlinks⟩ := overTiles_spec htiles
      obtain ⟨hmoreWidgets, hmoreLinks⟩ := ih hrest
      simp only [tilesOf_cons, widgetsOf_append, linksOf_append]
      exact ⟨thread_append hwidgets hmoreWidgets, by rw [hlinks, hmoreLinks]⟩

theorem thread_append_inv {s s'' : σ} {one more both : List WidgetTile}
    (h : thread f s (one ++ more) = some (s'', both)) :
    ∃ s' one' more', thread f s one = some (s', one') ∧ thread f s' more = some (s'', more') ∧
      one'.length = one.length ∧ both = one' ++ more' := by
  induction one generalizing s both with
  | nil => exact ⟨s, [], both, rfl, h, rfl, rfl⟩
  | cons tile rest ih =>
      obtain ⟨s₁, tile', rest', htile, hrest, rfl⟩ := thread_cons.1 h
      obtain ⟨s', one', more', hone, hmore, hlength, rfl⟩ := ih hrest
      exact ⟨s', tile' :: one', more', thread_cons.2 ⟨s₁, tile', one', htile, hone, rfl⟩, hmore,
        congrArg (· + 1) hlength, rfl⟩

/-- A pass that leaves every widget leaves the tiles. -/
theorem overTiles_of_thread {s s' : σ} {tiles : List Tile}
    (h : thread f s (widgetsOf tiles) = some (s', widgetsOf tiles)) :
    overTiles f s tiles = some (s', tiles) := by
  induction tiles generalizing s with
  | nil =>
      obtain ⟨rfl, -⟩ := Prod.mk.inj (Option.some.inj h)
      rfl
  | cons tile rest ih =>
      cases tile with
      | link tile => exact Option.bind_eq_some_iff.2 ⟨(s', rest), ih h, rfl⟩
      | widget tile =>
          obtain ⟨s₁, tile', rest', htile, hrest, heq⟩ := thread_cons.1 h
          obtain ⟨rfl, rfl⟩ := List.cons.inj heq
          exact Option.bind_eq_some_iff.2 ⟨(s₁, tile), htile,
            Option.bind_eq_some_iff.2 ⟨(s', rest), ih hrest, rfl⟩⟩

theorem overGroups_of_thread {s s' : σ} {groups : List TileGroup}
    (h : thread f s (widgetsOf (tilesOf groups)) = some (s', widgetsOf (tilesOf groups))) :
    overGroups f s groups = some (s', groups) := by
  induction groups generalizing s with
  | nil =>
      obtain ⟨rfl, -⟩ := Prod.mk.inj (Option.some.inj h)
      rfl
  | cons group rest ih =>
      rw [tilesOf_cons, widgetsOf_append] at h
      obtain ⟨s₁, one, more, hone, hmore, hlength, heq⟩ := thread_append_inv h
      obtain ⟨rfl, rfl⟩ := List.append_inj heq hlength.symm
      exact Option.bind_eq_some_iff.2 ⟨(s₁, group.tiles), overTiles_of_thread hone,
        Option.bind_eq_some_iff.2 ⟨(s', rest), ih hmore, rfl⟩⟩

end Passes

/-! ### The ids -/

/-- The ids that are there. -/
def filled (tiles : List WidgetTile) : List String :=
  (tiles.map WidgetTile.id).filter (· ≠ "")

theorem filled_cons_of_empty {tile : WidgetTile} {rest : List WidgetTile} (h : tile.id = "") :
    filled (tile :: rest) = filled rest := by
  unfold filled
  rw [List.map_cons, List.filter_cons_of_neg (by simpa using h)]

theorem filled_cons_of_ne {tile : WidgetTile} {rest : List WidgetTile} (h : tile.id ≠ "") :
    filled (tile :: rest) = tile.id :: filled rest := by
  unfold filled
  rw [List.map_cons, List.filter_cons_of_pos (by simpa using h)]

/-- What the first pass leaves: the ids that are there differ, are taken, and were there before. -/
theorem thread_keepId {taken taken' : List String} {tiles tiles' : List WidgetTile}
    (h : thread keepId taken tiles = some (taken', tiles')) :
    taken ⊆ taken' ∧ (filled tiles').Nodup ∧ (∀ id ∈ filled tiles', id ∈ taken' ∧ id ∉ taken) ∧
      ∀ tile' ∈ tiles', tile'.id = "" ∨ ∃ tile ∈ tiles, tile.id = tile'.id := by
  induction tiles generalizing taken tiles' with
  | nil =>
      obtain ⟨rfl, rfl⟩ := Prod.mk.inj (Option.some.inj h)
      exact ⟨fun _ hid => hid, List.nodup_nil, fun _ hid => absurd hid List.not_mem_nil,
        fun _ htile => absurd htile List.not_mem_nil⟩
  | cons tile rest ih =>
      obtain ⟨s', tile', rest', htile, hrest, rfl⟩ := thread_cons.1 h
      obtain ⟨hgrown, hdistinct, hfilled, hfrom⟩ := ih hrest
      have hfrom' : ∀ other ∈ rest', other.id = "" ∨ ∃ tile₁ ∈ tile :: rest, tile₁.id = other.id := by
        intro other hother
        rcases hfrom other hother with hempty | ⟨before, hbefore, hid⟩
        · exact .inl hempty
        · exact .inr ⟨before, List.mem_cons_of_mem tile hbefore, hid⟩
      unfold keepId at htile
      split at htile
      · obtain ⟨rfl, rfl⟩ := Prod.mk.inj (Option.some.inj htile)
        rw [filled_cons_of_empty rfl]
        refine ⟨hgrown, hdistinct, hfilled, ?_⟩
        rw [List.forall_mem_cons]
        exact ⟨.inl rfl, hfrom'⟩
      · next hfree =>
          split at htile
          · next hempty =>
              obtain ⟨rfl, rfl⟩ := Prod.mk.inj (Option.some.inj htile)
              rw [filled_cons_of_empty hempty]
              refine ⟨hgrown, hdistinct, hfilled, ?_⟩
              rw [List.forall_mem_cons]
              exact ⟨.inl hempty, hfrom'⟩
          · next hsome =>
              obtain ⟨rfl, rfl⟩ := Prod.mk.inj (Option.some.inj htile)
              rw [filled_cons_of_ne hsome]
              refine ⟨fun id hid => hgrown (List.mem_cons_of_mem _ hid), ?_, ?_, ?_⟩
              · rw [List.nodup_cons]
                exact ⟨fun hmem => (hfilled _ hmem).2 List.mem_cons_self, hdistinct⟩
              · rw [List.forall_mem_cons]
                refine ⟨⟨hgrown List.mem_cons_self, hfree⟩, ?_⟩
                intro id hid
                exact ⟨(hfilled id hid).1, fun hold => (hfilled id hid).2 (List.mem_cons_of_mem _ hold)⟩
              · rw [List.forall_mem_cons]
                exact ⟨.inr ⟨tile, List.mem_cons_self, rfl⟩, hfrom'⟩

variable {rt : EditorRuntime}

theorem freeId_spec {widget : String} {taken : List String} {rounds number : Nat}
    {result : String × Nat} (h : freeId rt widget taken rounds number = some result) :
    result.1 ∉ taken ∧ ∃ n, result.1 = widgetDigest rt widget n := by
  induction rounds generalizing number with
  | zero => cases h
  | succ rounds ih =>
      simp only [freeId] at h
      split at h
      · exact ih h
      · next hfree =>
          obtain rfl := Option.some.inj h
          exact ⟨hfree, number, rfl⟩

/-- What the second pass leaves: every tile has an id, and all of them differ. -/
theorem thread_giveId (hdigest : ∀ widget number, isWidgetId (widgetDigest rt widget number) = true)
    {numbering numbering' : Numbering} {tiles tiles' : List WidgetTile}
    (h : thread (giveId rt) numbering tiles = some (numbering', tiles'))
    (htaken : ∀ id ∈ filled tiles, id ∈ numbering.1) (hdistinct : (filled tiles).Nodup)
    (hgood : ∀ tile ∈ tiles, tile.id = "" ∨ isWidgetId tile.id = true) :
    (tiles'.map WidgetTile.id).Nodup ∧ (∀ tile' ∈ tiles', isWidgetId tile'.id = true) ∧
      ∀ tile' ∈ tiles', tile'.id ∈ filled tiles ∨ tile'.id ∉ numbering.1 := by
  induction tiles generalizing numbering tiles' with
  | nil =>
      obtain ⟨rfl, rfl⟩ := Prod.mk.inj (Option.some.inj h)
      exact ⟨List.nodup_nil, fun _ htile => absurd htile List.not_mem_nil,
        fun _ htile => absurd htile List.not_mem_nil⟩
  | cons tile rest ih =>
      obtain ⟨s', tile', rest', htile, hrest, rfl⟩ := thread_cons.1 h
      rw [List.forall_mem_cons] at hgood
      unfold giveId at htile
      split at htile
      · next hsome =>
          obtain ⟨rfl, rfl⟩ := Prod.mk.inj (Option.some.inj htile)
          rw [filled_cons_of_ne hsome] at htaken hdistinct ⊢
          rw [List.forall_mem_cons] at htaken
          rw [List.nodup_cons] at hdistinct
          obtain ⟨hids, hvalid, hnew⟩ := ih hrest htaken.2 hdistinct.2 hgood.2
          refine ⟨?_, ?_, ?_⟩
          · rw [List.map_cons, List.nodup_cons]
            refine ⟨?_, hids⟩
            intro hmem
            obtain ⟨other, hother, hid⟩ := List.mem_map.1 hmem
            rcases hnew other hother with hold | hfresh
            · exact hdistinct.1 (hid ▸ hold)
            · exact hfresh (hid ▸ htaken.1)
          · rw [List.forall_mem_cons]
            exact ⟨hgood.1.resolve_left hsome, hvalid⟩
          · rw [List.forall_mem_cons]
            refine ⟨.inl List.mem_cons_self, ?_⟩
            intro other hother
            rcases hnew other hother with hold | hfresh
            · exact .inl (List.mem_cons_of_mem _ hold)
            · exact .inr hfresh
      · next hempty =>
          have hnone : tile.id = "" := not_not.1 hempty
          obtain ⟨⟨digest, number⟩, hfree, hgiven⟩ := Option.bind_eq_some_iff.1 htile
          obtain ⟨rfl, rfl⟩ := Prod.mk.inj (Option.some.inj hgiven)
          obtain ⟨hfreeId, n, hdigestId⟩ := freeId_spec hfree
          rw [filled_cons_of_empty hnone] at htaken hdistinct ⊢
          obtain ⟨hids, hvalid, hnew⟩ :=
            ih hrest (fun id hid => List.mem_cons_of_mem _ (htaken id hid)) hdistinct hgood.2
          refine ⟨?_, ?_, ?_⟩
          · rw [List.map_cons, List.nodup_cons]
            refine ⟨?_, hids⟩
            intro hmem
            obtain ⟨other, hother, hid⟩ := List.mem_map.1 hmem
            have hsame : other.id = digest := hid
            have hplace := hnew other hother
            rw [hsame] at hplace
            rcases hplace with hold | hfresh
            · exact hfreeId (htaken digest hold)
            · exact hfresh List.mem_cons_self
          · rw [List.forall_mem_cons]
            refine ⟨?_, hvalid⟩
            have hid : digest = widgetDigest rt tile.widget n := hdigestId
            rw [hid]
            exact hdigest tile.widget n
          · rw [List.forall_mem_cons]
            refine ⟨.inr hfreeId, ?_⟩
            intro other hother
            rcases hnew other hother with hold | hfresh
            · exact .inl hold
            · exact .inr fun hmem => hfresh (List.mem_cons_of_mem _ hmem)

/-- Good ids that differ stay as they are. -/
theorem thread_keepId_unchanged {taken : List String} {tiles : List WidgetTile}
    (hgood : ∀ tile ∈ tiles, isWidgetId tile.id = true) (hdistinct : (tiles.map WidgetTile.id).Nodup)
    (hfree : ∀ tile ∈ tiles, tile.id ∉ taken) :
    ∃ taken', thread keepId taken tiles = some (taken', tiles) := by
  induction tiles generalizing taken with
  | nil => exact ⟨taken, rfl⟩
  | cons tile rest ih =>
      rw [List.forall_mem_cons] at hgood hfree
      rw [List.map_cons, List.nodup_cons] at hdistinct
      have hkept : keepId taken tile = some (tile.id :: taken, tile) := by
        unfold keepId
        rw [if_neg hfree.1, if_neg (ne_empty_of_isWidgetId hgood.1)]
      have hrest : ∀ other ∈ rest, other.id ∉ tile.id :: taken := by
        intro other hother hmem
        rcases List.mem_cons.1 hmem with heq | htaken
        · exact hdistinct.1 (heq ▸ List.mem_map_of_mem hother)
        · exact hfree.2 other hother htaken
      obtain ⟨taken', hthread⟩ := ih hgood.2 hdistinct.2 hrest
      exact ⟨taken', thread_cons.2 ⟨_, tile, rest, hkept, hthread, rfl⟩⟩

theorem thread_giveId_unchanged {numbering : Numbering} {tiles : List WidgetTile}
    (hgood : ∀ tile ∈ tiles, isWidgetId tile.id = true) :
    thread (giveId rt) numbering tiles = some (numbering, tiles) := by
  induction tiles with
  | nil => rfl
  | cons tile rest ih =>
      rw [List.forall_mem_cons] at hgood
      have hgiven : giveId rt numbering tile = some (numbering, tile) :=
        if_pos (ne_empty_of_isWidgetId hgood.1)
      exact thread_cons.2 ⟨numbering, tile, rest, hgiven, ih hgood.2, rfl⟩

theorem assignWidgetIds_settled {groups : List TileGroup} (h : Settled groups) :
    assignWidgetIds rt groups = some groups := by
  have hfree : ∀ tile ∈ widgetsOf (tilesOf groups), tile.id ∉ ([] : List String) :=
    fun _ _ => List.not_mem_nil
  obtain ⟨taken, hkept⟩ := thread_keepId_unchanged h.good h.distinct hfree
  have hnamed : overGroups (giveId rt) (taken, []) groups = some ((taken, []), groups) :=
    overGroups_of_thread (thread_giveId_unchanged h.good)
  exact Option.bind_eq_some_iff.2 ⟨(taken, groups), overGroups_of_thread hkept,
    Option.bind_eq_some_iff.2 ⟨((taken, []), groups), hnamed, rfl⟩⟩

/-! ### What is read is settled -/

/-- A hexadecimal digest begins with a good id, and no value but the empty text prints as one. -/
structure Prints (rt : EditorRuntime) : Prop where
  digest : ∀ widget number, isWidgetId (widgetDigest rt widget number) = true
  str : ∀ value, rt.str value ≠ ""

theorem textOf_ne_empty (hprints : Prints rt) {value : Val} (h : value.truthy = true) :
    textOf rt value ≠ "" := by
  unfold textOf
  split
  · next text =>
      intro hempty
      rw [hempty] at h
      cases h
  · exact hprints.str _

theorem icon_tileFromDict (hprints : Prints rt) (raw : Mapping) :
    ∀ tile ∈ linksOf [tileFromDict rt raw], tile.icon ≠ some "" := by
  unfold tileFromDict
  split
  · exact fun _ htile => absurd htile List.not_mem_nil
  · intro tile htile hicon
    obtain rfl := List.mem_singleton.1 htile
    have hsome : (if (raw.getD "icon").truthy then some (textOf rt (raw.getD "icon")) else none) =
        some "" := hicon
    split at hsome
    · next htruthy => exact textOf_ne_empty hprints htruthy (Option.some.inj hsome)
    · cases hsome

theorem id_tileFromDict (raw : Mapping) :
    ∀ tile ∈ widgetsOf [tileFromDict rt raw], tile.id = "" ∨ isWidgetId tile.id = true := by
  unfold tileFromDict
  split
  · intro tile htile
    obtain rfl := List.mem_singleton.1 htile
    simp only [widgetFromDict]
    split
    · split
      · next hgood => exact .inr hgood
      · exact .inl rfl
    · exact .inl rfl
  · exact fun _ htile => absurd htile List.not_mem_nil

/-- What holds of every tile that is read holds of all tiles of the groups. -/
theorem tilesOf_read {P : Tile → Prop} (hread : ∀ raw, P (tileFromDict rt raw))
    {dicts : List Mapping} {groups : List TileGroup}
    (h : dicts.mapM (groupFromDict rt) = some groups) : ∀ tile ∈ tilesOf groups, P tile := by
  induction dicts generalizing groups with
  | nil =>
      obtain rfl := Option.some.inj h
      exact fun _ htile => absurd htile List.not_mem_nil
  | cons dict rest ih =>
      rw [List.mapM_cons] at h
      obtain ⟨group, hgroup, hafter⟩ := Option.bind_eq_some_iff.1 h
      obtain ⟨others, hothers, hresult⟩ := Option.bind_eq_some_iff.1 hafter
      obtain rfl := Option.some.inj hresult
      obtain ⟨tiles, -, rfl⟩ := Option.map_eq_some_iff.1 hgroup
      intro tile htile
      rw [tilesOf_cons] at htile
      rcases List.mem_append.1 htile with hfirst | hmore
      · obtain ⟨raw, -, rfl⟩ := List.mem_map.1 hfirst
        exact hread raw
      · exact ih hothers tile hmore

theorem settled_of_assignWidgetIds (hprints : Prints rt) {groups groups' : List TileGroup}
    (h : assignWidgetIds rt groups = some groups')
    (hicons : ∀ tile ∈ linksOf (tilesOf groups), tile.icon ≠ some "")
    (hgood : ∀ tile ∈ widgetsOf (tilesOf groups), tile.id = "" ∨ isWidgetId tile.id = true) :
    Settled groups' := by
  obtain ⟨⟨taken, kept⟩, hkept, hafter⟩ := Option.bind_eq_some_iff.1 h
  obtain ⟨⟨numbering, named⟩, hnamed, hresult⟩ := Option.bind_eq_some_iff.1 hafter
  obtain rfl := Option.some.inj hresult
  obtain ⟨hfirst, hlinks⟩ := overGroups_spec hkept
  obtain ⟨hsecond, hmoreLinks⟩ := overGroups_spec hnamed
  obtain ⟨-, hdistinct, hfilled, hfrom⟩ := thread_keepId hfirst
  have hkeptGood : ∀ tile ∈ widgetsOf (tilesOf kept), tile.id = "" ∨ isWidgetId tile.id = true := by
    intro tile htile
    rcases hfrom tile htile with hempty | ⟨before, hbefore, hid⟩
    · exact .inl hempty
    · exact hid ▸ hgood before hbefore
  obtain ⟨hids, hvalid, -⟩ :=
    thread_giveId hprints.digest hsecond (fun id hid => (hfilled id hid).1) hdistinct hkeptGood
  refine ⟨?_, hvalid, hids⟩
  rw [hmoreLinks, hlinks]
  exact hicons

/-- A configuration that is read is settled. -/
theorem settled_of_configFromDict (hprints : Prints rt) {raw : Mapping} {config : TilesConfig}
    (h : configFromDict rt raw = some config) : Settled config.groups := by
  obtain ⟨dicts, -, hafter⟩ := Option.bind_eq_some_iff.1 h
  obtain ⟨read, hread, hafter⟩ := Option.bind_eq_some_iff.1 hafter
  obtain ⟨groups, hgroups, hafter⟩ := Option.bind_eq_some_iff.1 hafter
  have hconfig : config.groups = groups := by
    split at hafter
    · obtain rfl := Option.some.inj hafter
      rfl
    · obtain ⟨version, -, hresult⟩ := Option.bind_eq_some_iff.1 hafter
      obtain rfl := Option.some.inj hresult
      rfl
  rw [hconfig]
  apply settled_of_assignWidgetIds hprints hgroups
  · intro tile htile
    obtain ⟨found, hfound, heq⟩ := List.mem_filterMap.1 htile
    have hicons := tilesOf_read (P := fun tile => ∀ link ∈ linksOf [tile], link.icon ≠ some "")
      (icon_tileFromDict hprints) hread found hfound
    apply hicons
    exact List.mem_filterMap.2 ⟨found, List.mem_cons_self, heq⟩
  · intro tile htile
    obtain ⟨found, hfound, heq⟩ := List.mem_filterMap.1 htile
    have hids := tilesOf_read
      (P := fun tile => ∀ widget ∈ widgetsOf [tile], widget.id = "" ∨ isWidgetId widget.id = true)
      id_tileFromDict hread found hfound
    apply hids
    exact List.mem_filterMap.2 ⟨found, List.mem_cons_self, heq⟩

/-! ### What is written is read back -/

theorem visibilityFromRaw_text (visibility : Visibility) :
    visibilityFromRaw (.str visibility.text) = visibility := by
  cases visibility with
  | all => rfl
  | admin => rfl

/-- The mapping that a tile is written as. -/
def tileDict (tile : Tile) : Mapping :=
  (tileToDict tile).mapping?.getD []

theorem tileToDict_eq (tile : Tile) : tileToDict tile = .map (tileDict tile) := by
  cases tile with
  | link tile => rfl
  | widget tile => rfl

@[simp] theorem str_beq_str (a b : String) : (Scalar.str a == Scalar.str b) = (a == b) := by
  rw [Bool.eq_iff_iff]
  simp

theorem tileFromDict_link {tile : LinkTile} (h : tile.icon ≠ some "") :
    tileFromDict rt (tileDict (.link tile)) = .link tile := by
  obtain ⟨name, href, description, icon, visibility⟩ := tile
  cases icon with
  | none =>
      simp [tileFromDict, tileDict, tileToDict, textAt, textOf, Mapping.getD, Mapping.get?,
        List.lookup_cons, visibilityFromRaw_text, Val.truthy]
  | some icon =>
      have hicon : icon ≠ "" := fun hempty => h (congrArg some hempty)
      have hkept : (some icon).filter (fun text => decide (text ≠ "")) = some icon :=
        Option.filter_some_pos (decide_eq_true hicon)
      simp only [tileDict, tileToDict, hkept]
      simp [tileFromDict, textAt, textOf, Mapping.getD, Mapping.get?,
        List.lookup_cons, visibilityFromRaw_text, Val.truthy, hicon]

theorem widgetFromDict_widget {tile : WidgetTile} (h : isWidgetId tile.id = true) :
    tileFromDict rt (tileDict (.widget tile)) = .widget tile := by
  obtain ⟨widget, id, title, size, visibility⟩ := tile
  have hid : isWidgetId id = true := h
  by_cases htitle : title = ""
  · subst htitle
    cases size <;> cases visibility <;>
      simp [tileFromDict, widgetFromDict, tileDict, tileToDict, textAt, textOf, Mapping.getD,
        Mapping.get?, List.lookup_cons, visibilityFromRaw, Val.truthy, hid, Size.text,
        Visibility.text]
  · cases size <;> cases visibility <;>
      simp [tileFromDict, widgetFromDict, tileDict, tileToDict, textAt, textOf, Mapping.getD,
        Mapping.get?, List.lookup_cons, visibilityFromRaw, Val.truthy, hid, htitle, Size.text,
        Visibility.text]

/-- Tiles whose icon, or id, is as it should be. -/
def Tile.Good : Tile → Prop
  | .link tile => tile.icon ≠ some ""
  | .widget tile => isWidgetId tile.id = true

theorem Settled.tile {groups : List TileGroup} (h : Settled groups) :
    ∀ tile ∈ tilesOf groups, tile.Good := by
  intro tile htile
  cases tile with
  | link link => exact h.icons link (List.mem_filterMap.2 ⟨.link link, htile, rfl⟩)
  | widget widget => exact h.good widget (List.mem_filterMap.2 ⟨.widget widget, htile, rfl⟩)

theorem tileFromDict_tileDict {tile : Tile} (h : tile.Good) :
    tileFromDict rt (tileDict tile) = tile := by
  cases tile with
  | link tile => exact tileFromDict_link h
  | widget tile => exact widgetFromDict_widget h

/-- The mappings of a list are the ones it was made of. -/
theorem dictsAt_map {α : Type} {raw : Mapping} {key : String} {items : List α} {toDict : α → Mapping}
    (h : raw.getD key = .list (items.map fun item => .map (toDict item))) :
    dictsAt raw key = some (items.map toDict) := by
  unfold dictsAt
  rw [h]
  cases items with
  | nil => rfl
  | cons first rest =>
      simp only [List.map_cons, Val.truthy, List.isEmpty_cons, Bool.not_false, if_true,
        List.filterMap_cons, Val.mapping?_map, List.filterMap_map]
      have hdicts : (Val.mapping? ∘ fun item => Val.map (toDict item)) = some ∘ toDict := rfl
      rw [hdicts, List.filterMap_eq_map]

/-- The mapping that a group is written as. -/
def groupDict (group : TileGroup) : Mapping :=
  (groupToDict group).mapping?.getD []

theorem groupFromDict_groupDict {group : TileGroup} (h : ∀ tile ∈ group.tiles, tile.Good) :
    groupFromDict rt (groupDict group) = some group := by
  have htiles : dictsAt (groupDict group) "tiles" = some (group.tiles.map tileDict) := by
    apply dictsAt_map
    simp [groupDict, groupToDict, Mapping.getD, Mapping.get?, List.lookup_cons, tileToDict_eq]
  have hread : (group.tiles.map tileDict).map (tileFromDict rt) = group.tiles := by
    rw [List.map_map]
    refine (List.map_congr_left fun tile htile => ?_).trans (List.map_id _)
    exact tileFromDict_tileDict (h tile htile)
  unfold groupFromDict
  rw [htiles, Option.map_some, hread]
  simp [groupDict, groupToDict, textAt, textOf, Mapping.get?]

theorem mapM_groupFromDict {groups : List TileGroup} (h : ∀ tile ∈ tilesOf groups, tile.Good) :
    (groups.map groupDict).mapM (groupFromDict rt) = some groups := by
  induction groups with
  | nil => rfl
  | cons group rest ih =>
      rw [tilesOf_cons] at h
      have hgroup : groupFromDict rt (groupDict group) = some group :=
        groupFromDict_groupDict fun tile htile => h tile (List.mem_append_left _ htile)
      have hrest := ih fun tile htile => h tile (List.mem_append_right _ htile)
      rw [List.map_cons, List.mapM_cons, hgroup, hrest]
      rfl

/-- A settled configuration means what it is written as. -/
theorem configFromDict_configToDict {config : TilesConfig} (h : Settled config.groups) :
    configFromDict rt (configToDict config) = some config := by
  have hdicts : dictsAt (configToDict config) "groups" = some (config.groups.map groupDict) := by
    apply dictsAt_map
    simp [configToDict, Mapping.getD, Mapping.get?, List.lookup_cons, groupDict, groupToDict]
  have hversion : (Mapping.get? (configToDict config) "version").getD (.int 1) =
      .int config.version := rfl
  unfold configFromDict
  rw [hdicts, Option.bind_eq_bind, Option.bind_some, mapM_groupFromDict h.tile, Option.bind_eq_bind,
    Option.bind_some, assignWidgetIds_settled h, Option.bind_eq_bind, Option.bind_some, hversion]
  rfl

theorem decode_encode (text : String) : decode (encode text) = some text := by
  have hbytes : (⟨(encode text).toArray⟩ : ByteArray) = text.toByteArray := rfl
  unfold decode String.fromUTF8?
  rw [hbytes, dif_pos text.isValidUTF8]
  rfl

/-- A text that was written is read with the ends of its lines made plain. -/
theorem readText_encode (text : String) :
    readText (encode text) = some (String.ofList (Addons.universalNewlines text.toList)) := by
  rw [readText, decode_encode]
  rfl

/-- YAML reads back a document that was written. -/
def ReadsBack (rt : EditorRuntime) (config : TilesConfig) : Prop :=
  ∀ text, readText (encode (tilesText rt config)) = some text →
    rt.safeLoad text = .ok (.map (configToDict config))

/-- A file that was written shows what its answer carries. -/
theorem parseFile_tilesText {config : TilesConfig} (hyaml : ReadsBack rt config)
    (h : Settled config.groups) : parseFile rt (encode (tilesText rt config)) = .ok config := by
  have htext := readText_encode (tilesText rt config)
  unfold parseFile
  rw [htext]
  simp only [parseTiles, hyaml _ htext]
  simp only [Val.truthy, configToDict, List.isEmpty_cons, Bool.not_false, if_true]
  have hconfig : configFromDict rt (configToDict _) = some _ := configFromDict_configToDict h
  unfold configToDict at hconfig
  rw [hconfig]

theorem settled_of_parseTiles (hprints : Prints rt) {text : String} {config : TilesConfig}
    (h : parseTiles rt text = .ok config) : Settled config.groups := by
  unfold parseTiles at h
  split at h
  · cases h
  · split at h
    · split at h
      · next hconfig =>
          obtain rfl := Except.ok.inj h
          exact settled_of_configFromDict hprints hconfig
      · cases h
    · cases h

/-- What is seeded is settled. -/
theorem settled_defaultTiles : Settled defaultTiles.groups where
  icons := by
    intro tile htile
    simp [defaultTiles, tilesOf, linksOf] at htile
    rcases htile with rfl | rfl | rfl | rfl
    all_goals simp
  good := fun _ htile => absurd htile List.not_mem_nil
  distinct := List.nodup_nil

end Papaia.Editors
