/-
Module: Papaia.Proofs.WidgetIds
Purpose: Every widget of the dashboard has an id of its own that its document alone decides, and a tile
  that is saved keeps its id through every load, save and edit.
Trusted boundary: none
Main exports: PathSafe, tileDicts, StableIds, stable_ids
-/
import Mathlib.Data.List.Perm.Subperm
import Papaia.Proofs.TilesRoundTrip

namespace Papaia.Editors

variable {rt : EditorRuntime}

/-! ### Safe ids -/

/-- One to forty characters of the path-safe alphabet. -/
def PathSafe (id : String) : Prop :=
  1 ≤ id.toList.length ∧ id.toList.length ≤ 40 ∧
    ∀ c ∈ id.toList, (c.isAlphanum || c == '_' || c == '-') = true

/-- The text ends a line. -/
def EndsLine (text : String) : Prop :=
  text.toList.getLast? = some '\n'

theorem isWidgetId_of_pathSafe {id : String} (h : PathSafe id) : isWidgetId id = true := by
  have hplain : ¬id.toList.getLast? = some '\n' := by
    intro hlast
    have hbreak := h.2.2 '\n' (List.mem_of_getLast? hlast)
    revert hbreak
    decide
  simp only [isWidgetId, if_neg hplain, Bool.and_eq_true, decide_eq_true_eq, List.all_eq_true]
  exact ⟨⟨h.1, h.2.1⟩, h.2.2⟩

/-- The pattern accepts a safe id, and one more thing: a line break behind it. -/
theorem pathSafe_of_isWidgetId {id : String} (h : isWidgetId id = true) (hplain : ¬EndsLine id) :
    PathSafe id := by
  unfold EndsLine at hplain
  simp only [isWidgetId, if_neg hplain, Bool.and_eq_true, decide_eq_true_eq, List.all_eq_true] at h
  exact ⟨h.1.1, h.1.2, h.2⟩

/-- What the library promises: a digest is 64 hexadecimal digits, and no value but the empty text
prints as one. -/
structure Library (rt : EditorRuntime) : Prop where
  hexdigest : ∀ raw, (rt.sha256 raw).toList.length = 64 ∧
    ∀ c ∈ (rt.sha256 raw).toList, c ∈ "0123456789abcdef".toList
  str : ∀ value, rt.str value ≠ ""

theorem pathSafe_widgetDigest (hlibrary : Library rt) (widget : String) (number : Nat) :
    PathSafe (widgetDigest rt widget number) := by
  obtain ⟨hlength, hdigits⟩ := hlibrary.hexdigest (encode (widget ++ ":" ++ toString number))
  have hsafe : ("0123456789abcdef".toList.all fun c => c.isAlphanum || c == '_' || c == '-') = true := by
    decide
  unfold PathSafe widgetDigest
  rw [String.toList_ofList, List.length_take, hlength]
  refine ⟨by decide, by decide, ?_⟩
  intro c hc
  exact List.all_eq_true.1 hsafe c (hdigits c (List.mem_of_mem_take hc))

theorem Library.prints (hlibrary : Library rt) : Prints rt where
  digest := fun widget number => isWidgetId_of_pathSafe (pathSafe_widgetDigest hlibrary widget number)
  str := hlibrary.str

/-! ### The tiles of a document -/

/-- The mappings of the tiles of a document, in order. -/
def tileDicts (raw : Mapping) : List Mapping :=
  ((dictsAt raw "groups").getD []).flatMap fun group => (dictsAt group "tiles").getD []

/-- The mapping of a widget that carries this id. -/
def Carries (dict : Mapping) (id : String) : Prop :=
  dict.getD "type" = .str "widget" ∧ dict.getD "id" = .str id

/-- A tile before this place carries the id. -/
def CarriedBefore (dicts : List Mapping) (place : Nat) (id : String) : Prop :=
  ∃ j dict, j < place ∧ dicts[j]? = some dict ∧ Carries dict id

theorem carries_of_read {dict : Mapping} {tile : WidgetTile}
    (h : tileFromDict rt dict = .widget tile) (hid : tile.id ≠ "") : Carries dict tile.id := by
  unfold tileFromDict at h
  split at h
  · next htype =>
      obtain rfl := Tile.widget.inj h
      refine ⟨htype, ?_⟩
      simp only [widgetFromDict] at hid ⊢
      split
      · next id hraw =>
          rw [hraw] at hid
          split
          · exact hraw
          · next hbad => exact absurd (if_neg hbad) hid
      · next hother =>
          split at hid
          · next id hraw => exact absurd hraw (hother id)
          · exact absurd rfl hid
  · cases h

theorem read_of_carries {dict : Mapping} {id : String} (h : Carries dict id)
    (hgood : isWidgetId id = true) :
    ∃ tile, tileFromDict rt dict = .widget tile ∧ tile.id = id := by
  refine ⟨widgetFromDict rt dict, ?_, ?_⟩
  · simp only [tileFromDict, h.1]
  · simp only [widgetFromDict, h.2, hgood, if_true]

/-- What the groups of a document are read as. -/
theorem tilesOf_mapM {dicts : List Mapping} {groups : List TileGroup}
    (h : dicts.mapM (groupFromDict rt) = some groups) :
    tilesOf groups =
      (dicts.flatMap fun group => (dictsAt group "tiles").getD []).map (tileFromDict rt) := by
  induction dicts generalizing groups with
  | nil =>
      obtain rfl := Option.some.inj h
      rfl
  | cons dict rest ih =>
      rw [List.mapM_cons] at h
      obtain ⟨group, hgroup, hafter⟩ := Option.bind_eq_some_iff.1 h
      obtain ⟨others, hothers, hresult⟩ := Option.bind_eq_some_iff.1 hafter
      obtain rfl := Option.some.inj hresult
      obtain ⟨tiles, htiles, rfl⟩ := Option.map_eq_some_iff.1 hgroup
      rw [tilesOf_cons, List.flatMap_cons, List.map_append, htiles, ih hothers]
      rfl

/-- A configuration is what its document's tiles are read as, with the ids assigned. -/
theorem read_of_configFromDict {raw : Mapping} {config : TilesConfig}
    (h : configFromDict rt raw = some config) :
    ∃ read, tilesOf read = (tileDicts raw).map (tileFromDict rt) ∧
      assignWidgetIds rt read = some config.groups := by
  obtain ⟨dicts, hdicts, hafter⟩ := Option.bind_eq_some_iff.1 h
  obtain ⟨read, hread, hafter⟩ := Option.bind_eq_some_iff.1 hafter
  obtain ⟨groups, hgroups, hafter⟩ := Option.bind_eq_some_iff.1 hafter
  refine ⟨read, ?_, ?_⟩
  · rw [tilesOf_mapM hread, tileDicts, hdicts, Option.getD_some]
  · split at hafter
    · obtain rfl := Option.some.inj hafter
      exact hgroups
    · obtain ⟨version, -, hresult⟩ := Option.bind_eq_some_iff.1 hafter
      obtain rfl := Option.some.inj hresult
      exact hgroups

/-! ### What the assignment leaves -/

/-- A tile but for its id. -/
def Tile.plain : Tile → Tile
  | .link tile => .link tile
  | .widget tile => .widget { tile with id := "" }

theorem length_widgetsOf_plain (tiles : List Tile) :
    (widgetsOf (tiles.map Tile.plain)).length = (widgetsOf tiles).length := by
  induction tiles with
  | nil => rfl
  | cons tile rest ih =>
      cases tile with
      | link tile => exact ih
      | widget tile => exact congrArg (· + 1) ih

/-- A pass that changes ids only. -/
def IdsOnly {σ : Type} (f : σ → WidgetTile → Option (σ × WidgetTile)) : Prop :=
  ∀ s tile s' tile', f s tile = some (s', tile') → { tile' with id := "" } = { tile with id := "" }

section Passes

variable {σ : Type} {f : σ → WidgetTile → Option (σ × WidgetTile)}

theorem overTiles_plain (hf : IdsOnly f) {s s' : σ} {tiles tiles' : List Tile}
    (h : overTiles f s tiles = some (s', tiles')) :
    tiles'.map Tile.plain = tiles.map Tile.plain := by
  induction tiles generalizing s tiles' with
  | nil =>
      obtain ⟨rfl, rfl⟩ := Prod.mk.inj (Option.some.inj h)
      rfl
  | cons tile rest ih =>
      cases tile with
      | link tile =>
          obtain ⟨⟨s₁, rest'⟩, hrest, hresult⟩ := Option.bind_eq_some_iff.1 h
          obtain ⟨rfl, rfl⟩ := Prod.mk.inj (Option.some.inj hresult)
          rw [List.map_cons, List.map_cons, ih hrest]
      | widget tile =>
          obtain ⟨⟨s₁, tile'⟩, htile, hafter⟩ := Option.bind_eq_some_iff.1 h
          obtain ⟨⟨s₂, rest'⟩, hrest, hresult⟩ := Option.bind_eq_some_iff.1 hafter
          obtain ⟨rfl, rfl⟩ := Prod.mk.inj (Option.some.inj hresult)
          rw [List.map_cons, List.map_cons, ih hrest]
          exact congrArg (Tile.widget · :: rest.map Tile.plain) (hf s tile s₁ tile' htile)

theorem overGroups_plain (hf : IdsOnly f) {s s' : σ} {groups groups' : List TileGroup}
    (h : overGroups f s groups = some (s', groups')) :
    (tilesOf groups').map Tile.plain = (tilesOf groups).map Tile.plain := by
  induction groups generalizing s groups' with
  | nil =>
      obtain ⟨rfl, rfl⟩ := Prod.mk.inj (Option.some.inj h)
      rfl
  | cons group rest ih =>
      obtain ⟨⟨s₁, tiles⟩, htiles, hafter⟩ := Option.bind_eq_some_iff.1 h
      obtain ⟨⟨s₂, rest'⟩, hrest, hresult⟩ := Option.bind_eq_some_iff.1 hafter
      obtain ⟨rfl, rfl⟩ := Prod.mk.inj (Option.some.inj hresult)
      rw [tilesOf_cons, tilesOf_cons, List.map_append, List.map_append, overTiles_plain hf htiles,
        ih hrest]

end Passes

theorem idsOnly_keepId : IdsOnly keepId := by
  intro s tile s' tile' h
  unfold keepId at h
  split at h
  · obtain ⟨-, rfl⟩ := Prod.mk.inj (Option.some.inj h)
    rfl
  · split at h
    · obtain ⟨-, rfl⟩ := Prod.mk.inj (Option.some.inj h)
      rfl
    · obtain ⟨-, rfl⟩ := Prod.mk.inj (Option.some.inj h)
      rfl

theorem idsOnly_giveId : IdsOnly (giveId rt) := by
  intro s tile s' tile' h
  unfold giveId at h
  split at h
  · obtain ⟨-, rfl⟩ := Prod.mk.inj (Option.some.inj h)
    rfl
  · obtain ⟨found, -, hresult⟩ := Option.bind_eq_some_iff.1 h
    obtain ⟨-, rfl⟩ := Prod.mk.inj (Option.some.inj hresult)
    rfl

/-- The two passes over the widgets of the groups. -/
theorem passes_of_assignWidgetIds {groups groups' : List TileGroup}
    (h : assignWidgetIds rt groups = some groups') :
    ∃ taken kept numbering,
      thread keepId [] (widgetsOf (tilesOf groups)) = some (taken, kept) ∧
      thread (giveId rt) (taken, []) kept = some (numbering, widgetsOf (tilesOf groups')) := by
  obtain ⟨⟨taken, kept⟩, hkept, hafter⟩ := Option.bind_eq_some_iff.1 h
  obtain ⟨⟨numbering, named⟩, hnamed, hresult⟩ := Option.bind_eq_some_iff.1 hafter
  obtain rfl := Option.some.inj hresult
  exact ⟨taken, widgetsOf (tilesOf kept), numbering, (overGroups_spec hkept).1,
    (overGroups_spec hnamed).1⟩

theorem plain_of_assignWidgetIds {groups groups' : List TileGroup}
    (h : assignWidgetIds rt groups = some groups') :
    (tilesOf groups').map Tile.plain = (tilesOf groups).map Tile.plain := by
  obtain ⟨⟨taken, kept⟩, hkept, hafter⟩ := Option.bind_eq_some_iff.1 h
  obtain ⟨⟨numbering, named⟩, hnamed, hresult⟩ := Option.bind_eq_some_iff.1 hafter
  obtain rfl := Option.some.inj hresult
  exact (overGroups_plain idsOnly_giveId hnamed).trans (overGroups_plain idsOnly_keepId hkept)

/-! ### The first tile with an id keeps it -/

/-- Only ids of tiles become taken. -/
theorem taken_of_thread_keepId {taken taken' : List String} {tiles tiles' : List WidgetTile}
    (h : thread keepId taken tiles = some (taken', tiles')) :
    ∀ id ∈ taken', id ∈ taken ∨ ∃ tile ∈ tiles, tile.id = id := by
  induction tiles generalizing taken tiles' with
  | nil =>
      obtain ⟨rfl, -⟩ := Prod.mk.inj (Option.some.inj h)
      exact fun id hid => .inl hid
  | cons tile rest ih =>
      obtain ⟨taken₁, tile', rest', htile, hrest, -⟩ := thread_cons.1 h
      have hgrown : ∀ id ∈ taken₁, id ∈ taken ∨ tile.id = id := by
        intro id hid
        unfold keepId at htile
        split at htile
        · obtain ⟨rfl, -⟩ := Prod.mk.inj (Option.some.inj htile)
          exact .inl hid
        · split at htile
          · obtain ⟨rfl, -⟩ := Prod.mk.inj (Option.some.inj htile)
            exact .inl hid
          · obtain ⟨rfl, -⟩ := Prod.mk.inj (Option.some.inj htile)
            rcases List.mem_cons.1 hid with heq | hold
            · exact .inr heq.symm
            · exact .inl hold
      intro id hid
      rcases ih hrest id hid with hbefore | ⟨other, hother, heq⟩
      · rcases hgrown id hbefore with hold | heq
        · exact .inl hold
        · exact .inr ⟨tile, List.mem_cons_self, heq⟩
      · exact .inr ⟨other, List.mem_cons_of_mem tile hother, heq⟩

/-- Both passes leave a tile whose id no tile before it has. -/
theorem passes_keep_first {one more ks named : List WidgetTile} {tile : WidgetTile}
    {taken : List String} {numbering : Numbering} (hid : tile.id ≠ "")
    (hfirst : ∀ other ∈ one, other.id ≠ tile.id)
    (hkept : thread keepId [] (one ++ tile :: more) = some (taken, ks))
    (hnamed : thread (giveId rt) (taken, []) ks = some (numbering, named)) :
    ∃ one' more', named = one' ++ tile :: more' ∧ one'.length = one.length := by
  obtain ⟨taken₁, kept, rest, hone, hrest, hlength, rfl⟩ := thread_append_inv hkept
  obtain ⟨taken₂, tile₁, kept₂, htile, -, rfl⟩ := thread_cons.1 hrest
  have hfree : tile.id ∉ taken₁ := by
    intro hmem
    rcases taken_of_thread_keepId hone tile.id hmem with hnone | ⟨other, hother, heq⟩
    · exact List.not_mem_nil hnone
    · exact hfirst other hother heq
  unfold keepId at htile
  rw [if_neg hfree, if_neg hid] at htile
  obtain ⟨-, rfl⟩ := Prod.mk.inj (Option.some.inj htile)
  obtain ⟨numbering₁, given, rest', -, hafter, hgiven, rfl⟩ := thread_append_inv hnamed
  obtain ⟨numbering₂, tile₂, given₂, hleft, -, rfl⟩ := thread_cons.1 hafter
  unfold giveId at hleft
  rw [if_pos hid] at hleft
  obtain ⟨-, rfl⟩ := Prod.mk.inj (Option.some.inj hleft)
  exact ⟨given, given₂, rfl, hgiven.trans hlength⟩

/-- The same among all tiles: the tile stays at its place. -/
theorem assignWidgetIds_keeps_first {groups groups' : List TileGroup} {pre post : List Tile}
    {tile : WidgetTile} (h : assignWidgetIds rt groups = some groups')
    (hsplit : tilesOf groups = pre ++ .widget tile :: post) (hid : tile.id ≠ "")
    (hfirst : ∀ other ∈ widgetsOf pre, other.id ≠ tile.id) :
    ∃ pre' post', tilesOf groups' = pre' ++ .widget tile :: post' ∧ pre'.length = pre.length := by
  have hplain := plain_of_assignWidgetIds h
  rw [hsplit, List.map_append, List.map_cons, List.map_eq_append_iff] at hplain
  obtain ⟨pre', rest, hgroups', hpre, hrest⟩ := hplain
  obtain ⟨found, post', rfl, hfound, -⟩ := List.map_eq_cons_iff.1 hrest
  have hlength : pre'.length = pre.length := by
    simpa using congrArg List.length hpre
  cases found with
  | link link => cases hfound
  | widget found =>
      obtain ⟨taken, ks, numbering, hkept, hnamed⟩ := passes_of_assignWidgetIds h
      rw [hsplit, widgetsOf_append, widgetsOf_widget] at hkept
      obtain ⟨one, more, hone, hcount⟩ := passes_keep_first hid hfirst hkept hnamed
      rw [hgroups', widgetsOf_append, widgetsOf_widget] at hone
      have hwidgets : (widgetsOf pre').length = one.length := by
        rw [hcount, ← length_widgetsOf_plain pre', hpre, length_widgetsOf_plain]
      obtain ⟨-, htail⟩ := List.append_inj hone hwidgets
      obtain ⟨rfl, -⟩ := List.cons.inj htail
      exact ⟨pre', post', hgroups', hlength⟩

/-! ### Places of a document -/

theorem split_at {α : Type} {items : List α} {i : Nat} {item : α} (h : items[i]? = some item) :
    items = items.take i ++ item :: items.drop (i + 1) := by
  obtain ⟨hi, rfl⟩ := List.getElem?_eq_some_iff.1 h
  calc items = items.take i ++ items.drop i := (List.take_append_drop i items).symm
    _ = items.take i ++ items[i] :: items.drop (i + 1) := by rw [List.drop_eq_getElem_cons hi]

/-- The tile of a document that is the first to carry a good id is read as it stands. -/
theorem kept_at {raw : Mapping} {config : TilesConfig} (h : configFromDict rt raw = some config)
    {i : Nat} {dict : Mapping} {id : String} (hdict : (tileDicts raw)[i]? = some dict)
    (hcarries : Carries dict id) (hgood : isWidgetId id = true)
    (hfirst : ¬CarriedBefore (tileDicts raw) i id) :
    ∃ tile, (tilesOf config.groups)[i]? = some (.widget tile) ∧
      tileFromDict rt dict = .widget tile ∧ tile.id = id := by
  obtain ⟨read, hread, hassigned⟩ := read_of_configFromDict h
  obtain ⟨tile, htile, hid⟩ := @read_of_carries rt _ _ hcarries hgood
  have hplace : (tilesOf read)[i]? = some (.widget tile) := by
    rw [hread, List.getElem?_map, hdict, Option.map_some, htile]
  have hne : tile.id ≠ "" := by
    rw [hid]
    exact ne_empty_of_isWidgetId hgood
  have hbefore : ∀ other ∈ widgetsOf ((tilesOf read).take i), other.id ≠ tile.id := by
    intro other hother heq
    obtain ⟨found, hfound, hwidget⟩ := List.mem_filterMap.1 hother
    rw [hread, ← List.map_take] at hfound
    obtain ⟨earlier, hearlier, rfl⟩ := List.mem_map.1 hfound
    obtain ⟨j, hj⟩ := List.mem_iff_getElem?.1 hearlier
    rw [List.getElem?_take] at hj
    split at hj
    · next hlt =>
        apply hfirst
        refine ⟨j, earlier, hlt, hj, ?_⟩
        split at hwidget
        · cases hwidget
        · next htile' =>
            obtain rfl := Option.some.inj hwidget
            have hsame := carries_of_read htile' (heq ▸ hne)
            rwa [heq, hid] at hsame
    · cases hj
  obtain ⟨pre, post, hgroups, hlength⟩ :=
    assignWidgetIds_keeps_first hassigned (split_at hplace) hne hbefore
  have hi : pre.length = i := by
    obtain ⟨hlt, -⟩ := List.getElem?_eq_some_iff.1 hplace
    rw [hlength, List.length_take]
    omega
  refine ⟨tile, ?_, htile, hid⟩
  rw [hgroups, List.getElem?_append_right (Nat.le_of_eq hi), hi, Nat.sub_self]
  rfl

/-- Where ids differ, one id stands at one place. -/
theorem place_unique {tiles : List Tile} (h : ((widgetsOf tiles).map WidgetTile.id).Nodup)
    {i j : Nat} {one other : WidgetTile} (hone : tiles[i]? = some (.widget one))
    (hother : tiles[j]? = some (.widget other)) (heq : one.id = other.id) : i = j := by
  unfold List.Nodup widgetsOf at h
  rw [List.pairwise_map, List.pairwise_filterMap, List.pairwise_iff_getElem] at h
  obtain ⟨hi, hone⟩ := List.getElem?_eq_some_iff.1 hone
  obtain ⟨hj, hother⟩ := List.getElem?_eq_some_iff.1 hother
  rcases Nat.lt_trichotomy i j with hlt | hsame | hgt
  · exact absurd heq (h i j hi hj hlt one (by rw [hone]) other (by rw [hother]))
  · exact hsame
  · exact absurd heq.symm (h j i hj hi hgt other (by rw [hother]) one (by rw [hone]))

/-- Where an id is carried before a place, one tile is the first to carry it. -/
theorem first_carrier {dicts : List Mapping} {i : Nat} {id : String}
    (h : CarriedBefore dicts i id) :
    ∃ j dict, j < i ∧ dicts[j]? = some dict ∧ Carries dict id ∧ ¬CarriedBefore dicts j id := by
  induction i using Nat.strong_induction_on with
  | _ i ih =>
      obtain ⟨j, dict, hlt, hdict, hcarries⟩ := h
      by_cases hbefore : CarriedBefore dicts j id
      · obtain ⟨k, first, hk, hfirst⟩ := ih j hlt hbefore
        exact ⟨k, first, hk.trans hlt, hfirst⟩
      · exact ⟨j, dict, hlt, hdict, hcarries, hbefore⟩

/-! ### The ids come from the types and the good ids -/

/-- What the assignment looks at. -/
def WidgetTile.clue (tile : WidgetTile) : String × String :=
  (tile.widget, tile.id)

/-- The type and the good id of each widget of a document, in order. -/
def clues (rt : EditorRuntime) (raw : Mapping) : List (String × String) :=
  (widgetsOf ((tileDicts raw).map (tileFromDict rt))).map WidgetTile.clue

/-- A pass that looks at nothing else. -/
def Clued {σ : Type} (f : σ → WidgetTile → Option (σ × WidgetTile)) : Prop :=
  ∀ s tile other s' tile', tile.clue = other.clue → f s tile = some (s', tile') →
    ∃ other', f s other = some (s', other') ∧ tile'.clue = other'.clue

theorem thread_clued {σ : Type} {f : σ → WidgetTile → Option (σ × WidgetTile)} (hf : Clued f)
    {s s' : σ} {tiles tiles' others : List WidgetTile}
    (hclues : tiles.map WidgetTile.clue = others.map WidgetTile.clue)
    (h : thread f s tiles = some (s', tiles')) :
    ∃ others', thread f s others = some (s', others') ∧
      tiles'.map WidgetTile.clue = others'.map WidgetTile.clue := by
  induction tiles generalizing s tiles' others with
  | nil =>
      obtain ⟨rfl, rfl⟩ := Prod.mk.inj (Option.some.inj h)
      obtain rfl := List.map_eq_nil_iff.1 hclues.symm
      exact ⟨[], rfl, rfl⟩
  | cons tile rest ih =>
      obtain ⟨other, more, rfl, hother, hmore⟩ := List.map_eq_cons_iff.1 hclues.symm
      obtain ⟨s₁, tile', rest', htile, hrest, rfl⟩ := thread_cons.1 h
      obtain ⟨other', hother', hclue⟩ := hf s tile other s₁ tile' hother.symm htile
      obtain ⟨more', hmore', hrestClues⟩ := ih hmore.symm hrest
      refine ⟨other' :: more', thread_cons.2 ⟨s₁, other', more', hother', hmore', rfl⟩, ?_⟩
      rw [List.map_cons, List.map_cons, hclue, hrestClues]

theorem clued_keepId : Clued keepId := by
  intro s tile other s' tile' hclue h
  obtain ⟨hwidget, hid⟩ := Prod.mk.inj hclue
  unfold keepId at h ⊢
  rw [← hid]
  split at h
  · next hmem =>
      obtain ⟨rfl, rfl⟩ := Prod.mk.inj (Option.some.inj h)
      exact ⟨_, if_pos hmem, Prod.ext hwidget rfl⟩
  · next hfree =>
      rw [if_neg hfree]
      split at h
      · next hempty =>
          obtain ⟨rfl, rfl⟩ := Prod.mk.inj (Option.some.inj h)
          exact ⟨_, if_pos hempty, hclue⟩
      · next hsome =>
          obtain ⟨rfl, rfl⟩ := Prod.mk.inj (Option.some.inj h)
          exact ⟨_, if_neg hsome, hclue⟩

theorem clued_giveId : Clued (giveId rt) := by
  intro s tile other s' tile' hclue h
  obtain ⟨hwidget, hid⟩ := Prod.mk.inj hclue
  unfold giveId at h ⊢
  rw [← hid, ← hwidget]
  split at h
  · next hsome =>
      obtain ⟨rfl, rfl⟩ := Prod.mk.inj (Option.some.inj h)
      exact ⟨_, if_pos hsome, hclue⟩
  · next hempty =>
      obtain ⟨found, hfound, hresult⟩ := Option.bind_eq_some_iff.1 h
      obtain ⟨rfl, rfl⟩ := Prod.mk.inj (Option.some.inj hresult)
      rw [if_neg hempty]
      exact ⟨_, Option.bind_eq_some_iff.2 ⟨found, hfound, rfl⟩, rfl⟩

/-- Documents whose widgets have the same types and good ids in one order get the same ids. -/
theorem ids_of_clues {raw raw' : Mapping} {config config' : TilesConfig}
    (h : configFromDict rt raw = some config) (h' : configFromDict rt raw' = some config')
    (hclues : clues rt raw' = clues rt raw) :
    (widgetsOf (tilesOf config'.groups)).map WidgetTile.id =
      (widgetsOf (tilesOf config.groups)).map WidgetTile.id := by
  obtain ⟨read, hread, hassigned⟩ := read_of_configFromDict h
  obtain ⟨read', hread', hassigned'⟩ := read_of_configFromDict h'
  obtain ⟨taken, kept, numbering, hkept, hnamed⟩ := passes_of_assignWidgetIds hassigned
  obtain ⟨taken', kept', numbering', hkept', hnamed'⟩ := passes_of_assignWidgetIds hassigned'
  unfold clues at hclues
  rw [← hread, ← hread'] at hclues
  obtain ⟨first, hfirst, hfirstClues⟩ := thread_clued clued_keepId hclues hkept'
  obtain ⟨rfl, rfl⟩ := Prod.mk.inj (Option.some.inj (hkept.symm.trans hfirst))
  obtain ⟨second, hsecond, hsecondClues⟩ := thread_clued clued_giveId hfirstClues hnamed'
  obtain ⟨rfl, rfl⟩ := Prod.mk.inj (Option.some.inj (hnamed.symm.trans hsecond))
  have hids := congrArg (List.map Prod.snd) hsecondClues
  rw [List.map_map, List.map_map] at hids
  exact hids

/-! ### The law -/

/-- An id that is given is a digest. -/
theorem source_of_thread_giveId {numbering numbering' : Numbering} {tiles tiles' : List WidgetTile}
    (h : thread (giveId rt) numbering tiles = some (numbering', tiles')) :
    ∀ tile' ∈ tiles', (tile'.id ≠ "" ∧ ∃ tile ∈ tiles, tile.id = tile'.id) ∨
      ∃ widget number, tile'.id = widgetDigest rt widget number := by
  induction tiles generalizing numbering tiles' with
  | nil =>
      obtain ⟨rfl, rfl⟩ := Prod.mk.inj (Option.some.inj h)
      exact fun _ htile => absurd htile List.not_mem_nil
  | cons tile rest ih =>
      obtain ⟨numbering₁, first, rest', htile, hrest, rfl⟩ := thread_cons.1 h
      rw [List.forall_mem_cons]
      constructor
      · unfold giveId at htile
        split at htile
        · next hsome =>
            obtain ⟨-, rfl⟩ := Prod.mk.inj (Option.some.inj htile)
            exact .inl ⟨hsome, tile, List.mem_cons_self, rfl⟩
        · obtain ⟨⟨digest, number⟩, hfree, hgiven⟩ := Option.bind_eq_some_iff.1 htile
          obtain ⟨-, rfl⟩ := Prod.mk.inj (Option.some.inj hgiven)
          obtain ⟨-, n, hdigest⟩ := freeId_spec hfree
          exact .inr ⟨tile.widget, n, hdigest⟩
      · intro tile' htile'
        rcases ih hrest tile' htile' with ⟨hsome, found, hfound, heq⟩ | hdigest
        · exact .inl ⟨hsome, found, List.mem_cons_of_mem tile hfound, heq⟩
        · exact .inr hdigest

/-- An id is one that the document carries, or a digest. -/
theorem source_of_configFromDict {raw : Mapping} {config : TilesConfig}
    (h : configFromDict rt raw = some config) {tile : WidgetTile}
    (htile : tile ∈ widgetsOf (tilesOf config.groups)) :
    (∃ dict ∈ tileDicts raw, Carries dict tile.id) ∨
      ∃ widget number, tile.id = widgetDigest rt widget number := by
  obtain ⟨read, hread, hassigned⟩ := read_of_configFromDict h
  obtain ⟨taken, kept, numbering, hkept, hnamed⟩ := passes_of_assignWidgetIds hassigned
  rcases source_of_thread_giveId hnamed tile htile with ⟨hsome, left, hleft, hid⟩ | hdigest
  · obtain ⟨-, -, -, hfrom⟩ := thread_keepId hkept
    rcases hfrom left hleft with hempty | ⟨before, hbefore, hsame⟩
    · exact absurd (hid.symm.trans hempty) hsome
    · obtain ⟨found, hfound, hwidget⟩ := List.mem_filterMap.1 hbefore
      rw [hread] at hfound
      obtain ⟨dict, hdict, rfl⟩ := List.mem_map.1 hfound
      split at hwidget
      · cases hwidget
      · next hreadDict =>
          obtain rfl := Option.some.inj hwidget
          have heq := hsame.trans hid
          have hcarries := carries_of_read hreadDict (heq ▸ hsome)
          exact .inl ⟨dict, hdict, heq ▸ hcarries⟩
  · exact .inr hdigest

/-- What holds of the ids of a document that is read as this configuration. -/
structure StableIds (rt : EditorRuntime) (raw : Mapping) (config : TilesConfig) : Prop where
  /-- An id is path-safe, unless the document carries it with a line break at its end. -/
  safe : ∀ tile ∈ widgetsOf (tilesOf config.groups),
    (∀ dict ∈ tileDicts raw, Carries dict tile.id → ¬EndsLine tile.id) → PathSafe tile.id
  distinct : ((widgetsOf (tilesOf config.groups)).map WidgetTile.id).Nodup
  /-- The first tile that carries a safe id keeps it. -/
  kept : ∀ i dict id, (tileDicts raw)[i]? = some dict → Carries dict id → PathSafe id →
    ¬CarriedBefore (tileDicts raw) i id →
      ∃ tile, (tilesOf config.groups)[i]? = some (.widget tile) ∧ tile.id = id
  /-- The ids come from the types and the good ids of the document, in their order. -/
  determined : ∀ raw' config', configFromDict rt raw' = some config' → clues rt raw' = clues rt raw →
    (widgetsOf (tilesOf config'.groups)).map WidgetTile.id =
      (widgetsOf (tilesOf config.groups)).map WidgetTile.id
  /-- What it is dumped as is read as it again, and so is the file that is written. -/
  reload : configFromDict rt (configToDict config) = some config
  file : ReadsBack rt config → parseFile rt (encode (tilesText rt config)) = .ok config
  /-- Tiles that are taken out, or stand in another order or other groups, keep their ids. -/
  rearranged : ∀ version groups', (tilesOf groups').Subperm (tilesOf config.groups) →
    configFromDict rt (configToDict { version, groups := groups' }) =
      some { version, groups := groups' }
  /-- In any document, whatever else stands in it, a saved tile keeps its id, and is read as the tile
  it was, if and only if no tile before it carries that id. -/
  edited : ∀ raw' config' i tile, configFromDict rt raw' = some config' →
    tile ∈ widgetsOf (tilesOf config.groups) → (tileDicts raw')[i]? = some (tileDict (.widget tile)) →
      ((tilesOf config'.groups)[i]? = some (.widget tile) ↔
        ¬CarriedBefore (tileDicts raw') i tile.id)

/-- Taking tiles out or moving them leaves what is settled. -/
theorem Settled.rearranged {groups groups' : List TileGroup} (h : Settled groups)
    (hfrom : (tilesOf groups').Subperm (tilesOf groups)) : Settled groups' := by
  obtain ⟨found, hperm, hsublist⟩ := hfrom
  have hwidgets := (hperm.filterMap fun
    | Tile.link _ => none
    | .widget tile => some tile).map WidgetTile.id
  have hids := (hsublist.filterMap fun
    | Tile.link _ => none
    | .widget tile => some tile).map WidgetTile.id
  refine ⟨?_, ?_, ?_⟩
  · intro tile htile
    obtain ⟨link, hlink, heq⟩ := List.mem_filterMap.1 htile
    apply h.icons
    exact List.mem_filterMap.2 ⟨link, hsublist.subset (hperm.mem_iff.2 hlink), heq⟩
  · intro tile htile
    obtain ⟨widget, hwidget, heq⟩ := List.mem_filterMap.1 htile
    apply h.good
    exact List.mem_filterMap.2 ⟨widget, hsublist.subset (hperm.mem_iff.2 hwidget), heq⟩
  · exact hwidgets.nodup_iff.1 (h.distinct.sublist hids)

/-- A tile of a saved document, in any document it stands in. -/
theorem saved_tile_iff (hlibrary : Library rt) {raw : Mapping} {config : TilesConfig}
    (h : configFromDict rt raw = some config) {i : Nat} {tile : WidgetTile}
    (hgood : isWidgetId tile.id = true)
    (hdict : (tileDicts raw)[i]? = some (tileDict (.widget tile))) :
    (tilesOf config.groups)[i]? = some (.widget tile) ↔ ¬CarriedBefore (tileDicts raw) i tile.id := by
  have hread : tileFromDict rt (tileDict (.widget tile)) = .widget tile := widgetFromDict_widget hgood
  have hcarries := carries_of_read hread (ne_empty_of_isWidgetId hgood)
  constructor
  · intro htile hbefore
    obtain ⟨j, dict, hlt, hfirst, hcarriesFirst, hnone⟩ := first_carrier hbefore
    obtain ⟨other, hother, -, hid⟩ := kept_at h hfirst hcarriesFirst hgood hnone
    have hsame := place_unique (settled_of_configFromDict hlibrary.prints h).distinct hother htile hid
    omega
  · intro hfirst
    obtain ⟨found, hfound, hfoundRead, -⟩ := kept_at h hdict hcarries hgood hfirst
    rw [hfound, ← hfoundRead, hread]

/-- Every document that is read gives its widgets stable ids. -/
theorem stable_ids (hlibrary : Library rt) {raw : Mapping} {config : TilesConfig}
    (h : configFromDict rt raw = some config) : StableIds rt raw config := by
  have hsettled : Settled config.groups := settled_of_configFromDict hlibrary.prints h
  refine
    { safe := ?_
      distinct := hsettled.distinct
      kept := ?_
      determined := fun raw' config' h' hclues => ids_of_clues h h' hclues
      reload := configFromDict_configToDict hsettled
      file := fun hyaml => parseFile_tilesText hyaml hsettled
      rearranged := ?_
      edited := ?_ }
  · intro tile htile hplain
    rcases source_of_configFromDict h htile with ⟨dict, hdict, hcarries⟩ | ⟨widget, number, hdigest⟩
    · exact pathSafe_of_isWidgetId (hsettled.good tile htile) (hplain dict hdict hcarries)
    · rw [hdigest]
      exact pathSafe_widgetDigest hlibrary widget number
  · intro i dict id hdict hcarries hid hfirst
    obtain ⟨tile, htile, -, hsame⟩ :=
      kept_at h hdict hcarries (isWidgetId_of_pathSafe hid) hfirst
    exact ⟨tile, htile, hsame⟩
  · intro version groups' hfrom
    have hsettled' : Settled (TilesConfig.mk version groups').groups := hsettled.rearranged hfrom
    exact configFromDict_configToDict hsettled'
  · intro raw' config' i tile h' htile hdict
    exact saved_tile_iff hlibrary h' (hsettled.good tile htile) hdict

/-! ### An id that ends a line, and one that is taken over -/

/-- A library as far as one derived id needs it. -/
def widgetRuntime : EditorRuntime where
  safeLoad := fun _ => .ok .null
  dump := fun _ => ""
  sha256 := fun raw =>
    if raw = encode "backup-age:0" then
      "f9ead5aba9c498b95f279279ab3c1169b949d3364f518a00e240ca1f6c8ff79a"
    else "0000000000000000000000000000000000000000000000000000000000000000"
  str := fun _ => "None"
  int := fun _ => none

theorem mem_digits_of_all {text : String}
    (h : (text.toList.all fun c => "0123456789abcdef".toList.contains c) = true) :
    ∀ c ∈ text.toList, c ∈ "0123456789abcdef".toList :=
  fun c hc => List.contains_iff_mem.1 (List.all_eq_true.1 h c hc)

theorem widgetRuntime_library : Library widgetRuntime where
  hexdigest := by
    intro raw
    simp only [widgetRuntime]
    split <;> exact ⟨by decide, mem_digits_of_all (by decide)⟩
  str := by
    intro value hempty
    have hnone : "None" = "" := hempty
    revert hnone
    decide

/-- A narrow widget for administrators. -/
def opsWidget (widget id : String) : WidgetTile where
  widget := widget
  id := id
  title := ""
  size := .s
  visibility := .admin

/-- A configuration with one group of such widgets. -/
def opsConfig (widgets : List WidgetTile) : TilesConfig where
  version := 1
  groups := [{ name := "Ops", tiles := widgets.map .widget }]

theorem stable_ids_of_repeated_id :
    StableIds widgetRuntime (configToDict (opsConfig [opsWidget "failed-jobs" "mine",
        opsWidget "backup-age" "mine"]))
      (opsConfig [opsWidget "failed-jobs" "mine", opsWidget "backup-age" "f9ead5ab"]) :=
  stable_ids widgetRuntime_library (by decide +kernel)

/-- An id with a line break at its end is kept, and a tile that is put in front of a saved one with
its id takes the id from it. -/
theorem line_break_kept_and_id_taken_over :
    (¬∀ (rt : EditorRuntime) (raw : Mapping) (config : TilesConfig), Library rt →
      configFromDict rt raw = some config →
        ∀ tile ∈ widgetsOf (tilesOf config.groups), PathSafe tile.id) ∧
    ¬∀ (rt : EditorRuntime) (raw raw' : Mapping) (config config' : TilesConfig), Library rt →
      configFromDict rt raw = some config → configFromDict rt raw' = some config' →
        ∀ (i : Nat), ∀ tile ∈ widgetsOf (tilesOf config.groups),
          (tileDicts raw')[i]? = some (tileDict (.widget tile)) →
            ∃ tile' : WidgetTile, (tilesOf config'.groups)[i]? = some (.widget tile') ∧ tile'.id = tile.id := by
  constructor
  · intro h
    have hread : configFromDict widgetRuntime
        (configToDict (opsConfig [opsWidget "backup-age" "mine\n"])) =
          some (opsConfig [opsWidget "backup-age" "mine\n"]) := by decide +kernel
    have hsafe := h _ _ _ widgetRuntime_library hread (opsWidget "backup-age" "mine\n")
      List.mem_cons_self
    have hbreak := hsafe.2.2 '\n' (by decide)
    revert hbreak
    decide
  · intro h
    have hsaved : configFromDict widgetRuntime
        (configToDict (opsConfig [opsWidget "backup-age" "mine"])) =
          some (opsConfig [opsWidget "backup-age" "mine"]) := by decide +kernel
    have hedited : configFromDict widgetRuntime
        (configToDict (opsConfig [opsWidget "failed-jobs" "mine", opsWidget "backup-age" "mine"])) =
          some (opsConfig [opsWidget "failed-jobs" "mine", opsWidget "backup-age" "f9ead5ab"]) := by
      decide +kernel
    obtain ⟨tile', htile', hid⟩ := h _ _ _ _ _ widgetRuntime_library hsaved hedited 1
      (opsWidget "backup-age" "mine") List.mem_cons_self rfl
    obtain rfl := Tile.widget.inj (Option.some.inj htile')
    revert hid
    decide

end Papaia.Editors
