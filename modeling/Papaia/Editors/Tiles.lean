/-
Module: Papaia.Editors.Tiles
Purpose: The dashboard's `tiles.yaml`: what its text means, the ids it gives its widgets, and the
  document it is written as.
Trusted boundary: the YAML library, `hashlib.sha256`, `str` and `int` of values that are no texts; the
  search for a free id ends, or takes more rounds than anybody waits for
Main exports: EditorRuntime, Content, TilesConfig, configFromDict, parseTiles, configToDict, tilesText,
  tilesRevision
-/
import Papaia.Addons.EnvFile
import Papaia.Data.Value

namespace Papaia.Editors

/-- What the editors take from Python's library and from PyYAML. -/
structure EditorRuntime where
  /-- `yaml.safe_load`, with what a `YAMLError` says. -/
  safeLoad : String → Except String Val
  /-- `yaml.dump`. -/
  dump : Val → String
  /-- `hashlib.sha256(raw).hexdigest()`. -/
  sha256 : List UInt8 → String
  /-- `str(value)` of a value that is no text. -/
  str : Val → String
  /-- `int(value)`, none where it raises. -/
  int : Val → Option Int

/-- `text.encode()`. -/
def encode (text : String) : List UInt8 :=
  text.toUTF8.data.toList

/-- `raw.decode("utf-8")`, none where it raises. -/
def decode (raw : List UInt8) : Option String :=
  String.fromUTF8? ⟨raw.toArray⟩

/-- What `read_text` makes of the bytes of a file. -/
def readText (raw : List UInt8) : Option String :=
  (decode raw).map fun text => String.ofList (Addons.universalNewlines text.toList)

/-- What is at the path of a file; a link stands for what it leads to. -/
inductive Content where
  | absent
  | unreadable
  | file (raw : List UInt8)
deriving DecidableEq, Repr

/-! ### The document -/

inductive Visibility where
  | all
  | admin
deriving DecidableEq, Repr

def Visibility.text : Visibility → String
  | all => "all"
  | admin => "admin"

inductive Size where
  | s
  | m
  | l
deriving DecidableEq, Repr

def Size.text : Size → String
  | s => "s"
  | m => "m"
  | l => "l"

/-- A single dashboard link. -/
structure LinkTile where
  name : String
  href : String
  description : String
  icon : Option String
  visibility : Visibility
deriving DecidableEq, Repr

/-- A dashboard card that shows live state. -/
structure WidgetTile where
  widget : String
  id : String
  title : String
  size : Size
  visibility : Visibility
deriving DecidableEq, Repr

inductive Tile where
  | link (tile : LinkTile)
  | widget (tile : WidgetTile)
deriving DecidableEq, Repr

structure TileGroup where
  name : String
  tiles : List Tile
deriving DecidableEq, Repr

structure TilesConfig where
  version : Int
  groups : List TileGroup
deriving DecidableEq, Repr

/-! ### From a mapping -/

variable (rt : EditorRuntime)

/-- `str(value)`. -/
def textOf : Val → String
  | .str text => text
  | value => rt.str value

/-- `str(raw.get(key, ""))`. -/
def textAt (raw : Mapping) (key : String) : String :=
  ((raw.get? key).map (textOf rt)).getD ""

/-- `[item for item in raw.get(key) or [] if isinstance(item, dict)]`; none where the value cannot be
iterated over. -/
def dictsAt (raw : Mapping) (key : String) : Option (List Mapping) :=
  let value := raw.getD key
  if value.truthy then
    match value with
    | .list items => some (items.filterMap Val.mapping?)
    | .scalar (.str _) | .scalar (.bytes _) | .set _ | .map _ => some []
    | .scalar _ => none
  else some []

/-- `_visibility_from_raw`. -/
def visibilityFromRaw : Val → Visibility
  | .null => .all
  | .str "all" => .all
  | _ => .admin

/-- `_WIDGET_ID_RE`; `$` also matches before a newline at the end. -/
def isWidgetId (id : String) : Bool :=
  let chars := id.toList
  let core := if chars.getLast? = some '\n' then chars.dropLast else chars
  1 ≤ core.length && core.length ≤ 40 && core.all fun c => c.isAlphanum || c == '_' || c == '-'

/-- `_widget_from_dict`. -/
def widgetFromDict (raw : Mapping) : WidgetTile where
  widget := textAt rt raw "widget"
  id :=
    match raw.getD "id" with
    | .str id => if isWidgetId id then id else ""
    | _ => ""
  title := if (raw.getD "title").truthy then textOf rt (raw.getD "title") else ""
  size :=
    match raw.getD "size" with
    | .str "l" => .l
    | .str "m" => .m
    | _ => .s
  visibility :=
    match raw.getD "visibility" with
    | .null => .admin
    | visibility => visibilityFromRaw visibility

/-- `_tile_from_dict`. -/
def tileFromDict (raw : Mapping) : Tile :=
  match raw.getD "type" with
  | .str "widget" => .widget (widgetFromDict rt raw)
  | _ =>
      .link
        { name := textAt rt raw "name"
          href := textAt rt raw "href"
          description := textAt rt raw "description"
          icon := if (raw.getD "icon").truthy then some (textOf rt (raw.getD "icon")) else none
          visibility := visibilityFromRaw (raw.getD "visibility") }

/-- `_group_from_dict`. -/
def groupFromDict (raw : Mapping) : Option TileGroup :=
  (dictsAt raw "tiles").map fun tiles =>
    { name := textAt rt raw "name", tiles := tiles.map (tileFromDict rt) }

/-! ### The ids of the widgets -/

/-- The widgets of a list of tiles are replaced, one after the other. -/
def overTiles {σ : Type} (f : σ → WidgetTile → Option (σ × WidgetTile)) :
    σ → List Tile → Option (σ × List Tile)
  | s, [] => some (s, [])
  | s, .link tile :: rest => do
      let (s', tiles) ← overTiles f s rest
      pure (s', .link tile :: tiles)
  | s, .widget tile :: rest => do
      let (s', tile') ← f s tile
      let (s'', tiles) ← overTiles f s' rest
      pure (s'', .widget tile' :: tiles)

def overGroups {σ : Type} (f : σ → WidgetTile → Option (σ × WidgetTile)) :
    σ → List TileGroup → Option (σ × List TileGroup)
  | s, [] => some (s, [])
  | s, group :: rest => do
      let (s', tiles) ← overTiles f s group.tiles
      let (s'', groups) ← overGroups f s' rest
      pure (s'', { group with tiles } :: groups)

/-- An id that is taken is dropped. -/
def keepId (taken : List String) (tile : WidgetTile) : Option (List String × WidgetTile) :=
  if tile.id ∈ taken then some (taken, { tile with id := "" })
  else if tile.id = "" then some (taken, tile)
  else some (tile.id :: taken, tile)

/-- The id of a widget type and a number. -/
def widgetDigest (widget : String) (number : Nat) : String :=
  String.ofList ((rt.sha256 (encode (widget ++ ":" ++ toString number))).toList.take 8)

/-- The first id from a number on that is free, and the number after it. -/
def freeId (widget : String) (taken : List String) : Nat → Nat → Option (String × Nat)
  | 0, _ => none
  | rounds + 1, number =>
      let digest := widgetDigest rt widget number
      if digest ∈ taken then freeId widget taken rounds (number + 1)
      else some (digest, number + 1)

/-- The rounds of the search that are waited for. -/
def patience : Nat := 18446744073709551616

/-- The ids that are taken, and the next number of each widget type. -/
abbrev Numbering := List String × List (String × Nat)

/-- A tile without an id gets a free one of its type. -/
def giveId (numbering : Numbering) (tile : WidgetTile) : Option (Numbering × WidgetTile) :=
  if tile.id ≠ "" then some (numbering, tile)
  else do
    let (digest, number) ← freeId rt tile.widget numbering.1 patience
      ((numbering.2.lookup tile.widget).getD 0)
    pure ((digest :: numbering.1, (tile.widget, number) :: numbering.2), { tile with id := digest })

/-- `_assign_widget_ids`. -/
def assignWidgetIds (groups : List TileGroup) : Option (List TileGroup) := do
  let (taken, kept) ← overGroups keepId [] groups
  let (_, named) ← overGroups (giveId rt) (taken, []) kept
  pure named

/-- `_config_from_dict`; none where it raises. -/
def configFromDict (raw : Mapping) : Option TilesConfig := do
  let dicts ← dictsAt raw "groups"
  let read ← dicts.mapM (groupFromDict rt)
  let groups ← assignWidgetIds rt read
  let version ← match (raw.get? "version").getD (.int 1) with
    | .int version => some version
    | value => rt.int value
  pure { version, groups }

/-! ### Reading and writing -/

/-- Why a document is not read. -/
inductive TilesError where
  | file (message : String)
  | raised
deriving DecidableEq, Repr

/-- `parse_tiles`. -/
def parseTiles (text : String) : Except TilesError TilesConfig :=
  match rt.safeLoad text with
  | .error exc => .error (.file ("tiles.yaml is not valid YAML: " ++ exc))
  | .ok value =>
      match (if value.truthy then value else .map []) with
      | .map raw =>
          match configFromDict rt raw with
          | some config => .ok config
          | none => .error .raised
      | _ => .error (.file "tiles.yaml must hold a mapping at the top level")

/-- What a file means. -/
def parseFile (raw : List UInt8) : Except TilesError TilesConfig :=
  match readText raw with
  | none => .error .raised
  | some text => parseTiles rt text

/-- `_tile_to_dict`. -/
def tileToDict : Tile → Val
  | .link tile =>
      .map (
        [(.str "name", .str tile.name), (.str "href", .str tile.href),
          (.str "description", .str tile.description)] ++
        (tile.icon.filter (· ≠ "")).toList.map (fun icon => (.str "icon", .str icon)) ++
        [(.str "visibility", .str tile.visibility.text)])
  | .widget tile =>
      .map (
        [(.str "type", .str "widget"), (.str "widget", .str tile.widget), (.str "id", .str tile.id)] ++
        (if tile.title = "" then [] else [(.str "title", .str tile.title)]) ++
        [(.str "size", .str tile.size.text), (.str "visibility", .str tile.visibility.text)])

def groupToDict (group : TileGroup) : Val :=
  .map [(.str "name", .str group.name), (.str "tiles", .list (group.tiles.map tileToDict))]

/-- `_config_to_dict`. -/
def configToDict (config : TilesConfig) : Mapping :=
  [(.str "version", .int config.version), (.str "groups", .list (config.groups.map groupToDict))]

/-- `_FILE_HEADER`. -/
def fileHeader : String :=
  "# Dashboard tiles for the papAIa manager.\n" ++
    "#\n" ++
    "# Managed from the manager UI: Dashboard -> Edit dashboard. Hand edits keep\n" ++
    "# working, but the next save from the UI rewrites the whole document --\n" ++
    "# comments and key order are not preserved.\n"

/-- The text that `save_tiles` writes. -/
def tilesText (config : TilesConfig) : String :=
  fileHeader ++ rt.dump (.map (configToDict config))

/-- `tiles_revision`; none where it raises. -/
def tilesRevision : Content → Option String
  | .absent => some ""
  | .unreadable => none
  | .file raw => some (rt.sha256 raw)

/-- `_DEFAULT_TILES`, as `_config_from_dict` reads it. -/
def defaultTiles : TilesConfig where
  version := 1
  groups :=
    [{ name := "AI & Automation"
       tiles :=
         [.link
            { name := "LibreChat", href := "\x7b\x7bPAPAIA_HOST\x7d\x7d:8000"
              description := "ChatGPT compatible, self-hosted AI chatbot"
              icon := some "/static/icons/librechat.svg", visibility := .all },
          .link
            { name := "LiteLLM", href := "\x7b\x7bPAPAIA_HOST\x7d\x7d:8200/ui"
              description := "LLM proxy and load balancer"
              icon := some "/static/icons/litellm.svg", visibility := .all }] },
     { name := "Infrastructure"
       tiles :=
         [.link
            { name := "Keycloak", href := "\x7b\x7bPAPAIA_HOST\x7d\x7d:8110/"
              description := "Identity and access management"
              icon := some "/static/icons/keycloak.svg", visibility := .admin },
          .link
            { name := "NGINX Proxy Manager", href := "\x7b\x7bPAPAIA_HOST\x7d\x7d:8100/"
              description := "Reverse proxy with admin UI"
              icon := some "/static/icons/nginx-proxy-manager.svg", visibility := .admin }] }]

end Papaia.Editors
