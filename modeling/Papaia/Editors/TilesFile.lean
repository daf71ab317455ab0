/-
Module: Papaia.Editors.TilesFile
Purpose: The reading of `tiles.yaml` with every way it can end, whatever values the document holds, and
  the save that goes through it, step by step.
Trusted boundary: the YAML library, `hashlib.sha256`, `str` and `int`; the log takes every warning; the
  file that is written first is no link to the one it replaces
Main exports: Node, Library, Raised, configFromDict, parseTiles, saveTiles, saveTilesRaw
-/
import Papaia.Data.PyText
import Papaia.Editors.Tiles

namespace Papaia.TilesFile

open Editors (Visibility Size Content fileHeader)

/-- A value of the YAML library's data model. -/
inductive Node where
  | null
  | bool (value : Bool)
  | int (value : Int)
  | float (value : PyFloat)
  | text (chars : PyText)
  | bytes (raw : List UInt8)
  | stamp (iso : String)
  | list (items : List Node)
  | set (items : List Node)
  | pair (key value : Node)
  | map (entries : List (Node × Node))
deriving Repr

/-- The entries of a mapping. -/
abbrev Entries := List (Node × Node)

namespace Node

/-- `bool(value)`. -/
def truthy : Node → Bool
  | null => false
  | bool value => value
  | int value => value != 0
  | float (.finite value) => value != 0
  | float _ => true
  | text chars => !chars.isEmpty
  | bytes raw => !raw.isEmpty
  | stamp _ => true
  | list items => !items.isEmpty
  | set items => !items.isEmpty
  | pair _ _ => true
  | map entries => !entries.isEmpty

/-- `isinstance(value, dict)`, with the entries. -/
def entries? : Node → Option Entries
  | map entries => some entries
  | _ => none

/-- `value == text`. -/
def isText (text : String) : Node → Bool
  | .text found => found == PyText.of text
  | _ => false

/-- What an iteration yields; none where the value cannot be iterated over. -/
def iterate : Node → Option (List Node)
  | text chars => some (chars.map fun c => .text [c])
  | bytes raw => some (raw.map fun byte => .int byte.toNat)
  | list items => some items
  | set items => some items
  | pair key value => some [key, value]
  | map entries => some (entries.map Prod.fst)
  | _ => none

end Node

/-- `raw.get(key)` where the key is there. -/
def get? (raw : Entries) (key : String) : Option Node :=
  (raw.find? fun entry => entry.1.isText key).map Prod.snd

/-- `raw.get(key)`. -/
def get (raw : Entries) (key : String) : Node :=
  (get? raw key).getD .null

/-- What ends a call: the error for a document that cannot be used, another exception of Python, or a
loop that is still running. -/
inductive Raised where
  | tilesFile (message : PyText)
  | typeError
  | valueError
  | overflowError
  | unicodeEncodeError
  | osError
  | unfinished
deriving DecidableEq, Repr

/-- What the manager takes from Python's library and from PyYAML. -/
structure Library where
  /-- `yaml.safe_load`, with what a `YAMLError` says. -/
  safeLoad : PyText → Except PyText Node
  /-- `yaml.dump`. -/
  dump : Node → Except Raised PyText
  /-- `hashlib.sha256(raw).hexdigest()`. -/
  hexdigest : List UInt8 → PyText
  /-- `str(value)` of a value that is no text; none where it raises, for a number with too many digits. -/
  str : Node → Option PyText
  /-- `int(value)` of a text or of bytes, none where it raises. -/
  int : Node → Option Int

/-! ### The document -/

structure LinkTile where
  name : PyText
  href : PyText
  description : PyText
  icon : Option PyText
  visibility : Visibility
deriving DecidableEq, Repr

structure WidgetTile where
  widget : PyText
  id : PyText
  title : PyText
  size : Size
  visibility : Visibility
deriving DecidableEq, Repr

inductive Tile where
  | link (tile : LinkTile)
  | widget (tile : WidgetTile)
deriving DecidableEq, Repr

structure TileGroup where
  name : PyText
  tiles : List Tile
deriving DecidableEq, Repr

structure TilesConfig where
  version : Int
  groups : List TileGroup
deriving DecidableEq, Repr

/-! ### From a mapping -/

variable (lib : Library)

/-- `str(value)`. -/
def textOf : Node → Except Raised PyText
  | .text text => .ok text
  | value =>
      match lib.str value with
      | some text => .ok text
      | none => .error .valueError

/-- `str(raw.get(key, ""))`. -/
def textAt (raw : Entries) (key : String) : Except Raised PyText :=
  textOf lib ((get? raw key).getD (.text []))

/-- `int(value)`. -/
def intOf : Node → Except Raised Int
  | .bool value => .ok (if value then 1 else 0)
  | .int value => .ok value
  | .float (.finite value) => .ok (Int.tdiv value.num value.den)
  | .float (.infinite _) => .error .overflowError
  | .float .nan => .error .valueError
  | .text text =>
      match lib.int (.text text) with
      | some value => .ok value
      | none => .error .valueError
  | .bytes raw =>
      match lib.int (.bytes raw) with
      | some value => .ok value
      | none => .error .valueError
  | _ => .error .typeError

/-- `[item for item in raw.get(key) or [] if isinstance(item, dict)]`. -/
def dictsAt (raw : Entries) (key : String) : Except Raised (List Entries) :=
  if (get raw key).truthy then
    match (get raw key).iterate with
    | some items => .ok (items.filterMap Node.entries?)
    | none => .error .typeError
  else .ok []

/-- `_visibility_from_raw`. -/
def visibilityFromRaw (value : Node) : Visibility :=
  match value with
  | .null => .all
  | value => if value.isText "all" then .all else .admin

/-- `[A-Za-z0-9_-]`. -/
def isPathSafe (c : CodePoint) : Bool :=
  (0x30 ≤ c.val && c.val ≤ 0x39) || (0x41 ≤ c.val && c.val ≤ 0x5a) ||
    (0x61 ≤ c.val && c.val ≤ 0x7a) || c.val == 0x5f || c.val == 0x2d

/-- `_WIDGET_ID_RE`; `$` also matches before a newline at the end. -/
def isWidgetId (id : PyText) : Bool :=
  let core := if id.getLast? = some 0x0a then id.dropLast else id
  1 ≤ core.length && core.length ≤ 40 && core.all isPathSafe

/-- `raw_id if isinstance(raw_id, str) and _WIDGET_ID_RE.match(raw_id) else ""`. -/
def idFromRaw : Node → PyText
  | .text id => if isWidgetId id then id else []
  | _ => []

/-- `str(value) if value else default`. -/
def textOr (value : Node) : Except Raised (Option PyText) :=
  if value.truthy then (textOf lib value).map some else .ok none

/-- `_widget_from_dict`. -/
def widgetFromDict (raw : Entries) : Except Raised WidgetTile := do
  let widget ← textAt lib raw "widget"
  let title ← textOr lib (get raw "title")
  pure
    { widget
      id := idFromRaw (get raw "id")
      title := title.getD []
      size := if (get raw "size").isText "l" then .l else if (get raw "size").isText "m" then .m else .s
      visibility :=
        match get raw "visibility" with
        | .null => .admin
        | visibility => visibilityFromRaw visibility }

/-- `_tile_from_dict`. -/
def tileFromDict (raw : Entries) : Except Raised Tile :=
  if (get raw "type").isText "widget" then (widgetFromDict lib raw).map .widget
  else do
    let name ← textAt lib raw "name"
    let href ← textAt lib raw "href"
    let description ← textAt lib raw "description"
    let icon ← textOr lib (get raw "icon")
    pure (.link { name, href, description, icon, visibility := visibilityFromRaw (get raw "visibility") })

/-- `_group_from_dict`. -/
def groupFromDict (raw : Entries) : Except Raised TileGroup := do
  let dicts ← dictsAt raw "tiles"
  let tiles ← dicts.mapM (tileFromDict lib)
  let name ← textAt lib raw "name"
  pure { name, tiles }

/-! ### The ids of the widgets -/

/-- The widgets of a list of tiles. -/
def widgetsOf (tiles : List Tile) : List WidgetTile :=
  tiles.filterMap fun
    | .link _ => none
    | .widget tile => some tile

/-- A second tile that repeats an id loses it; with the ids that are taken afterwards. -/
def keepIds : List PyText → List WidgetTile → List PyText × List WidgetTile
  | taken, [] => (taken, [])
  | taken, tile :: rest =>
      if tile.id ∈ taken then
        let (taken', kept) := keepIds taken rest
        (taken', { tile with id := [] } :: kept)
      else if tile.id = [] then
        let (taken', kept) := keepIds taken rest
        (taken', tile :: kept)
      else
        let (taken', kept) := keepIds (tile.id :: taken) rest
        (taken', tile :: kept)

/-- `f"{tile.widget}:{number}"`. -/
def numbered (widget : PyText) (number : Nat) : PyText :=
  widget ++ PyText.of (":" ++ toString number)

/-- The loop that looks for a free id, from a number on, as far as the rounds go. -/
def freeId (widget : PyText) (taken : List PyText) : Nat → Nat → Except Raised (PyText × Nat)
  | 0, _ => .error .unfinished
  | rounds + 1, number =>
      match (numbered widget number).encode with
      | none => .error .unicodeEncodeError
      | some raw =>
          let digest := (lib.hexdigest raw).take 8
          if digest ∈ taken then freeId widget taken rounds (number + 1)
          else .ok (digest, number + 1)

/-- A tile without an id gets a free one of its type. -/
def giveIds (rounds : Nat) :
    List PyText → List (PyText × Nat) → List WidgetTile → Except Raised (List WidgetTile)
  | _, _, [] => .ok []
  | taken, counters, tile :: rest =>
      if tile.id ≠ [] then (giveIds rounds taken counters rest).map (tile :: ·)
      else do
        let (digest, number) ← freeId lib tile.widget taken rounds ((counters.lookup tile.widget).getD 0)
        let named ← giveIds rounds (digest :: taken) ((tile.widget, number) :: counters) rest
        pure ({ tile with id := digest } :: named)

/-- The tiles with their widgets as they are now; with the widgets of what follows. -/
def refillTiles : List Tile → List WidgetTile → List Tile × List WidgetTile
  | [], named => ([], named)
  | .link tile :: rest, named =>
      let (tiles, left) := refillTiles rest named
      (.link tile :: tiles, left)
  | .widget _ :: rest, tile :: named =>
      let (tiles, left) := refillTiles rest named
      (.widget tile :: tiles, left)
  | .widget tile :: rest, [] => (.widget tile :: rest, [])

def refillGroups : List TileGroup → List WidgetTile → List TileGroup
  | [], _ => []
  | group :: rest, named =>
      let (tiles, left) := refillTiles group.tiles named
      { group with tiles } :: refillGroups rest left

/-- `_assign_widget_ids`. -/
def assignWidgetIds (rounds : Nat) (groups : List TileGroup) : Except Raised (List TileGroup) := do
  let (taken, kept) := keepIds [] (widgetsOf (groups.flatMap TileGroup.tiles))
  let named ← giveIds lib rounds taken [] kept
  pure (refillGroups groups named)

/-- `_config_from_dict`. -/
def configFromDict (rounds : Nat) (raw : Entries) : Except Raised TilesConfig := do
  let dicts ← dictsAt raw "groups"
  let read ← dicts.mapM (groupFromDict lib)
  let groups ← assignWidgetIds lib rounds read
  let version ← intOf lib ((get? raw "version").getD (.int 1))
  pure { version, groups }

/-- `parse_tiles`. -/
def parseTiles (rounds : Nat) (text : PyText) : Except Raised TilesConfig :=
  match lib.safeLoad text with
  | .error exc => .error (.tilesFile (PyText.of "tiles.yaml is not valid YAML: " ++ exc))
  | .ok value =>
      match (if value.truthy then value else .map []).entries? with
      | none => .error (.tilesFile (PyText.of "tiles.yaml must hold a mapping at the top level"))
      | some raw => configFromDict lib rounds raw

/-! ### The save -/

/-- `_tile_to_dict`. -/
def tileToDict : Tile → Node
  | .link tile =>
      .map (
        [(.text (.of "name"), .text tile.name), (.text (.of "href"), .text tile.href),
          (.text (.of "description"), .text tile.description)] ++
        (tile.icon.filter (· ≠ [])).toList.map (fun icon => (.text (.of "icon"), .text icon)) ++
        [(.text (.of "visibility"), .text (.of tile.visibility.text))])
  | .widget tile =>
      .map (
        [(.text (.of "type"), .text (.of "widget")), (.text (.of "widget"), .text tile.widget),
          (.text (.of "id"), .text tile.id)] ++
        (if tile.title = [] then [] else [(.text (.of "title"), .text tile.title)]) ++
        [(.text (.of "size"), .text (.of tile.size.text)),
          (.text (.of "visibility"), .text (.of tile.visibility.text))])

def groupToDict (group : TileGroup) : Node :=
  .map [(.text (.of "name"), .text group.name), (.text (.of "tiles"), .list (group.tiles.map tileToDict))]

/-- `_config_to_dict`. -/
def configToDict (config : TilesConfig) : Node :=
  .map [(.text (.of "version"), .int config.version),
    (.text (.of "groups"), .list (config.groups.map groupToDict))]

/-- The stored file, and the one that is written first. -/
structure Files where
  stored : Content
  tmp : Content
deriving DecidableEq, Repr

/-- What the file system lets a save do: the directory is there or made, the first file is written (or
is left as something else), and it takes the place of the stored one. -/
structure Weather where
  mkdir : Bool
  torn : Option Content
  replace : Bool
deriving DecidableEq, Repr

/-- `save_tiles`, with the files afterwards. -/
def saveTiles (weather : Weather) (config : TilesConfig) (files : Files) : Except Raised Unit × Files :=
  if weather.mkdir = false then (.error .osError, files)
  else
    match lib.dump (configToDict config) with
    | .error raised => (.error raised, files)
    | .ok document =>
        match weather.torn with
        | some content => (.error .osError, { files with tmp := content })
        | none =>
            match (PyText.of fileHeader ++ document).encode with
            | none => (.error .unicodeEncodeError, { files with tmp := .file [] })
            | some raw =>
                if weather.replace then (.ok (), { stored := .file raw, tmp := .absent })
                else (.error .osError, { files with tmp := .file raw })

/-- `save_tiles_raw`. -/
def saveTilesRaw (rounds : Nat) (weather : Weather) (text : PyText) (files : Files) :
    Except Raised TilesConfig × Files :=
  match parseTiles lib rounds text with
  | .error raised => (.error raised, files)
  | .ok config =>
      match saveTiles lib weather config files with
      | (.error raised, files') => (.error raised, files')
      | (.ok (), files') => (.ok config, files')

end Papaia.TilesFile
