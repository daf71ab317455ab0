/-
Module: Papaia.Ingest.Minimise
Purpose: Writing a job back: what each section inherits, and the mapping that says only what differs
  from it.
Trusted boundary: Runtime
Main exports: isEmptyValue, sectionDefaults, inheritedSections, keeps, minimiseSource, minimise
-/
import Papaia.Ingest.Rules

namespace Papaia

/-- `list(value)`: the items of what Python can iterate over. -/
def Val.iterate? : Val → Option (List Val)
  | .list items => some items
  | .set items => some (items.map .scalar)
  | .map entries => some (entries.map fun entry => .scalar entry.1)
  | .str text => some (text.toList.map fun c => .str (String.singleton c))
  | .bytes raw => some (raw.map fun byte => .int byte.toNat)
  | _ => none

/-- The key and the value of an item of two items. -/
def Val.pair? (item : Val) : Option (Scalar × Val) :=
  match item.iterate? with
  | some [.scalar key, value] => some (key, value)
  | _ => none

/-- `dict(value)`: a mapping as it is, and the pairs of anything else. -/
def Val.dict? : Val → Option Mapping
  | .map entries => some entries
  | v => (v.iterate?.bind (·.mapM Val.pair?)).map fun pairs =>
      pairs.foldl (fun entries pair => entries.put pair.1 pair.2) []

namespace Ingest

open Text

/-- `_empty`. -/
def isEmptyValue : Val → Bool
  | .null => true
  | .str text => text == ""
  | .list items => items.isEmpty
  | .map entries => entries.isEmpty
  | _ => false

/-! ### What a job inherits -/

/-- `section_defaults`: what the ingester assumes for a section nobody sets. -/
def sectionDefaults (name : String) : Mapping :=
  if name = "embedding" then [(.str "model", .null), (.str "batch_size", .null)]
  else if name = "chunking" then
    [(.str "strategy", .str "auto"), (.str "words", .int 400), (.str "overlap", .int 50)]
  else if name = "filters" then
    [(.str "include", .list []), (.str "exclude", .list []), (.str "max_file_bytes", .null)]
  else if name = "schedule" then
    [(.str "cron", .null), (.str "every", .null), (.str "timezone", .null),
      (.str "jitter_seconds", .int 30), (.str "misfire_grace_seconds", .int 300),
      (.str "run_on_startup", .str "if_missed")]
  else if name = "safety" then
    [(.str "max_delete_ratio", .float (.finite (1 / 4))), (.str "empty_source_guard", .bool true)]
  else []

/-- The part of `inherited_sections` for one section: the default of the catalog, else the one of
the schema.  Only a mapping, or what counts as nothing, can be merged. -/
def inheritedSection (defaults : Mapping) (name : String) : Option Mapping :=
  let chosen := (knownDefaults defaults).getD name
  if chosen.truthy then chosen.mapping?.map (deepMerge (sectionDefaults name))
  else some (deepMerge (sectionDefaults name) [])

/-- `inherited_sections`. -/
def inheritedSections (defaults : Mapping) : Option (List (String × Mapping)) :=
  defaultSections.mapM fun name => (inheritedSection defaults name).map fun m => (name, m)

/-! ### The source -/

/-- `_as_reference`. -/
def asReference (value : String) : String :=
  if (secretName (.str value)).isSome then value
  else if isSecretName value.toList then secretRef value else value

/-- The default of an optional key of a source. -/
def SourceShape.default? : SourceShape → Option Val
  | .required => none
  | .text default => some (.str default)
  | .secret => some .null
  | .port default => some (.int default)
  | .flag default => some (.bool default)

/-- `_source_defaults`. -/
def sourceDefaults (type : SourceType) : Mapping :=
  (.str "rclone_flags", .list []) ::
    (sourceModel type).filterMap fun (key, shape) => shape.default?.map fun v => (.str key, v)

/-- The keys of a source that have no default, besides `type` and `label`. -/
def requiredKeys (type : SourceType) : List String :=
  (sourceModel type).filterMap fun (key, shape) => if shape = .required then some key else none

/-- Whether a key is one of a few texts. -/
def isKeyIn (keys : List String) (key : Scalar) : Bool :=
  keys.any fun text => key == .str text

/-- What is written for one entry of a source; none where it is left out. -/
def keepSourceEntry (type : SourceType) (key : Scalar) (value : Val) : Option Val :=
  if isKeyIn ["type", "label"] key then none
  else
    let plain :=
      if isKeyIn (requiredKeys type) key then some value
      else if isEmptyValue value then none
      else if ((sourceDefaults type).lookup key).any value.eqv then none
      else some value
    match value with
    | .str text =>
        if isKeyIn (secretKeys type) key && !isBlank text then
          some (.str (asReference (strip text)))
        else plain
    | _ => plain

/-- `_minimise_source`. -/
def minimiseSource (rt : Runtime) (source : Mapping) : Mapping :=
  let word := rt.textOr "" (source.getD "type")
  [(.str "type", .str word), (.str "label", source.getD "label")] ++
    match SourceType.table.lookup word with
    | none => []
    | some type => source.filterMap fun (key, value) =>
        (keepSourceEntry type key value).map fun kept => (key, kept)

/-! ### The job -/

/-- `TOP_DEFAULTS`. -/
def topDefaults : List (String × Val) :=
  [("enabled", .bool true), ("description", .str ""), ("full_scope", .str "job"),
    ("append_probe", .str "auto"), ("mcp_allow_full", .bool false),
    ("expand_embedded", .bool false), ("source_template", .str defaultTemplate)]

/-- A key that is written when there is something to write. -/
def optionalEntry (key : String) (value : Option Val) : Mapping :=
  (value.map fun v => (Scalar.str key, v)).toList

/-- The mapping under a key, empty for anything else. -/
def mappingAt (m : Mapping) (key : String) : Mapping :=
  ((m.getD key).mapping?).getD []

/-- The target: `acl_tags` and `extra_payload` only where they hold something. -/
def minimiseTarget (rt : Runtime) (target : Mapping) : Option Mapping :=
  let given := target.getD "acl_tags"
  let payload := target.getD "extra_payload"
  (if given.truthy then given.iterate? else some []).bind fun items =>
    (if payload.truthy then payload.dict?.map some else some none).map fun extra =>
      let tags := (items.map fun tag => strip (rt.text tag)).filter fun tag => tag != ""
      [(.str "collection", target.getD "collection"), (.str "connection", target.getD "connection")]
        ++ optionalEntry "acl_tags" (if tags.isEmpty then none else some (.list (tags.map .str)))
        ++ optionalEntry "extra_payload" (extra.map .map)

/-- Whether a section writes one of its entries. -/
def keeps (name : String) (inherited : Mapping) (key : Scalar) (value : Val) : Bool :=
  if name = "embedding" && key = .str "model" then !isEmptyValue value
  else if isEmptyValue value && isEmptyValue ((inherited.lookup key).getD .null) then false
  else !(inherited.lookup key).any value.eqv

/-- What is written of a section. -/
def keptSection (name : String) (inherited given : Mapping) : Mapping :=
  given.filter fun entry => keeps name inherited entry.1 entry.2

/-- What is written for a key with a default of its own. -/
def keptTop (job : Mapping) (key : String) (default : Val) : Option Val :=
  match job.getD key with
  | .null => none
  | value => if value.eqv default then none else some value

/-- `enabled` is written only when it is `False` itself. -/
def keptEnabled (job : Mapping) : Option Val :=
  match job.getD "enabled" with
  | .bool false => some (.bool false)
  | _ => none

/-- `minimise`: everything a job needs, nothing it inherits. -/
def minimise (rt : Runtime) (job defaults : Mapping) : Option Mapping :=
  (inheritedSections defaults).bind fun inherited =>
    (minimiseTarget rt (mappingAt job "target")).map fun target =>
      let description := strip (rt.textOr "" (job.getD "description"))
      optionalEntry "id" (some (job.getD "id"))
        ++ optionalEntry "enabled" (keptEnabled job)
        ++ optionalEntry "description" (if description = "" then none else some (.str description))
        ++ optionalEntry "source" (some (.map (minimiseSource rt (mappingAt job "source"))))
        ++ optionalEntry "target" (some (.map target))
        ++ optionalEntry "mode" (some (job.getD "mode"))
        ++ topDefaults.flatMap (fun (key, default) =>
          if ["enabled", "description"].contains key then []
          else optionalEntry key (keptTop job key default))
        ++ inherited.flatMap fun (name, base) =>
          let kept := keptSection name base (mappingAt job name)
          optionalEntry name (if kept.isEmpty then none else some (.map kept))

end Ingest

end Papaia
