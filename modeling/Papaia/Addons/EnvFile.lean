/-
Module: Papaia.Addons.EnvFile
Purpose: The `KEY=value` files of the add-ons: how they are read, and how accepted answers are merged
  into them and written.
Trusted boundary: files hold text; a file is read with universal newlines, as Python does
Main exports: Env, parseEnvText, updateEnv, renderEnv, readEnv, saveEnv
-/
import Papaia.Data.Text
import Papaia.Lib.Keyed

namespace Papaia.Addons

open Text

/-! ### Environments -/

/-- A `dict` of texts, in the order its keys were set. -/
structure Env where
  entries : List (String × String)
  distinct : Keyed.Distinct Prod.fst entries
deriving DecidableEq

namespace Env

def empty : Env := ⟨[], Keyed.distinct_nil⟩

def single (key value : String) : Env :=
  ⟨[(key, value)], List.nodup_singleton key⟩

/-- `env[key] = value`. -/
def set (env : Env) (entry : String × String) : Env :=
  ⟨Keyed.assign Prod.fst env.entries entry, env.distinct.assign entry⟩

/-- `env.get(key)`. -/
def get? (env : Env) (key : String) : Option String :=
  env.entries.lookup key

/-- `env.update(news)`. -/
def update (env news : Env) : Env :=
  news.entries.foldl set env

/-- The `dict` of some items. -/
def ofItems (items : List (String × String)) : Env :=
  items.foldl set empty

end Env

/-! ### Reading -/

/-- `line.partition("=")`, without the separator. -/
def partition (line : String) : String × String :=
  (String.ofList (line.toList.takeWhile (· != '=')),
    String.ofList ((line.toList.dropWhile (· != '=')).drop 1))

/-- What a line sets; blank lines, comments and lines without `=` set nothing. -/
def parseLine (raw : String) : Option (String × String) :=
  let line := strip raw
  if line = "" ∨ startsWith line "#" = true ∨ '=' ∉ line.toList then none
  else
    let parts := partition line
    some (strip parts.1, strip parts.2)

/-- `parse_env_text`, and `_parse_env_file` in two other modules. -/
def parseEnvText (text : String) : Env :=
  Env.ofItems ((splitLines text).filterMap parseLine)

/-- What `read_text` makes of the ends of lines. -/
def universalNewlines : List Char → List Char
  | [] => []
  | '\r' :: '\n' :: rest => '\n' :: universalNewlines rest
  | '\r' :: rest => '\n' :: universalNewlines rest
  | c :: rest => c :: universalNewlines rest

/-- The environment of a file; of one that is not there, the empty one. -/
def readEnv : Option String → Env
  | some content => parseEnvText (String.ofList (universalNewlines content.toList))
  | none => Env.empty

/-! ### Writing -/

/-- `"\n".join(f"{k}={v}" for k, v in env.items()) + "\n"`. -/
def renderEnv (env : Env) : String :=
  joinWith "\n" (env.entries.map fun entry => entry.1 ++ "=" ++ entry.2) ++ "\n"

/-- What the callbacks of `save_config` and `install` do with the file and the accepted answers;
without an answer they leave it alone. -/
def saveEnv (file : Option String) (accepted : Env) : Option String :=
  if accepted.entries.isEmpty then file
  else some (renderEnv ((readEnv file).update accepted))

end Papaia.Addons
