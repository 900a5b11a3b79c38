import PoolWatch.Config.Json
import PoolWatch.Config.Key
import PoolWatch.Files
import PoolWatch.Ini.Reader
import PoolWatch.Toml.Reader
import PoolWatch.Yaml.Reader

/-!
# Sources of configuration

A file says what its document says, and its ending tells the format. The environment says what the
variables with the right beginning say.
-/

namespace PoolWatch.Config

/-- What a source says, each value under its key. -/
abbrev Layer := List (String × Tree)

/-! ## Files -/

inductive Format
  | toml
  | json
  | yaml
  | ini
deriving DecidableEq

/-- The endings of file names, and the format that each stands for. -/
def endings : List (String × Format) :=
  [("toml", .toml), ("json", .json), ("yaml", .yaml), ("yml", .yaml), ("ini", .ini)]

def Format.read : Format → String → Option Layer
  | toml, s => Toml.read s.toList
  | json, s => readJson s
  | yaml, s => Yaml.read s.toList
  | ini, s => Ini.read s.toList

/-- A byte order mark at the beginning is no part of a document. -/
def withoutMark (s : String) : String :=
  match s.toList with
  | '\ufeff' :: cs => String.ofList cs
  | _ => s

/-- The file for a path without an ending. A file with no ending at all hides the others. -/
def findFile (files : Files) (path : String) : Option (String × Format) :=
  if files.isFile path then none
  else (endings.map fun (ending, format) => (path ++ "." ++ ending, format)).find? fun (path, _) =>
    files.isFile path

/-- What the file for a path says. It need not be there. A document that is not of its format has no
layer. -/
def fileLayer? (files : Files) (path : String) : Option Layer :=
  match findFile files path with
  | none => some []
  | some (path, format) =>
    match files.text? path with
    | none => some []
    | some text =>
      (format.read (withoutMark text)).map fun layer =>
        Tree.saidMembers (Path.plain path) layer

/-! ## The environment -/

def environmentName : String := "the environment"

/-- How the names of variables begin. Their case does not matter. -/
def variableStart : List Char := "monitor__".toList

/-- The key in the name of a variable: two underscores stand for a dot. -/
def dotted : List Char → List Char
  | '_' :: '_' :: rest => '.' :: dotted rest
  | c :: rest => c :: dotted rest
  | [] => []

/-- The key that a variable speaks of, if its name begins as it should. -/
def variableKey? (name : String) : Option String :=
  let cs := name.toList.map Char.toLower
  if variableStart.isPrefixOf cs then some (String.ofList (dotted (cs.drop variableStart.length)))
  else none

/-- What the text of a variable is taken for: a truth value, a number, or itself. -/
def variableValue (value : String) : Scalar :=
  let word := value.toList.map Char.toLower
  if word = "true".toList then .bool true
  else if word = "false".toList then .bool false
  else match Integer.int64OfChars? value.toList with
    | some n => .whole n.toInt
    | none =>
      match Binary64.Extended.ofChars? value.toList with
      | some x => .real x
      | none => .text value

def environmentLayer (environment : List (String × String)) : Layer :=
  environment.filterMap fun (name, value) =>
    (variableKey? name).map fun key => (key, .scalar (some environmentName) (variableValue value))

/-! ## Together -/

/-- Layers over each other, the lowest first. -/
def layered (layers : List Layer) : Tree :=
  layers.foldl (fun t layer => t.putAll layer) .empty

end PoolWatch.Config
