import PoolWatch.Config.Tree
import PoolWatch.Json.Reader

/-!
# Configuration as JSON
-/

namespace PoolWatch.Config

mutual

def Tree.ofJson : Json → Tree
  | .null => .null
  | .bool b => .bool b
  | .number (.whole n _) => .whole n
  | .number (.real x) => .real (.finite x)
  | .text s => .text s
  | .list items => .list none (treesOfJson items)
  | .object members => .table none (membersOfJson members)

def treesOfJson : List Json → List Tree
  | [] => []
  | v :: rest => Tree.ofJson v :: treesOfJson rest

def membersOfJson : List (String × Json) → List (String × Tree)
  | [] => []
  | (name, v) :: rest => (name, Tree.ofJson v) :: membersOfJson rest

end

/-- A document is an object. Any other value is not of the format. -/
def readJson (s : String) : Option (List (String × Tree)) :=
  match Json.read s with
  | .ok (.object members) => some (membersOfJson members)
  | _ => none

end PoolWatch.Config
