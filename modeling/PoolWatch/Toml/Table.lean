import PoolWatch.Config.Tree

/-!
# Tables of TOML

A table grows line by line. A header opens a table once. A key with dots makes the tables on its
way, and these are open to keys with dots only.
-/

namespace PoolWatch.Toml

open Config

/-- How a table came about, which decides what may still be added to it. -/
inductive Making
  /-- By its own header. -/
  | opened
  /-- By the header of a table within it. -/
  | implied
  /-- By a key with dots. -/
  | dotted
deriving DecidableEq

/-- A member of a document while it is read. -/
inductive Node
  | value (v : Tree)
  | table (making : Making) (members : List (String × Node))
  /-- Tables under one name: the last, which is open, and those before it, the latest first. -/
  | tables (last : List (String × Node)) (earlier : List Node)

abbrev Members := List (String × Node)

mutual

def Node.toTree : Node → Tree
  | .value v => v
  | .table _ members => .table none (membersToTrees members)
  | .tables last earlier =>
    .list none ((nodesToTrees earlier).reverse ++ [.table none (membersToTrees last)])

def membersToTrees : List (String × Node) → List (String × Tree)
  | [] => []
  | (name, node) :: rest => (name, node.toTree) :: membersToTrees rest

def nodesToTrees : List Node → List Tree
  | [] => []
  | node :: rest => node.toTree :: nodesToTrees rest

end

/-- Sets the member of a name, at the end if it is new. -/
def setMember (name : String) (node : Node) : Members → Members
  | [] => [(name, node)]
  | (n, old) :: rest => if n = name then (n, node) :: rest else (n, old) :: setMember name node rest

/-! ## Ways into a table -/

/-- Changes the table at the end of a path. The path enters only tables that `admits` lets it, and
makes those that are missing. -/
def alterAt (made : Making) (admits : Node → Bool) (change : Members → Option Members) :
    List String → Members → Option Members
  | [], members => change members
  | name :: rest, members =>
    match members.lookup name with
    | none =>
      (alterAt made admits change rest []).map fun inner =>
        setMember name (.table made inner) members
    | some node =>
      if admits node then
        match node with
        | .value _ => none
        | .table making inner =>
          (alterAt made admits change rest inner).map fun inner =>
            setMember name (.table making inner) members
        | .tables last earlier =>
          (alterAt made admits change rest last).map fun last =>
            setMember name (.tables last earlier) members
      else none

/-- A header leads through any table. -/
def byHeader : List String → (Members → Option Members) → Members → Option Members :=
  fun path change => alterAt .implied (fun _ => true) change path

/-- A key does not lead into tables that a header has opened. -/
def byKey : List String → (Members → Option Members) → Members → Option Members :=
  fun path change => alterAt .dotted (fun
    | .table making _ => making != .opened
    | _ => false) change path

/-! ## Lines -/

/-- Opens a table that no header has opened before. -/
def openTable (name : String) (members : Members) : Option Members :=
  match members.lookup name with
  | none => some (setMember name (.table .opened []) members)
  | some (.table .implied inner) => some (setMember name (.table .opened inner) members)
  | _ => none

def openAnother (name : String) (members : Members) : Option Members :=
  match members.lookup name with
  | none => some (setMember name (.tables [] []) members)
  | some (.tables last earlier) =>
    some (setMember name (.tables [] (.table .opened last :: earlier)) members)
  | _ => none

/-- A name has one value at most. -/
def addValue (name : String) (v : Tree) (members : Members) : Option Members :=
  match members.lookup name with
  | none => some (setMember name (.value v) members)
  | some _ => none

/-- Does something with the last name of a path, in the table that the names before it lead to. -/
def atLast (way : List String → (Members → Option Members) → Members → Option Members)
    (act : String → Members → Option Members) (path : List String) (members : Members) :
    Option Members :=
  match path.getLast? with
  | some name => way path.dropLast (act name) members
  | none => none

def assign (key : List String) (v : Tree) : Members → Option Members :=
  atLast byKey (fun name => addValue name v) key

end PoolWatch.Toml
