import PoolWatch.Number.Extended

/-!
# Configuration trees

What configuration says, with the place that said it. Tables are laid over each other. Everything
else replaces what was there.
-/

namespace PoolWatch.Config

/-- A value without parts. -/
inductive Scalar
  | null
  | bool (b : Bool)
  | whole (n : Int)
  | real (x : Binary64.Extended)
  | text (s : String)
deriving DecidableEq

/-- A value, with the source that said it where that is known. -/
inductive Tree
  | scalar (origin : Option String) (s : Scalar)
  | list (origin : Option String) (items : List Tree)
  | table (origin : Option String) (members : List (String × Tree))

namespace Tree

def null : Tree := .scalar none .null

def empty : Tree := .table none []

def bool (b : Bool) : Tree := .scalar none (.bool b)

def whole (n : Int) : Tree := .scalar none (.whole n)

def real (x : Binary64.Extended) : Tree := .scalar none (.real x)

def text (s : String) : Tree := .scalar none (.text s)

def isTable : Tree → Bool
  | table _ _ => true
  | _ => false

/-! ## Origins -/

mutual

/-- The tree as a place says it. -/
def said (origin : String) : Tree → Tree
  | scalar _ s => scalar (some origin) s
  | list _ items => list (some origin) (saidItems origin items)
  | table _ members => table (some origin) (saidMembers origin members)

def saidItems (origin : String) : List Tree → List Tree
  | [] => []
  | t :: rest => said origin t :: saidItems origin rest

def saidMembers (origin : String) : List (String × Tree) → List (String × Tree)
  | [] => []
  | (name, t) :: rest => (name, said origin t) :: saidMembers origin rest

end

/-! ## Members -/

/-- Changes the member of a name, which is null if there is none. -/
def alter (name : String) (f : Tree → Tree) : List (String × Tree) → List (String × Tree)
  | [] => [(name, f null)]
  | (n, t) :: rest => if n = name then (n, f t) :: rest else (n, t) :: alter name f rest

/-- The members of a table. Anything else has none. -/
def members : Tree → List (String × Tree)
  | table _ ms => ms
  | _ => []

def items : Tree → List Tree
  | list _ ts => ts
  | _ => []

/-- Changes a member. What is no table gives way to one. -/
def alterMember (name : String) (f : Tree → Tree) : Tree → Tree
  | table origin ms => table origin (alter name f ms)
  | _ => table none (alter name f [])

/-- Changes an item. Items that are missing before it are null, and a negative place counts from the
end. What is no list gives way to one. -/
def alterItem (place : Int) (f : Tree → Tree) (t : Tree) : Tree :=
  let origin := match t with
    | list origin _ => origin
    | _ => none
  let ts := t.items
  let place := if place < 0 then place + ts.length else place
  if place < 0 then
    list origin (f null :: (List.replicate (place.natAbs - 1) null ++ ts))
  else
    let ts := ts ++ List.replicate (place.toNat + 1 - ts.length) null
    list origin (ts.modify place.toNat f)

/-! ## Layers -/

mutual

def laidOver (below : Tree) : Tree → Tree
  | table _ ms =>
    match below with
    | table origin bs => table origin (overMembers bs ms)
    | _ => table none (overMembers [] ms)
  | t => t

def overMembers (below : List (String × Tree)) : List (String × Tree) → List (String × Tree)
  | [] => below
  | (name, t) :: rest => overMembers (alter name (fun b => laidOver b t) below) rest

end

end Tree

end PoolWatch.Config
