import PoolWatch.Config.Tree

/-!
# Keys

A key names a place in a tree: a name, then further names behind dots and places in brackets. A text
that is no such path is a name as it stands.
-/

namespace PoolWatch.Config

/-- From a table to a member, or from a list to an item. -/
inductive KeyStep
  | member (name : String)
  | item (place : Int)
deriving DecidableEq

/-- A key is a name at the top and the steps from there. -/
structure Key where
  root : String
  steps : List KeyStep
deriving DecidableEq

namespace Key

def isNameChar (c : Char) : Bool := c.isAlphanum || c == '_' || c == '-'

/-- A place within brackets, blanks around it. -/
def place? (cs : List Char) : Option Int :=
  let blank := fun (c : Char) => c == ' ' || c == '\t'
  let inner := ((cs.dropWhile blank).reverse.dropWhile blank).reverse
  match inner with
  | '+' :: _ => none
  | _ => match Integer.ofChars? inner with
    | some n => if Integer.fitsInt64 n then some n else none
    | none => none

/-- The steps behind the first name. `fuel` is the length of the text. -/
def steps? : Nat → List Char → Option (List KeyStep)
  | _, [] => some []
  | 0, _ => none
  | fuel + 1, '.' :: cs =>
    let name := cs.takeWhile isNameChar
    if name.isEmpty then none
    else (steps? fuel (cs.dropWhile isNameChar)).map (.member (String.ofList name) :: ·)
  | fuel + 1, '[' :: cs =>
    match place? (cs.takeWhile (· != ']')), cs.dropWhile (· != ']') with
    | some i, _ :: rest => (steps? fuel rest).map (.item i :: ·)
    | _, _ => none
  | _, _ => none

def path? (text : String) : Option Key :=
  let cs := text.toList
  let root := cs.takeWhile isNameChar
  if root.isEmpty then none
  else (steps? cs.length (cs.dropWhile isNameChar)).map fun steps => ⟨String.ofList root, steps⟩

/-- A text that is no path is a name as it stands. -/
def ofText (text : String) : Key := (path? text).getD ⟨text, []⟩

end Key

/-- Changes what the steps lead to. What is missing on the way is made. -/
def Tree.alterAt (f : Tree → Tree) : List KeyStep → Tree → Tree
  | [] => f
  | .member name :: rest => Tree.alterMember name (Tree.alterAt f rest)
  | .item i :: rest => Tree.alterItem i (Tree.alterAt f rest)

/-- Lays a value over what stands under its key. -/
def Tree.put (t : Tree) (key : String) (value : Tree) : Tree :=
  let k := Key.ofText key
  t.alterAt (fun below => Tree.laidOver below value) (.member k.root :: k.steps)

/-- Puts the values of a layer one by one, so that the last one under a key stays. -/
def Tree.putAll (t : Tree) (layer : List (String × Tree)) : Tree :=
  layer.foldl (fun t (key, value) => t.put key value) t

end PoolWatch.Config
