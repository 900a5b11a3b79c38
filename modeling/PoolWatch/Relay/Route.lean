import PoolWatch.Text.Split

/-!
# Routes

A route is a path in which a name in braces stands for any one segment, or for all the rest when a
star comes first. Doubled braces stand for themselves. Not every path is a route.
-/

namespace PoolWatch

inductive RouteItem
  | char (c : Char)
  /-- One or more characters up to the next slash. -/
  | segment
  /-- One or more characters up to the end. -/
  | rest
deriving DecidableEq

/-- What a path has to look like, from left to right. -/
abbrev Route := List RouteItem

namespace Route

/-! ## Reading -/

/-- The characters of a path, each with whether it is a doubled brace. -/
def unescape : List Char → List (Char × Bool)
  | '{' :: '{' :: cs => ('{', true) :: unescape cs
  | '}' :: '}' :: cs => ('}', true) :: unescape cs
  | c :: cs => (c, false) :: unescape cs
  | [] => []

/-- Where a reader of routes stands. `before` is the character in front, or in front of the name. -/
inductive Spot
  | outside (before : Char)
  /-- Behind the first character of a name, which may be a star. -/
  | name (star : Bool) (empty : Bool) (before : Char)

/-- The items of a route from a spot on. A name for all the rest comes last, and a name for a
segment fills it to its end. -/
def itemsFrom? : Spot → List (Char × Bool) → Option Route
  | .outside _, [] => some []
  | .name .., [] => none
  | .outside before, (c, doubled) :: cs =>
    if doubled then (itemsFrom? (.outside c) cs).map (.char c :: ·)
    else if c = '}' then none
    else if c = '{' then
      match cs with
      | [] => none
      | (first, _) :: cs =>
        if first = '}' then none else itemsFrom? (.name (first == '*') true before) cs
    else (itemsFrom? (.outside c) cs).map (.char c :: ·)
  | .name star empty before, (c, doubled) :: cs =>
    if c = '}' && !doubled then
      if star then if empty || !cs.isEmpty || before ≠ '/' then none else some [.rest]
      else if cs.isEmpty || cs.head?.any (·.1 == '/') then
        (itemsFrom? (.outside '}') cs).map (.segment :: ·)
      else none
    else if c = '*' || c = '/' then none
    else itemsFrom? (.name star false before) cs

/-- Segments that look like names of an older kind. -/
def isOldName (segment : List Char) : Bool :=
  segment.head? == some ':' || segment.head? == some '*'

/-- A path of the settings as a route, if it is one. -/
def ofPath? (path : String) : Option Route :=
  let cs := path.toList
  if cs.head? ≠ some '/' then none
  else if (Text.split (· == '/') cs).any isOldName then none
  else itemsFrom? (.outside '/') (unescape cs)

/-! ## Matching -/

def accepts : Route → List Char → Bool
  | [], path => path.isEmpty
  | .char c :: items, d :: path => c == d && accepts items path
  | .char _ :: _, [] => false
  | .rest :: _, path => !path.isEmpty
  | .segment :: items, path =>
    path.head?.any (· != '/') && accepts items (path.dropWhile (· != '/'))

end Route

end PoolWatch
