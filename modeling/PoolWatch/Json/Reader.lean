import PoolWatch.Json.Structure
import PoolWatch.Json.Numbers

/-!
# Reading JSON values

Lists and objects may be nested 127 deep. A whole text is one value between blanks.
-/

namespace PoolWatch.Json

/-- Reads a value. `inner` reads what stands inside a list or an object, when that is still
allowed. -/
def readValueWith (inner : Option (Reader Json)) : Reader Json := fun s =>
  match skipBlanks s with
  | [] => failPeek .endInValue []
  | c :: rest =>
    if c = 'n' then
      match readWord ['u', 'l', 'l'] rest with
      | .error f => .error f
      | .ok rest => .ok (null, rest)
    else if c = 't' then
      match readWord ['r', 'u', 'e'] rest with
      | .error f => .error f
      | .ok rest => .ok (bool true, rest)
    else if c = 'f' then
      match readWord ['a', 'l', 's', 'e'] rest with
      | .error f => .error f
      | .ok rest => .ok (bool false, rest)
    else if c = '-' then
      match readNumber true rest with
      | .error f => .error f
      | .ok (n, rest) => .ok (number n, rest)
    else if isDigit c then
      match readNumber false (c :: rest) with
      | .error f => .error f
      | .ok (n, rest) => .ok (number n, rest)
    else if c = '"' then
      match readString rest with
      | .error f => .error f
      | .ok (t, rest) => .ok (text t, rest)
    else if c = '[' then
      match inner with
      | none => failPeek .tooDeep (c :: rest)
      | some inner =>
        match readItems inner rest with
        | .error f => .error f
        | .ok (items, rest) => .ok (list items, rest)
    else if c = '{' then
      match inner with
      | none => failPeek .tooDeep (c :: rest)
      | some inner =>
        match readMembers inner rest with
        | .error f => .error f
        | .ok (members, rest) => .ok (object members, rest)
    else failPeek .valueExpected (c :: rest)

/-- Reads a value with at most `depth` lists and objects around any part of it. -/
def readValue : Nat → Reader Json
  | 0 => readValueWith none
  | depth + 1 => readValueWith (some (readValue depth))

/-- How deep values may be nested. -/
def depthLimit : Nat := 127

def endText {α : Type} (result : Except Failure (α × List Char)) : Except Failure α :=
  match result with
  | .error f => .error f
  | .ok (v, rest) =>
    match skipBlanks rest with
    | [] => .ok v
    | r => failPeek .trailingText r

/-- Reads a whole text, with blanks at its end. -/
def readAll {α : Type} (reader : Reader α) (s : String) : Except Failure α :=
  endText (reader s.toList)

def read (s : String) : Except Failure Json := readAll (readValue depthLimit) s

end PoolWatch.Json
