import PoolWatch.Config.Tree
import PoolWatch.Number.Radix
import PoolWatch.Text.Blank

/-!
# Reading INI

Sections of keys with their values, all of them texts. A backslash begins an escape. A section that
comes again takes the place of the first.
-/

namespace PoolWatch.Ini

open Config

/-! ## Texts -/

/-- An escape that is not known stands for its character. -/
def shortEscape (c : Char) : Char :=
  if c = '0' then '\x00' else if c = 'a' then '\x07' else if c = 'b' then '\x08'
  else if c = 't' then '\t' else if c = 'r' then '\r' else if c = 'n' then '\n' else c

/-- The text before a character that stops it. Only some texts may run to the end of the document.
`fuel` is more than the number of characters. -/
def readUntil (stops : Char → Bool) (mayEnd : Bool) :
    Nat → List Char → Option (List Char × List Char)
  | 0, _ => none
  | _ + 1, [] => if mayEnd then some ([], []) else none
  | fuel + 1, c :: cs =>
    let withFirst := fun (first : List Char) (rest : List Char) =>
      (readUntil stops mayEnd fuel rest).map fun (text, rest) => (first ++ text, rest)
    if stops c then some ([], c :: cs)
    else if c = '\\' then
      match cs with
      | [] => none
      | '\n' :: rest => withFirst [] rest
      | 'x' :: rest =>
        match Radix.char? (rest.take 4) with
        | some d => if 4 ≤ rest.length then withFirst [d] (rest.drop 4) else none
        | none => none
      | e :: rest => withFirst [shortEscape e] rest
    else withFirst [c] cs

def readTo (stops : Char → Bool) (mayEnd : Bool) (cs : List Char) :
    Option (List Char × List Char) :=
  readUntil stops mayEnd (cs.length + 1) cs

def isLineEnd (c : Char) : Bool := c == '\n' || c == '\r'

def trimEnd (cs : List Char) : List Char := (cs.reverse.dropWhile Text.isBlank).reverse

/-- A value up to the end of its line, with quoted parts before the plain one. -/
def readParts : Nat → List Char → List Char → Option (List Char × List Char)
  | 0, _, _ => none
  | fuel + 1, before, cs =>
    match cs with
    | [] => some (before, [])
    | c :: rest =>
      if c == '"' || c == '\'' then
        match readTo (· == c) false rest with
        | some (part, rest) => readParts fuel (before ++ part) (rest.drop 1)
        | none => none
      else
        match readTo isLineEnd true cs with
        | some (part, rest) => some (before ++ trimEnd part, rest)
        | none => none

def readValue (cs : List Char) : Option (List Char × List Char) :=
  let cs := cs.dropWhile fun c => Text.isBlank c && !isLineEnd c
  readParts (cs.length + 1) [] cs

/-! ## Documents -/

/-- The text behind all blanks, and whether it begins a line. -/
def skipBlanks (fresh : Bool) : List Char → Bool × List Char
  | [] => (fresh, [])
  | c :: cs => if Text.isBlank c then skipBlanks (c == '\n') cs else (fresh, c :: cs)

/-- The members so far, and the section that is open. -/
structure Draft where
  current : Option String
  members : List (String × Tree)

/-- A section that is opened again starts afresh. -/
def Draft.openSection (name : String) (d : Draft) : Draft :=
  ⟨some name, Tree.alter name (fun _ => .empty) d.members⟩

/-- What stands before all sections is no part of one. -/
def Draft.assign (key value : String) (d : Draft) : Draft :=
  let put := Tree.alter key fun _ => .text value
  match d.current with
  | none => { d with members := put d.members }
  | some name =>
    { d with members := Tree.alter name (fun t => .table none (put t.members)) d.members }

/-- The documents from a point on. `key` is what has been read of an assignment. -/
def readFrom : Nat → Bool → List Char → Draft → List Char → Option (List (String × Tree))
  | 0, _, _, _, _ => none
  | fuel + 1, fresh, key, d, cs =>
    match skipBlanks fresh cs with
    | (_, []) => some d.members
    | (fresh, c :: rest) =>
      if c == ';' || c == '#' then
        if fresh then readFrom fuel true key d ((rest.dropWhile (· != '\n')).drop 1) else none
      else if c == '[' then
        match readTo (· == ']') false rest with
        | some (name, rest) =>
          let name := String.ofList (Text.trimChars name)
          readFrom fuel false key (d.openSection name) (rest.drop 1)
        | none => none
      else if c == '=' || c == ':' then
        if key.isEmpty then none
        else match readValue rest with
          | some (value, rest) =>
            readFrom fuel false [] (d.assign (String.ofList key) (String.ofList value)) rest
          | none => none
      else
        match readTo (fun c => c == '=' || c == ':') false (c :: rest) with
        | some (key, rest) => readFrom fuel false (Text.trimChars key) d rest
        | none => none

def read (cs : List Char) : Option (List (String × Tree)) :=
  readFrom (cs.length + 1) true [] ⟨none, []⟩ cs

end PoolWatch.Ini
