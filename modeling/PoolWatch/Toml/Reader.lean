import PoolWatch.Toml.Scalars
import PoolWatch.Toml.Strings
import PoolWatch.Toml.Table

/-!
# Reading TOML

A document is a list of lines: headers, keys with their values, and blank ones. Arrays and the
tables within braces may run over many lines.
-/

namespace PoolWatch.Toml

open Config

def skipBlanks (cs : List Char) : List Char := cs.dropWhile isBlank

/-! ## Ends of lines -/

/-- The text from the end of a comment on. -/
def skipComment : List Char → Option (List Char)
  | [] => some []
  | '\n' :: rest => some ('\n' :: rest)
  | '\r' :: '\n' :: rest => some ('\n' :: rest)
  | c :: rest => if isControl c then none else skipComment rest

/-- The text behind a line that holds nothing more. -/
def endLine (cs : List Char) : Option (List Char) :=
  match skipBlanks cs with
  | [] => some []
  | '#' :: rest =>
    match skipComment rest with
    | some rest => some ((afterBreak? rest).getD [])
    | none => none
  | cs => afterBreak? cs

/-- The text behind blanks, comments and line breaks. `fuel` is the number of characters. -/
def skipGaps : Nat → List Char → Option (List Char)
  | 0, cs => some cs
  | fuel + 1, cs =>
    match cs with
    | '#' :: rest =>
      match skipComment rest with
      | some rest => skipGaps fuel rest
      | none => none
    | c :: rest =>
      if isBlank c then skipGaps fuel rest
      else match afterBreak? cs with
        | some rest => skipGaps fuel rest
        | none => some cs
    | [] => some []

def skipAll (cs : List Char) : Option (List Char) := skipGaps cs.length cs

/-! ## Keys -/

def isKeyChar (c : Char) : Bool := c.isAlphanum || c == '_' || c == '-'

def readName : List Char → Option (String × List Char)
  | '"' :: rest => (readBasic (rest.length + 1) rest).map fun (cs, rest) => (String.ofList cs, rest)
  | '\'' :: rest => (readLiteral rest).map fun (cs, rest) => (String.ofList cs, rest)
  | cs =>
    if (cs.takeWhile isKeyChar).isEmpty then none
    else some (String.ofList (cs.takeWhile isKeyChar), cs.dropWhile isKeyChar)

/-- Names with dots between them, and the text behind the blanks that follow. -/
def readKeyFrom : Nat → List Char → Option (List String × List Char)
  | 0, _ => none
  | fuel + 1, cs =>
    match readName (skipBlanks cs) with
    | none => none
    | some (name, rest) =>
      match skipBlanks rest with
      | '.' :: rest => (readKeyFrom fuel rest).map fun (names, rest) => (name :: names, rest)
      | rest => some ([name], rest)

def readKey (cs : List Char) : Option (List String × List Char) := readKeyFrom (cs.length + 1) cs

/-! ## Values -/

mutual

/-- A value. `fuel` is more than the number of characters. -/
def readValue : Nat → List Char → Option (Tree × List Char)
  | 0, _ => none
  | fuel + 1, cs =>
    match cs with
    | '[' :: rest => readItems fuel [] rest
    | '{' :: rest => readFields fuel [] rest
    | c :: _ =>
      if c == '"' || c == '\'' then
        (readString cs).map fun (s, rest) => (.text (String.ofList s), rest)
      else (readScalar cs).map fun (v, rest) => (.scalar none v, rest)
    | [] => none

/-- The items of an array from one on. Those before it are given in reverse. -/
def readItems : Nat → List Tree → List Char → Option (Tree × List Char)
  | 0, _, _ => none
  | fuel + 1, before, cs =>
    match skipAll cs with
    | some (']' :: rest) => some (.list none before.reverse, rest)
    | some cs =>
      match readValue fuel cs with
      | none => none
      | some (v, rest) =>
        match skipAll rest with
        | some (']' :: rest) => some (.list none (v :: before).reverse, rest)
        | some (',' :: rest) => readItems fuel (v :: before) rest
        | _ => none
    | none => none

/-- The members of a table within braces from one on, added to those before it. -/
def readFields : Nat → Members → List Char → Option (Tree × List Char)
  | 0, _, _ => none
  | fuel + 1, before, cs =>
    match skipAll cs with
    | some ('}' :: rest) => some (.table none (membersToTrees before), rest)
    | some cs =>
      match readKey cs with
      | some (key, '=' :: rest) =>
        match readValue fuel (skipBlanks rest) with
        | none => none
        | some (v, rest) =>
          match assign key v before, skipAll rest with
          | some members, some ('}' :: rest) => some (.table none (membersToTrees members), rest)
          | some members, some (',' :: rest) => readFields fuel members rest
          | _, _ => none
      | _ => none
    | none => none

end

/-! ## Lines -/

/-- The tables so far, and the one that is open. -/
structure Draft where
  path : List String
  members : Members

/-- Opens a table that was not opened before. -/
def readHeader (cs : List Char) (d : Draft) : Option (Draft × List Char) :=
  match readKey cs with
  | some (path, ']' :: rest) =>
    (atLast byHeader openTable path d.members).map fun members => (⟨path, members⟩, rest)
  | _ => none

def readListHeader (cs : List Char) (d : Draft) : Option (Draft × List Char) :=
  match readKey cs with
  | some (path, ']' :: ']' :: rest) =>
    (atLast byHeader openAnother path d.members).map fun members => (⟨path, members⟩, rest)
  | _ => none

def readAssignment (cs : List Char) (d : Draft) : Option (Draft × List Char) :=
  match readKey cs with
  | some (key, '=' :: rest) =>
    match readValue (rest.length + 1) (skipBlanks rest) with
    | some (v, rest) =>
      (byHeader d.path (assign key v) d.members).map fun members => (⟨d.path, members⟩, rest)
    | none => none
  | _ => none

/-- What may stand on a line. The comment and the break behind it are left. -/
def readLine (cs : List Char) (d : Draft) : Option (Draft × List Char) :=
  match skipBlanks cs with
  | [] => some (d, [])
  | '#' :: rest => some (d, '#' :: rest)
  | '\n' :: rest => some (d, '\n' :: rest)
  | '\r' :: rest => some (d, '\r' :: rest)
  | '[' :: '[' :: rest => readListHeader rest d
  | '[' :: rest => readHeader rest d
  | cs => readAssignment cs d

/-- All lines. `fuel` is the number of characters. -/
def readLines : Nat → List Char → Draft → Option Members
  | _, [], d => some d.members
  | 0, _, _ => none
  | fuel + 1, cs, d =>
    match readLine cs d with
    | none => none
    | some (d, rest) =>
      match endLine rest with
      | some rest => readLines fuel rest d
      | none => none

/-- The members that a document says, if it is well formed. -/
def read (cs : List Char) : Option (List (String × Tree)) :=
  (readLines cs.length cs ⟨[], []⟩).map membersToTrees

end PoolWatch.Toml
