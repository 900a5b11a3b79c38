import PoolWatch.Yaml.Scalars

/-!
# Reading YAML

Tables and lists by indentation or within brackets, with scalars on one line. There are no anchors,
tags, or texts over many lines.
-/

namespace PoolWatch.Yaml

open Config

def isBlank (c : Char) : Bool := c == ' ' || c == '\t'

def trimEnd (cs : List Char) : List Char := (cs.reverse.dropWhile isBlank).reverse

/-- Nothing but blanks, and perhaps a comment behind them. -/
def isLineEnd (cs : List Char) : Bool :=
  match cs.dropWhile isBlank with
  | [] => true
  | '#' :: _ => cs.head?.any isBlank
  | _ => false

/-! ## Plain scalars -/

/-- A plain scalar does not begin with these. -/
def isIndicator (c : Char) : Bool :=
  [',', '[', ']', '\x7b', '\x7d', '#', '&', '*', '!', '|', '>', '\'', '"', '%', '@',
    '\x60'].contains c

def isFlowMark (c : Char) : Bool := [',', '[', ']', '\x7b', '\x7d'].contains c

/-- The characters of a plain scalar, and what follows them. It ends before a comment, before a
colon with a blank behind it, and within brackets before their marks. -/
def splitPlain (inFlow : Bool) : List Char → List Char × List Char
  | [] => ([], [])
  | ':' :: rest =>
    if rest.head?.all isBlank || (inFlow && rest.head?.any isFlowMark) then ([], ':' :: rest)
    else ((':' :: (splitPlain inFlow rest).1), (splitPlain inFlow rest).2)
  | c :: '#' :: rest =>
    if isBlank c then ([], c :: '#' :: rest)
    else if inFlow && isFlowMark c then ([], c :: '#' :: rest)
    else ((c :: '#' :: (splitPlain inFlow rest).1), (splitPlain inFlow rest).2)
  | c :: rest =>
    if inFlow && isFlowMark c then ([], c :: rest)
    else ((c :: (splitPlain inFlow rest).1), (splitPlain inFlow rest).2)

def readScalar (inFlow : Bool) (cs : List Char) : Option (Scalar × List Char) :=
  match cs with
  | [] => some (.null, [])
  | c :: rest =>
    if c == '"' || c == '\'' then
      (readQuoted cs).map fun (s, rest) => (.text (String.ofList s), rest)
    else if isIndicator c || ((c == '-' || c == '?') && rest.head?.all isBlank) then none
    else
      let (body, rest) := splitPlain inFlow cs
      (plain? (trimEnd body)).map (·, rest)

/-- The name that a key gives its member. -/
def nameOf? : Scalar → Option String
  | .null => none
  | .bool b => some (if b then "true" else "false")
  | .whole n => some (Integer.text n)
  | .real x => some x.text
  | .text s => some s

/-- A member that is not there yet. -/
def addMember (name : String) (t : Tree) (members : List (String × Tree)) :
    Option (List (String × Tree)) :=
  if (members.lookup name).isSome then none else some (members ++ [(name, t)])

/-! ## Within brackets -/

def skipBlanks (cs : List Char) : List Char := cs.dropWhile isBlank

mutual

/-- A value. `fuel` is more than the number of characters. -/
def readFlow : Nat → List Char → Option (Tree × List Char)
  | 0, _ => none
  | fuel + 1, cs =>
    match cs with
    | '[' :: rest => readItems fuel [] (skipBlanks rest)
    | '\x7b' :: rest => readFields fuel [] (skipBlanks rest)
    | cs => (readScalar true cs).map fun (v, rest) => (.scalar none v, rest)

def readItems : Nat → List Tree → List Char → Option (Tree × List Char)
  | 0, _, _ => none
  | _ + 1, items, ']' :: rest => some (.list none items, rest)
  | fuel + 1, items, cs =>
    match readFlow fuel cs with
    | none => none
    | some (t, rest) =>
      match skipBlanks rest with
      | ']' :: rest => some (.list none (items ++ [t]), rest)
      | ',' :: rest => readItems fuel (items ++ [t]) (skipBlanks rest)
      | _ => none

def readFields : Nat → List (String × Tree) → List Char → Option (Tree × List Char)
  | 0, _, _ => none
  | _ + 1, members, '\x7d' :: rest => some (.table none members, rest)
  | fuel + 1, members, cs =>
    match readScalar true cs with
    | none => none
    | some (key, rest) =>
      let value := match skipBlanks rest with
        | ':' :: rest =>
          match skipBlanks rest with
          | ',' :: rest => some (.null, ',' :: rest)
          | '\x7d' :: rest => some (.null, '\x7d' :: rest)
          | rest => readFlow fuel rest
        | rest => some (.null, rest)
      match nameOf? key, value with
      | some name, some (t, rest) =>
        match addMember name t members, skipBlanks rest with
        | some members, '\x7d' :: rest => some (.table none members, rest)
        | some members, ',' :: rest => readFields fuel members (skipBlanks rest)
        | _, _ => none
      | _, _ => none

end

/-! ## By indentation -/

/-- A line by its indentation, without a comment. -/
structure Line where
  indent : Nat
  text : List Char

/-- The lines of a document that say something. A tab cannot indent. -/
def lineOf (cs : List Char) : Option (Option Line) :=
  let text := cs.dropWhile (· == ' ')
  if isLineEnd (' ' :: text) then some none
  else if text.head? = some '\t' then none
  else some (some ⟨cs.length - text.length, trimEnd text⟩)

/-- The lines that say something. -/
def linesOf (cs : List (List Char)) : Option (List Line) :=
  (cs.mapM lineOf).map fun lines => lines.filterMap id

def readInline (cs : List Char) : Option Tree :=
  let value := match cs with
    | '[' :: _ | '\x7b' :: _ => readFlow (cs.length + 1) cs
    | _ => (readScalar false cs).map fun (v, rest) => (.scalar none v, rest)
  match value with
  | some (t, rest) => if isLineEnd rest then some t else none
  | none => none

/-- The key that begins a line, and what is behind its colon. -/
def splitEntry (cs : List Char) : Option (Scalar × List Char) :=
  match readScalar false cs with
  | some (key, rest) =>
    match skipBlanks rest with
    | ':' :: rest => if rest.head?.all isBlank then some (key, skipBlanks rest) else none
    | _ => none
  | none => none

/-- What is behind the dash of an item. -/
def splitItem : List Char → Option (List Char)
  | '-' :: rest => if rest.head?.all isBlank then some rest else none
  | _ => none

def endsHere (rest : List Char) : Bool := isLineEnd (' ' :: rest)

mutual

/-- What begins on a line: a list, a table, or one value. `fuel` is more than twice the number of
characters and lines. -/
def readBlock : Nat → List Line → Option (Tree × List Line)
  | 0, _ => none
  | _, [] => some (.null, [])
  | fuel + 1, l :: lines =>
    if (splitItem l.text).isSome then readList fuel l.indent [] (l :: lines)
    else if (splitEntry l.text).isSome then readTable fuel l.indent [] (l :: lines)
    else (readInline l.text).map (·, lines)

def readList : Nat → Nat → List Tree → List Line → Option (Tree × List Line)
  | 0, _, _, _ => none
  | _ + 1, _, items, [] => some (.list none items, [])
  | fuel + 1, indent, items, l :: lines =>
    if l.indent < indent then some (.list none items, l :: lines)
    else match splitItem l.text with
      | none => if l.indent = indent then some (.list none items, l :: lines) else none
      | some rest =>
        if l.indent ≠ indent then none
        else
          let child :=
            if endsHere rest then
              match lines with
              | next :: _ =>
                if indent < next.indent then readBlock fuel lines else some (.null, lines)
              | [] => some (.null, [])
            else
              let text := skipBlanks rest
              readBlock fuel (⟨l.indent + (l.text.length - text.length), text⟩ :: lines)
          match child with
          | some (t, lines) => readList fuel indent (items ++ [t]) lines
          | none => none

def readTable : Nat → Nat → List (String × Tree) → List Line → Option (Tree × List Line)
  | 0, _, _, _ => none
  | _ + 1, _, members, [] => some (.table none members, [])
  | fuel + 1, indent, members, l :: lines =>
    if l.indent < indent then some (.table none members, l :: lines)
    else if l.indent ≠ indent then none
    else match splitEntry l.text with
      | none => none
      | some (key, rest) =>
        let child :=
          if endsHere rest then
            match lines with
            | next :: _ =>
              if indent < next.indent ∨ (indent = next.indent ∧ (splitItem next.text).isSome) then
                readBlock fuel lines
              else some (.null, lines)
            | [] => some (.null, [])
          else (readInline rest).map (·, lines)
        match nameOf? key, child with
        | some name, some (t, lines) =>
          match addMember name t members with
          | some members => readTable fuel indent members lines
          | none => none
        | _, _ => none

end

/-! ## Documents -/

def linesFrom (begun : List Char) : List Char → List (List Char)
  | [] => [begun.reverse]
  | '\r' :: '\n' :: cs => begun.reverse :: linesFrom [] cs
  | c :: cs => if c = '\n' then begun.reverse :: linesFrom [] cs else linesFrom (c :: begun) cs

/-- The members of a document, which is a table or empty. -/
def read (cs : List Char) : Option (List (String × Tree)) :=
  match linesOf (linesFrom [] cs) with
  | none => none
  | some lines =>
    let lines := match lines with
      | ⟨0, ['-', '-', '-']⟩ :: rest => rest
      | lines => lines
    if lines.isEmpty then some []
    else match readBlock (2 * cs.length + 2 * lines.length + 2) lines with
      | some (.table _ members, []) => some members
      | _ => none

end PoolWatch.Yaml
