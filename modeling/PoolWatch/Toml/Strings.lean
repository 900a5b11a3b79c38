import PoolWatch.Number.Radix

/-!
# Strings of TOML

A string is basic or literal, and each of these may be written on one line or on many. A basic
string has escapes. A string on many lines drops a line break right behind its opening.
-/

namespace PoolWatch.Toml

/-- Control characters that no string and no comment holds. -/
def isControl (c : Char) : Bool := (c.toNat < 0x20 && c != '\t') || c.toNat == 0x7f

def isBlank (c : Char) : Bool := c == ' ' || c == '\t'

/-- The rest behind a line break. -/
def afterBreak? : List Char → Option (List Char)
  | '\n' :: rest => some rest
  | '\r' :: '\n' :: rest => some rest
  | _ => none

def withChar (c : Char) : Option (List Char × List Char) → Option (List Char × List Char)
  | some (cs, rest) => some (c :: cs, rest)
  | none => none

/-! ## Escapes -/

/-- The character of an escape, behind its backslash. -/
def readEscape : List Char → Option (Char × List Char)
  | 'b' :: rest => some ('\x08', rest)
  | 't' :: rest => some ('\t', rest)
  | 'n' :: rest => some ('\n', rest)
  | 'f' :: rest => some ('\x0c', rest)
  | 'r' :: rest => some ('\r', rest)
  | 'e' :: rest => some ('\x1b', rest)
  | '"' :: rest => some ('"', rest)
  | '\\' :: rest => some ('\\', rest)
  | 'x' :: a :: b :: rest => (Radix.char? [a, b]).map (·, rest)
  | 'u' :: a :: b :: c :: d :: rest => (Radix.char? [a, b, c, d]).map (·, rest)
  | 'U' :: a :: b :: c :: d :: e :: f :: g :: h :: rest =>
    (Radix.char? [a, b, c, d, e, f, g, h]).map (·, rest)
  | _ => none

/-! ## One line -/

/-- The text up to the closing quote. `fuel` is more than the number of characters. -/
def readBasic : Nat → List Char → Option (List Char × List Char)
  | 0, _ => none
  | _ + 1, [] => none
  | _ + 1, '"' :: rest => some ([], rest)
  | fuel + 1, '\\' :: rest =>
    match readEscape rest with
    | some (c, rest) => withChar c (readBasic fuel rest)
    | none => none
  | fuel + 1, c :: rest => if isControl c then none else withChar c (readBasic fuel rest)

/-- A string without escapes, on one line. -/
def readLiteral : List Char → Option (List Char × List Char)
  | [] => none
  | '\'' :: rest => some ([], rest)
  | c :: rest => if isControl c then none else withChar c (readLiteral rest)

/-! ## Many lines -/

/-- Passes over the blanks and breaks behind an escaped one. -/
def skipLines : List Char → List Char
  | [] => []
  | '\r' :: '\n' :: rest => skipLines rest
  | c :: rest => if isBlank c || c == '\n' then skipLines rest else c :: rest

/-- The text behind a line break and all blanks and breaks that follow, if nothing but blanks is
before the break. -/
def afterLineEnd? (cs : List Char) : Option (List Char) :=
  match afterBreak? (cs.dropWhile isBlank) with
  | some rest => some (skipLines rest)
  | none => none

/-- The text up to three closing quotes. Up to two quotes before them are part of it. -/
def readLongBasic : Nat → List Char → Option (List Char × List Char)
  | 0, _ => none
  | _ + 1, [] => none
  | _ + 1, '"' :: '"' :: '"' :: '"' :: '"' :: rest => some (['"', '"'], rest)
  | _ + 1, '"' :: '"' :: '"' :: '"' :: rest => some (['"'], rest)
  | _ + 1, '"' :: '"' :: '"' :: rest => some ([], rest)
  | fuel + 1, '\\' :: rest =>
    match afterLineEnd? rest with
    | some rest => readLongBasic fuel rest
    | none =>
      match readEscape rest with
      | some (c, rest) => withChar c (readLongBasic fuel rest)
      | none => none
  | fuel + 1, '\r' :: '\n' :: rest => withChar '\n' (readLongBasic fuel rest)
  | fuel + 1, c :: rest =>
    if isControl c && c != '\n' then none else withChar c (readLongBasic fuel rest)

/-- A string without escapes. Up to two quotes may stand before those at its end. -/
def readLongLiteral : List Char → Option (List Char × List Char)
  | [] => none
  | '\'' :: '\'' :: '\'' :: '\'' :: '\'' :: rest => some (['\'', '\''], rest)
  | '\'' :: '\'' :: '\'' :: '\'' :: rest => some (['\''], rest)
  | '\'' :: '\'' :: '\'' :: rest => some ([], rest)
  | '\r' :: '\n' :: rest => withChar '\n' (readLongLiteral rest)
  | c :: rest => if isControl c && c != '\n' then none else withChar c (readLongLiteral rest)

/-! ## Any string -/

/-- A break right behind the opening quotes is no part of the string. -/
def skipBreak (cs : List Char) : List Char := (afterBreak? cs).getD cs

def readString : List Char → Option (List Char × List Char)
  | '"' :: '"' :: '"' :: rest =>
    let body := skipBreak rest
    readLongBasic (body.length + 1) body
  | '"' :: rest => readBasic (rest.length + 1) rest
  | '\'' :: '\'' :: '\'' :: rest => readLongLiteral (skipBreak rest)
  | '\'' :: rest => readLiteral rest
  | _ => none

end PoolWatch.Toml
