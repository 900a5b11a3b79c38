import PoolWatch.Toml.Strings

/-!
# Writing strings of TOML

A text is written in the first of several forms that needs no escapes: on one line or on many, basic
or literal. If none does, it is written basic with escapes.
-/

namespace PoolWatch.Toml

/-! ## What a text holds -/

/-- The most of a character in a row. `run` is the row that is open. -/
def longestRunFrom (c : Char) (run best : Nat) : List Char → Nat
  | [] => max run best
  | d :: cs =>
    if d = c then longestRunFrom c (run + 1) best cs else longestRunFrom c 0 (max run best) cs

def longestRun (c : Char) (cs : List Char) : Nat := longestRunFrom c 0 0 cs

/-- Whether no form but an escaped one can hold the text. -/
def needsEscapes (cs : List Char) : Bool := cs.any fun c => isControl c && c != '\n'

inductive StringForm
  | basic
  | literal
  | longBasic
  | longLiteral
deriving DecidableEq

/-- The form that needs the fewest escapes. Line breaks ask for a long one. -/
def formOf (cs : List Char) : StringForm :=
  let many := cs.contains '\n'
  let free := !needsEscapes cs
  let doubles := longestRun '"' cs
  let singles := longestRun '\'' cs
  if free && !cs.contains '\\' && doubles == 0 && !many then .basic
  else if free && singles == 0 && !many then .literal
  else if free && !cs.contains '\\' && doubles ≤ 2 then .longBasic
  else if free && singles ≤ 2 then .longLiteral
  else if many then .longBasic
  else .basic

/-! ## Escaped text -/

/-- A character of a basic string, on one line or on many. -/
def escapeChar (long : Bool) (c : Char) : List Char :=
  if c = '\x08' then ['\\', 'b']
  else if c = '\t' then ['\\', 't']
  else if c = '\n' then if long then ['\n'] else ['\\', 'n']
  else if c = '\x0c' then ['\\', 'f']
  else if c = '\r' then ['\\', 'r']
  else if c = '\\' then ['\\', '\\']
  else if isControl c then
    let digits := (Nat.toDigits 16 c.toNat).map Char.toUpper
    '\\' :: 'u' :: (List.replicate (4 - digits.length) '0' ++ digits)
  else [c]

/-- The text of a basic string. `quotes` counts the quotes just before. One too many is escaped. -/
def escapeFrom (long : Bool) (quotes : Nat) : List Char → List Char
  | [] => []
  | c :: cs =>
    if c = '"' then
      if quotes < (if long then 2 else 0) then '"' :: escapeFrom long (quotes + 1) cs
      else '\\' :: '"' :: escapeFrom long 0 cs
    else escapeChar long c ++ escapeFrom long 0 cs

/-- A string on many lines begins with a line break if it has another one. -/
def opening (cs : List Char) : List Char := if cs.contains '\n' then ['\n'] else []

def writeString (cs : List Char) : List Char :=
  match formOf cs with
  | .basic => '"' :: (escapeFrom false 0 cs ++ ['"'])
  | .literal => '\'' :: (cs ++ ['\''])
  | .longBasic =>
    ['"', '"', '"'] ++ opening cs ++ escapeFrom true 0 cs ++ ['"', '"', '"']
  | .longLiteral => ['\'', '\'', '\''] ++ opening cs ++ cs ++ ['\'', '\'', '\'']

end PoolWatch.Toml
