import PoolWatch.Config.Tree
import PoolWatch.Number.Radix

/-!
# Scalars of YAML

A plain scalar is null, a truth value, a number, or else the text that it is. A quoted one is a
text.
-/

namespace PoolWatch.Yaml

open Config

/-! ## Plain -/

def wholeOfDigits? (base : Nat) (cs : List Char) : Option Int :=
  if cs.isEmpty || !cs.all (Radix.isDigit base) then none
  else if Integer.fitsInt64 (Radix.ofDigits base cs) then some (Radix.ofDigits base cs)
  else none

/-- A whole number in one of three bases, if it fits 64 bits. -/
def whole? : List Char → Option Int
  | '0' :: 'x' :: cs => wholeOfDigits? 16 cs
  | '0' :: 'o' :: cs => wholeOfDigits? 8 cs
  | cs => match Integer.ofChars? cs with
    | some n => if Integer.fitsInt64 n then some n else none
    | none => none

/-- The words for numbers without digits. They are no numbers of a configuration. -/
def isEndless (cs : List Char) : Bool :=
  [".inf", ".Inf", ".INF", "+.inf", "+.Inf", "+.INF", "-.inf", "-.Inf", "-.INF", ".nan", ".NaN",
    ".NAN"].contains (String.ofList cs)

/-- What a plain scalar means, if it means anything. -/
def plain? (cs : List Char) : Option Scalar :=
  let s := String.ofList cs
  if s = "" ∨ s = "~" ∨ s = "null" then some .null
  else if s = "true" then some (.bool true)
  else if s = "false" then some (.bool false)
  else if isEndless cs then none
  else match whole? cs with
    | some n => some (.whole n)
    | none =>
      match Binary64.Extended.ofChars? cs with
      | some x => some (if cs.any Char.isDigit then .real x else .text s)
      | none => some (.text s)

/-! ## Quoted -/

def withChar (c : Char) : Option (List Char × List Char) → Option (List Char × List Char)
  | some (cs, rest) => some (c :: cs, rest)
  | none => none

/-- In single quotes only the quote itself is doubled. -/
def readSingle : List Char → Option (List Char × List Char)
  | [] => none
  | '\'' :: '\'' :: rest => withChar '\'' (readSingle rest)
  | '\'' :: rest => some ([], rest)
  | c :: rest => withChar c (readSingle rest)

def shortEscape? (c : Char) : Option Char :=
  if c = '0' then some '\x00' else if c = 'a' then some '\x07' else if c = 'b' then some '\x08'
  else if c = 't' ∨ c = '\t' then some '\t' else if c = 'n' then some '\n'
  else if c = 'v' then some '\x0b' else if c = 'f' then some '\x0c' else if c = 'r' then some '\r'
  else if c = 'e' then some '\x1b' else if c = 'N' then some '\u0085'
  else if c = '_' then some '\u00a0' else if c = 'L' then some '\u2028'
  else if c = 'P' then some '\u2029'
  else if c = ' ' ∨ c = '"' ∨ c = '/' ∨ c = '\\' then some c else none

def escapeDigits (c : Char) : Nat :=
  if c = 'x' then 2 else if c = 'u' then 4 else if c = 'U' then 8 else 0

/-- The text up to the closing quote. `fuel` is more than the number of characters. -/
def readDouble : Nat → List Char → Option (List Char × List Char)
  | 0, _ => none
  | _ + 1, [] => none
  | _ + 1, '"' :: rest => some ([], rest)
  | fuel + 1, '\\' :: c :: rest =>
    match shortEscape? c with
    | some c => withChar c (readDouble fuel rest)
    | none =>
      let digits := rest.take (escapeDigits c)
      match Radix.char? digits with
      | some d =>
        if digits.length = escapeDigits c ∧ digits ≠ [] then
          withChar d (readDouble fuel (rest.drop (escapeDigits c)))
        else none
      | none => none
  | fuel + 1, c :: rest => withChar c (readDouble fuel rest)

def readQuoted : List Char → Option (List Char × List Char)
  | '"' :: rest => readDouble (rest.length + 1) rest
  | '\'' :: rest => readSingle rest
  | _ => none

end PoolWatch.Yaml
