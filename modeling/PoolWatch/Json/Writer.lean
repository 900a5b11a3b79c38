import PoolWatch.Json.Basic

/-!
# Writing JSON

Compact JSON: no blanks, and a string with the fewest escapes that JSON allows.
-/

namespace PoolWatch.Json

def hexDigit (n : Nat) : Char := Nat.digitChar n

/-- A quote, a backslash and the control characters are escaped, nothing else. -/
def escapeChar (c : Char) : List Char :=
  if c = '"' then ['\\', '"']
  else if c = '\\' then ['\\', '\\']
  else if c = '\x08' then ['\\', 'b']
  else if c = '\t' then ['\\', 't']
  else if c = '\n' then ['\\', 'n']
  else if c = '\x0c' then ['\\', 'f']
  else if c = '\r' then ['\\', 'r']
  else if c.toNat < 0x20 then
    ['\\', 'u', '0', '0', hexDigit (c.toNat / 16), hexDigit (c.toNat % 16)]
  else [c]

/-- A text in quotes, with what cannot stand there escaped. -/
def quotedChars (s : String) : List Char := '"' :: (s.toList.flatMap escapeChar ++ ['"'])

def commaJoin : List (List Char) → List Char
  | [] => []
  | [p] => p
  | p :: q :: rest => p ++ ',' :: commaJoin (q :: rest)

def listChars (items : List (List Char)) : List Char := '[' :: (commaJoin items ++ [']'])

def memberChars (name : String) (value : List Char) : List Char := quotedChars name ++ ':' :: value

def objectChars (members : List (List Char)) : List Char := '{' :: (commaJoin members ++ ['}'])

def boolChars (b : Bool) : List Char := (if b then "true" else "false").toList

mutual

/-- A value on one line, without blanks. -/
def chars : Json → List Char
  | null => "null".toList
  | bool b => boolChars b
  | number n => n.chars
  | text s => quotedChars s
  | list items => listChars (itemsChars items)
  | object members => objectChars (membersChars members)

def itemsChars : List Json → List (List Char)
  | [] => []
  | v :: rest => v.chars :: itemsChars rest

def membersChars : List (String × Json) → List (List Char)
  | [] => []
  | (name, v) :: rest => memberChars name v.chars :: membersChars rest

end

def compact (v : Json) : String := String.ofList v.chars

end PoolWatch.Json
