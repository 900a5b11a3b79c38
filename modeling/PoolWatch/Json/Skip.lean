import PoolWatch.Json.Structure
import PoolWatch.Json.Numbers

/-!
# Passing over JSON values

A value that nobody asked for is checked for its form only. It may be nested to any depth, its
numbers may be of any size and its surrogates need no partner.
-/

namespace PoolWatch.Json

/-- What a value stands in. -/
inductive Enclosure
  | list
  | object
deriving DecidableEq

def skipName (s : List Char) : Except Failure (List Char) :=
  match skipBlanks s with
  | [] => failPeek .endInObject []
  | c :: rest =>
    if c = '"' then
      match skipString rest with
      | .error f => .error f
      | .ok rest => readColon rest
    else failPeek .nameExpected (c :: rest)

/-- What has to happen next. -/
inductive Next
  | value
  | afterValue
deriving DecidableEq

/-- After an opening bracket: a value, or the closing bracket. -/
def skipOpening (enclosure : Enclosure) (rest : List Char) : Except Failure (Next × List Char) :=
  match skipBlanks rest, enclosure with
  | [], .list => failPeek .endInList []
  | [], .object => failPeek .endInObject []
  | c :: r, .list => if c = ']' then .ok (.afterValue, r) else .ok (.value, c :: r)
  | c :: r, .object =>
    if c = '}' then .ok (.afterValue, r)
    else match skipName (c :: r) with
      | .error f => .error f
      | .ok r => .ok (.value, r)

def afterScalar (around : List Enclosure) :
    Except Failure (List Char) → Except Failure (Next × List Enclosure × List Char)
  | .error f => .error f
  | .ok rest => .ok (.afterValue, around, rest)

/-- Passes over the scalar or the opening bracket that begins with `c`. -/
def skipStart (around : List Enclosure) (c : Char) (rest : List Char) :
    Except Failure (Next × List Enclosure × List Char) :=
  if c = 'n' then afterScalar around (readWord ['u', 'l', 'l'] rest)
  else if c = 't' then afterScalar around (readWord ['r', 'u', 'e'] rest)
  else if c = 'f' then afterScalar around (readWord ['a', 'l', 's', 'e'] rest)
  else if c = '-' then afterScalar around (skipNumber rest)
  else if isDigit c then afterScalar around (skipNumber (c :: rest))
  else if c = '"' then afterScalar around (skipString rest)
  else if c = '[' ∨ c = '{' then
    let enclosure := if c = '[' then Enclosure.list else .object
    match skipOpening enclosure rest with
    | .error f => .error f
    | .ok (.value, rest) => .ok (.value, enclosure :: around, rest)
    | .ok (.afterValue, rest) => .ok (.afterValue, around, rest)
  else failPeek .valueExpected (c :: rest)

/-- One step of passing over a value: a scalar, an opening bracket, a comma or a closing bracket,
with the enclosures that are open, the innermost first. -/
def skipStep (next : Next) (around : List Enclosure) (s : List Char) :
    Except Failure (Next × List Enclosure × List Char) :=
  match next, around, skipBlanks s with
  | .value, _, [] => failPeek .endInValue []
  | .value, around, c :: rest => skipStart around c rest
  | .afterValue, [], _ => .ok (.afterValue, [], s)
  | .afterValue, .list :: _, [] => failPeek .endInList []
  | .afterValue, .object :: _, [] => failPeek .endInObject []
  | .afterValue, .list :: outer, c :: rest =>
    if c = ',' then .ok (.value, .list :: outer, rest)
    else if c = ']' then .ok (.afterValue, outer, rest)
    else failPeek .listCommaExpected (c :: rest)
  | .afterValue, .object :: outer, c :: rest =>
    if c = ',' then
      match skipName rest with
      | .error f => .error f
      | .ok rest => .ok (.value, .object :: outer, rest)
    else if c = '}' then .ok (.afterValue, outer, rest)
    else failPeek .objectCommaExpected (c :: rest)

/-- Steps until nothing is left to close. The brackets are kept in a list, so any depth will do. -/
def skipFrom : Nat → Next → List Enclosure → List Char → Except Failure (List Char)
  | 0, _, _, _ => failPeek .endInValue []
  | _ + 1, .afterValue, [], s => .ok s
  | fuel + 1, next, around, s =>
    match skipStep next around s with
    | .error f => .error f
    | .ok (next, around, rest) => skipFrom fuel next around rest

/-- Passes over one value. Each step reads at least one character. -/
def skipValue (s : List Char) : Except Failure (List Char) :=
  skipFrom (s.length + 2) .value [] s

end PoolWatch.Json
