import PoolWatch.Json.Strings

/-!
# The frame of lists and objects

Where the next item or the next member begins, and where the list or the object ends.
-/

namespace PoolWatch.Json

/-- The next item of a list, or nothing at the closing bracket, which stays unread. -/
def nextItem (first : Bool) (s : List Char) : Except Failure (Option (List Char) × List Char) :=
  match skipBlanks s with
  | [] => failPeek .endInList []
  | c :: rest =>
    if c = ']' then .ok (none, c :: rest)
    else if first then .ok (some (c :: rest), c :: rest)
    else if c = ',' then
      match skipBlanks rest with
      | [] => failPeek .endInValue []
      | d :: r => if d = ']' then failPeek .trailingComma (d :: r) else .ok (some (d :: r), d :: r)
    else failPeek .listCommaExpected (c :: rest)

/-- The end of a list that can have no more items. -/
def endList (s : List Char) : Except Failure (List Char) :=
  match skipBlanks s with
  | [] => failPeek .endInList []
  | c :: rest =>
    if c = ']' then .ok rest
    else if c = ',' then
      match skipBlanks rest with
      | d :: r =>
        if d = ']' then failPeek .trailingComma (d :: r) else failPeek .trailingText (d :: r)
      | [] => failPeek .trailingText []
    else failPeek .trailingText (c :: rest)

/-- The name of the next member, or nothing at the closing brace, which stays unread. -/
def nextName (first : Bool) (s : List Char) : Except Failure (Option String × List Char) :=
  match skipBlanks s with
  | [] => failPeek .endInObject []
  | c :: rest =>
    if c = '}' then .ok (none, c :: rest)
    else if first then
      if c = '"' then
        match readString rest with
        | .error f => .error f
        | .ok (name, rest) => .ok (some name, rest)
      else failPeek .nameExpected (c :: rest)
    else if c = ',' then
      match skipBlanks rest with
      | [] => failPeek .endInValue []
      | d :: r =>
        if d = '"' then
          match readString r with
          | .error f => .error f
          | .ok (name, rest) => .ok (some name, rest)
        else if d = '}' then failPeek .trailingComma (d :: r)
        else failPeek .nameExpected (d :: r)
    else failPeek .objectCommaExpected (c :: rest)

def readColon (s : List Char) : Except Failure (List Char) :=
  match skipBlanks s with
  | [] => failPeek .endInObject []
  | c :: rest => if c = ':' then .ok rest else failPeek .colonExpected (c :: rest)

/-- The rest of one of the words `null`, `true` and `false`. -/
def readWord : List Char → List Char → Except Failure (List Char)
  | [], s => .ok s
  | _ :: _, [] => failHere .endInValue []
  | e :: es, c :: rest => if c = e then readWord es rest else failPeek .wordExpected (c :: rest)

/-! ## Lists of items -/

/-- Reads items up to the closing bracket. `done` holds the items so far, the last one first. -/
def readItemsFrom {α : Type} (item : Reader α) :
    Nat → Bool → List α → List Char → Except Failure (List α × List Char)
  | 0, _, _, _ => failPeek .endInList []
  | fuel + 1, first, done, s =>
    match nextItem first s with
    | .error f => .error f
    | .ok (none, rest) => .ok (done.reverse, rest.drop 1)
    | .ok (some start, _) =>
      match item start with
      | .error f => .error f
      | .ok (v, rest) => readItemsFrom item fuel false (v :: done) rest

/-- Reads items behind the opening bracket. -/
def readItems {α : Type} (item : Reader α) : Reader (List α) := fun s =>
  readItemsFrom item (s.length + 1) true [] s

/-- Reads members up to the closing brace, the later one of two with the same name. -/
def readMembersFrom (value : Reader Json) :
    Nat → Bool → List (String × Json) → List Char →
      Except Failure (List (String × Json) × List Char)
  | 0, _, _, _ => failPeek .endInObject []
  | fuel + 1, first, done, s =>
    match nextName first s with
    | .error f => .error f
    | .ok (none, rest) => .ok (done, rest.drop 1)
    | .ok (some name, rest) =>
      match readColon rest with
      | .error f => .error f
      | .ok rest =>
        match value rest with
        | .error f => .error f
        | .ok (v, rest) => readMembersFrom value fuel false (insertMember name v done) rest

/-- Reads members behind the opening brace. -/
def readMembers (value : Reader Json) : Reader (List (String × Json)) := fun s =>
  readMembersFrom value (s.length + 1) true [] s

end PoolWatch.Json
