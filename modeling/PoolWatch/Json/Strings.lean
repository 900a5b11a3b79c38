import PoolWatch.Json.Failure
import PoolWatch.Number.Radix

/-!
# Reading JSON strings

Two readers: one that keeps the text, and one for strings nobody will look at, which checks the
form of the escapes but not that surrogates come in pairs.
-/

namespace PoolWatch.Json

/-- The four characters that may stand between values and marks. -/
def isJsonBlank (c : Char) : Bool := c == ' ' || c == '\n' || c == '\t' || c == '\r'

def skipBlanks (s : List Char) : List Char := s.dropWhile isJsonBlank

/-! ## Escapes -/

def hexWord? (a b c d : Char) : Option Nat :=
  match Radix.value? a, Radix.value? b, Radix.value? c, Radix.value? d with
  | some a, some b, some c, some d => some (a * 4096 + b * 256 + c * 16 + d)
  | _, _, _, _ => none

/-- The four digits after `\u`. Four bytes are taken before they are looked at. -/
def readHexWord (s : List Char) : Except Failure (Nat × List Char) :=
  if (Text.utf8Bytes (s.take 4)).length < 4 then failHere .endInString []
  else match s with
    | a :: b :: c :: d :: rest =>
      match hexWord? a b c d with
      | some n => .ok (n, rest)
      | none => .error ⟨.badEscape, s, 4⟩
    | _ => .error ⟨.badEscape, s, 4⟩

def isHighSurrogate (n : Nat) : Bool := 0xD800 ≤ n && n ≤ 0xDBFF

def isLowSurrogate (n : Nat) : Bool := 0xDC00 ≤ n && n ≤ 0xDFFF

/-- The code point that a pair of surrogates stands for. -/
def joinSurrogates (high low : Nat) : Nat := (high - 0xD800) * 1024 + (low - 0xDC00) + 0x10000

/-- What follows a high surrogate must be `\u` and a low one. -/
def readLowSurrogate (high : Nat) : List Char → Except Failure (Char × List Char)
  | '\\' :: 'u' :: s =>
    match readHexWord s with
    | .error f => .error f
    | .ok (low, rest) =>
      if isLowSurrogate low then .ok (Char.ofNat (joinSurrogates high low), rest)
      else failHere .loneSurrogate rest
  | ['\\'] => failHere .endInString []
  | '\\' :: s => failPeek .cutSurrogate s
  | [] => failHere .endInString []
  | s => failPeek .cutSurrogate s

/-- A surrogate is half a character, and the other half has to follow. -/
def readUnicodeEscape (s : List Char) : Except Failure (Char × List Char) :=
  match readHexWord s with
  | .error f => .error f
  | .ok (n, rest) =>
    if isLowSurrogate n then failHere .loneSurrogate rest
    else if isHighSurrogate n then readLowSurrogate n rest
    else .ok (Char.ofNat n, rest)

def shortEscape? (c : Char) : Option Char :=
  match c with
  | '"' => some '"'
  | '\\' => some '\\'
  | '/' => some '/'
  | 'b' => some '\x08'
  | 'f' => some '\x0c'
  | 'n' => some '\n'
  | 'r' => some '\r'
  | 't' => some '\t'
  | _ => none

def readEscape : List Char → Except Failure (Char × List Char)
  | [] => failHere .endInString []
  | c :: rest =>
    if c = 'u' then readUnicodeEscape rest
    else match shortEscape? c with
      | some d => .ok (d, rest)
      | none => failPeek .badEscape (c :: rest)

/-- Passes over an escape. Surrogates need not be paired here. -/
def skipEscape : List Char → Except Failure (List Char)
  | [] => failHere .endInString []
  | c :: rest =>
    if c = 'u' then
      match readHexWord rest with
      | .error f => .error f
      | .ok (_, rest) => .ok rest
    else if (shortEscape? c).isSome then .ok rest
    else failPeek .badEscape (c :: rest)

/-! ## Strings -/

def isControl (c : Char) : Bool := c.toNat < 0x20

/-- Reads up to the closing quote. `done` holds the characters so far, the last one first. -/
def readStringFrom : Nat → List Char → List Char → Except Failure (List Char × List Char)
  | 0, _, _ => failHere .endInString []
  | _ + 1, _, [] => failHere .endInString []
  | fuel + 1, done, c :: rest =>
    if c = '"' then .ok (done.reverse, rest)
    else if c = '\\' then
      match readEscape rest with
      | .error f => .error f
      | .ok (d, rest) => readStringFrom fuel (d :: done) rest
    else if isControl c then failPeek .controlCharacter (c :: rest)
    else readStringFrom fuel (c :: done) rest

/-- Reads a string behind its opening quote. -/
def readString (s : List Char) : Except Failure (String × List Char) :=
  match readStringFrom (s.length + 1) [] s with
  | .error f => .error f
  | .ok (cs, rest) => .ok (String.ofList cs, rest)

def skipStringFrom : Nat → List Char → Except Failure (List Char)
  | 0, _ => failHere .endInString []
  | _ + 1, [] => failHere .endInString []
  | fuel + 1, c :: rest =>
    if c = '"' then .ok rest
    else if c = '\\' then
      match skipEscape rest with
      | .error f => .error f
      | .ok rest => skipStringFrom fuel rest
    else if isControl c then failHere .controlCharacter (c :: rest)
    else skipStringFrom fuel rest

def skipString (s : List Char) : Except Failure (List Char) := skipStringFrom (s.length + 1) s

end PoolWatch.Json
