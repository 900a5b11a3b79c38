import PoolWatch.Json.Basic
import PoolWatch.Text.Quoted
import PoolWatch.Text.Utf8

/-!
# Why a text could not be read

A failure has a cause and a spot. The spot is the text that was still unread, and how many bytes
of it had been looked at. Lines count from 1, columns count bytes.
-/

namespace PoolWatch.Json

/-- What stands where something else was expected. -/
inductive Found
  | null
  | bool (b : Bool)
  | number (n : Number)
  | text (s : String)
  | list
  | object

/-- What the reader looked for. -/
inductive Expected
  | sequence
  | record (name : String) (fields : Nat)

/-- Well-formed so far, but not of the expected shape. -/
inductive Misfit
  | missingField (name : String)
  | repeatedField (name : String)
  | wrongType (found : Found) (expected : Expected)
  | tooFew (length : Nat) (expected : Expected)

/-- What is wrong with a text. -/
inductive Fault
  | endInValue
  | endInList
  | endInObject
  | endInString
  | colonExpected
  | listCommaExpected
  | objectCommaExpected
  | wordExpected
  | valueExpected
  | nameExpected
  | badEscape
  | badNumber
  | numberTooLarge
  | controlCharacter
  | loneSurrogate
  | cutSurrogate
  | trailingComma
  | trailingText
  | tooDeep
  | misfit (m : Misfit)

/-- A fault, and where the reader was when it met it. -/
structure Failure where
  fault : Fault
  rest : List Char
  ahead : Nat

/-- Reads the front of a text and hands back what is left. -/
abbrev Reader (α : Type) := List Char → Except Failure (α × List Char)

def Reader.map {α β : Type} (f : α → β) (reader : Reader α) : Reader β := fun s =>
  match reader s with
  | .error e => .error e
  | .ok (v, rest) => .ok (f v, rest)

/-- Fails at the first unread character, having looked at it. -/
def failPeek {α : Type} (fault : Fault) (s : List Char) : Except Failure α := .error ⟨fault, s, 1⟩

/-- Fails before the first unread character. -/
def failHere {α : Type} (fault : Fault) (s : List Char) : Except Failure α := .error ⟨fault, s, 0⟩

/-! ## Places -/

/-- A place in a text, as messages tell it. Columns count bytes. -/
structure Place where
  line : Nat
  column : Nat
deriving DecidableEq

def Place.after (bytes : List UInt8) : Place :=
  ⟨1 + bytes.count 10, (bytes.reverse.takeWhile (· != 10)).length⟩

def Failure.place (text : List Char) (f : Failure) : Place :=
  let bytes := Text.utf8Bytes text
  .after (bytes.take (bytes.length - (Text.utf8Bytes f.rest).length + f.ahead))

/-! ## Messages -/

def Found.message : Found → String
  | .null => "null"
  | .bool b => "boolean `" ++ (if b then "true" else "false") ++ "`"
  | .number (.whole n fits) => "integer `" ++ (Number.whole n fits).toText ++ "`"
  | .number (.real x) => "floating point `" ++ (Number.real x).toText ++ "`"
  | .text s => "string " ++ Text.quoted s
  | .list => "sequence"
  | .object => "map"

def Expected.message : Expected → String
  | .sequence => "a sequence"
  | .record name _ => "struct " ++ name

def Expected.sized : Expected → String
  | .sequence => "a sequence"
  | .record name fields =>
    "struct " ++ name ++ " with " ++ String.ofList (Nat.toDigits 10 fields) ++
      (if fields = 1 then " element" else " elements")

def Misfit.message : Misfit → String
  | .missingField name => "missing field `" ++ name ++ "`"
  | .repeatedField name => "duplicate field `" ++ name ++ "`"
  | .wrongType found expected =>
    "invalid type: " ++ found.message ++ ", expected " ++ expected.message
  | .tooFew length expected =>
    "invalid length " ++ String.ofList (Nat.toDigits 10 length) ++ ", expected " ++ expected.sized

def Fault.message : Fault → String
  | .endInValue => "EOF while parsing a value"
  | .endInList => "EOF while parsing a list"
  | .endInObject => "EOF while parsing an object"
  | .endInString => "EOF while parsing a string"
  | .colonExpected => "expected `:`"
  | .listCommaExpected => "expected `,` or `]`"
  | .objectCommaExpected => "expected `,` or `\x7d`"
  | .wordExpected => "expected ident"
  | .valueExpected => "expected value"
  | .nameExpected => "key must be a string"
  | .badEscape => "invalid escape"
  | .badNumber => "invalid number"
  | .numberTooLarge => "number out of range"
  | .controlCharacter => "control character (\\u0000-\\u001F) found while parsing a string"
  | .loneSurrogate => "lone leading surrogate in hex escape"
  | .cutSurrogate => "unexpected end of hex escape"
  | .trailingComma => "trailing comma"
  | .trailingText => "trailing characters"
  | .tooDeep => "recursion limit exceeded"
  | .misfit m => m.message

/-- A well-formed text of the wrong shape, as against a malformed text. -/
def Fault.isMisfit : Fault → Bool
  | .misfit _ => true
  | _ => false

def Fault.messageAt (fault : Fault) (p : Place) : String :=
  fault.message ++ " at line " ++ String.ofList (Nat.toDigits 10 p.line) ++ " column " ++
    String.ofList (Nat.toDigits 10 p.column)

end PoolWatch.Json
