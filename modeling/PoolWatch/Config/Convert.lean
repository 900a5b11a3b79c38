import PoolWatch.Config.Tree
import PoolWatch.Text.Quoted

/-!
# Conversions

A setting is read from a tree as what it should be. Texts, numbers and truth values are turned into
each other where that makes sense.
-/

namespace PoolWatch.Config

/-! ## What does not fit -/

/-- What no conversion takes. -/
inductive Found
  | null
  | text (s : String)
  | list
  | table

def Found.message : Found → String
  | null => "unit value"
  | text s => "string " ++ Text.quoted s
  | list => "sequence"
  | table => "map"

def Scalar.message : Scalar → String
  | .null => "unit value"
  | .bool b => "boolean `" ++ (if b then "true" else "false") ++ "`"
  | .whole n => "integer `" ++ Integer.text n ++ "`"
  | .real x => "floating point `" ++ x.pointedText ++ "`"
  | .text s => "string " ++ Text.quoted s

/-- Why a tree is not what was expected of it. A conversion also knows who said the value. -/
inductive Misfit
  | noText (found : Found) (origin : Option String)
  | noNumber (found : Found) (origin : Option String)
  | negative (n : Int) (origin : Option String)
  | overPort (n : UInt64)
  | missing (name : String)
  | noSection (found : Scalar) (record : String)
  | tooShort (length : Nat) (record : String) (fields : Nat)

namespace Misfit

/-- A value of the wrong type, and not a wrong section. -/
def isConversion : Misfit → Bool
  | missing _ | noSection _ _ | tooShort _ _ _ => false
  | _ => true

def message : Misfit → String
  | noText found _ => "invalid type: " ++ found.message ++ ", expected a string"
  | noNumber found _ => "invalid type: " ++ found.message ++ ", expected an integer"
  | negative n _ =>
    "invalid type: 64-bit integer `" ++ Integer.text n ++
      "`, expected an unsigned 64 bit or less integer"
  | overPort n =>
    "invalid type: 64-bit unsigned integer `" ++ Integer.text n.toNat ++
      "`, expected an unsigned 16 bit integer"
  | missing name => "missing field `" ++ name ++ "`"
  | noSection found record =>
    "invalid type: " ++ found.message ++ ", expected struct " ++ record
  | tooShort length record fields =>
    "invalid length " ++ Integer.text length ++ ", expected struct " ++ record ++ " with " ++
      Integer.text fields ++ " elements"

def origin? : Misfit → Option String
  | noText _ origin | noNumber _ origin | negative _ origin => origin
  | _ => none

end Misfit

/-- A value that does not fit, and its key. -/
structure Refusal where
  misfit : Misfit
  key : String

def Refusal.message (r : Refusal) : String :=
  r.misfit.message ++ " for key `" ++ r.key ++ "`" ++
    match r.misfit.origin? with
    | some origin => " in " ++ origin
    | none => ""

/-! ## Conversions -/

namespace Tree

/-- Scalars are read as the text that they would be written as. Null has none. -/
def asText : Tree → Except Misfit String
  | scalar _ (.text s) => .ok s
  | scalar _ (.bool b) => .ok (if b then "true" else "false")
  | scalar _ (.whole n) => .ok (Integer.text n)
  | scalar _ (.real x) => .ok x.text
  | scalar origin .null => .error (.noText .null origin)
  | list origin _ => .error (.noText .list origin)
  | table origin _ => .error (.noText .table origin)

/-- A text that may be missing: null stands for none. -/
def asOptionalText : Tree → Except Misfit (Option String)
  | scalar _ .null => .ok none
  | t => match t.asText with
    | .ok s => .ok (some s)
    | .error e => .error e

/-- A number as text has it: a truth word, or decimal digits. -/
def wordOfText? (s : String) : Option UInt64 :=
  let word := s.toList.map Char.toLower
  if word = "true".toList ∨ word = "on".toList ∨ word = "yes".toList then some 1
  else if word = "false".toList ∨ word = "off".toList ∨ word = "no".toList then some 0
  else Integer.uint64OfChars? s.toList

/-- Truth values count as 1 and 0, and fractions are dropped. -/
def asWord64 : Tree → Except Misfit UInt64
  | scalar origin (.text s) =>
    match wordOfText? s with
    | some n => .ok n
    | none => .error (.noNumber (.text s) origin)
  | scalar _ (.bool b) => .ok (if b then 1 else 0)
  | scalar origin (.whole n) => if n < 0 then .error (.negative n origin) else .ok (.ofNat n.toNat)
  | scalar _ (.real x) => .ok x.toWord64
  | scalar origin .null => .error (.noNumber .null origin)
  | list origin _ => .error (.noNumber .list origin)
  | table origin _ => .error (.noNumber .table origin)

def asPort (t : Tree) : Except Misfit UInt16 :=
  match t.asWord64 with
  | .error e => .error e
  | .ok n => if n < 65536 then .ok n.toUInt16 else .error (.overPort n)

end Tree

end PoolWatch.Config
