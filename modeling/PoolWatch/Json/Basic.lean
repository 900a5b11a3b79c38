import PoolWatch.Number.Shortest

/-!
# JSON values

A number is a whole number of 64 bits or a binary64 number. The members of an object are kept in
the order of their names, one member to a name.
-/

namespace PoolWatch

/-- The whole numbers that are kept exactly: those of a signed or an unsigned 64-bit word. -/
def Number.Fits (n : Int) : Prop := -(1 <<< 63) ≤ n ∧ n < 1 <<< 64

instance (n : Int) : Decidable (Number.Fits n) := inferInstanceAs (Decidable (_ ∧ _))

/-- A whole number that fits a word is kept. Any other number is rounded. -/
inductive Number
  | whole (n : Int) (fits : Number.Fits n)
  | real (x : Binary64)
deriving DecidableEq

inductive Json
  | null
  | bool (b : Bool)
  | number (n : Number)
  | text (s : String)
  | list (items : List Json)
  | object (members : List (String × Json))

namespace Number

def chars : Number → List Char
  | whole n _ => Decimal.signedChars n
  | real x => x.chars .json

def toText (n : Number) : String := String.ofList n.chars

def ofUInt64 (n : UInt64) : Number :=
  .whole n.toNat ⟨by omega, by have := n.toNat_lt; omega⟩

end Number

namespace Json

/-- Puts a member in the place of its name. A later member with the same name wins. -/
def insertMember (name : String) (value : Json) : List (String × Json) → List (String × Json)
  | [] => [(name, value)]
  | (n, v) :: rest =>
    if name < n then (name, value) :: (n, v) :: rest
    else if name = n then (name, value) :: rest
    else (n, v) :: insertMember name value rest

def member? (name : String) : Json → Option Json
  | object members => members.lookup name
  | _ => none

end Json

end PoolWatch
