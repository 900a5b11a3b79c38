import PoolWatch.Json.Strings
import PoolWatch.Json.Numbers
import PoolWatch.Json.Writer

/-!
# The grammar of JSON

A tree is a JSON value as it is written, with its blanks, digits, escapes and members in their
order. A text is JSON when it is the text of some tree between blanks. Nothing here reads a text.
-/

namespace PoolWatch.Json

structure Blanks where
  chars : List Char
  blank : ∀ c ∈ chars, isJsonBlank c = true

def Blanks.none : Blanks := ⟨[], by simp⟩

/-! ## Numbers -/

/-- At least one digit. -/
structure Digits where
  chars : List Char
  digit : ∀ c ∈ chars, isDigit c = true
  nonempty : chars ≠ []

inductive Sign
  | absent
  | plus
  | minus
deriving DecidableEq

def Sign.chars : Sign → List Char
  | absent => []
  | plus => ['+']
  | minus => ['-']

/-- A power of ten: a mark, a sign and digits. -/
structure Power where
  mark : Char
  isMark : mark = 'e' ∨ mark = 'E'
  sign : Sign
  digits : Digits

def Power.chars (p : Power) : List Char := p.mark :: (p.sign.chars ++ p.digits.chars)

structure Numeral where
  negative : Bool
  whole : Digits
  /-- A zero stands alone. -/
  plain : whole.chars.head? = some '0' → whole.chars = ['0']
  fraction : Option Digits
  power : Option Power

namespace Numeral

def fractionChars : Option Digits → List Char
  | none => []
  | some f => '.' :: f.chars

def powerChars : Option Power → List Char
  | none => []
  | some p => p.chars

/-- What stands behind the sign. -/
def unsignedChars (n : Numeral) : List Char :=
  n.whole.chars ++ (fractionChars n.fraction ++ powerChars n.power)

def chars (n : Numeral) : List Char :=
  if n.negative then '-' :: n.unsignedChars else n.unsignedChars

end Numeral

/-! ## Strings -/

/-- The four hexadecimal digits of an escape. -/
structure HexWord where
  a : Char
  b : Char
  c : Char
  d : Char
  hex : (hexWord? a b c d).isSome = true

def HexWord.chars (w : HexWord) : List Char := [w.a, w.b, w.c, w.d]

def HexWord.value (w : HexWord) : Nat := (hexWord? w.a w.b w.c w.d).get w.hex

/-- A character that stands for itself, or an escape. -/
inductive Part
  | bare (c : Char) (allowed : c ≠ '"' ∧ c ≠ '\\' ∧ isControl c = false)
  | short (c : Char) (known : (shortEscape? c).isSome = true)
  | word (w : HexWord)

def Part.chars : Part → List Char
  | bare c _ => [c]
  | short c _ => ['\\', c]
  | word w => '\\' :: 'u' :: w.chars

def partsChars (parts : List Part) : List Char := parts.flatMap Part.chars

/-! ## Values -/

structure Padded (α : Type) where
  before : Blanks
  value : α
  after : Blanks

structure Member (α : Type) where
  before : Blanks
  name : List Part
  after : Blanks
  value : Padded α

/-- Blanks may stand after each bracket, and around each item, name and value. -/
inductive Tree
  | null
  | bool (b : Bool)
  | number (n : Numeral)
  | text (parts : List Part)
  | list (ahead : Blanks) (items : List (Padded Tree))
  | object (ahead : Blanks) (members : List (Member Tree))

namespace Tree

def quoted (parts : List Part) : List Char := '"' :: (partsChars parts ++ ['"'])

mutual

def chars : Tree → List Char
  | null => "null".toList
  | bool b => boolChars b
  | number n => n.chars
  | text parts => quoted parts
  | list ahead items => '[' :: (ahead.chars ++ (commaJoin (itemTexts items) ++ [']']))
  | object ahead members => '{' :: (ahead.chars ++ (commaJoin (memberTexts members) ++ ['}']))

def itemTexts : List (Padded Tree) → List (List Char)
  | [] => []
  | ⟨before, t, after⟩ :: rest => (before.chars ++ (t.chars ++ after.chars)) :: itemTexts rest

def memberTexts : List (Member Tree) → List (List Char)
  | [] => []
  | ⟨before, name, after, ⟨ahead, t, behind⟩⟩ :: rest =>
    (before.chars ++ (quoted name ++ (after.chars ++
      ':' :: (ahead.chars ++ (t.chars ++ behind.chars))))) :: memberTexts rest

end

mutual

/-- How many lists and objects are nested in one another. -/
def height : Tree → Nat
  | null => 0
  | bool _ => 0
  | number _ => 0
  | text _ => 0
  | list _ items => itemsHeight items + 1
  | object _ members => membersHeight members + 1

def itemsHeight : List (Padded Tree) → Nat
  | [] => 0
  | ⟨_, t, _⟩ :: rest => max t.height (itemsHeight rest)

def membersHeight : List (Member Tree) → Nat
  | [] => 0
  | ⟨_, _, _, ⟨_, t, _⟩⟩ :: rest => max t.height (membersHeight rest)

end

theorem induct {P : Tree → Prop} (null : P .null) (bool : ∀ b, P (.bool b))
    (number : ∀ n, P (.number n)) (text : ∀ parts, P (.text parts))
    (list : ∀ ahead items, (∀ i ∈ items, P i.value) → P (.list ahead items))
    (object : ∀ ahead members, (∀ m ∈ members, P m.value.value) → P (.object ahead members))
    (t : Tree) : P t := by
  refine @Tree.rec P (fun items => ∀ i ∈ items, P i.value) (fun members => ∀ m ∈ members,
    P m.value.value) (fun i => P i.value) (fun m => P m.value.value) null bool number text list
    object ?_ ?_ ?_ ?_ ?_ ?_ t <;> simp_all

theorem itemsHeight_le {items : List (Padded Tree)} {d : Nat} :
    itemsHeight items ≤ d ↔ ∀ i ∈ items, i.value.height ≤ d := by
  induction items with
  | nil => simp [itemsHeight]
  | cons i rest ih => rw [itemsHeight, Nat.max_le, List.forall_mem_cons, ih]

theorem membersHeight_le {members : List (Member Tree)} {d : Nat} :
    membersHeight members ≤ d ↔ ∀ m ∈ members, m.value.value.height ≤ d := by
  induction members with
  | nil => simp [membersHeight]
  | cons m rest ih => rw [membersHeight, Nat.max_le, List.forall_mem_cons, ih]

end Tree

/-- A whole JSON text is a tree between blanks. -/
def Padded.text (d : Padded Tree) : String :=
  String.ofList (d.before.chars ++ (d.value.chars ++ d.after.chars))

end PoolWatch.Json
