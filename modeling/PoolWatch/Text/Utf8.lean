/-!
# UTF-8

Texts as bytes, and bytes as text. Bytes that are no UTF-8 read as the replacement character, one
for each stretch that began like a character and then went wrong.
-/

namespace PoolWatch.Text

def utf8Bytes (cs : List Char) : List UInt8 := cs.flatMap String.utf8EncodeChar

def replacement : Char := '\ufffd'

/-- Before a character, or inside one: how many bytes are still to come, the bounds of the next one,
and the bits so far. -/
inductive Utf8State
  | start
  | inside (left : Nat) (low high : UInt8) (code : Nat)
deriving DecidableEq

/-- A byte that begins a character, or the character that it is on its own. -/
def utf8Lead (b : UInt8) : List Char × Utf8State :=
  if b < 0x80 then ([.ofNat b.toNat], .start)
  else if b < 0xc2 then ([replacement], .start)
  else if b < 0xe0 then ([], .inside 1 0x80 0xbf (b.toNat - 0xc0))
  else if b = 0xe0 then ([], .inside 2 0xa0 0xbf 0)
  else if b = 0xed then ([], .inside 2 0x80 0x9f 13)
  else if b < 0xf0 then ([], .inside 2 0x80 0xbf (b.toNat - 0xe0))
  else if b = 0xf0 then ([], .inside 3 0x90 0xbf 0)
  else if b < 0xf4 then ([], .inside 3 0x80 0xbf (b.toNat - 0xf0))
  else if b = 0xf4 then ([], .inside 3 0x80 0x8f 4)
  else ([replacement], .start)

/-- The characters that a byte completes, and the state behind it. -/
def utf8Step (s : Utf8State) (b : UInt8) : List Char × Utf8State :=
  match s with
  | .start => utf8Lead b
  | .inside left low high code =>
    if low ≤ b && b ≤ high then
      let code := code * 64 + (b.toNat - 0x80)
      match left with
      | left + 2 => ([], .inside (left + 1) 0x80 0xbf code)
      | _ => ([.ofNat code], .start)
    else (replacement :: (utf8Lead b).1, (utf8Lead b).2)

/-- Decodes what is left. The characters before it are given in reverse. -/
def decodeUtf8From (s : Utf8State) (before : List Char) : List UInt8 → List Char
  | [] => (if s = .start then before else replacement :: before).reverse
  | b :: bs => decodeUtf8From (utf8Step s b).2 ((utf8Step s b).1.reverse ++ before) bs

/-- Reads any bytes. What is no UTF-8 is replaced, as little as can be at a time. -/
def decodeUtf8 (bytes : List UInt8) : List Char := decodeUtf8From .start [] bytes

/-- The text of bytes that are UTF-8 throughout. -/
def decodeUtf8? (bytes : List UInt8) : Option (List Char) :=
  let cs := decodeUtf8 bytes
  if utf8Bytes cs = bytes then some cs else none

end PoolWatch.Text
