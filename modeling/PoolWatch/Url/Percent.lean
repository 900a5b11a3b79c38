import PoolWatch.Text.Utf8

/-!
# Percent encoding

Bytes that may not stand in an address are written as `%` and two hexadecimal digits.
-/

namespace PoolWatch.Url

def hexDigit (n : Nat) : Char := (Nat.digitChar n).toUpper

def percentByte (b : UInt8) : List Char := ['%', hexDigit (b.toNat / 16), hexDigit (b.toNat % 16)]

/-- Encodes the characters beyond ASCII, the controls, and those that are chosen. -/
def percentEncode (chosen : Char → Bool) (cs : List Char) : List Char :=
  cs.flatMap fun c =>
    if c.toNat < 0x20 || 0x7f ≤ c.toNat || chosen c then
      (String.utf8EncodeChar c).flatMap percentByte
    else [c]

def hexValue? (b : UInt8) : Option UInt8 :=
  if 0x30 ≤ b && b ≤ 0x39 then some (b - 0x30)
  else if 0x41 ≤ b && b ≤ 0x46 then some (b - 0x37)
  else if 0x61 ≤ b && b ≤ 0x66 then some (b - 0x57)
  else none

def hexPair? (high low : UInt8) : Option UInt8 :=
  match hexValue? high, hexValue? low with
  | some h, some l => some (h * 16 + l)
  | _, _ => none

/-- Decodes what is left. The bytes before it are given in reverse. A `%` without two digits stands
for itself. -/
def percentDecodeFrom (before : List UInt8) : List UInt8 → List UInt8
  | b :: high :: low :: rest =>
    if b = 0x25 then
      match hexPair? high low with
      | some d => percentDecodeFrom (d :: before) rest
      | none => percentDecodeFrom (b :: before) (high :: low :: rest)
    else percentDecodeFrom (b :: before) (high :: low :: rest)
  | rest => before.reverse ++ rest

/-- Marks without two digits stand for themselves. -/
def percentDecode (bytes : List UInt8) : List UInt8 := percentDecodeFrom [] bytes

end PoolWatch.Url
