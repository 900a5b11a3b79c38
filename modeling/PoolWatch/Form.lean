import PoolWatch.Text.Split
import PoolWatch.Url.Percent

/-!
# Forms

A form is a list of names and values. In its written form a blank is a plus, and most other
characters are percent-encoded.
-/

namespace PoolWatch.Form

/-! ## Writing -/

/-- Letters, digits and four marks are written as they are. -/
def isPlain (b : UInt8) : Bool :=
  (0x30 ≤ b && b ≤ 0x39) || (0x41 ≤ b && b ≤ 0x5a) || (0x61 ≤ b && b ≤ 0x7a) || b = 0x2a ||
    b = 0x2d || b = 0x2e || b = 0x5f

def byteChars (b : UInt8) : List Char :=
  if isPlain b then [.ofNat b.toNat]
  else if b = 0x20 then ['+']
  else Url.percentByte b

def partChars (s : String) : List Char := (Text.utf8Bytes s.toList).flatMap byteChars

def pairChars (p : String × String) : List Char := partChars p.1 ++ '=' :: partChars p.2

def encode (pairs : List (String × String)) : String :=
  String.ofList (List.intercalate ['&'] (pairs.map pairChars))

/-! ## Reading -/

def plusToBlank (b : UInt8) : UInt8 := if b = 0x2b then 0x20 else b

/-- A name or a value. What is no UTF-8 in it is replaced. -/
def partText (bytes : List UInt8) : String :=
  String.ofList (Text.decodeUtf8 (Url.percentDecode (bytes.map plusToBlank)))

/-- Only the first equals sign parts a pair. Without one the value is empty. -/
def readPair (bytes : List UInt8) : String × String :=
  let (name, value) := Text.cut (· == 0x3d) bytes
  (partText name, partText (value.getD []))

/-- The pairs of a form, empty pieces left out. -/
def decode (bytes : List UInt8) : List (String × String) :=
  ((Text.split (· == 0x26) bytes).filter (!·.isEmpty)).map readPair

end PoolWatch.Form
