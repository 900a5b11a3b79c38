import PoolWatch.Text.Cluster
import PoolWatch.Text.Split
import PoolWatch.Url.Folding
import PoolWatch.Url.Percent
import PoolWatch.Url.Punycode

/-!
# Hosts

A host is a name or a number. Names are folded and written in ASCII. A host that ends in a number is
an address of four bytes, and one in brackets an address of eight words.
-/

namespace PoolWatch.Url

/-! ## Names -/

def namePrefix : List Char := ['x', 'n', '-', '-']

/-- Characters that stand in no name. -/
def isForbidden (c : Char) : Bool :=
  c.toNat ≤ 0x20 || c.toNat = 0x7f || "#/:<>?@[\\]^|%".toList.contains c

/-- A label beyond ASCII: every character shows, and the first is no mark. -/
def isLabel (cs : List Char) : Bool :=
  cs.all (fun c => c.toNat < 0x80 || (Text.isShown c || inMarks c) && c != '\ufffd') &&
    !(cs.head?.any inMarks)
where
  inMarks (c : Char) : Bool :=
    Text.inRanges c.toNat Text.joiningRanges || Text.inRanges c.toNat Text.spacingRanges

/-- A label in ASCII. One that is written in ASCII already must stand for a proper label. -/
def labelToAscii? (label : List Char) : Option (List Char) :=
  if label.all Punycode.isBasic then
    if namePrefix.isPrefixOf label then
      match Punycode.decode? (label.drop 4) with
      | some meant =>
        if !meant.all Punycode.isBasic && isLabel meant && fold meant = meant then some label
        else none
      | none => none
    else some label
  else if isLabel label then some (namePrefix ++ Punycode.encode label)
  else none

/-- A name with each of its labels in plain characters. -/
def nameToAscii? (name : List Char) : Option (List Char) :=
  match (Text.split (· == '.') (fold name)).mapM labelToAscii? with
  | none => none
  | some labels =>
    let ascii := List.intercalate ['.'] labels
    if ascii.isEmpty || ascii.any isForbidden then none else some ascii

/-! ## Addresses of four bytes -/

def digitOf? (radix : Nat) (c : Char) : Option Nat :=
  match Punycode.digitValue? c with
  | some d =>
    let value := if d ≥ 26 then d - 26 else d + 10
    if value < radix then some value else none
  | none => none

def numberIn? (radix : Nat) (cs : List Char) : Option Nat :=
  cs.foldl (fun n? c => match n?, digitOf? radix c with
    | some n, some d => some (n * radix + d)
    | _, _ => none) (some 0)

/-- A part of an address, in decimal, in octal after a `0`, or in hexadecimal after `0x`. -/
def addressPart? : List Char → Option Nat
  | [] => none
  | '0' :: 'x' :: cs => numberIn? 16 cs
  | '0' :: 'X' :: cs => numberIn? 16 cs
  | '0' :: c :: cs => numberIn? 8 (c :: cs)
  | cs => numberIn? 10 cs

/-- The parts of a dotted name. A dot at the end counts for nothing. -/
def dottedParts (name : List Char) : List (List Char) :=
  let parts := Text.split (· == '.') name
  if parts.length > 1 && parts.getLast? == some [] then parts.dropLast else parts

/-- A name that ends in a number has to be an address. -/
def endsInNumber (name : List Char) : Bool :=
  match (dottedParts name).getLast? with
  | none | some [] => false
  | some last => last.all Char.isDigit || (addressPart? last).isSome

/-- The address that the parts make. The last part fills the bytes that are left. -/
def addressOfParts? (before : Nat) : Nat → List Nat → Option Nat
  | _, [] => none
  | weight, [last] => if last < weight then some (before + last) else none
  | weight, p :: rest =>
    if p < 256 && 256 < weight then
      addressOfParts? (before + p * (weight / 256)) (weight / 256) rest
    else none

def address? (name : List Char) : Option (List Char) :=
  match (dottedParts name).mapM addressPart? with
  | none => none
  | some parts =>
    match addressOfParts? 0 (1 <<< 32) parts with
    | none => none
    | some n => some (List.intercalate ['.']
        ([n >>> 24, n >>> 16 % 256, n >>> 8 % 256, n % 256].map (Nat.toDigits 10 ·)))

/-! ## Addresses of eight words -/

/-- A byte without leading zeros. -/
def plainByte? (cs : List Char) : Option Nat :=
  if cs.isEmpty || !cs.all Char.isDigit || (cs.length > 1 && cs.head? == some '0') then none
  else match numberIn? 10 cs with
    | some n => if n < 256 then some n else none
    | none => none

/-- The words between colons. The last two may be written as four bytes, if that is allowed. -/
def words? (bytes : Bool) : List (List Char) → Option (List Nat)
  | [] => some []
  | w :: rest =>
    if w.contains '.' then
      match rest, (Text.split (· == '.') w).mapM plainByte? with
      | [], some [a, b, c, d] => if bytes then some [a * 256 + b, c * 256 + d] else none
      | _, _ => none
    else if w.isEmpty || w.length > 4 then none
    else match numberIn? 16 w, words? bytes rest with
      | some n, some ns => some (n :: ns)
      | _, _ => none

def wordsOf? (bytes : Bool) (cs : List Char) : Option (List Nat) :=
  if cs.isEmpty then some [] else words? bytes (Text.split (· == ':') cs)

/-- What is before the first double colon, and what is behind it. -/
def cutGap (before : List Char) : List Char → Option (List Char × List Char)
  | ':' :: ':' :: cs => some (before.reverse, cs)
  | c :: cs => cutGap (c :: before) cs
  | [] => none

/-- The eight words. A double colon stands for one word of zero or more. -/
def eightWords? (cs : List Char) : Option (List Nat) :=
  match cutGap [] cs with
  | none =>
    match wordsOf? true cs with
    | some ws => if ws.length = 8 then some ws else none
    | none => none
  | some (left, right) =>
    match wordsOf? false left, wordsOf? true right with
    | some l, some r =>
      if l.length + r.length ≤ 7 then some (l ++ List.replicate (8 - l.length - r.length) 0 ++ r)
      else none
    | _, _ => none

/-- Where the longest run of zeros begins, and its length. -/
def longestGap : Nat → List Nat → Nat × Nat
  | _, [] => (0, 0)
  | i, w :: ws =>
    let here := ((w :: ws).takeWhile (· == 0)).length
    let (j, n) := longestGap (i + 1) ws
    if n ≤ here then (i, here) else (j, n)

def wordsText (ws : List Nat) : List Char :=
  List.intercalate [':'] (ws.map (Nat.toDigits 16 ·))

/-- Eight words with the longest run of zeros left out. -/
def eightWordsText (ws : List Nat) : List Char :=
  let (start, count) := longestGap 0 ws
  if count < 2 then wordsText ws
  else wordsText (ws.take start) ++ ':' :: ':' :: wordsText (ws.drop (start + count))

/-! ## Hosts -/

def bracketed? (cs : List Char) : Option (List Char) :=
  match cs.getLast? with
  | some ']' => (eightWords? cs.dropLast).map fun ws => '[' :: (eightWordsText ws ++ [']'])
  | _ => none

/-- The host of an address that is looked up by name. -/
def host? : List Char → Option (List Char)
  | '[' :: cs => bracketed? cs
  | cs =>
    match nameToAscii? (Text.decodeUtf8 (percentDecode (Text.utf8Bytes cs))) with
    | none => none
    | some name => if endsInNumber name then address? name else some name

/-- Characters that stand in no host at all. -/
def isNeverHost (c : Char) : Bool := c == '\x00' || " #/:<>?@[\\]^|".toList.contains c

def opaqueHost? : List Char → Option (List Char)
  | '[' :: cs => bracketed? cs
  | cs => if cs.any isNeverHost then none else some (percentEncode (fun _ => false) cs)

end PoolWatch.Url
