/-!
# Punycode

A label with characters beyond ASCII is written with letters, digits and hyphens. The ASCII
characters come first. Then follows, for each other character in ascending order, how far to go from
the one before, as a number of variable length.
-/

namespace PoolWatch.Punycode

def digit (d : Nat) : Char := if d < 26 then .ofNat (97 + d) else .ofNat (48 + d - 26)

def digitValue? (c : Char) : Option Nat :=
  let n := c.toNat
  if 97 ≤ n && n ≤ 122 then some (n - 97)
  else if 65 ≤ n && n ≤ 90 then some (n - 65)
  else if 48 ≤ n && n ≤ 57 then some (n - 48 + 26)
  else none

/-- The least value of a digit at weight `k` that says that more digits follow. -/
def threshold (k bias : Nat) : Nat :=
  if k ≤ bias then 1 else if bias + 26 ≤ k then 26 else k - bias

theorem one_le_threshold (k bias : Nat) : 1 ≤ threshold k bias := by
  unfold threshold
  split
  · omega
  · split <;> omega

/-- How the bias moves with what was written. -/
def adaptFrom (delta k : Nat) : Nat :=
  if 455 < delta then adaptFrom (delta / 35) (k + 36) else k + 36 * delta / (delta + 38)
termination_by delta
decreasing_by exact Nat.div_lt_self (by omega) (by omega)

/-- The bias after a number, which makes the next one of its size short. -/
def adapt (delta count : Nat) (first : Bool) : Nat :=
  let scaled := if first then delta / 700 else delta / 2
  adaptFrom (scaled + scaled / count) 0

/-! ## Encoding -/

/-- A number in digits whose weights depend on the bias. -/
def numberFrom (bias k q : Nat) : List Char :=
  let t := threshold k bias
  if q < t then [digit q]
  else digit (t + (q - t) % (36 - t)) :: numberFrom bias (k + 36) ((q - t) / (36 - t))
termination_by q
decreasing_by
  have h := one_le_threshold k bias
  have := Nat.div_le_self (q - threshold k bias) (36 - threshold k bias)
  omega

structure EncodeState where
  out : List Char
  delta : Nat
  bias : Nat
  handled : Nat

/-- One character of the label on the round for the code point `m`. -/
def encodeChar (basic m : Nat) (s : EncodeState) (c : Char) : EncodeState :=
  if c.toNat < m then { s with delta := s.delta + 1 }
  else if c.toNat = m then
    ⟨s.out ++ numberFrom s.bias 36 s.delta, 0, adapt s.delta (s.handled + 1) (s.handled == basic),
      s.handled + 1⟩
  else s

/-- One round for each code point, in ascending order from `n` on. -/
def encodeRounds (label : List Char) (basic : Nat) : List Nat → Nat → EncodeState → EncodeState
  | [], _, s => s
  | m :: rest, n, s =>
    let s := { s with delta := s.delta + (m - n) * (s.handled + 1) }
    let s := label.foldl (encodeChar basic m) s
    encodeRounds label basic rest (m + 1) { s with delta := s.delta + 1 }

/-- Codes in order, each once. -/
def insertCode (x : Nat) : List Nat → List Nat
  | [] => [x]
  | y :: ys => if x < y then x :: y :: ys else if x = y then y :: ys else y :: insertCode x ys

def isBasic (c : Char) : Bool := c.toNat < 0x80

/-- Plain characters first, then a mark, then where the others belong. -/
def encode (label : List Char) : List Char :=
  let basic := label.filter isBasic
  let codes := ((label.filter (!isBasic ·)).map (·.toNat)).foldr insertCode []
  let start := ⟨[], 0, 72, basic.length⟩
  let final := encodeRounds label basic.length codes 0x80 start
  basic ++ (if basic.isEmpty then [] else ['-']) ++ final.out

/-! ## Decoding -/

/-- Reads a number: its value and the text behind it. -/
def readNumber? (bias k weight value : Nat) : List Char → Option (Nat × List Char)
  | [] => none
  | c :: cs =>
    match digitValue? c with
    | none => none
    | some d =>
      let t := threshold k bias
      let value := value + d * weight
      if d < t then some (value, cs) else readNumber? bias (k + 36) (weight * (36 - t)) value cs

/-- Puts in one character for each number. `fuel` is the length of the text. -/
def decodeNumbers? : Nat → (n i bias : Nat) → (out : List Char) → List Char → Option (List Char)
  | 0, _, _, _, out, _ => some out
  | _, _, _, _, out, [] => some out
  | fuel + 1, n, i, bias, out, cs =>
    match readNumber? bias 36 1 0 cs with
    | none => none
    | some (delta, rest) =>
      let count := out.length + 1
      let place := i + delta
      let code := n + place / count
      if h : code.isValidChar then
        let at' := place % count
        let out' := out.take at' ++ .ofNatAux code h :: out.drop at'
        decodeNumbers? fuel code (at' + 1) (adapt delta count (out.all isBasic)) out' rest
      else none

def decode? (text : List Char) : Option (List Char) :=
  let tail := (text.reverse.takeWhile (· != '-')).reverse
  let basic := (text.take (text.length - tail.length)).dropLast
  if basic.all isBasic then decodeNumbers? tail.length 0x80 0 72 basic tail else none

end PoolWatch.Punycode
