import Mathlib.Tactic.IntervalCases
import PoolWatch.Text.Utf8

/-!
# Reading UTF-8 back

The bytes of a text read as that text, whatever was read before and whatever comes behind. One
lemma for each kind of first byte, then one for each number of bytes.
-/

namespace PoolWatch.Text

/-! ## One byte -/

theorem toNat_ofNat_byte {n : Nat} (h : n < 256) : (UInt8.ofNat n).toNat = n := by
  rw [UInt8.toNat_ofNat', Nat.mod_eq_of_lt h]

theorem utf8Step_plain {n : Nat} (h : n < 128) :
    utf8Step .start (.ofNat n) = ([.ofNat n], .start) := by
  have hbyte := toNat_ofNat_byte (n := n) (by omega)
  unfold utf8Step utf8Lead
  rw [if_pos (by simpa [UInt8.lt_iff_toNat_lt, hbyte] using h), hbyte]

theorem utf8Step_two {n : Nat} (hlow : 2 ≤ n) (hhigh : n < 32) :
    utf8Step .start (.ofNat (n + 192)) = ([], .inside 1 0x80 0xbf n) := by
  interval_cases n <;> rfl

/-- What the second byte of three may be. Shorter forms and surrogates are left out. -/
def low3 (n : Nat) : UInt8 := if n = 0 then 0xa0 else 0x80

def high3 (n : Nat) : UInt8 := if n = 13 then 0x9f else 0xbf

theorem utf8Step_three {n : Nat} (h : n < 16) :
    utf8Step .start (.ofNat (n + 224)) = ([], .inside 2 (low3 n) (high3 n) n) := by
  interval_cases n <;> rfl

def low4 (n : Nat) : UInt8 := if n = 0 then 0x90 else 0x80

def high4 (n : Nat) : UInt8 := if n = 4 then 0x8f else 0xbf

theorem utf8Step_four {n : Nat} (h : n < 5) :
    utf8Step .start (.ofNat (n + 240)) = ([], .inside 3 (low4 n) (high4 n) n) := by
  interval_cases n <;> rfl

theorem toNat_tail {n : Nat} (h : n < 64) : (UInt8.ofNat (n + 128)).toNat = n + 128 :=
  toNat_ofNat_byte (by omega)

theorem tail_within {low high : UInt8} {n : Nat} (h : n < 64) (hlow : low.toNat ≤ n + 128)
    (hhigh : n + 128 ≤ high.toNat) :
    (low ≤ UInt8.ofNat (n + 128) && UInt8.ofNat (n + 128) ≤ high) = true := by
  rw [Bool.and_eq_true, decide_eq_true_eq, decide_eq_true_eq, UInt8.le_iff_toNat_le,
    UInt8.le_iff_toNat_le, toNat_tail h]
  exact ⟨hlow, hhigh⟩

theorem utf8Step_more {low high : UInt8} {n : Nat} (h : n < 64) (hlow : low.toNat ≤ n + 128)
    (hhigh : n + 128 ≤ high.toNat) (left code : Nat) :
    utf8Step (.inside (left + 2) low high code) (.ofNat (n + 128)) =
      ([], .inside (left + 1) 0x80 0xbf (code * 64 + n)) := by
  simp only [utf8Step]
  rw [if_pos (tail_within h hlow hhigh), toNat_tail h, Nat.add_sub_cancel]

theorem utf8Step_last {low high : UInt8} {n : Nat} (h : n < 64) (hlow : low.toNat ≤ n + 128)
    (hhigh : n + 128 ≤ high.toNat) (code : Nat) :
    utf8Step (.inside 1 low high code) (.ofNat (n + 128)) =
      ([.ofNat (code * 64 + n)], .start) := by
  simp only [utf8Step]
  rw [if_pos (tail_within h hlow hhigh), toNat_tail h, Nat.add_sub_cancel]

/-! ## One character -/

theorem decodeUtf8From_step {s t : Utf8State} {b : UInt8} {cs : List Char}
    (h : utf8Step s b = (cs, t)) (before : List Char) (bytes : List UInt8) :
    decodeUtf8From s before (b :: bytes) = decodeUtf8From t (cs.reverse ++ before) bytes := by
  rw [decodeUtf8From, h]

theorem tails_within {n : Nat} (h : n < 64) :
    (0x80 : UInt8).toNat ≤ n + 128 ∧ n + 128 ≤ (0xbf : UInt8).toNat := by
  have hlow : (0x80 : UInt8).toNat = 128 := rfl
  have hhigh : (0xbf : UInt8).toNat = 191 := rfl
  omega

theorem decodeUtf8From_two {a b : Nat} (ha : 2 ≤ a) (ha' : a < 32) (hb : b < 64)
    (before : List Char) (rest : List UInt8) :
    decodeUtf8From .start before (.ofNat (a + 192) :: .ofNat (b + 128) :: rest) =
      decodeUtf8From .start (.ofNat (a * 64 + b) :: before) rest := by
  obtain ⟨hlow, hhigh⟩ := tails_within hb
  rw [decodeUtf8From_step (utf8Step_two ha ha'),
    decodeUtf8From_step (utf8Step_last hb hlow hhigh a)]
  rfl

theorem within_three {a b : Nat} (hb : b < 64) (hshort : a = 0 → 32 ≤ b)
    (hsurrogate : a = 13 → b < 32) :
    (low3 a).toNat ≤ b + 128 ∧ b + 128 ≤ (high3 a).toNat := by
  have hlow : (0xa0 : UInt8).toNat = 160 := rfl
  have hhigh : (0x9f : UInt8).toNat = 159 := rfl
  obtain ⟨hleast, hmost⟩ := tails_within hb
  unfold low3 high3
  constructor <;> split <;> omega

theorem within_four {a b : Nat} (hb : b < 64) (hshort : a = 0 → 16 ≤ b)
    (hlast : a = 4 → b < 16) :
    (low4 a).toNat ≤ b + 128 ∧ b + 128 ≤ (high4 a).toNat := by
  have hlow : (0x90 : UInt8).toNat = 144 := rfl
  have hhigh : (0x8f : UInt8).toNat = 143 := rfl
  obtain ⟨hleast, hmost⟩ := tails_within hb
  unfold low4 high4
  constructor <;> split <;> omega

theorem decodeUtf8From_three {a b c : Nat} (ha : a < 16) (hb : b < 64) (hc : c < 64)
    (hshort : a = 0 → 32 ≤ b) (hsurrogate : a = 13 → b < 32) (before : List Char)
    (rest : List UInt8) :
    decodeUtf8From .start before
        (.ofNat (a + 224) :: .ofNat (b + 128) :: .ofNat (c + 128) :: rest) =
      decodeUtf8From .start (.ofNat ((a * 64 + b) * 64 + c) :: before) rest := by
  obtain ⟨hlow, hhigh⟩ := within_three hb hshort hsurrogate
  obtain ⟨hlow', hhigh'⟩ := tails_within hc
  rw [decodeUtf8From_step (utf8Step_three ha),
    decodeUtf8From_step (utf8Step_more hb hlow hhigh 0 a),
    decodeUtf8From_step (utf8Step_last hc hlow' hhigh' (a * 64 + b))]
  rfl

theorem decodeUtf8From_four {a b c d : Nat} (ha : a < 5) (hb : b < 64) (hc : c < 64)
    (hd : d < 64) (hshort : a = 0 → 16 ≤ b) (hlast : a = 4 → b < 16) (before : List Char)
    (rest : List UInt8) :
    decodeUtf8From .start before
        (.ofNat (a + 240) :: .ofNat (b + 128) :: .ofNat (c + 128) :: .ofNat (d + 128) :: rest) =
      decodeUtf8From .start (.ofNat (((a * 64 + b) * 64 + c) * 64 + d) :: before) rest := by
  obtain ⟨hlow, hhigh⟩ := within_four hb hshort hlast
  obtain ⟨hlow', hhigh'⟩ := tails_within hc
  obtain ⟨hlow'', hhigh''⟩ := tails_within hd
  rw [decodeUtf8From_step (utf8Step_four ha),
    decodeUtf8From_step (utf8Step_more hb hlow hhigh 1 a),
    decodeUtf8From_step (utf8Step_more hc hlow' hhigh' 0 (a * 64 + b)),
    decodeUtf8From_step (utf8Step_last hd hlow'' hhigh'' ((a * 64 + b) * 64 + c))]
  rfl

theorem decodeUtf8From_char (c : Char) (before : List Char) (rest : List UInt8) :
    decodeUtf8From .start before (String.utf8EncodeChar c ++ rest) =
      decodeUtf8From .start (c :: before) rest := by
  have hc : Char.ofNat c.val.toNat = c := Char.ofNat_toNat c
  have hvalid : c.val.toNat < 0xd800 ∨ (0xdfff < c.val.toNat ∧ c.val.toNat < 0x110000) := c.valid
  unfold String.utf8EncodeChar
  generalize c.val.toNat = v at hc hvalid
  dsimp only
  split
  · rw [List.singleton_append, decodeUtf8From_step (utf8Step_plain (by omega)), hc]
    rfl
  split
  · have hsum : v / 64 % 32 * 64 + v % 64 = v := by omega
    rw [List.cons_append, List.singleton_append,
      decodeUtf8From_two (by omega) (by omega) (by omega), hsum, hc]
  split
  · have hsum : (v / 4096 % 16 * 64 + v / 64 % 64) * 64 + v % 64 = v := by omega
    simp only [List.cons_append, List.nil_append]
    rw [decodeUtf8From_three (by omega) (by omega) (by omega) (by omega) (by omega), hsum, hc]
  · have hsum : ((v / 262144 % 8 * 64 + v / 4096 % 64) * 64 + v / 64 % 64) * 64 + v % 64 = v := by
      omega
    simp only [List.cons_append, List.nil_append]
    rw [decodeUtf8From_four (by omega) (by omega) (by omega) (by omega) (by omega) (by omega),
      hsum, hc]

/-! ## A whole text -/

theorem decodeUtf8From_utf8Bytes (cs before : List Char) :
    decodeUtf8From .start before (utf8Bytes cs) = before.reverse ++ cs := by
  induction cs generalizing before with
  | nil => simp [utf8Bytes, decodeUtf8From]
  | cons c cs ih =>
    unfold utf8Bytes at ih ⊢
    rw [List.flatMap_cons, decodeUtf8From_char, ih]
    simp

theorem decodeUtf8_utf8Bytes (cs : List Char) : decodeUtf8 (utf8Bytes cs) = cs :=
  decodeUtf8From_utf8Bytes cs []

theorem decodeUtf8From_before (s : Utf8State) (before : List Char) (bytes : List UInt8) :
    decodeUtf8From s before bytes = before.reverse ++ decodeUtf8From s [] bytes := by
  induction bytes generalizing s before with
  | nil =>
    unfold decodeUtf8From
    split <;> simp
  | cons b bytes ih =>
    rw [decodeUtf8From, ih, decodeUtf8From, ih _ (_ ++ [])]
    simp

/-- What is UTF-8 in front is read as it is meant, whatever comes behind it. -/
theorem decodeUtf8_append (cs : List Char) (bytes : List UInt8) :
    decodeUtf8 (utf8Bytes cs ++ bytes) = cs ++ decodeUtf8 bytes := by
  induction cs with
  | nil => rfl
  | cons c cs ih =>
    calc decodeUtf8 (utf8Bytes (c :: cs) ++ bytes)
      _ = decodeUtf8From .start [] (String.utf8EncodeChar c ++ (utf8Bytes cs ++ bytes)) := by
        simp [utf8Bytes, decodeUtf8]
      _ = c :: decodeUtf8 (utf8Bytes cs ++ bytes) := by
        rw [decodeUtf8From_char, decodeUtf8From_before]
        rfl
      _ = c :: cs ++ decodeUtf8 bytes := by rw [ih, List.cons_append]

theorem decodeUtf8_stray {b : UInt8} (h : 0x80 ≤ b ∧ b < 0xc2 ∨ 0xf5 ≤ b) (bytes : List UInt8) :
    decodeUtf8 (b :: bytes) = replacement :: decodeUtf8 bytes := by
  have hlead : utf8Step .start b = ([replacement], .start) := by
    change utf8Lead b = _
    unfold utf8Lead
    simp only [UInt8.lt_iff_toNat_lt, UInt8.le_iff_toNat_le, ← UInt8.toNat_inj] at h ⊢
    have hlimit := b.toNat_lt
    simp only [UInt8.reduceToNat] at h ⊢
    rcases h with ⟨hlow, hhigh⟩ | hlow
    · rw [if_neg (by omega), if_pos hhigh]
    · repeat rw [if_neg (by omega)]
  rw [decodeUtf8, decodeUtf8From_step hlead, decodeUtf8From_before]
  rfl

end PoolWatch.Text
