import Mathlib.Tactic.IntervalCases
import PoolWatch.Form
import PoolWatch.Proofs.Text.Utf8

/-!
# Reading forms back

A form that was written reads as the fields it was written from, whatever characters they hold. No
written field has a separator in it, and each of its bytes reads back on its own.
-/

namespace PoolWatch

/-! ## Pieces -/

namespace Text

variable {α : Type} {isSeparator : α → Bool}

theorem splitFrom_append {piece : List α} (h : ∀ c ∈ piece, isSeparator c = false)
    (begun rest : List α) :
    splitFrom isSeparator begun (piece ++ rest) =
      splitFrom isSeparator (piece.reverse ++ begun) rest := by
  induction piece generalizing begun with
  | nil => rfl
  | cons c piece ih =>
    have hc : isSeparator c = false := h c List.mem_cons_self
    have hpiece := ih (fun d hd => h d (List.mem_cons_of_mem c hd))
    rw [List.cons_append, splitFrom, if_neg (by simp [hc]), hpiece]
    simp

theorem split_last {piece : List α} (h : ∀ c ∈ piece, isSeparator c = false) :
    split isSeparator piece = [piece] := by
  have hpiece := splitFrom_append h [] []
  rw [List.append_nil] at hpiece
  simp [split, hpiece, splitFrom]

theorem split_cons {piece : List α} (h : ∀ c ∈ piece, isSeparator c = false) {mark : α}
    (hmark : isSeparator mark = true) (rest : List α) :
    split isSeparator (piece ++ mark :: rest) = piece :: split isSeparator rest := by
  unfold split
  rw [splitFrom_append h, splitFrom, if_pos hmark]
  simp

theorem split_intercalate {mark : α} (hmark : isSeparator mark = true) {pieces : List (List α)}
    (hne : pieces ≠ []) (h : ∀ piece ∈ pieces, ∀ c ∈ piece, isSeparator c = false) :
    split isSeparator (List.intercalate [mark] pieces) = pieces := by
  induction pieces with
  | nil => exact absurd rfl hne
  | cons piece pieces ih =>
    have hpiece := h piece List.mem_cons_self
    cases pieces with
    | nil => simpa [List.intercalate] using split_last hpiece
    | cons next pieces =>
      have hrest := ih (List.cons_ne_nil _ _) (fun p hp => h p (List.mem_cons_of_mem _ hp))
      rw [List.intercalate_cons_cons, List.append_assoc, List.singleton_append,
        split_cons hpiece hmark, hrest]

theorem cut_append {piece : List α} (h : ∀ c ∈ piece, isSeparator c = false) {mark : α}
    (hmark : isSeparator mark = true) (rest : List α) :
    cut isSeparator (piece ++ mark :: rest) = (piece, some rest) := by
  have hpiece : ∀ c ∈ piece, (!isSeparator c) = true := by
    intro c hc
    simp [h c hc]
  unfold cut
  rw [List.dropWhile_append_of_pos hpiece, List.takeWhile_append_of_pos hpiece]
  simp [hmark]

end Text

namespace Form

/-! ## One byte -/

/-- What a byte is written as, in bytes. -/
def written (b : UInt8) : List UInt8 := Text.utf8Bytes (byteChars b)

def hexByte (n : Nat) : UInt8 := .ofNat (Url.hexDigit n).toNat

theorem utf8Bytes_hexDigit {n : Nat} (h : n < 16) :
    String.utf8EncodeChar (Url.hexDigit n) = [hexByte n] := by
  interval_cases n <;> rfl

theorem hexValue?_hexByte {n : Nat} (h : n < 16) :
    Url.hexValue? (hexByte n) = some (.ofNat n) := by
  interval_cases n <;> rfl

theorem hexByte_ne {n : Nat} (h : n < 16) :
    hexByte n ≠ 0x26 ∧ hexByte n ≠ 0x2b ∧ hexByte n ≠ 0x3d := by
  interval_cases n <;> decide

theorem hexPair?_hexByte (b : UInt8) :
    Url.hexPair? (hexByte (b.toNat / 16)) (hexByte (b.toNat % 16)) = some b := by
  have hb : b.toNat < 256 := b.toNat_lt
  have hhigh := hexValue?_hexByte (n := b.toNat / 16) (by omega)
  have hlow := hexValue?_hexByte (n := b.toNat % 16) (by omega)
  have hsum : UInt8.ofNat (b.toNat / 16) * 16 + UInt8.ofNat (b.toNat % 16) = b := by
    apply UInt8.toNat_inj.mp
    rw [UInt8.toNat_add, UInt8.toNat_mul, UInt8.toNat_ofNat', UInt8.toNat_ofNat',
      show (16 : UInt8).toNat = 16 from rfl]
    omega
  simp only [Url.hexPair?, hhigh, hlow, hsum]

theorem plain_ne {b : UInt8} (h : isPlain b = true) :
    b ≠ 0x25 ∧ b ≠ 0x26 ∧ b ≠ 0x2b ∧ b ≠ 0x3d := by
  refine ⟨?_, ?_, ?_, ?_⟩ <;>
  · rintro rfl
    exact absurd h (by decide)

theorem plain_lt {b : UInt8} (h : isPlain b = true) : b.toNat < 128 := by
  simp only [isPlain, Bool.or_eq_true, Bool.and_eq_true, decide_eq_true_eq,
    UInt8.le_iff_toNat_le] at h
  have h39 : (0x39 : UInt8).toNat = 57 := rfl
  have h5a : (0x5a : UInt8).toNat = 90 := rfl
  have h7a : (0x7a : UInt8).toNat = 122 := rfl
  rcases h with (((((h | h) | h) | rfl) | rfl) | rfl) | rfl
  · omega
  · omega
  · omega
  all_goals decide

theorem written_plain {b : UInt8} (h : isPlain b = true) : written b = [b] := by
  have hlt := plain_lt h
  have hval : (Char.ofNat b.toNat).val.toNat = b.toNat := by
    rw [Char.ofNat, dif_pos (Or.inl (by omega))]
    rfl
  unfold written byteChars
  rw [if_pos h]
  simp [Text.utf8Bytes, String.utf8EncodeChar, hval, show b.toNat ≤ 127 by omega]

theorem written_blank : written 0x20 = [0x2b] := rfl

theorem written_percent {b : UInt8} (h : isPlain b = false) (hblank : b ≠ 0x20) :
    written b = [0x25, hexByte (b.toNat / 16), hexByte (b.toNat % 16)] := by
  have hb : b.toNat < 256 := b.toNat_lt
  unfold written byteChars
  rw [if_neg (by simp [h]), if_neg hblank]
  simp only [Url.percentByte, Text.utf8Bytes, List.flatMap_cons, List.flatMap_nil,
    utf8Bytes_hexDigit (n := b.toNat / 16) (by omega),
    utf8Bytes_hexDigit (n := b.toNat % 16) (by omega)]
  rfl

theorem written_ne (b : UInt8) : ∀ c ∈ written b, c ≠ 0x26 ∧ c ≠ 0x3d := by
  have hb : b.toNat < 256 := b.toNat_lt
  intro c hc
  cases h : isPlain b with
  | true =>
    rw [written_plain h, List.mem_singleton] at hc
    obtain ⟨-, hand, -, hequals⟩ := plain_ne h
    exact hc ▸ ⟨hand, hequals⟩
  | false =>
    by_cases hblank : b = 0x20
    · subst hblank
      rw [written_blank, List.mem_singleton] at hc
      subst hc
      decide
    · rw [written_percent h hblank] at hc
      obtain ⟨hand, -, hequals⟩ := hexByte_ne (n := b.toNat / 16) (by omega)
      obtain ⟨hand', -, hequals'⟩ := hexByte_ne (n := b.toNat % 16) (by omega)
      simp only [List.mem_cons, List.not_mem_nil, or_false] at hc
      rcases hc with rfl | rfl | rfl
      · decide
      · exact ⟨hand, hequals⟩
      · exact ⟨hand', hequals'⟩

/-! ## One field -/

theorem percentDecodeFrom_cons {b : UInt8} (h : b ≠ 0x25) (before rest : List UInt8) :
    Url.percentDecodeFrom before (b :: rest) = Url.percentDecodeFrom (b :: before) rest := by
  match rest with
  | [] => simp [Url.percentDecodeFrom]
  | [c] => simp [Url.percentDecodeFrom]
  | c :: d :: rest => rw [Url.percentDecodeFrom, if_neg h]

theorem percentDecodeFrom_written (b : UInt8) (before rest : List UInt8) :
    Url.percentDecodeFrom before ((written b).map plusToBlank ++ rest) =
      Url.percentDecodeFrom (b :: before) rest := by
  have hb : b.toNat < 256 := b.toNat_lt
  cases h : isPlain b with
  | true =>
    obtain ⟨hpercent, -, hplus, -⟩ := plain_ne h
    rw [written_plain h, List.map_singleton, plusToBlank, if_neg hplus, List.singleton_append,
      percentDecodeFrom_cons hpercent]
  | false =>
    by_cases hblank : b = 0x20
    · subst hblank
      exact percentDecodeFrom_cons (by decide) before rest
    · obtain ⟨-, hplus, -⟩ := hexByte_ne (n := b.toNat / 16) (by omega)
      obtain ⟨-, hplus', -⟩ := hexByte_ne (n := b.toNat % 16) (by omega)
      rw [written_percent h hblank]
      simp only [List.map_cons, List.map_nil, plusToBlank, if_neg hplus, if_neg hplus',
        List.cons_append, List.nil_append]
      rw [if_neg (by decide), Url.percentDecodeFrom, if_pos rfl, hexPair?_hexByte]

theorem percentDecodeFrom_all (bytes before : List UInt8) :
    Url.percentDecodeFrom before ((bytes.flatMap written).map plusToBlank) =
      before.reverse ++ bytes := by
  induction bytes generalizing before with
  | nil => simp [Url.percentDecodeFrom]
  | cons b bytes ih =>
    rw [List.flatMap_cons, List.map_append, percentDecodeFrom_written, ih]
    simp

/-- What a text is written as, in bytes. -/
def writtenPart (s : String) : List UInt8 := Text.utf8Bytes (partChars s)

theorem writtenPart_eq (s : String) :
    writtenPart s = (Text.utf8Bytes s.toList).flatMap written := by
  unfold writtenPart partChars
  rw [Text.utf8Bytes, List.flatMap_assoc]
  rfl

theorem writtenPart_ne (s : String) : ∀ c ∈ writtenPart s, c ≠ 0x26 ∧ c ≠ 0x3d := by
  intro c hc
  rw [writtenPart_eq] at hc
  obtain ⟨b, -, hb⟩ := List.mem_flatMap.mp hc
  exact written_ne b c hb

theorem partText_written (s : String) : partText (writtenPart s) = s := by
  unfold partText Url.percentDecode
  rw [writtenPart_eq, percentDecodeFrom_all, List.reverse_nil, List.nil_append,
    Text.decodeUtf8_utf8Bytes]
  simp

/-! ## The form -/

def writtenPair (p : String × String) : List UInt8 :=
  writtenPart p.1 ++ 0x3d :: writtenPart p.2

theorem writtenPair_eq (p : String × String) :
    Text.utf8Bytes (pairChars p) = writtenPair p := by
  simp only [pairChars, Text.utf8Bytes, List.flatMap_append, List.flatMap_cons, writtenPair,
    writtenPart]
  rfl

theorem readPair_written (p : String × String) : readPair (writtenPair p) = p := by
  have hname : ∀ c ∈ writtenPart p.1, (c == 0x3d) = false := by
    intro c hc
    simpa using (writtenPart_ne p.1 c hc).2
  unfold readPair writtenPair
  rw [Text.cut_append hname rfl]
  simp [partText_written]

theorem writtenPair_ne (p : String × String) : ∀ c ∈ writtenPair p, (c == 0x26) = false := by
  intro c hc
  rw [beq_eq_false_iff_ne]
  unfold writtenPair at hc
  rw [List.mem_append, List.mem_cons] at hc
  rcases hc with hname | rfl | hvalue
  · exact (writtenPart_ne p.1 c hname).1
  · decide
  · exact (writtenPart_ne p.2 c hvalue).1

theorem utf8Bytes_intercalate (pieces : List (List Char)) :
    Text.utf8Bytes (List.intercalate ['&'] pieces) =
      List.intercalate [0x26] (pieces.map Text.utf8Bytes) := by
  induction pieces with
  | nil => rfl
  | cons piece pieces ih =>
    cases pieces with
    | nil => simp [List.intercalate]
    | cons next pieces =>
      have hmark : Text.utf8Bytes ['&'] = [0x26] := rfl
      simp only [List.map_cons, List.intercalate_cons_cons] at ih ⊢
      rw [← ih, ← hmark]
      simp [Text.utf8Bytes]

/-- What is written is read back. -/
theorem decode_encode (pairs : List (String × String)) :
    decode (Text.utf8Bytes (encode pairs).toList) = pairs := by
  have hbytes : Text.utf8Bytes (encode pairs).toList =
      List.intercalate [0x26] (pairs.map writtenPair) := by
    rw [encode, String.toList_ofList, utf8Bytes_intercalate, List.map_map]
    exact congrArg _ (List.map_congr_left fun p _ => writtenPair_eq p)
  have hfull : ∀ bytes ∈ pairs.map writtenPair, (!bytes.isEmpty) = true := by
    intro bytes hmem
    obtain ⟨p, -, rfl⟩ := List.mem_map.mp hmem
    simp [writtenPair]
  have hplain : ∀ bytes ∈ pairs.map writtenPair, ∀ c ∈ bytes, (c == 0x26) = false := by
    intro bytes hmem
    obtain ⟨p, -, rfl⟩ := List.mem_map.mp hmem
    exact writtenPair_ne p
  unfold decode
  rw [hbytes]
  cases pairs with
  | nil => rfl
  | cons p pairs =>
    rw [Text.split_intercalate rfl (by simp) hplain, List.filter_eq_self.mpr hfull, List.map_map]
    simp [Function.comp_def, readPair_written]

end Form

end PoolWatch
