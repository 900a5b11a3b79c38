import PoolWatch.Proofs.Text.Utf8

/-!
# The order of texts

Texts stand in the order of their characters, and so do their bytes: UTF-8 keeps the order.
-/

namespace PoolWatch.Text

theorem byte_cons_lt {a b : Nat} (ha : a < 256) (hb : b < 256) {s s' : List UInt8} :
    UInt8.ofNat a :: s < UInt8.ofNat b :: s' ↔ a < b ∨ a = b ∧ s < s' := by
  rw [List.cons_lt_cons_iff, UInt8.lt_iff_toNat_lt, ← UInt8.toNat_inj, toNat_ofNat_byte ha,
    toNat_ofNat_byte hb]

theorem four_lt {v w : Nat} (hlt : v < w) (hv : v < 1114112) (hw : w < 1114112) :
    v / 262144 % 8 < w / 262144 % 8 ∨ v / 262144 % 8 = w / 262144 % 8 ∧
      (v / 4096 % 64 < w / 4096 % 64 ∨ v / 4096 % 64 = w / 4096 % 64 ∧
        (v / 64 % 64 < w / 64 % 64 ∨ v / 64 % 64 = w / 64 % 64 ∧ v % 64 < w % 64)) := by
  have hsum : ((v / 262144 % 8 * 64 + v / 4096 % 64) * 64 + v / 64 % 64) * 64 + v % 64 = v := by
    omega
  have hsum' : ((w / 262144 % 8 * 64 + w / 4096 % 64) * 64 + w / 64 % 64) * 64 + w % 64 = w := by
    omega
  have hdigits : v / 4096 % 64 < 64 ∧ v / 64 % 64 < 64 ∧ v % 64 < 64 := by omega
  have hdigits' : w / 4096 % 64 < 64 ∧ w / 64 % 64 < 64 ∧ w % 64 < 64 := by omega
  generalize v / 262144 % 8 = a, v / 4096 % 64 = b, v / 64 % 64 = c, v % 64 = d at *
  generalize w / 262144 % 8 = a', w / 4096 % 64 = b', w / 64 % 64 = c', w % 64 = d' at *
  omega

/-- The greater character has more bytes, or the first byte that differs is the greater one. -/
theorem utf8EncodeChar_lt {c d : Char} (h : c < d) (s s' : List UInt8) :
    String.utf8EncodeChar c ++ s < String.utf8EncodeChar d ++ s' := by
  have hlt : c.val.toNat < d.val.toNat := h
  have hd : d.val.toNat < 1114112 := by
    rcases d.valid with hvalid | hvalid <;> omega
  have hfour := four_lt hlt (by omega) hd
  unfold String.utf8EncodeChar
  generalize c.val.toNat = v at *
  generalize d.val.toNat = w at *
  dsimp only
  repeat' split
  all_goals
    simp (disch := omega) only [List.cons_append, List.nil_append, byte_cons_lt]
    omega

theorem utf8EncodeChar_ne_nil (c : Char) : String.utf8EncodeChar c ≠ [] := by
  apply List.ne_nil_of_length_pos
  rw [String.length_utf8EncodeChar]
  exact Char.utf8Size_pos c

theorem utf8Bytes_lt {cs ds : List Char} (h : cs < ds) : utf8Bytes cs < utf8Bytes ds := by
  unfold utf8Bytes
  induction List.lex_lt.mpr h with
  | @nil d ds =>
    obtain ⟨b, bs, hbytes⟩ := List.exists_cons_of_ne_nil (utf8EncodeChar_ne_nil d)
    rw [List.flatMap_nil, List.flatMap_cons, hbytes]
    exact List.nil_lt_cons _ _
  | rel hchar =>
    rw [List.flatMap_cons, List.flatMap_cons]
    exact utf8EncodeChar_lt hchar _ _
  | cons hrest ih =>
    rw [List.flatMap_cons, List.flatMap_cons]
    exact List.append_left_lt (ih (List.lex_lt.mp hrest))

end PoolWatch.Text
