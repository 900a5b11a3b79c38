import PoolWatch.Proofs.Json.Grammar

/-!
# Strings are read as they are written

One reader gives the text of a string and refuses a surrogate without its partner. The other only
finds the closing quote. Each reads exactly the strings of the grammar.
-/

namespace PoolWatch.Json

/-! ## The text of a string -/

/-- The text that parts stand for, `high` being a surrogate that still waits for its partner. A
surrogate without a partner stands for nothing. -/
def partsTextFrom? : Option Nat → List Part → Option (List Char)
  | none, [] => some []
  | some _, [] => none
  | none, .bare c _ :: ps => (partsTextFrom? none ps).map (c :: ·)
  | none, .short c known :: ps => (partsTextFrom? none ps).map ((shortEscape? c).get known :: ·)
  | none, .word w :: ps =>
    if isLowSurrogate w.value then none
    else if isHighSurrogate w.value then partsTextFrom? (some w.value) ps
    else (partsTextFrom? none ps).map (Char.ofNat w.value :: ·)
  | some high, .word w :: ps =>
    if isLowSurrogate w.value then
      (partsTextFrom? none ps).map (Char.ofNat (joinSurrogates high w.value) :: ·)
    else none
  | some _, _ :: _ => none

def partsText? (parts : List Part) : Option String :=
  (partsTextFrom? none parts).map String.ofList

/-- Every surrogate escape has its partner. -/
def Paired (parts : List Part) : Prop := (partsText? parts).isSome = true

/-! ## Escapes -/

theorem length_le_utf8Bytes (cs : List Char) : cs.length ≤ (Text.utf8Bytes cs).length := by
  induction cs with
  | nil => simp [Text.utf8Bytes]
  | cons c cs ih =>
    have hc : 0 < (String.utf8EncodeChar c).length := by
      rw [String.length_utf8EncodeChar]
      exact Char.utf8Size_pos c
    simp only [Text.utf8Bytes, List.flatMap_cons, List.length_append, List.length_cons] at ih ⊢
    omega

theorem readHexWord_chars (w : HexWord) (rest : List Char) :
    readHexWord (w.chars ++ rest) = .ok (w.value, rest) := by
  have h := length_le_utf8Bytes [w.a, w.b, w.c, w.d]
  have hw : hexWord? w.a w.b w.c w.d = some w.value := by simp [HexWord.value]
  simp only [List.length_cons, List.length_nil] at h
  simp only [HexWord.chars, List.cons_append, List.nil_append, readHexWord, List.take_succ_cons,
    List.take_zero, hw]
  rw [if_neg (by omega)]

theorem readHexWord_sound {s rest : List Char} {n : Nat} (h : readHexWord s = .ok (n, rest)) :
    ∃ w : HexWord, s = w.chars ++ rest ∧ n = w.value := by
  unfold readHexWord at h
  split at h
  · simp [failHere] at h
  split at h
  · rename_i a b c d r _
    split at h
    · rename_i m hm
      simp only [Except.ok.injEq, Prod.mk.injEq] at h
      obtain ⟨rfl, rfl⟩ := h
      exact ⟨⟨a, b, c, d, by simp [hm]⟩, rfl, by simp [HexWord.value, hm]⟩
    · simp at h
  · simp at h

theorem readEscape_short (c : Char) (known : (shortEscape? c).isSome = true) (rest : List Char) :
    readEscape (c :: rest) = .ok ((shortEscape? c).get known, rest) := by
  have hu : c ≠ 'u' := by
    rintro rfl
    exact absurd known (by decide)
  obtain ⟨d, hd⟩ := Option.isSome_iff_exists.mp known
  simp [readEscape, hu, hd]

theorem readEscape_word (w : HexWord) (rest : List Char) (hlow : isLowSurrogate w.value = false)
    (hhigh : isHighSurrogate w.value = false) :
    readEscape ('u' :: (w.chars ++ rest)) = .ok (Char.ofNat w.value, rest) := by
  simp [readEscape, readUnicodeEscape, readHexWord_chars, hlow, hhigh]

theorem readEscape_pair (w v : HexWord) (rest : List Char) (hlow : isLowSurrogate w.value = false)
    (hhigh : isHighSurrogate w.value = true) (hv : isLowSurrogate v.value = true) :
    readEscape ('u' :: (w.chars ++ ((Part.word v).chars ++ rest))) =
      .ok (Char.ofNat (joinSurrogates w.value v.value), rest) := by
  simp [readEscape, readUnicodeEscape, readHexWord_chars, hlow, hhigh, Part.chars,
    readLowSurrogate, hv]

theorem readEscape_sound {s rest : List Char} {d : Char} (h : readEscape s = .ok (d, rest)) :
    ∃ ps : List Part, '\\' :: s = partsChars ps ++ rest ∧
      ∀ qs, partsTextFrom? none (ps ++ qs) = (partsTextFrom? none qs).map (d :: ·) := by
  unfold readEscape at h
  split at h
  · simp [failHere] at h
  rename_i c r
  split at h
  · subst c
    unfold readUnicodeEscape at h
    split at h
    · simp at h
    rename_i n r' hn
    obtain ⟨w, rfl, rfl⟩ := readHexWord_sound hn
    split at h
    · simp [failHere] at h
    rename_i hlow
    split at h
    · rename_i hhigh
      unfold readLowSurrogate at h
      split at h
      · rename_i s'
        split at h
        · simp at h
        rename_i m r'' hm
        obtain ⟨v, rfl, rfl⟩ := readHexWord_sound hm
        split at h
        · rename_i hv
          simp only [Except.ok.injEq, Prod.mk.injEq] at h
          obtain ⟨rfl, rfl⟩ := h
          refine ⟨[.word w, .word v], by simp [partsChars, Part.chars], fun qs => ?_⟩
          simp [partsTextFrom?, hlow, hhigh, hv]
        · simp [failHere] at h
      all_goals simp [failHere, failPeek] at h
    · rename_i hhigh
      simp only [Except.ok.injEq, Prod.mk.injEq] at h
      obtain ⟨rfl, rfl⟩ := h
      refine ⟨[.word w], by simp [partsChars, Part.chars], fun qs => ?_⟩
      simp [partsTextFrom?, hlow, hhigh]
  · split at h
    · rename_i d' hd
      simp only [Except.ok.injEq, Prod.mk.injEq] at h
      obtain ⟨rfl, rfl⟩ := h
      refine ⟨[.short c (by simp [hd])], by simp [partsChars, Part.chars], fun qs => ?_⟩
      simp [partsTextFrom?, hd]
    · simp [failPeek] at h

theorem skipEscape_part (p : Part) (s : List Char) (h : p.chars = '\\' :: s) (rest : List Char) :
    skipEscape (s ++ rest) = .ok rest := by
  cases p with
  | bare c allowed => simp_all [Part.chars]
  | short c known =>
    have hu : c ≠ 'u' := by
      rintro rfl
      exact absurd known (by decide)
    obtain rfl : [c] = s := by simpa [Part.chars] using h
    simp [skipEscape, hu, known]
  | word w =>
    obtain rfl : 'u' :: w.chars = s := by simpa [Part.chars] using h
    simp [skipEscape, readHexWord_chars]

theorem skipEscape_sound {s rest : List Char} (h : skipEscape s = .ok rest) :
    ∃ p : Part, '\\' :: s = p.chars ++ rest := by
  unfold skipEscape at h
  split at h
  · simp [failHere] at h
  rename_i c r
  split at h
  · subst c
    split at h
    · simp at h
    rename_i n r' hn
    obtain ⟨w, rfl, rfl⟩ := readHexWord_sound hn
    obtain rfl := Except.ok.inj h
    exact ⟨.word w, by simp [Part.chars]⟩
  · split at h
    · rename_i known
      obtain rfl := Except.ok.inj h
      exact ⟨.short c known, by simp [Part.chars]⟩
    · simp [failPeek] at h

/-! ## Strings that are kept -/

theorem partsChars_cons (p : Part) (ps : List Part) :
    partsChars (p :: ps) = p.chars ++ partsChars ps := List.flatMap_cons

theorem partsChars_append (ps qs : List Part) :
    partsChars (ps ++ qs) = partsChars ps ++ partsChars qs := List.flatMap_append

theorem partsText?_word_high {w : HexWord} {ps : List Part} {cs : List Char}
    (hlow : isLowSurrogate w.value = false) (hhigh : isHighSurrogate w.value = true)
    (h : partsTextFrom? none (.word w :: ps) = some cs) :
    ∃ v qs ds, ps = .word v :: qs ∧ isLowSurrogate v.value = true ∧
      partsTextFrom? none qs = some ds ∧
        cs = Char.ofNat (joinSurrogates w.value v.value) :: ds := by
  simp only [partsTextFrom?, hlow, hhigh, Bool.false_eq_true, if_false, if_true] at h
  match ps, h with
  | [], h => simp [partsTextFrom?] at h
  | .bare _ _ :: _, h => simp [partsTextFrom?] at h
  | .short _ _ :: _, h => simp [partsTextFrom?] at h
  | .word v :: qs, h =>
    simp only [partsTextFrom?] at h
    split at h
    · rename_i hv
      obtain ⟨ds, hds, rfl⟩ := Option.map_eq_some_iff.mp h
      exact ⟨v, qs, ds, rfl, hv, hds, rfl⟩
    · simp at h

theorem readStringFrom_parts (rest : List Char) : ∀ (parts : List Part) (fuel : Nat)
    (done cs : List Char), partsTextFrom? none parts = some cs →
      (partsChars parts).length < fuel →
        readStringFrom fuel done (partsChars parts ++ '"' :: rest) = .ok (done.reverse ++ cs, rest)
  -- A surrogate pair is read in one go, so the induction takes two parts at once there.
  | _, 0, _, _, _, hf => absurd hf (Nat.not_lt_zero _)
  | [], fuel + 1, done, cs, h, _ => by
    obtain rfl : [] = cs := by simpa [partsTextFrom?] using h
    simp [partsChars, readStringFrom]
  | .bare c allowed :: parts, fuel + 1, done, cs, h, hf => by
    obtain ⟨ds, hds, rfl⟩ := Option.map_eq_some_iff.mp h
    simp only [partsChars_cons, Part.chars, List.cons_append, List.nil_append,
      List.length_cons] at hf ⊢
    rw [readStringFrom, if_neg allowed.1, if_neg allowed.2.1, if_neg (by simp [allowed.2.2]),
      readStringFrom_parts rest parts fuel (c :: done) ds hds (by omega)]
    simp
  | .short c known :: parts, fuel + 1, done, cs, h, hf => by
    obtain ⟨ds, hds, rfl⟩ := Option.map_eq_some_iff.mp h
    simp only [partsChars_cons, Part.chars, List.cons_append, List.nil_append,
      List.length_cons] at hf ⊢
    simp only [readStringFrom, Char.reduceEq, if_false, if_true, readEscape_short c known]
    rw [readStringFrom_parts rest parts fuel _ ds hds (by omega)]
    simp
  | .word w :: parts, fuel + 1, done, cs, h, hf => by
    simp only [partsChars_cons, Part.chars, List.cons_append, List.append_assoc,
      List.length_cons, List.length_append] at hf ⊢
    by_cases hlow : isLowSurrogate w.value
    · simp [partsTextFrom?, hlow] at h
    simp only [Bool.not_eq_true] at hlow
    simp only [readStringFrom, Char.reduceEq, if_false, if_true]
    by_cases hhigh : isHighSurrogate w.value
    · obtain ⟨v, qs, ds, rfl, hv, hds, rfl⟩ := partsText?_word_high hlow hhigh h
      simp only [partsChars_cons, List.append_assoc, List.length_append] at hf ⊢
      rw [readEscape_pair w v _ hlow hhigh hv]
      simp only
      rw [readStringFrom_parts rest qs fuel _ ds hds (by omega)]
      simp
    · simp only [Bool.not_eq_true] at hhigh
      simp only [partsTextFrom?, hlow, hhigh, Bool.false_eq_true, if_false] at h
      obtain ⟨ds, hds, rfl⟩ := Option.map_eq_some_iff.mp h
      rw [readEscape_word w _ hlow hhigh]
      simp only
      rw [readStringFrom_parts rest parts fuel _ ds hds (by omega)]
      simp

theorem readStringFrom_sound {fuel : Nat} {done s cs rest : List Char}
    (h : readStringFrom fuel done s = .ok (cs, rest)) :
    ∃ parts ds, s = partsChars parts ++ '"' :: rest ∧ partsTextFrom? none parts = some ds ∧
      cs = done.reverse ++ ds := by
  induction fuel generalizing done s with
  | zero => simp [readStringFrom, failHere] at h
  | succ fuel ih =>
    cases s with
    | nil => simp [readStringFrom, failHere] at h
    | cons c r =>
      simp only [readStringFrom] at h
      split at h
      · rename_i hc
        simp only [Except.ok.injEq, Prod.mk.injEq] at h
        exact ⟨[], [], by simp [partsChars, hc, h.2], rfl, by simp [h.1]⟩
      rename_i hquote
      split at h
      · rename_i hslash
        split at h
        · simp at h
        rename_i d r' hd
        obtain ⟨ps, hps, htext⟩ := readEscape_sound hd
        obtain ⟨parts, ds, rfl, hds, rfl⟩ := ih h
        refine ⟨ps ++ parts, d :: ds, ?_, by rw [htext, hds]; rfl, by simp⟩
        rw [hslash, hps, partsChars_append, List.append_assoc]
      rename_i hslash
      split at h
      · simp [failPeek] at h
      rename_i hcontrol
      obtain ⟨parts, ds, rfl, hds, rfl⟩ := ih h
      refine ⟨.bare c ⟨hquote, hslash, by simpa using hcontrol⟩ :: parts, c :: ds, ?_, ?_, by simp⟩
      · simp [partsChars_cons, Part.chars]
      · simp [partsTextFrom?, hds]

theorem readString_parts {parts : List Part} {name : String} (h : partsText? parts = some name)
    (rest : List Char) : readString (partsChars parts ++ '"' :: rest) = .ok (name, rest) := by
  obtain ⟨cs, hcs, rfl⟩ := Option.map_eq_some_iff.mp h
  have hfuel : (partsChars parts).length < (partsChars parts ++ '"' :: rest).length + 1 := by
    rw [List.length_append]
    omega
  rw [readString, readStringFrom_parts rest parts _ [] cs hcs hfuel]
  simp

theorem readString_sound {s rest : List Char} {name : String}
    (h : readString s = .ok (name, rest)) :
    ∃ parts, s = partsChars parts ++ '"' :: rest ∧ partsText? parts = some name := by
  unfold readString at h
  split at h
  · simp at h
  rename_i cs r hr
  simp only [Except.ok.injEq, Prod.mk.injEq] at h
  obtain ⟨rfl, rfl⟩ := h
  obtain ⟨parts, ds, hs, hds, rfl⟩ := readStringFrom_sound hr
  exact ⟨parts, hs, by simp [partsText?, hds]⟩

/-! ## Strings that are passed over -/

theorem skipStringFrom_parts (rest : List Char) (parts : List Part) (fuel : Nat)
    (hf : (partsChars parts).length < fuel) :
    skipStringFrom fuel (partsChars parts ++ '"' :: rest) = .ok rest := by
  induction parts generalizing fuel with
  | nil =>
    obtain ⟨n, rfl⟩ : ∃ n, fuel = n + 1 := ⟨fuel - 1, by omega⟩
    simp [partsChars, skipStringFrom]
  | cons p parts ih =>
    obtain ⟨n, rfl⟩ : ∃ n, fuel = n + 1 := ⟨fuel - 1, by omega⟩
    rw [partsChars_cons, List.length_append] at hf
    rw [partsChars_cons, List.append_assoc]
    have hlen : 0 < p.chars.length := by cases p <;> simp [Part.chars]
    have htail := ih n (by omega)
    have hescape := fun s h => skipEscape_part p s h (partsChars parts ++ '"' :: rest)
    cases p with
    | bare c allowed =>
      simp only [Part.chars, List.cons_append, List.nil_append, skipStringFrom]
      rw [if_neg allowed.1, if_neg allowed.2.1, if_neg (by simp [allowed.2.2]), htail]
    | short c known =>
      have hread := hescape [c] rfl
      simp only [List.cons_append, List.nil_append] at hread
      simp [Part.chars, skipStringFrom, hread, htail]
    | word w =>
      have hread := hescape ('u' :: w.chars) rfl
      simp only [List.cons_append] at hread
      simp [Part.chars, skipStringFrom, hread, htail]

theorem skipStringFrom_sound {fuel : Nat} {s rest : List Char}
    (h : skipStringFrom fuel s = .ok rest) : ∃ parts, s = partsChars parts ++ '"' :: rest := by
  induction fuel generalizing s with
  | zero => simp [skipStringFrom, failHere] at h
  | succ fuel ih =>
    cases s with
    | nil => simp [skipStringFrom, failHere] at h
    | cons c r =>
      simp only [skipStringFrom] at h
      split at h
      · rename_i hc
        obtain rfl := Except.ok.inj h
        exact ⟨[], by simp [partsChars, hc]⟩
      rename_i hquote
      split at h
      · rename_i hslash
        split at h
        · simp at h
        rename_i r' hr
        obtain ⟨p, hp⟩ := skipEscape_sound hr
        obtain ⟨parts, rfl⟩ := ih h
        exact ⟨p :: parts, by rw [hslash, hp, partsChars_cons, List.append_assoc]⟩
      rename_i hslash
      split at h
      · simp [failHere] at h
      rename_i hcontrol
      obtain ⟨parts, rfl⟩ := ih h
      exact ⟨.bare c ⟨hquote, hslash, by simpa using hcontrol⟩ :: parts, by
        simp [partsChars_cons, Part.chars]⟩

theorem skipString_parts (parts : List Part) (rest : List Char) :
    skipString (partsChars parts ++ '"' :: rest) = .ok rest :=
  skipStringFrom_parts rest parts _ (by rw [List.length_append, List.length_cons]; omega)

theorem skipString_sound {s rest : List Char} (h : skipString s = .ok rest) :
    ∃ parts, s = partsChars parts ++ '"' :: rest := skipStringFrom_sound h

end PoolWatch.Json
