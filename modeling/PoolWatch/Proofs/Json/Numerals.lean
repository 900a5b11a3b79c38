import PoolWatch.Proofs.Json.Grammar

/-!
# Numbers are read as they are written

One reader computes the number and refuses what is past the largest finite one. The other only
finds the end. Each reads exactly the numerals of the grammar.
-/

namespace PoolWatch.Json

/-! ## The number of a numeral -/

/-- The number of the digits that fit a word behind those so far, and how many of them fit. -/
def fitted : Nat → List Char → Nat × Nat
  | n, [] => (n, 0)
  | n, c :: cs =>
    if fitsWord (n * 10 + digitValue c) then
      ((fitted (n * 10 + digitValue c) cs).1, (fitted (n * 10 + digitValue c) cs).2 + 1)
    else (n, 0)

def valueFrom (n : Nat) (digits : List Char) : Nat :=
  digits.foldl (fun n c => n * 10 + digitValue c) n

/-- `digits * 10 ^ scale`, times the power. A power that no signed 32-bit word holds is past every
finite number, or zero. -/
def scaledBy? (negative : Bool) (digits : Nat) (scale : Int) (sign : Sign) (power : Digits) :
    Option Number :=
  let size := valueFrom 0 power.chars
  if size < 1 <<< 31 then
    scaled? negative digits (if sign = .minus then scale - size else scale + size)
  else if digits ≠ 0 ∧ sign ≠ .minus then none
  else some (.real (Binary64.zero.withSign negative))

/-- The same when there may be no power. -/
def powered? (negative : Bool) (digits : Nat) (scale : Int) : Option Power → Option Number
  | none => scaled? negative digits scale
  | some p => scaledBy? negative digits scale p.sign p.digits

/-- The number behind whole digits, of which `dropped` did not fit. -/
def numberFrom? (negative : Bool) (digits dropped : Nat) :
    Option Digits → Option Power → Option Number
  | some f, power =>
    powered? negative (fitted digits f.chars).1 (dropped - (fitted digits f.chars).2) power
  | none, some p => powered? negative digits dropped (some p)
  | none, none =>
    if dropped = 0 then wholeNumber negative digits else powered? negative digits dropped none

/-- The number that a numeral stands for. There is none past the largest finite one. -/
def Numeral.number? (n : Numeral) : Option Number :=
  let whole := n.whole.chars
  numberFrom? n.negative (fitted 0 whole).1 (whole.length - (fitted 0 whole).2) n.fraction n.power

/-- The number is a 64-bit word, or its floating-point value is finite. -/
def Numeral.InRange (n : Numeral) : Prop := n.number?.isSome = true

/-! ## Runs of digits -/

/-- No digit comes next. -/
def DigitsEnd (s : List Char) : Prop := ∀ c ∈ s.head?, isDigit c = false

/-- Nothing comes next that would belong to a number. -/
def NumberEnds (s : List Char) : Prop :=
  ∀ c ∈ s.head?, isDigit c = false ∧ c ≠ '.' ∧ c ≠ 'e' ∧ c ≠ 'E'

theorem NumberEnds.digitsEnd {s : List Char} (h : NumberEnds s) : DigitsEnd s :=
  fun c hc => (h c hc).1

/-- Nothing comes next that would belong to a number with this fraction and this power. -/
def TailEnds (f : Option Digits) (p : Option Power) (s : List Char) : Prop :=
  ∀ c ∈ s.head?, isDigit c = false ∧ (p = none → c ≠ 'e' ∧ c ≠ 'E' ∧ (f = none → c ≠ '.'))

/-- Nothing comes next that would belong to the numeral. -/
def Numeral.Ends (n : Numeral) (s : List Char) : Prop := TailEnds n.fraction n.power s

theorem NumberEnds.tailEnds {s : List Char} (h : NumberEnds s) (f : Option Digits)
    (p : Option Power) : TailEnds f p s :=
  fun c hc => ⟨(h c hc).1, fun _ => ⟨(h c hc).2.2.1, (h c hc).2.2.2, fun _ => (h c hc).2.1⟩⟩

section

variable {f : Option Digits} {p : Option Power} {s : List Char}

theorem TailEnds.digitsEnd (h : TailEnds f p s) : DigitsEnd s := fun c hc => (h c hc).1

theorem TailEnds.ne_mark (h : TailEnds f none s) {c : Char} {r : List Char} (hs : s = c :: r) :
    c ≠ 'e' ∧ c ≠ 'E' :=
  ⟨((h c (by simp [hs])).2 rfl).1, ((h c (by simp [hs])).2 rfl).2.1⟩

theorem TailEnds.ne_point (h : TailEnds none none s) {c : Char} {r : List Char} (hs : s = c :: r) :
    c ≠ '.' := ((h c (by simp [hs])).2 rfl).2.2 rfl

theorem tailEnds_some {q : Power} (h : DigitsEnd s) : TailEnds f (some q) s :=
  fun c hc => ⟨h c hc, fun hnone => by cases hnone⟩

theorem tailEnds_none (hdigits : DigitsEnd s) (hmark : ∀ c ∈ s.head?, c ≠ 'e' ∧ c ≠ 'E')
    (hpoint : f = none → ∀ c ∈ s.head?, c ≠ '.') : TailEnds f none s :=
  fun c hc => ⟨hdigits c hc, fun _ => ⟨(hmark c hc).1, (hmark c hc).2, fun hf => hpoint hf c hc⟩⟩

end

theorem digitsEnd_dropWhile (s : List Char) : DigitsEnd (s.dropWhile isDigit) := by
  intro c hc
  have h := List.head?_dropWhile_not isDigit s
  rw [Option.mem_def.mp hc] at h
  simpa using h

theorem digit_of_mem_takeWhile {s : List Char} : ∀ c ∈ s.takeWhile isDigit, isDigit c = true :=
  List.all_eq_true.mp List.all_takeWhile

theorem takeWhile_digits {digits rest : List Char} (h : ∀ c ∈ digits, isDigit c = true)
    (hend : DigitsEnd rest) : (digits ++ rest).takeWhile isDigit = digits := by
  rw [List.takeWhile_append_of_pos h]
  cases rest with
  | nil => simp
  | cons c r => simp [hend c rfl]

theorem dropWhile_digits {digits rest : List Char} (h : ∀ c ∈ digits, isDigit c = true)
    (hend : DigitsEnd rest) : (digits ++ rest).dropWhile isDigit = rest := by
  rw [List.dropWhile_append_of_pos h]
  cases rest with
  | nil => rfl
  | cons c r => simp [hend c rfl]

theorem wholeDigits_append {digits rest : List Char} (h : ∀ c ∈ digits, isDigit c = true)
    (hend : DigitsEnd rest) (n : Nat) :
    wholeDigits n (digits ++ rest) =
      ((fitted n digits).1, digits.length - (fitted n digits).2, rest) := by
  induction digits generalizing n with
  | nil =>
    cases rest with
    | nil => rfl
    | cons c r => simp [wholeDigits, fitted, hend c rfl]
  | cons c cs ih =>
    have hc : isDigit c = true := h c List.mem_cons_self
    simp only [List.cons_append, wholeDigits, fitted, hc, if_true]
    split
    · rw [ih (fun d hd => h d (List.mem_cons_of_mem _ hd))]
      simp
    · rw [← List.cons_append, takeWhile_digits h hend, dropWhile_digits h hend]
      simp

theorem pointDigits_append {digits rest : List Char} (h : ∀ c ∈ digits, isDigit c = true)
    (hend : DigitsEnd rest) (n places : Nat) :
    pointDigits n places (digits ++ rest) =
      ((fitted n digits).1, places + (fitted n digits).2, rest) := by
  induction digits generalizing n places with
  | nil =>
    cases rest with
    | nil => rfl
    | cons c r => simp [pointDigits, fitted, hend c rfl]
  | cons c cs ih =>
    have hc : isDigit c = true := h c List.mem_cons_self
    simp only [List.cons_append, pointDigits, fitted, hc, if_true]
    split
    · rw [ih (fun d hd => h d (List.mem_cons_of_mem _ hd))]
      simp only [Prod.mk.injEq, true_and, and_true]
      omega
    · rw [← List.cons_append, dropWhile_digits h hend]
      simp

theorem le_valueFrom (n : Nat) (digits : List Char) : n ≤ valueFrom n digits := by
  induction digits generalizing n with
  | nil => exact Nat.le_refl n
  | cons c cs ih =>
    have := ih (n * 10 + digitValue c)
    simp only [valueFrom, List.foldl_cons] at this ⊢
    omega

theorem exponentDigits_append {digits rest : List Char} (h : ∀ c ∈ digits, isDigit c = true)
    (hend : DigitsEnd rest) (n : Nat) (hn : n < 1 <<< 31) :
    (valueFrom n digits < 1 <<< 31 ∧
      exponentDigits n (digits ++ rest) = .ok (valueFrom n digits, rest)) ∨
    (1 <<< 31 ≤ valueFrom n digits ∧
      ∃ r, exponentDigits n (digits ++ rest) = .error r ∧ r.dropWhile isDigit = rest) := by
  induction digits generalizing n with
  | nil =>
    refine Or.inl ⟨hn, ?_⟩
    cases rest with
    | nil => rfl
    | cons c r => simp [exponentDigits, valueFrom, hend c rfl]
  | cons c cs ih =>
    have hc : isDigit c = true := h c List.mem_cons_self
    have hcs : ∀ d ∈ cs, isDigit d = true := fun d hd => h d (List.mem_cons_of_mem _ hd)
    simp only [List.cons_append, exponentDigits, hc, if_true]
    by_cases hfit : n * 10 + digitValue c < 1 <<< 31
    · rw [if_pos hfit]
      exact ih hcs _ hfit
    · rw [if_neg hfit]
      have hle := le_valueFrom (n * 10 + digitValue c) cs
      refine Or.inr ⟨?_, _, rfl, dropWhile_digits hcs hend⟩
      simp only [valueFrom, List.foldl_cons] at hle ⊢
      omega

theorem exists_digits {c : Char} {s : List Char} (hc : isDigit c = true) :
    ∃ (f : Digits) (rest : List Char), c :: s = f.chars ++ rest ∧ DigitsEnd rest :=
  ⟨⟨(c :: s).takeWhile isDigit, digit_of_mem_takeWhile, by simp [hc]⟩, (c :: s).dropWhile isDigit,
    List.takeWhile_append_dropWhile.symm, digitsEnd_dropWhile _⟩

theorem Digits.exists_cons (f : Digits) : ∃ c cs, f.chars = c :: cs ∧ isDigit c = true ∧
    ∀ d ∈ cs, isDigit d = true := by
  obtain ⟨c, cs, h⟩ := List.exists_cons_of_ne_nil f.nonempty
  exact ⟨c, cs, h, f.digit c (by simp [h]), fun d hd => f.digit d (by simp [h, hd])⟩

theorem digitValue_lt (c : Char) (h : isDigit c = true) : digitValue c < 10 := by
  simp only [isDigit, Bool.and_eq_true, decide_eq_true_eq, Char.le_def, UInt32.le_iff_toNat_le] at h
  have h9 : ('9' : Char).val.toNat = 57 := rfl
  have hv : c.toNat = c.val.toNat := rfl
  simp only [digitValue]
  omega

theorem isDigit_ne {c d : Char} (hc : isDigit c = true) (hd : isDigit d = false) : c ≠ d := by
  rintro rfl
  simp [hc] at hd

/-! ## Powers -/

theorem checkRange_eq_ok {o : Option Number} {rest r : List Char} {v : Number} :
    checkRange rest o = .ok (v, r) ↔ o = some v ∧ r = rest := by
  cases o with
  | none => simp [checkRange, failHere]
  | some n => simp [checkRange, eq_comm]

theorem takeSign_chars (sign : Sign) {c : Char} (hc : isDigit c = true) (s : List Char) :
    takeSign (sign.chars ++ c :: s) = (decide (sign = .minus), c :: s) := by
  have hplus : c ≠ '+' := isDigit_ne hc (by decide)
  have hminus : c ≠ '-' := isDigit_ne hc (by decide)
  cases sign with
  | absent =>
    simp only [Sign.chars, List.nil_append]
    unfold takeSign
    split <;> simp_all
  | plus => rfl
  | minus => rfl

theorem takeSign_sound (s : List Char) : ∃ sign : Sign, s = sign.chars ++ (takeSign s).2 := by
  unfold takeSign
  split
  · exact ⟨.plus, rfl⟩
  · exact ⟨.minus, rfl⟩
  · exact ⟨.absent, rfl⟩

theorem readExponent_eq_ok {negative : Bool} {digits : Nat} {start : Int} {sign : Sign}
    {power : Digits} {rest r : List Char} {v : Number} (hend : DigitsEnd rest) :
    readExponent negative digits start (sign.chars ++ (power.chars ++ rest)) = .ok (v, r) ↔
      scaledBy? negative digits start sign power = some v ∧ r = rest := by
  obtain ⟨c, cs, hchars, hc, hcs⟩ := power.exists_cons
  have hvalue : valueFrom 0 power.chars = valueFrom (digitValue c) cs := by
    simp [hchars, valueFrom]
  have hsmall : digitValue c < 1 <<< 31 := Nat.lt_trans (digitValue_lt c hc) (by omega)
  simp only [scaledBy?]
  rw [hvalue, hchars, List.cons_append, readExponent, takeSign_chars sign hc]
  simp only [hc, if_true, decide_eq_true_eq]
  rcases exponentDigits_append hcs hend (digitValue c) hsmall with
    ⟨hlt, hread⟩ | ⟨hge, r', hread, hdrop⟩
  · rw [hread, if_pos hlt]
    exact checkRange_eq_ok
  · rw [hread, if_neg (Nat.not_lt.mpr hge)]
    simp only [bne_iff_ne, Bool.and_eq_true, Bool.not_eq_true', decide_eq_false_iff_not]
    split
    · simp [failHere]
    · simp [hdrop, eq_comm]

theorem readExponent_sound {negative : Bool} {digits : Nat} {start : Int} {s rest : List Char}
    {v : Number} (h : readExponent negative digits start s = .ok (v, rest)) :
    ∃ sign power, s = sign.chars ++ (power.chars ++ rest) ∧
      scaledBy? negative digits start sign power = some v ∧ DigitsEnd rest := by
  obtain ⟨sign, c, r, rfl, hc⟩ : ∃ (sign : Sign) (c : Char) (r : List Char),
      s = sign.chars ++ c :: r ∧ isDigit c = true := by
    obtain ⟨sign, hsign⟩ := takeSign_sound s
    unfold readExponent at h
    split at h
    · simp [failHere] at h
    rename_i c r hr
    split at h
    · rename_i hc
      exact ⟨sign, c, r, by rw [hsign, hr], hc⟩
    · simp [failPeek] at h
  obtain ⟨power, r', hr, hend⟩ := exists_digits hc (s := r)
  rw [hr] at h ⊢
  obtain ⟨hv, rfl⟩ := (readExponent_eq_ok hend).mp h
  exact ⟨sign, power, rfl, hv, hend⟩

/-! ## Numbers that are kept -/

theorem NumberEnds.ne {s : List Char} (h : NumberEnds s) {c : Char} {r : List Char}
    (hs : s = c :: r) : c ≠ '.' ∧ c ≠ 'e' ∧ c ≠ 'E' := (h c (by simp [hs])).2

theorem readPower_eq_ok {negative : Bool} {digits : Nat} {start : Int} {f : Option Digits}
    {p : Option Power} {rest r : List Char} {v : Number} (hend : TailEnds f p rest) :
    readPower negative digits start (Numeral.powerChars p ++ rest) = .ok (v, r) ↔
      powered? negative digits start p = some v ∧ r = rest := by
  cases p with
  | none =>
    simp only [Numeral.powerChars, List.nil_append, readPower]
    split
    · exact absurd rfl (hend.ne_mark rfl).1
    · exact absurd rfl (hend.ne_mark rfl).2
    · simp only [finishScaled, powered?]
      exact checkRange_eq_ok
  | some p =>
    simp only [Numeral.powerChars, Power.chars, List.cons_append, List.append_assoc, powered?]
    rcases p.isMark with h | h <;> rw [h, readPower] <;> exact readExponent_eq_ok hend.digitsEnd

theorem readPower_sound {negative : Bool} {digits : Nat} {start : Int} {s rest : List Char}
    {v : Number} (h : readPower negative digits start s = .ok (v, rest)) (hs : DigitsEnd s) :
    ∃ p, s = Numeral.powerChars p ++ rest ∧ powered? negative digits start p = some v ∧
      ∀ f : Digits, TailEnds (some f) p rest := by
  unfold readPower at h
  split at h
  · obtain ⟨sign, power, rfl, hv, hend⟩ := readExponent_sound h
    exact ⟨some ⟨'e', Or.inl rfl, sign, power⟩, by simp [Numeral.powerChars, Power.chars], hv,
      fun _ => tailEnds_some hend⟩
  · obtain ⟨sign, power, rfl, hv, hend⟩ := readExponent_sound h
    exact ⟨some ⟨'E', Or.inr rfl, sign, power⟩, by simp [Numeral.powerChars, Power.chars], hv,
      fun _ => tailEnds_some hend⟩
  · rename_i hsmall hlarge
    obtain ⟨hv, rfl⟩ := checkRange_eq_ok.mp h
    refine ⟨none, rfl, hv, fun f => tailEnds_none hs (fun c hc => ?_) fun hnone => by cases hnone⟩
    obtain ⟨r, rfl⟩ := List.head?_eq_some_iff.mp hc
    exact ⟨fun h => hsmall r (h ▸ rfl), fun h => hlarge r (h ▸ rfl)⟩

theorem powerChars_digitsEnd (p : Option Power) {rest : List Char} (hend : DigitsEnd rest) :
    DigitsEnd (Numeral.powerChars p ++ rest) := by
  cases p with
  | none => exact hend
  | some p =>
    intro c hc
    obtain rfl : p.mark = c := by simpa [Numeral.powerChars, Power.chars] using hc
    rcases p.isMark with h | h <;> rw [h] <;> decide

theorem readFraction_append (negative : Bool) (digits : Nat) (start : Int) (f : Digits)
    {s : List Char} (hend : DigitsEnd s) :
    readFraction negative digits start (f.chars ++ s) =
      readPower negative (fitted digits f.chars).1 (start - (fitted digits f.chars).2) s := by
  obtain ⟨c, cs, hchars, hc, -⟩ := f.exists_cons
  have hread := pointDigits_append f.digit hend digits 0
  rw [hchars] at hread ⊢
  simp only [List.cons_append, Nat.zero_add] at hread ⊢
  simp [readFraction, hc, hread]

theorem readAfterDigits_eq_ok {negative : Bool} {digits dropped : Nat} {f : Option Digits}
    {p : Option Power} {rest r : List Char} {v : Number} (hend : TailEnds f p rest) :
    readAfterDigits negative digits dropped
        (Numeral.fractionChars f ++ (Numeral.powerChars p ++ rest)) = .ok (v, r) ↔
      numberFrom? negative digits dropped f p = some v ∧ r = rest := by
  cases f with
  | some f =>
    simp only [Numeral.fractionChars, List.cons_append, readAfterDigits, numberFrom?]
    rw [readFraction_append _ _ _ _ (powerChars_digitsEnd p hend.digitsEnd)]
    exact readPower_eq_ok hend
  | none =>
    cases p with
    | some p =>
      have hread : readPower negative digits dropped (Numeral.powerChars (some p) ++ rest) =
          .ok (v, r) ↔ powered? negative digits dropped (some p) = some v ∧ r = rest :=
        readPower_eq_ok hend
      simp only [Numeral.fractionChars, Numeral.powerChars, Power.chars, List.nil_append,
        List.cons_append, numberFrom?] at hread ⊢
      rcases p.isMark with h | h <;> rw [h] at hread ⊢ <;> exact hread
    | none =>
      simp only [Numeral.fractionChars, Numeral.powerChars, List.nil_append, numberFrom?]
      unfold readAfterDigits
      split
      · exact absurd rfl (hend.ne_point rfl)
      · exact absurd rfl (hend.ne_mark rfl).1
      · exact absurd rfl (hend.ne_mark rfl).2
      · split <;> exact checkRange_eq_ok

theorem readAfterDigits_sound {negative : Bool} {digits dropped : Nat} {s rest : List Char}
    {v : Number} (h : readAfterDigits negative digits dropped s = .ok (v, rest))
    (hs : DigitsEnd s) :
    ∃ f p, s = Numeral.fractionChars f ++ (Numeral.powerChars p ++ rest) ∧
      numberFrom? negative digits dropped f p = some v ∧ TailEnds f p rest := by
  unfold readAfterDigits at h
  split at h
  · rename_i s'
    obtain ⟨f, r, rfl, hend⟩ : ∃ (f : Digits) (r : List Char), s' = f.chars ++ r ∧ DigitsEnd r := by
      unfold readFraction at h
      split at h
      · simp [failPeek] at h
      split at h
      · rename_i hc
        exact exists_digits hc
      · simp [failPeek] at h
    rw [readFraction_append _ _ _ _ hend] at h
    obtain ⟨p, rfl, hv, hends⟩ := readPower_sound h hend
    exact ⟨some f, p, rfl, hv, hends f⟩
  · obtain ⟨sign, power, rfl, hv, hend⟩ := readExponent_sound h
    exact ⟨none, some ⟨'e', Or.inl rfl, sign, power⟩,
      by simp [Numeral.fractionChars, Numeral.powerChars, Power.chars], hv, tailEnds_some hend⟩
  · obtain ⟨sign, power, rfl, hv, hend⟩ := readExponent_sound h
    exact ⟨none, some ⟨'E', Or.inr rfl, sign, power⟩,
      by simp [Numeral.fractionChars, Numeral.powerChars, Power.chars], hv, tailEnds_some hend⟩
  · rename_i hpoint hsmall hlarge
    have hends : TailEnds none none s := by
      refine tailEnds_none hs (fun c hc => ?_) fun _ c hc => ?_ <;>
        obtain ⟨r, rfl⟩ := List.head?_eq_some_iff.mp hc
      · exact ⟨fun h => hsmall r (h ▸ rfl), fun h => hlarge r (h ▸ rfl)⟩
      · exact fun h => hpoint r (h ▸ rfl)
    have hv : numberFrom? negative digits dropped none none = some v ∧ rest = s := by
      simp only [numberFrom?]
      split at h
      · rename_i hzero
        rw [if_pos hzero]
        exact checkRange_eq_ok.mp h
      · rename_i hzero
        rw [if_neg hzero]
        exact checkRange_eq_ok.mp h
    obtain ⟨hv, rfl⟩ := hv
    exact ⟨none, none, by simp [Numeral.fractionChars, Numeral.powerChars], hv, hends⟩

theorem fractionChars_digitsEnd (f : Option Digits) {s : List Char} (hend : DigitsEnd s) :
    DigitsEnd (Numeral.fractionChars f ++ s) := by
  cases f with
  | none => exact hend
  | some f =>
    intro c hc
    obtain rfl : '.' = c := by simpa [Numeral.fractionChars] using hc
    decide

theorem afterWhole_digitsEnd (f : Option Digits) (p : Option Power) {rest : List Char}
    (hend : DigitsEnd rest) :
    DigitsEnd (Numeral.fractionChars f ++ (Numeral.powerChars p ++ rest)) :=
  fractionChars_digitsEnd f (powerChars_digitsEnd p hend)

theorem readNumber_whole (negative : Bool) (whole : Digits)
    (plain : whole.chars.head? = some '0' → whole.chars = ['0']) {s : List Char}
    (hend : DigitsEnd s) :
    readNumber negative (whole.chars ++ s) =
      readAfterDigits negative (fitted 0 whole.chars).1
        (whole.chars.length - (fitted 0 whole.chars).2) s := by
  obtain ⟨c, cs, hchars, hc, -⟩ := whole.exists_cons
  have hread := wholeDigits_append whole.digit hend 0
  rw [hchars] at plain hread ⊢
  by_cases hzero : c = '0'
  · obtain rfl : cs = [] := by simpa [hzero] using plain
    subst c
    cases s with
    | nil => rfl
    | cons d r => simp [readNumber, hend d rfl, fitted, fitsWord, digitValue]
  · simp only [List.cons_append] at hread ⊢
    simp [readNumber, hzero, hc, hread]

theorem exists_whole {c : Char} {s : List Char} (hc : isDigit c = true)
    (hend : c = '0' → DigitsEnd s) :
    ∃ (whole : Digits) (r : List Char), c :: s = whole.chars ++ r ∧ DigitsEnd r ∧
      (whole.chars.head? = some '0' → whole.chars = ['0']) := by
  by_cases hzero : c = '0'
  · exact ⟨⟨[c], by simp [hc], by simp⟩, s, rfl, hend hzero, by simp [hzero]⟩
  · obtain ⟨whole, r, hr, hr'⟩ := exists_digits hc (s := s)
    obtain ⟨d, ds, hchars, -, -⟩ := whole.exists_cons
    obtain rfl : c = d := by simp_all
    exact ⟨whole, r, hr, hr', by simp [hchars, hzero]⟩

theorem readNumber_eq_ok {n : Numeral} {rest r : List Char} {v : Number}
    (hend : n.Ends rest) :
    readNumber n.negative (n.unsignedChars ++ rest) = .ok (v, r) ↔
      n.number? = some v ∧ r = rest := by
  rw [Numeral.unsignedChars, List.append_assoc, List.append_assoc,
    readNumber_whole _ _ n.plain (afterWhole_digitsEnd _ _ hend.digitsEnd)]
  exact readAfterDigits_eq_ok hend

theorem readNumber_sound {negative : Bool} {s rest : List Char} {v : Number}
    (h : readNumber negative s = .ok (v, rest)) :
    ∃ n : Numeral, n.negative = negative ∧ s = n.unsignedChars ++ rest ∧ n.number? = some v ∧
      n.Ends rest := by
  obtain ⟨whole, r, rfl, hend, plain⟩ : ∃ (whole : Digits) (r : List Char),
      s = whole.chars ++ r ∧ DigitsEnd r ∧
        (whole.chars.head? = some '0' → whole.chars = ['0']) := by
    unfold readNumber at h
    split at h
    · simp [failHere] at h
    rename_i c s'
    split at h
    · rename_i hc
      refine exists_whole (by rw [hc]; decide) fun _ => ?_
      split at h
      · rename_i d r
        split at h
        · simp [failPeek] at h
        rename_i hd
        intro e he
        obtain rfl : d = e := by simpa using he
        simpa using hd
      · simp [DigitsEnd]
    · split at h
      · rename_i hzero hc
        exact exists_whole hc fun h0 => absurd h0 hzero
      · simp [failPeek] at h
  rw [readNumber_whole _ _ plain hend] at h
  obtain ⟨f, p, rfl, hv, hends⟩ := readAfterDigits_sound h hend
  exact ⟨⟨negative, whole, plain, f, p⟩, rfl, by simp [Numeral.unsignedChars], hv, hends⟩

/-! ## Numbers that are passed over -/

theorem skipExponent_append (sign : Sign) (power : Digits) {rest : List Char}
    (hend : DigitsEnd rest) : skipExponent (sign.chars ++ (power.chars ++ rest)) = .ok rest := by
  obtain ⟨c, cs, hchars, hc, hcs⟩ := power.exists_cons
  rw [hchars, List.cons_append, skipExponent, takeSign_chars sign hc]
  simp [hc, dropWhile_digits hcs hend]

theorem skipExponent_sound {s rest : List Char} (h : skipExponent s = .ok rest) :
    ∃ (sign : Sign) (power : Digits), s = sign.chars ++ (power.chars ++ rest) := by
  obtain ⟨sign, hsign⟩ := takeSign_sound s
  unfold skipExponent at h
  split at h
  · simp [failPeek] at h
  rename_i c r hr
  split at h
  · rename_i hc
    obtain ⟨power, r', hr', hend⟩ := exists_digits hc (s := r)
    obtain rfl := Except.ok.inj h
    refine ⟨sign, power, ?_⟩
    have hdrop := dropWhile_digits power.digit hend
    rw [← hr', List.dropWhile_cons_of_pos hc] at hdrop
    rw [hsign, hr, hr', hdrop]
  · simp [failPeek] at h

theorem skipPower_append (p : Option Power) {rest : List Char} (hend : NumberEnds rest) :
    skipPower (Numeral.powerChars p ++ rest) = .ok rest := by
  cases p with
  | none =>
    simp only [Numeral.powerChars, List.nil_append, skipPower]
    split
    · exact absurd rfl (hend.ne rfl).2.1
    · exact absurd rfl (hend.ne rfl).2.2
    · rfl
  | some p =>
    simp only [Numeral.powerChars, Power.chars, List.cons_append, List.append_assoc]
    rcases p.isMark with h | h <;> rw [h, skipPower] <;>
      exact skipExponent_append _ _ hend.digitsEnd

theorem skipPower_sound {s rest : List Char} (h : skipPower s = .ok rest) :
    ∃ p, s = Numeral.powerChars p ++ rest := by
  unfold skipPower at h
  split at h
  · obtain ⟨sign, power, rfl⟩ := skipExponent_sound h
    exact ⟨some ⟨'e', Or.inl rfl, sign, power⟩, by simp [Numeral.powerChars, Power.chars]⟩
  · obtain ⟨sign, power, rfl⟩ := skipExponent_sound h
    exact ⟨some ⟨'E', Or.inr rfl, sign, power⟩, by simp [Numeral.powerChars, Power.chars]⟩
  · obtain rfl := Except.ok.inj h
    exact ⟨none, rfl⟩

theorem skipFraction_append (f : Digits) {s : List Char} (hend : DigitsEnd s) :
    skipFraction (f.chars ++ s) = skipPower s := by
  obtain ⟨c, cs, hchars, hc, hcs⟩ := f.exists_cons
  rw [hchars, List.cons_append]
  simp [skipFraction, hc, dropWhile_digits hcs hend]

theorem skipAfterDigits_append (f : Option Digits) (p : Option Power) {rest : List Char}
    (hend : NumberEnds rest) :
    skipAfterDigits (Numeral.fractionChars f ++ (Numeral.powerChars p ++ rest)) = .ok rest := by
  cases f with
  | some f =>
    simp only [Numeral.fractionChars, List.cons_append, skipAfterDigits]
    rw [skipFraction_append _ (powerChars_digitsEnd p hend.digitsEnd)]
    exact skipPower_append p hend
  | none =>
    simp only [Numeral.fractionChars, List.nil_append]
    unfold skipAfterDigits
    split
    · rename_i r hr
      cases p with
      | none => exact absurd rfl (hend.ne hr).1
      | some p =>
        have hmark : p.mark = '.' := by simp_all [Numeral.powerChars, Power.chars]
        rcases p.isMark with h | h <;> simp [h] at hmark
    · exact skipPower_append p hend

theorem skipAfterDigits_sound {s rest : List Char} (h : skipAfterDigits s = .ok rest) :
    ∃ f p, s = Numeral.fractionChars f ++ (Numeral.powerChars p ++ rest) := by
  unfold skipAfterDigits at h
  split at h
  · rename_i s'
    unfold skipFraction at h
    split at h
    · simp [failPeek] at h
    rename_i c r
    split at h
    · rename_i hc
      obtain ⟨f, r', hr', hend⟩ := exists_digits hc (s := r)
      have hdrop := dropWhile_digits f.digit hend
      rw [← hr', List.dropWhile_cons_of_pos hc] at hdrop
      obtain ⟨p, hp⟩ := skipPower_sound (hdrop ▸ h)
      exact ⟨some f, p, by rw [hr', hp]; rfl⟩
    · simp [failPeek] at h
  · obtain ⟨p, rfl⟩ := skipPower_sound h
    exact ⟨none, p, rfl⟩

theorem skipNumber_append (n : Numeral) {rest : List Char} (hend : NumberEnds rest) :
    skipNumber (n.unsignedChars ++ rest) = .ok rest := by
  have htail := afterWhole_digitsEnd n.fraction n.power hend.digitsEnd
  have hskip := skipAfterDigits_append n.fraction n.power hend
  rw [Numeral.unsignedChars, List.append_assoc, List.append_assoc]
  generalize Numeral.fractionChars n.fraction ++ (Numeral.powerChars n.power ++ rest) = s at *
  obtain ⟨c, cs, hchars, hc, hcs⟩ := n.whole.exists_cons
  have plain := n.plain
  rw [hchars] at plain ⊢
  by_cases hzero : c = '0'
  · obtain rfl : cs = [] := by simpa [hzero] using plain
    subst c
    cases s with
    | nil =>
      obtain rfl : [] = rest := by simpa [skipAfterDigits, skipPower] using hskip
      rfl
    | cons d r => simp [skipNumber, htail d rfl, hskip]
  · simp [skipNumber, hzero, hc, dropWhile_digits hcs htail, hskip]

theorem skipNumber_sound {s rest : List Char} (negative : Bool) (h : skipNumber s = .ok rest) :
    ∃ n : Numeral, n.negative = negative ∧ s = n.unsignedChars ++ rest := by
  obtain ⟨whole, r, rfl, plain, hr⟩ : ∃ (whole : Digits) (r : List Char), s = whole.chars ++ r ∧
      (whole.chars.head? = some '0' → whole.chars = ['0']) ∧ skipAfterDigits r = .ok rest := by
    unfold skipNumber at h
    split at h
    · simp [failPeek] at h
    rename_i c s'
    split at h
    · rename_i hc
      subst c
      refine ⟨⟨['0'], by simp [isDigit], by simp⟩, s', rfl, by simp, ?_⟩
      split at h
      · rename_i d r
        split at h
        · simp [failPeek] at h
        · exact h
      · simpa [skipAfterDigits, skipPower] using h
    · split at h
      · rename_i hzero hc
        obtain ⟨whole, r, hr, hend, plain⟩ :=
          exists_whole hc (s := s') fun h0 => absurd h0 hzero
        have hdrop := dropWhile_digits whole.digit hend
        rw [← hr, List.dropWhile_cons_of_pos hc] at hdrop
        exact ⟨whole, r, hr, plain, hdrop ▸ h⟩
      · simp [failPeek] at h
  obtain ⟨f, p, rfl⟩ := skipAfterDigits_sound hr
  exact ⟨⟨negative, whole, plain, f, p⟩, rfl, by simp [Numeral.unsignedChars]⟩

end PoolWatch.Json
