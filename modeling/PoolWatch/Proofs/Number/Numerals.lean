import PoolWatch.Number.Extended

/-!
# What is read as a number

Whole numbers are digits behind an optional sign. Real numbers may have a point and a power of ten,
and there are words for those that are not finite.
-/

namespace PoolWatch

/-! ## Spellings -/

def IsSign (cs : List Char) : Prop := cs = [] ∨ cs = ['+'] ∨ cs = ['-']

def signed (sign : List Char) (n : Nat) : Int := if sign = ['-'] then -n else n

/-- Digits behind an optional sign, with their number. -/
def IsWhole (cs : List Char) (n : Int) : Prop :=
  ∃ sign digits, IsSign sign ∧ Integer.isDecimal digits = true ∧ cs = sign ++ digits ∧
    n = signed sign (Integer.ofDigits digits)

/-- A power of ten, or none. -/
def IsPower (cs : List Char) : Prop :=
  cs = [] ∨ ∃ mark exponent n, (mark = 'e' ∨ mark = 'E') ∧ IsWhole exponent n ∧
    cs = mark :: exponent

def AllDigits (cs : List Char) : Prop := ∀ c ∈ cs, c.isDigit = true

/-- Digits with at most one point among them, and perhaps a power of ten behind. -/
inductive IsNumeral : List Char → Prop
  | plain {digits power : List Char} : AllDigits digits → digits ≠ [] → IsPower power →
    IsNumeral (digits ++ power)
  | pointed {whole fraction power : List Char} : AllDigits whole → AllDigits fraction →
    whole ++ fraction ≠ [] → IsPower power → IsNumeral (whole ++ '.' :: (fraction ++ power))

def lowered (cs : List Char) : List Char := cs.map Char.toLower

/-- A numeral, or a word for what is no finite number. -/
def IsUnsigned (cs : List Char) : Prop :=
  IsNumeral cs ∨ lowered cs ∈ ["inf".toList, "infinity".toList, "nan".toList]

def LooksReal (cs : List Char) : Prop :=
  ∃ sign rest, IsSign sign ∧ IsUnsigned rest ∧ cs = sign ++ rest

theorem Integer.isDecimal_iff (cs : List Char) :
    Integer.isDecimal cs = true ↔ cs ≠ [] ∧ AllDigits cs := by
  simp [Integer.isDecimal, AllDigits]

theorem Integer.ofChars?_eq_some (cs : List Char) (n : Int) :
    Integer.ofChars? cs = some n ↔ IsWhole cs n := by
  constructor
  · intro h
    unfold Integer.ofChars? at h
    split at h <;> obtain ⟨hdigits, hn⟩ := Option.ite_none_right_eq_some.mp h
    · exact ⟨['-'], _, .inr (.inr rfl), hdigits, rfl, (Option.some.inj hn).symm⟩
    · exact ⟨['+'], _, .inr (.inl rfl), hdigits, rfl, (Option.some.inj hn).symm⟩
    · exact ⟨[], _, .inl rfl, hdigits, rfl, (Option.some.inj hn).symm⟩
  · rintro ⟨sign, digits, hsign, hdigits, rfl, rfl⟩
    rcases hsign with rfl | rfl | rfl
    · change Integer.ofChars? digits = _
      unfold Integer.ofChars?
      split
      · simp [Integer.isDecimal] at hdigits
      · simp [Integer.isDecimal] at hdigits
      · exact if_pos hdigits
    · exact if_pos hdigits
    · exact if_pos hdigits

theorem Integer.fitsInt64_toInt (n : Int64) : Integer.fitsInt64 n.toInt = true := by
  have hlow := n.le_toInt
  have hhigh := n.toInt_lt
  simp only [Integer.fitsInt64, Bool.and_eq_true, decide_eq_true_eq]
  omega

theorem Integer.int64OfChars?_eq_some (cs : List Char) (n : Int64) :
    Integer.int64OfChars? cs = some n ↔ IsWhole cs n.toInt := by
  unfold Integer.int64OfChars?
  constructor
  · intro h
    split at h
    · rename_i m hm
      obtain ⟨hfits, hn⟩ := Option.ite_none_right_eq_some.mp h
      have hrange : -(2 ^ 63) ≤ m ∧ m < 2 ^ 63 := by simpa [Integer.fitsInt64] using hfits
      rw [← Option.some.inj hn, Int64.toInt_ofInt_of_le hrange.1 hrange.2]
      exact (Integer.ofChars?_eq_some cs m).mp hm
    · simp at h
  · intro h
    rw [(Integer.ofChars?_eq_some cs n.toInt).mpr h]
    simp only [Integer.fitsInt64_toInt, if_true, Int64.ofInt_toInt]

/-! ## Numerals -/

theorem IsPower.head {c : Char} {cs : List Char} (h : IsPower (c :: cs)) : c = 'e' ∨ c = 'E' := by
  rcases h with h | ⟨mark, exponent, n, hmark, -, h⟩
  · simp at h
  · obtain ⟨rfl, -⟩ := List.cons.inj h
    exact hmark

theorem IsPower.splits {power : List Char} (h : IsPower power) :
    power.takeWhile Char.isDigit = [] ∧ power.dropWhile Char.isDigit = power ∧
      ∀ cs, power ≠ '.' :: cs := by
  cases power with
  | nil => simp
  | cons c cs =>
    have hdigit : c.isDigit = false := by rcases h.head with rfl | rfl <;> rfl
    refine ⟨by simp [hdigit], by simp [hdigit], ?_⟩
    rintro _ heq
    obtain ⟨rfl, -⟩ := List.cons.inj heq
    exact absurd h.head (by decide)

namespace Binary64.Extended

theorem exponent?_isSome (cs : List Char) : (exponent? cs).isSome = true ↔ IsPower cs := by
  unfold exponent? IsPower
  cases cs with
  | nil => simp
  | cons c cs =>
    simp only [reduceCtorEq, false_or, List.cons.injEq]
    split
    · rename_i hmark
      rw [Option.isSome_iff_exists]
      simp only [Integer.ofChars?_eq_some]
      constructor
      · rintro ⟨n, hn⟩
        exact ⟨c, cs, n, hmark, hn, rfl, rfl⟩
      · rintro ⟨_, _, n, -, hn, rfl, rfl⟩
        exact ⟨n, hn⟩
    · rename_i hmark
      simp only [Option.isSome_none, Bool.false_eq_true, false_iff]
      rintro ⟨_, _, n, hc, -, rfl, -⟩
      exact hmark hc

/-- What is behind the first digits: the digits behind a point, and the rest. -/
def fractionOf : List Char → List Char × List Char
  | '.' :: rest => (rest.takeWhile Char.isDigit, rest.dropWhile Char.isDigit)
  | rest => ([], rest)

theorem ofNumeral?_isSome_iff (cs : List Char) : (ofNumeral? cs).isSome = true ↔
    IsPower (fractionOf (cs.dropWhile Char.isDigit)).2 ∧
      cs.takeWhile Char.isDigit ++ (fractionOf (cs.dropWhile Char.isDigit)).1 ≠ [] := by
  rw [← exponent?_isSome]
  fun_cases ofNumeral? cs with
  | case1 rest fraction power hcut hpower =>
    have hfraction : fractionOf (cs.dropWhile Char.isDigit) = (fraction, power) := hcut
    simp [hfraction, hpower]
  | case2 whole rest fraction power hcut e hpower hempty =>
    have hfraction : fractionOf (cs.dropWhile Char.isDigit) = (fraction, power) := hcut
    have hdigits : whole ++ fraction = [] := by simpa using hempty
    rw [hfraction]
    exact ⟨fun h => by simp at h, fun h => absurd hdigits h.2⟩
  | case3 whole rest fraction power hcut e hpower hsome x hx =>
    have hfraction : fractionOf (cs.dropWhile Char.isDigit) = (fraction, power) := hcut
    have hdigits : whole ++ fraction ≠ [] := by simpa using hsome
    rw [hfraction, hpower]
    exact ⟨fun _ => ⟨rfl, hdigits⟩, fun _ => rfl⟩
  | case4 whole rest fraction power hcut e hpower hsome hx =>
    have hfraction : fractionOf (cs.dropWhile Char.isDigit) = (fraction, power) := hcut
    have hdigits : whole ++ fraction ≠ [] := by simpa using hsome
    rw [hfraction, hpower]
    exact ⟨fun _ => ⟨rfl, hdigits⟩, fun _ => rfl⟩

theorem ofNumeral?_isSome (cs : List Char) : (ofNumeral? cs).isSome = true ↔ IsNumeral cs := by
  rw [ofNumeral?_isSome_iff]
  constructor
  · have hsplit := List.takeWhile_append_dropWhile (p := Char.isDigit) (l := cs)
    have hwhole : AllDigits (cs.takeWhile Char.isDigit) := List.all_eq_true.mp List.all_takeWhile
    rintro ⟨hpower, hdigits⟩
    generalize cs.takeWhile Char.isDigit = whole at *
    generalize cs.dropWhile Char.isDigit = rest at *
    subst hsplit
    unfold fractionOf at hpower hdigits
    split at hpower
    · rename_i tail
      rw [← List.takeWhile_append_dropWhile (p := Char.isDigit) (l := tail)]
      exact .pointed hwhole (List.all_eq_true.mp List.all_takeWhile) hdigits hpower
    · exact .plain hwhole (by simpa using hdigits) hpower
  · intro h
    cases h with
    | plain hdigits hsome hpower =>
      obtain ⟨htake, hdrop, hpoint⟩ := hpower.splits
      rw [List.takeWhile_append_of_pos hdigits, List.dropWhile_append_of_pos hdigits, htake, hdrop]
      unfold fractionOf
      split
      · exact absurd rfl (hpoint _)
      · exact ⟨hpower, by simpa using hsome⟩
    | @pointed whole fraction power hwhole hfraction hsome hpower =>
      obtain ⟨htake, hdrop, -⟩ := hpower.splits
      have hpoint : ('.' :: (fraction ++ power)).takeWhile Char.isDigit = [] := rfl
      have hbehind : ('.' :: (fraction ++ power)).dropWhile Char.isDigit =
          '.' :: (fraction ++ power) := rfl
      rw [List.takeWhile_append_of_pos hwhole, List.dropWhile_append_of_pos hwhole, hpoint, hbehind]
      simp only [fractionOf, List.append_nil, List.takeWhile_append_of_pos hfraction,
        List.dropWhile_append_of_pos hfraction, htake, hdrop]
      exact ⟨hpower, hsome⟩

theorem ofWord?_isSome (word : List Char) : (ofWord? word).isSome = true ↔
    word ∈ ["inf".toList, "infinity".toList, "nan".toList] := by
  unfold ofWord?
  simp only [List.mem_cons, List.not_mem_nil, or_false, ← or_assoc]
  split
  · rename_i h
    simp only [h, Option.isSome_some, true_or]
  · rename_i h
    rw [or_iff_right h]
    split
    · rename_i hnan
      simp only [hnan, Option.isSome_some]
    · rename_i hnan
      simp only [hnan, Option.isSome_none, Bool.false_eq_true]

theorem ofUnsigned?_isSome (cs : List Char) : (ofUnsigned? cs).isSome = true ↔ IsUnsigned cs := by
  unfold ofUnsigned? IsUnsigned lowered
  rw [← ofWord?_isSome, ← ofNumeral?_isSome]
  cases ofWord? (cs.map Char.toLower) <;> simp

end Binary64.Extended

theorem IsNumeral.head {c : Char} {cs : List Char} (h : IsNumeral (c :: cs)) :
    c.isDigit = true ∨ c = '.' := by
  generalize hcs : c :: cs = text at h
  cases h with
  | @plain digits power hdigits hsome hpower =>
    cases digits with
    | nil => exact absurd rfl hsome
    | cons d digits =>
      obtain ⟨rfl, -⟩ := List.cons.inj hcs
      exact .inl (hdigits c List.mem_cons_self)
  | @pointed whole fraction power hwhole hfraction hsome hpower =>
    cases whole with
    | nil => exact .inr (List.cons.inj hcs).1
    | cons d whole =>
      obtain ⟨rfl, -⟩ := List.cons.inj hcs
      exact .inl (hwhole c List.mem_cons_self)

theorem IsUnsigned.head {c : Char} {cs : List Char} (h : IsUnsigned (c :: cs)) :
    c ≠ '+' ∧ c ≠ '-' := by
  rcases h with h | h
  · rcases h.head with hdigit | rfl
    · exact ⟨by rintro rfl; simp at hdigit, by rintro rfl; simp at hdigit⟩
    · decide
  · have hletter : c.toLower = 'i' ∨ c.toLower = 'n' := by
      simp only [lowered, List.map_cons, List.mem_cons, List.not_mem_nil, or_false] at h
      rcases h with h | h | h
      · exact .inl (List.cons.inj h).1
      · exact .inl (List.cons.inj h).1
      · exact .inr (List.cons.inj h).1
    constructor <;> rintro rfl <;> exact absurd hletter (by decide)

theorem Binary64.Extended.ofChars?_isSome (cs : List Char) :
    (ofChars? cs).isSome = true ↔ LooksReal cs := by
  constructor
  · intro h
    unfold ofChars? at h
    split at h
    · rw [Option.isSome_map, ofUnsigned?_isSome] at h
      exact ⟨['-'], _, .inr (.inr rfl), h, rfl⟩
    · exact ⟨['+'], _, .inr (.inl rfl), (ofUnsigned?_isSome _).mp h, rfl⟩
    · exact ⟨[], _, .inl rfl, (ofUnsigned?_isSome _).mp h, rfl⟩
  · rintro ⟨sign, rest, hsign, hrest, rfl⟩
    have hsome := (ofUnsigned?_isSome rest).mpr hrest
    rcases hsign with rfl | rfl | rfl
    · change (ofChars? rest).isSome = true
      unfold ofChars?
      split
      · exact absurd rfl hrest.head.2
      · exact absurd rfl hrest.head.1
      · exact hsome
    · exact hsome
    · exact Option.isSome_map.trans hsome

theorem IsWhole.looksReal {cs : List Char} {n : Int} (h : IsWhole cs n) : LooksReal cs := by
  obtain ⟨sign, digits, hsign, hdigits, rfl, -⟩ := h
  obtain ⟨hsome, hall⟩ := (Integer.isDecimal_iff digits).mp hdigits
  refine ⟨sign, digits, hsign, .inl ?_, rfl⟩
  rw [← List.append_nil digits]
  exact .plain hall hsome (.inl rfl)

end PoolWatch
