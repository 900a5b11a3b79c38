import Mathlib.Tactic.SplitIfs
import PoolWatch.Toml.Writer

/-!
# Written strings are read

A text is read as it is from each form that it may be written in, whatever quotes, line breaks and
characters to be escaped it holds.
-/

namespace PoolWatch.Toml

/-! ## Runs -/

theorem le_longestRunFrom (c : Char) (run best : Nat) (cs : List Char) :
    max run best ≤ longestRunFrom c run best cs := by
  induction cs generalizing run best with
  | nil => exact Nat.le_refl _
  | cons d cs ih =>
    unfold longestRunFrom
    split
    · have hopen := ih (run + 1) best
      omega
    · have hclosed := ih 0 (max run best)
      omega

theorem longestRunFrom_mono (c : Char) {run run' best best' : Nat} (hrun : run ≤ run')
    (hbest : best ≤ best') (cs : List Char) :
    longestRunFrom c run best cs ≤ longestRunFrom c run' best' cs := by
  induction cs generalizing run run' best best' with
  | nil =>
    unfold longestRunFrom
    omega
  | cons d cs ih =>
    unfold longestRunFrom
    split
    · exact ih (by omega) hbest
    · exact ih (Nat.le_refl 0) (by omega)

theorem longestRun_cons (c d : Char) (cs : List Char) :
    longestRun c cs ≤ longestRun c (d :: cs) := by
  unfold longestRun
  rw [longestRunFrom]
  split
  · exact longestRunFrom_mono c (by omega) (by omega) cs
  · exact longestRunFrom_mono c (by omega) (by omega) cs

theorem longestRun_three (c : Char) (cs : List Char) : 3 ≤ longestRun c (c :: c :: c :: cs) := by
  have hrun := le_longestRunFrom c 3 0 cs
  have hthree : longestRun c (c :: c :: c :: cs) = longestRunFrom c 3 0 cs := by
    simp [longestRun, longestRunFrom]
  omega

theorem not_mem_of_longestRun {c : Char} {cs : List Char} (h : longestRun c cs = 0) : c ∉ cs := by
  induction cs with
  | nil => simp
  | cons d cs ih =>
    rw [List.mem_cons, not_or]
    constructor
    · rintro rfl
      have hrun := le_longestRunFrom c 1 0 cs
      have hone : longestRun c (c :: cs) = longestRunFrom c 1 0 cs := by
        simp [longestRun, longestRunFrom]
      omega
    · refine ih ?_
      have hle := longestRun_cons c d cs
      omega

/-! ## Forms -/

theorem needsEscapes_eq_false {cs : List Char} : needsEscapes cs = false ↔
    ∀ c ∈ cs, isControl c = true → c = '\n' := by
  simp [needsEscapes]

theorem formOf_literal {cs : List Char} (h : formOf cs = .literal) :
    (∀ c ∈ cs, isControl c = false) ∧ '\'' ∉ cs := by
  simp only [formOf] at h
  split_ifs at h with _ hliteral
  simp only [Bool.and_eq_true, Bool.not_eq_true', beq_iff_eq, List.contains_eq_mem,
    decide_eq_false_iff_not, needsEscapes_eq_false] at hliteral
  obtain ⟨⟨hfree, hsingles⟩, hmany⟩ := hliteral
  refine ⟨fun c hc => ?_, not_mem_of_longestRun hsingles⟩
  cases hcontrol : isControl c with
  | false => rfl
  | true => exact absurd (hfree c hc hcontrol ▸ hc) hmany

theorem formOf_longLiteral {cs : List Char} (h : formOf cs = .longLiteral) :
    (∀ c ∈ cs, isControl c = true → c = '\n') ∧ longestRun '\'' cs ≤ 2 := by
  simp only [formOf] at h
  split_ifs at h with _ _ _ hliteral
  simpa only [Bool.and_eq_true, Bool.not_eq_true', decide_eq_true_eq, needsEscapes_eq_false]
    using hliteral

/-! ## Escapes -/

/-- The digits of a character that has no short escape. -/
def controlDigits (n : Nat) : List Char :=
  let digits := (Nat.toDigits 16 n).map Char.toUpper
  List.replicate (4 - digits.length) '0' ++ digits

theorem controlDigits_spec : ∀ n < 128, (controlDigits n).length = 4 ∧
    Radix.char? (controlDigits n) = some (Char.ofNat n) := by
  decide

theorem readEscape_control {c : Char} (h : isControl c = true) (rest : List Char) :
    readEscape ('u' :: (controlDigits c.toNat ++ rest)) = some (c, rest) := by
  have hsmall : c.toNat < 128 := by
    simp only [isControl, Bool.or_eq_true, Bool.and_eq_true, decide_eq_true_eq, beq_iff_eq] at h
    omega
  obtain ⟨hlength, hchar⟩ := controlDigits_spec c.toNat hsmall
  rw [Char.ofNat_toNat] at hchar
  match controlDigits c.toNat, hlength, hchar with
  | [_, _, _, _], _, hchar => simp [readEscape, hchar]

theorem escapeChar_cases (long : Bool) (c : Char) :
    (escapeChar long c = [c] ∧ c ≠ '\\' ∧ c ≠ '\r' ∧
      (isControl c = false ∨ (long = true ∧ c = '\n'))) ∨
    ∃ e es, escapeChar long c = '\\' :: e :: es ∧
      ∀ rest, readEscape (e :: (es ++ rest)) = some (c, rest) ∧
        afterLineEnd? (e :: (es ++ rest)) = none := by
  unfold escapeChar
  split_ifs with hb ht hn hlong hf hr hslash hcontrol
  · exact .inr ⟨_, _, rfl, fun rest => ⟨by rw [hb]; rfl, rfl⟩⟩
  · exact .inr ⟨_, _, rfl, fun rest => ⟨by rw [ht]; rfl, rfl⟩⟩
  · subst hn
    exact .inl ⟨rfl, by decide, by decide, .inr ⟨hlong, rfl⟩⟩
  · exact .inr ⟨_, _, rfl, fun rest => ⟨by rw [hn]; rfl, rfl⟩⟩
  · exact .inr ⟨_, _, rfl, fun rest => ⟨by rw [hf]; rfl, rfl⟩⟩
  · exact .inr ⟨_, _, rfl, fun rest => ⟨by rw [hr]; rfl, rfl⟩⟩
  · exact .inr ⟨_, _, rfl, fun rest => ⟨by rw [hslash]; rfl, rfl⟩⟩
  · exact .inr ⟨_, _, rfl, fun rest => ⟨readEscape_control hcontrol rest, rfl⟩⟩
  · exact .inl ⟨rfl, hslash, hr, .inl (by simpa using hcontrol)⟩

/-! ## Escaped text -/

theorem escapeFrom_other {c : Char} (h : c ≠ '"') (long : Bool) (quotes : Nat) (cs : List Char) :
    escapeFrom long quotes (c :: cs) = escapeChar long c ++ escapeFrom long 0 cs := by
  simp [escapeFrom, h]

theorem escapeFrom_fullQuote {long : Bool} {quotes : Nat} (h : (if long then 2 else 0) ≤ quotes)
    (cs : List Char) :
    escapeFrom long quotes ('"' :: cs) = '\\' :: '"' :: escapeFrom long 0 cs := by
  simp [escapeFrom, Nat.not_lt.mpr h]

theorem escapeFrom_head {long : Bool} {c : Char} {quotes : Nat}
    (h : c = '"' → (if long then 2 else 0) ≤ quotes) (cs : List Char) :
    ∃ d more, escapeFrom long quotes (c :: cs) = d :: more ∧ d ≠ '"' := by
  by_cases hquote : c = '"'
  · subst hquote
    exact ⟨_, _, escapeFrom_fullQuote (h rfl) cs, by decide⟩
  rw [escapeFrom_other hquote]
  rcases escapeChar_cases long c with ⟨hself, -⟩ | ⟨e, es, hescaped, -⟩
  · exact ⟨c, _, by rw [hself]; rfl, hquote⟩
  · exact ⟨'\\', _, by rw [hescaped]; rfl, by decide⟩

/-! ## One line -/

theorem readBasic_plain {c : Char} (hquote : c ≠ '"') (hslash : c ≠ '\\')
    (hcontrol : isControl c = false) (fuel : Nat) (rest : List Char) :
    readBasic (fuel + 1) (c :: rest) = withChar c (readBasic fuel rest) := by
  rw [readBasic]
  · simp [hcontrol]
  · exact hquote
  · exact hslash

theorem readBasic_slash {s rest : List Char} {c : Char} (h : readEscape s = some (c, rest))
    (fuel : Nat) : readBasic (fuel + 1) ('\\' :: s) = withChar c (readBasic fuel rest) := by
  simp [readBasic, h]

theorem readBasic_escaped (cs rest : List Char) (quotes fuel : Nat) (h : cs.length < fuel) :
    readBasic fuel (escapeFrom false quotes cs ++ '"' :: rest) = some (cs, rest) := by
  induction cs generalizing quotes fuel with
  | nil =>
    obtain ⟨fuel, rfl⟩ : ∃ n, fuel = n + 1 := ⟨fuel - 1, by simp at h; omega⟩
    rfl
  | cons c cs ih =>
    rw [List.length_cons] at h
    obtain ⟨fuel, rfl⟩ : ∃ n, fuel = n + 1 := ⟨fuel - 1, by omega⟩
    have hrest := ih 0 fuel (by omega)
    by_cases hquote : c = '"'
    · subst hquote
      have hescape : readEscape ('"' :: (escapeFrom false 0 cs ++ '"' :: rest)) =
          some ('"', escapeFrom false 0 cs ++ '"' :: rest) := rfl
      simp [escapeFrom, readBasic_slash hescape, hrest, withChar]
    rw [escapeFrom_other hquote]
    rcases escapeChar_cases false c with ⟨hself, hslash, -, hcontrol⟩ | ⟨e, es, hescaped, hread⟩
    · have hplain : isControl c = false := by simpa using hcontrol
      simp [hself, readBasic_plain hquote hslash hplain, hrest, withChar]
    · have hescape := (hread (escapeFrom false 0 cs ++ '"' :: rest)).1
      simp [hescaped, readBasic_slash hescape, hrest, withChar]

theorem readLiteral_append {cs : List Char} (hplain : ∀ c ∈ cs, isControl c = false)
    (hquote : '\'' ∉ cs) (rest : List Char) :
    readLiteral (cs ++ '\'' :: rest) = some (cs, rest) := by
  induction cs with
  | nil => rfl
  | cons c cs ih =>
    rw [List.mem_cons, not_or] at hquote
    have hrest := ih (fun d hd => hplain d (List.mem_cons_of_mem c hd)) hquote.2
    have hc := hplain c List.mem_cons_self
    rw [List.cons_append, readLiteral]
    · simp [hc, hrest, withChar]
    · exact fun h => hquote.1 h.symm

/-! ## Many lines, basic -/

theorem readLongBasic_plain {c : Char} (hquote : c ≠ '"') (hslash : c ≠ '\\') (hreturn : c ≠ '\r')
    (hcontrol : isControl c = false ∨ c = '\n') (fuel : Nat) (rest : List Char) :
    readLongBasic (fuel + 1) (c :: rest) = withChar c (readLongBasic fuel rest) := by
  rw [readLongBasic]
  · rcases hcontrol with hcontrol | hbreak
    · simp [hcontrol]
    · simp [hbreak]
  all_goals simp_all

theorem readLongBasic_slash {s rest : List Char} {c : Char} (hline : afterLineEnd? s = none)
    (h : readEscape s = some (c, rest)) (fuel : Nat) :
    readLongBasic (fuel + 1) ('\\' :: s) = withChar c (readLongBasic fuel rest) := by
  simp [readLongBasic, hline, h]

theorem readLongBasic_quote {s : List Char} (h : ∀ rest, s ≠ '"' :: '"' :: rest) (fuel : Nat) :
    readLongBasic (fuel + 1) ('"' :: s) = withChar '"' (readLongBasic fuel s) := by
  rw [readLongBasic]
  · simp [isControl]
  all_goals simp_all

theorem readLongBasic_close {rest : List Char} (h : rest.head? ≠ some '"') (fuel : Nat) :
    readLongBasic (fuel + 1) ('"' :: '"' :: '"' :: rest) = some ([], rest) ∧
      readLongBasic (fuel + 1) ('"' :: '"' :: '"' :: '"' :: rest) = some (['"'], rest) ∧
        readLongBasic (fuel + 1) ('"' :: '"' :: '"' :: '"' :: '"' :: rest) =
          some (['"', '"'], rest) := by
  refine ⟨?_, ?_, rfl⟩
  · rw [readLongBasic]
    all_goals (intro rest' hrest; simp [hrest] at h)
  · rw [readLongBasic]
    all_goals (intro rest' hrest; simp [hrest] at h)

theorem escapeFrom_quote {quotes : Nat} (h : quotes < 2) (cs : List Char) :
    escapeFrom true quotes ('"' :: cs) = '"' :: escapeFrom true (quotes + 1) cs := by
  simp [escapeFrom, h]

theorem escapeFrom_quotes {quotes : Nat} (hquotes : 1 ≤ quotes) {cs : List Char} (hcs : cs ≠ [])
    (hlast : ¬ (quotes = 1 ∧ cs = ['"'])) (s rest : List Char) :
    escapeFrom true quotes cs ++ s ≠ '"' :: '"' :: rest := by
  obtain ⟨c, cs, rfl⟩ := List.exists_cons_of_ne_nil hcs
  intro hsame
  by_cases hc : c = '"' → 2 ≤ quotes
  · obtain ⟨d, more, hhead, hd⟩ :
        ∃ d more, escapeFrom true quotes (c :: cs) = d :: more ∧ d ≠ '"' := escapeFrom_head hc cs
    rw [hhead] at hsame
    exact hd (List.cons.inj hsame).1
  obtain ⟨rfl, hfew⟩ := Classical.not_imp.mp hc
  obtain rfl : quotes = 1 := by omega
  rw [escapeFrom_quote (by omega)] at hsame
  cases cs with
  | nil => exact hlast ⟨rfl, rfl⟩
  | cons d cs =>
    obtain ⟨x, more, hhead, hx⟩ : ∃ x more, escapeFrom true 2 (d :: cs) = x :: more ∧ x ≠ '"' :=
      escapeFrom_head (fun _ => Nat.le_refl 2) cs
    rw [hhead] at hsame
    exact hx (List.cons.inj (List.cons.inj hsame).2).1

theorem readLongBasic_escaped (cs : List Char) {rest : List Char} (hrest : rest.head? ≠ some '"')
    (quotes fuel : Nat) (h : cs.length < fuel) :
    readLongBasic fuel (escapeFrom true quotes cs ++ '"' :: '"' :: '"' :: rest) =
      some (cs, rest) := by
  induction cs generalizing quotes fuel with
  | nil =>
    obtain ⟨fuel, rfl⟩ : ∃ n, fuel = n + 1 := ⟨fuel - 1, by simp at h; omega⟩
    exact (readLongBasic_close hrest fuel).1
  | cons c cs ih =>
    rw [List.length_cons] at h
    obtain ⟨fuel, rfl⟩ : ∃ n, fuel = n + 1 := ⟨fuel - 1, by omega⟩
    obtain ⟨-, hone, htwo⟩ := readLongBasic_close hrest fuel
    by_cases hquote : c = '"'
    · subst hquote
      by_cases hfew : quotes < 2
      · rw [escapeFrom_quote hfew]
        by_cases hnil : cs = []
        · subst hnil
          exact hone
        by_cases hlast : quotes + 1 = 1 ∧ cs = ['"']
        · rw [hlast.1, hlast.2]
          exact htwo
        rw [List.cons_append, readLongBasic_quote (escapeFrom_quotes (by omega) hnil hlast _),
          ih (quotes + 1) fuel (by omega)]
        rfl
      · have hescape : readEscape ('"' :: (escapeFrom true 0 cs ++ '"' :: '"' :: '"' :: rest)) =
            some ('"', escapeFrom true 0 cs ++ '"' :: '"' :: '"' :: rest) := rfl
        have hfull : (if true then 2 else 0) ≤ quotes := Nat.le_of_not_lt hfew
        rw [escapeFrom_fullQuote hfull, List.cons_append, List.cons_append,
          readLongBasic_slash rfl hescape, ih 0 fuel (by omega)]
        rfl
    rw [escapeFrom_other hquote, List.append_assoc]
    rcases escapeChar_cases true c with
      ⟨hself, hslash, hreturn, hcontrol⟩ | ⟨e, es, hescaped, hread⟩
    · rw [hself, List.singleton_append,
        readLongBasic_plain hquote hslash hreturn (hcontrol.imp_right And.right),
        ih 0 fuel (by omega)]
      rfl
    · obtain ⟨hescape, hline⟩ := hread (escapeFrom true 0 cs ++ '"' :: '"' :: '"' :: rest)
      rw [hescaped, List.cons_append, List.cons_append, readLongBasic_slash hline hescape,
        ih 0 fuel (by omega)]
      rfl

/-! ## Many lines, literal -/

theorem readLongLiteral_plain {c : Char} (hquote : c ≠ '\'')
    (hcontrol : isControl c = true → c = '\n') (rest : List Char) :
    readLongLiteral (c :: rest) = withChar c (readLongLiteral rest) := by
  have hreturn : c ≠ '\r' := by
    rintro rfl
    exact absurd (hcontrol (by decide)) (by decide)
  rw [readLongLiteral]
  · cases hc : isControl c with
    | false => simp
    | true => simp [hcontrol hc]
  all_goals simp_all

theorem readLongLiteral_quote {s : List Char} (h : ∀ rest, s ≠ '\'' :: '\'' :: rest) :
    readLongLiteral ('\'' :: s) = withChar '\'' (readLongLiteral s) := by
  rw [readLongLiteral]
  · simp [isControl]
  all_goals simp_all

theorem readLongLiteral_close {rest : List Char} (h : rest.head? ≠ some '\'') :
    readLongLiteral ('\'' :: '\'' :: '\'' :: rest) = some ([], rest) ∧
      readLongLiteral ('\'' :: '\'' :: '\'' :: '\'' :: rest) = some (['\''], rest) ∧
        readLongLiteral ('\'' :: '\'' :: '\'' :: '\'' :: '\'' :: rest) =
          some (['\'', '\''], rest) := by
  refine ⟨?_, ?_, rfl⟩
  · rw [readLongLiteral]
    all_goals (intro rest' hrest; simp [hrest] at h)
  · rw [readLongLiteral]
    all_goals (intro rest' hrest; simp [hrest] at h)

theorem longestRun_quotes {cs : List Char} (hruns : longestRun '\'' ('\'' :: cs) ≤ 2)
    (hcs : cs ≠ []) (hlast : cs ≠ ['\'']) (s rest : List Char) :
    cs ++ s ≠ '\'' :: '\'' :: rest := by
  intro hsame
  match cs with
  | [] => exact hcs rfl
  | [c] =>
    obtain ⟨rfl, -⟩ := List.cons.inj hsame
    exact hlast rfl
  | c :: d :: cs =>
    obtain ⟨rfl, hmore⟩ := List.cons.inj hsame
    obtain ⟨rfl, -⟩ := List.cons.inj hmore
    have hthree := longestRun_three '\'' cs
    omega

theorem readLongLiteral_append {cs : List Char} (hplain : ∀ c ∈ cs, isControl c = true → c = '\n')
    (hruns : longestRun '\'' cs ≤ 2) {rest : List Char} (hrest : rest.head? ≠ some '\'') :
    readLongLiteral (cs ++ '\'' :: '\'' :: '\'' :: rest) = some (cs, rest) := by
  obtain ⟨hzero, hone, htwo⟩ := readLongLiteral_close hrest
  induction cs with
  | nil => exact hzero
  | cons c cs ih =>
    obtain ⟨hc, hcs⟩ := List.forall_mem_cons.mp hplain
    have hread := ih hcs (Nat.le_trans (longestRun_cons '\'' c cs) hruns)
    by_cases hquote : c = '\''
    · subst hquote
      by_cases hnil : cs = []
      · subst hnil
        exact hone
      by_cases hlast : cs = ['\'']
      · subst hlast
        exact htwo
      rw [List.cons_append, readLongLiteral_quote (longestRun_quotes hruns hnil hlast _), hread]
      rfl
    · rw [List.cons_append, readLongLiteral_plain hquote hc, hread]
      rfl

/-! ## Any form -/

theorem length_le_escapeFrom (long : Bool) (quotes : Nat) (cs : List Char) :
    cs.length ≤ (escapeFrom long quotes cs).length := by
  induction cs generalizing quotes with
  | nil => exact Nat.le_refl _
  | cons c cs ih =>
    have hzero := ih 0
    have hmore := ih (quotes + 1)
    by_cases hquote : c = '"'
    · rw [escapeFrom, if_pos hquote]
      split_ifs <;> simp only [List.length_cons] <;> omega
    · rw [escapeFrom_other hquote]
      rcases escapeChar_cases long c with ⟨hself, -⟩ | ⟨e, es, hescaped, -⟩
      · simp only [hself, List.length_cons, List.length_append, List.length_nil]
        omega
      · simp only [hescaped, List.length_cons, List.length_append]
        omega

/-- A text on many lines that begins with no line break but its own. -/
def OwnBreak (cs body : List Char) : Prop :=
  (body.head? = some '\n' → '\n' ∈ cs) ∧ body.head? ≠ some '\r'

theorem skipBreak_opening {cs body : List Char} (h : OwnBreak cs body) :
    skipBreak (opening cs ++ body) = body := by
  unfold opening skipBreak
  split
  · rfl
  · rename_i hnone
    obtain ⟨hbreak, hreturn⟩ := h
    cases body with
    | nil => rfl
    | cons c body =>
      have hc : c ≠ '\n' := by
        rintro rfl
        exact hnone (by simpa using hbreak rfl)
      have hc' : c ≠ '\r' := by simpa using hreturn
      rw [List.nil_append, afterBreak?]
      · rfl
      all_goals simp_all

theorem ownBreak_escaped (cs rest : List Char) :
    OwnBreak cs (escapeFrom true 0 cs ++ '"' :: rest) := by
  unfold OwnBreak
  cases cs with
  | nil => simp [escapeFrom]
  | cons c cs =>
    by_cases hquote : c = '"'
    · subst hquote
      simp [escapeFrom]
    rw [escapeFrom_other hquote]
    rcases escapeChar_cases true c with ⟨hself, -, hreturn, -⟩ | ⟨e, es, hescaped, -⟩
    · simpa [hself, hreturn, eq_comm] using Or.inl
    · simp [hescaped]

theorem ownBreak_plain {cs : List Char} (hplain : ∀ c ∈ cs, isControl c = true → c = '\n')
    (rest : List Char) : OwnBreak cs (cs ++ '\'' :: rest) := by
  unfold OwnBreak
  cases cs with
  | nil => simp
  | cons c cs =>
    have hreturn : c ≠ '\r' := by
      rintro rfl
      exact absurd (hplain _ List.mem_cons_self (by decide)) (by decide)
    simpa [hreturn, eq_comm] using Or.inl

theorem readString_basic (cs rest : List Char) :
    readString ('"' :: (escapeFrom false 0 cs ++ '"' :: '\n' :: rest)) =
      some (cs, '\n' :: rest) := by
  have hquotes : ∀ more, escapeFrom false 0 cs ++ '"' :: '\n' :: rest ≠ '"' :: '"' :: more := by
    intro more hsame
    cases cs with
    | nil => simp [escapeFrom] at hsame
    | cons c cs =>
      obtain ⟨d, text, hhead, hd⟩ : ∃ d text, escapeFrom false 0 (c :: cs) = d :: text ∧ d ≠ '"' :=
        escapeFrom_head (fun _ => Nat.le_refl 0) cs
      rw [hhead] at hsame
      exact hd (List.cons.inj hsame).1
  have hlength := length_le_escapeFrom false 0 cs
  rw [readString]
  · exact readBasic_escaped cs _ 0 _ (by simp only [List.length_append]; omega)
  · exact hquotes

theorem readString_literal {cs : List Char} (hplain : ∀ c ∈ cs, isControl c = false)
    (hquote : '\'' ∉ cs) (rest : List Char) :
    readString ('\'' :: (cs ++ '\'' :: '\n' :: rest)) = some (cs, '\n' :: rest) := by
  have hquotes : ∀ more, cs ++ '\'' :: '\n' :: rest ≠ '\'' :: '\'' :: more := by
    intro more hsame
    cases cs with
    | nil => simp at hsame
    | cons c cs => exact hquote (by simp [(List.cons.inj hsame).1])
  rw [readString]
  · exact readLiteral_append hplain hquote _
  · exact hquotes

theorem readString_longBasic (cs rest : List Char) :
    readString ('"' :: '"' :: '"' :: (opening cs ++ (escapeFrom true 0 cs ++
      '"' :: '"' :: '"' :: '\n' :: rest))) = some (cs, '\n' :: rest) := by
  have hskip := skipBreak_opening (ownBreak_escaped cs ('"' :: '"' :: '\n' :: rest))
  have hlength := length_le_escapeFrom true 0 cs
  rw [readString, hskip]
  exact readLongBasic_escaped cs (by simp) 0 _ (by simp only [List.length_append]; omega)

theorem readString_longLiteral {cs : List Char} (hplain : ∀ c ∈ cs, isControl c = true → c = '\n')
    (hruns : longestRun '\'' cs ≤ 2) (rest : List Char) :
    readString ('\'' :: '\'' :: '\'' :: (opening cs ++ (cs ++
      '\'' :: '\'' :: '\'' :: '\n' :: rest))) = some (cs, '\n' :: rest) := by
  have hskip := skipBreak_opening (ownBreak_plain hplain ('\'' :: '\'' :: '\n' :: rest))
  rw [readString, hskip]
  exact readLongLiteral_append hplain hruns (by simp)

/-- A written string is read as what it was, up to the end of its line. -/
theorem readString_writeString (cs rest : List Char) :
    readString (writeString cs ++ '\n' :: rest) = some (cs, '\n' :: rest) := by
  unfold writeString
  split
  · simpa using readString_basic cs rest
  · rename_i hform
    obtain ⟨hplain, hquote⟩ := formOf_literal hform
    simpa using readString_literal hplain hquote rest
  · simpa using readString_longBasic cs rest
  · rename_i hform
    obtain ⟨hplain, hruns⟩ := formOf_longLiteral hform
    simpa using readString_longLiteral hplain hruns rest

end PoolWatch.Toml
