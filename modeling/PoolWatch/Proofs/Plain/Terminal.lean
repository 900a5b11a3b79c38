import PoolWatch.Plain.Style
import PoolWatch.Proofs.Form

/-!
# What a terminal shows

A terminal takes a style sequence for what it is and shows every other character in the style that
is in force. Painted text is shown as the text in its style, and nothing of the style is left behind
it.
-/

namespace PoolWatch.Terminal

abbrev Code := List Char

def isParameter (c : Char) : Bool := c.isDigit || c == ';'

/-- The codes of the style sequence at the beginning of a text, and the text behind it. -/
def sequence? : List Char → Option (List Code × List Char)
  | c :: '[' :: cs =>
    if c = TextStyle.escape then
      match cs.dropWhile isParameter with
      | 'm' :: rest => some (Text.split (· == ';') (cs.takeWhile isParameter), rest)
      | _ => none
    else none
  | _ => none

theorem sequence?_length {cs rest : List Char} {codes : List Code}
    (h : sequence? cs = some (codes, rest)) : rest.length < cs.length := by
  unfold sequence? at h
  split at h
  · rename_i c cs
    split at h
    · split at h
      · rename_i behind hbehind
        obtain ⟨-, rfl⟩ := Prod.mk.inj (Option.some.inj h)
        have hsuffix := (List.dropWhile_suffix (l := cs) isParameter).length_le
        rw [hbehind] at hsuffix
        simp only [List.length_cons] at hsuffix ⊢
        omega
      · simp at h
    · simp at h
  · simp at h

/-- The codes in force behind a code. A zero takes all of them back, and so does an empty code. -/
def applied (inForce : List Code) (code : Code) : List Code :=
  if code = ['0'] ∨ code = [] then [] else inForce ++ [code]

/-- The characters that are shown, each with the codes in force. -/
def shown (inForce : List Code) : List Char → List (Char × List Code)
  | [] => []
  | c :: cs =>
    match _h : sequence? (c :: cs) with
    | some (codes, rest) => shown (codes.foldl applied inForce) rest
    | none => (c, inForce) :: shown inForce cs
termination_by cs => cs.length
decreasing_by
  · exact sequence?_length _h
  · simp

/-- A text without its style sequences. -/
def unstyled (cs : List Char) : List Char := (shown [] cs).map (·.1)

/-! ## Plain text -/

theorem shown_char (inForce : List Code) {c : Char} (h : c ≠ TextStyle.escape) (cs : List Char) :
    shown inForce (c :: cs) = (c, inForce) :: shown inForce cs := by
  have hnone : sequence? (c :: cs) = none := by
    unfold sequence?
    split
    · rename_i heq
      obtain ⟨rfl, -⟩ := List.cons.inj heq
      rw [if_neg h]
    · rfl
  rw [shown]
  split
  · simp_all
  · rfl

theorem shown_text (inForce : List Code) {text : List Char} (h : TextStyle.escape ∉ text)
    (rest : List Char) :
    shown inForce (text ++ rest) = text.map (·, inForce) ++ shown inForce rest := by
  induction text with
  | nil => rfl
  | cons c text ih =>
    rw [List.mem_cons, not_or] at h
    rw [List.cons_append, shown_char _ (Ne.symm h.1), ih h.2]
    rfl

/-! ## Sequences -/

theorem intercalate_parameters {codes : List Code}
    (h : ∀ code ∈ codes, ∀ c ∈ code, c.isDigit = true) :
    ∀ c ∈ List.intercalate [';'] codes, isParameter c = true := by
  have hcode : ∀ code ∈ codes, ∀ c ∈ code, isParameter c = true := by
    intro code hcode c hc
    simp [isParameter, h code hcode c hc]
  induction codes with
  | nil => simp [List.intercalate]
  | cons code codes ih =>
    obtain ⟨hhead, htail⟩ := List.forall_mem_cons.mp hcode
    have hrest := ih (fun d hd => h d (List.mem_cons_of_mem _ hd)) htail
    cases codes with
    | nil => simpa [List.intercalate] using hhead
    | cons next codes =>
      rw [List.intercalate_cons_cons]
      simp only [List.mem_append, List.mem_singleton]
      rintro c ((hc | rfl) | hc)
      · exact hhead c hc
      · rfl
      · exact hrest c hc

theorem sequence?_codes {codes : List Code} (hne : codes ≠ [])
    (h : ∀ code ∈ codes, ∀ c ∈ code, c.isDigit = true) (rest : List Char) :
    sequence? (TextStyle.sequence codes ++ rest) = some (codes, rest) := by
  have hparameters := intercalate_parameters h
  have hplain : ∀ code ∈ codes, ∀ c ∈ code, (c == ';') = false := by
    intro code hcode c hc
    rw [beq_eq_false_iff_ne]
    rintro rfl
    exact absurd (h code hcode ';' hc) (by decide)
  have hbehind : (List.intercalate [';'] codes ++ 'm' :: rest).dropWhile isParameter =
      'm' :: rest := by
    rw [List.dropWhile_append_of_pos hparameters]
    rfl
  have hahead : (List.intercalate [';'] codes ++ 'm' :: rest).takeWhile isParameter =
      List.intercalate [';'] codes := by
    rw [List.takeWhile_append_of_pos hparameters]
    simp [isParameter]
  have hsequence : TextStyle.sequence codes ++ rest =
      TextStyle.escape :: '[' :: (List.intercalate [';'] codes ++ 'm' :: rest) := by
    simp [TextStyle.sequence]
  have hsplit : Text.split (· == ';') (List.intercalate [';'] codes) = codes :=
    Text.split_intercalate rfl hne hplain
  simp only [hsequence, sequence?, if_true, hbehind, hahead, hsplit]

theorem shown_sequence (inForce : List Code) {codes : List Code} (hne : codes ≠ [])
    (h : ∀ code ∈ codes, ∀ c ∈ code, c.isDigit = true) (rest : List Char) :
    shown inForce (TextStyle.sequence codes ++ rest) =
      shown (codes.foldl applied inForce) rest := by
  have hsequence := sequence?_codes hne h rest
  obtain ⟨c, cs, hcs⟩ : ∃ c cs, TextStyle.sequence codes ++ rest = c :: cs := ⟨_, _, rfl⟩
  rw [hcs] at hsequence ⊢
  rw [shown]
  split <;> simp_all

/-! ## Painted text -/

theorem isDigit_digit (i : Ink) : i.digit.isDigit = true := by
  cases i <;> rfl

theorem mem_codes {s : TextStyle} {code : Code} (h : code ∈ s.codes) :
    (∀ c ∈ code, c.isDigit = true) ∧ code ≠ ['0'] ∧ code ≠ [] := by
  unfold TextStyle.codes at h
  simp only [List.mem_append, List.mem_map, Option.mem_toList] at h
  rcases h with ((h | h) | ⟨i, -, rfl⟩) | ⟨i, -, rfl⟩
  · split at h <;> simp_all
  · split at h <;> simp_all
  · simp [isDigit_digit]
  · simp [isDigit_digit]

theorem foldl_applied {codes : List Code} (h : ∀ code ∈ codes, code ≠ ['0'] ∧ code ≠ [])
    (inForce : List Code) : codes.foldl applied inForce = inForce ++ codes := by
  induction codes generalizing inForce with
  | nil => simp
  | cons code codes ih =>
    obtain ⟨hcode, hcodes⟩ := List.forall_mem_cons.mp h
    rw [List.foldl_cons, ih hcodes, applied, if_neg (by simp [hcode])]
    simp

theorem renewed_plain (style : List Char) {text : List Char} (h : TextStyle.escape ∉ text) :
    TextStyle.renewed style 0 text = text := by
  induction text with
  | nil => rfl
  | cons c text ih =>
    rw [List.mem_cons, not_or] at h
    have hreset : TextStyle.reset.isPrefixOf (c :: text) = false := by
      simp [TextStyle.reset, TextStyle.sequence, List.isPrefixOf, h.1]
    rw [TextStyle.renewed, hreset, ih h.2]
    rfl

theorem paint_plain (s : TextStyle) {text : List Char} (h : TextStyle.escape ∉ text) :
    s.paint true text = s.opening ++ text ++ TextStyle.reset := by
  simp [TextStyle.paint, renewed_plain _ h]

theorem shown_paint {s : TextStyle} (hs : s.codes ≠ []) {text : List Char}
    (h : TextStyle.escape ∉ text) (rest : List Char) :
    shown [] (s.paint true text ++ rest) = text.map (·, s.codes) ++ shown [] rest := by
  have hopening := shown_sequence [] hs (fun code hcode => (mem_codes hcode).1)
    (text ++ (TextStyle.reset ++ rest))
  have hreset := shown_sequence s.codes (List.cons_ne_nil ['0'] []) (by simp) rest
  rw [foldl_applied fun code hcode => (mem_codes hcode).2, List.nil_append, shown_text _ h]
    at hopening
  rw [paint_plain s h, List.append_assoc, List.append_assoc]
  exact hopening.trans (congrArg _ hreset)

/-! ## Coloured text -/

/-- Coloured text that a terminal shows as the plain one, whatever is behind it. No style is in
force at its line breaks, provided that none of them is painted. -/
def Dresses (unbroken : Prop) (coloured plain : List Char) : Prop :=
  ∃ d : List (Char × List Code), (∀ rest, shown [] (coloured ++ rest) = d ++ shown [] rest) ∧
    d.map (·.1) = plain ∧ (unbroken → ∀ p ∈ d, p.1 = '\n' → p.2 = [])

namespace Dresses

variable {unbroken : Prop} {cs coloured coloured' plain plain' : List Char}

theorem text (h : TextStyle.escape ∉ cs) : Dresses unbroken cs cs :=
  ⟨cs.map (·, []), shown_text [] h, by simp [Function.comp_def], by simp⟩

theorem paint {s : TextStyle} (hs : s.codes ≠ []) (h : TextStyle.escape ∉ cs)
    (hbreak : unbroken → '\n' ∉ cs) :
    Dresses unbroken (s.paint true cs) (s.paint false cs) := by
  refine ⟨cs.map (·, s.codes), shown_paint hs h, by simp [TextStyle.paint, Function.comp_def],
    fun hunbroken p hp => ?_⟩
  obtain ⟨c, hc, rfl⟩ := List.mem_map.mp hp
  rintro rfl
  exact absurd hc (hbreak hunbroken)

theorem append (h : Dresses unbroken coloured plain) (h' : Dresses unbroken coloured' plain') :
    Dresses unbroken (coloured ++ coloured') (plain ++ plain') := by
  obtain ⟨d, hshown, hplain, hbreak⟩ := h
  obtain ⟨d', hshown', hplain', hbreak'⟩ := h'
  refine ⟨d ++ d', fun rest => ?_, by simp [hplain, hplain'], fun hunbroken => ?_⟩
  · rw [List.append_assoc, hshown, hshown', List.append_assoc]
  · rw [List.forall_mem_append]
    exact ⟨hbreak hunbroken, hbreak' hunbroken⟩

theorem flatMap {α : Type} {f g : α → List Char} {as : List α}
    (h : ∀ a ∈ as, Dresses unbroken (f a) (g a)) :
    Dresses unbroken (as.flatMap f) (as.flatMap g) := by
  induction as with
  | nil => exact text (by simp)
  | cons a as ih =>
    obtain ⟨ha, has⟩ := List.forall_mem_cons.mp h
    exact append ha (ih has)

theorem unstyled_eq (h : Dresses unbroken coloured plain) : unstyled coloured = plain := by
  obtain ⟨d, hshown, hplain, -⟩ := h
  have hwhole := hshown []
  rw [List.append_nil] at hwhole
  simp [unstyled, hwhole, hplain, shown]

theorem closed (h : Dresses unbroken coloured plain) (hunbroken : unbroken) :
    ∀ p ∈ shown [] coloured, p.1 = '\n' → p.2 = [] := by
  obtain ⟨d, hshown, -, hbreak⟩ := h
  have hwhole := hshown []
  rw [List.append_nil] at hwhole
  simpa [hwhole, shown] using hbreak hunbroken

end Dresses

end PoolWatch.Terminal
