import PoolWatch.Proofs.Json.Spacing

/-!
# A text has one tree

A text is the text of one tree, up to the blanks in it: blanks behind a bracket may be counted to
the bracket or to what comes next.
-/

namespace PoolWatch.Json

/-! ## Blanks, strings and numbers -/

/-- No blank comes next. -/
def BlanksEnd (s : List Char) : Prop := ∀ c ∈ s.head?, isJsonBlank c = false

theorem BlanksEnd.cons {c : Char} (h : isJsonBlank c = false) (s : List Char) :
    BlanksEnd (c :: s) := by
  intro d hd
  obtain rfl : c = d := by simpa using hd
  exact h

theorem blanksEnd_tree (t : Tree) (s : List Char) : BlanksEnd (t.chars ++ s) := by
  obtain ⟨c, cs, hchars, hc, -⟩ := t.exists_cons
  rw [hchars]
  exact .cons hc _

theorem BlanksEnd.skipBlanks {s : List Char} (h : BlanksEnd s) : skipBlanks s = s := by
  cases s with
  | nil => rfl
  | cons c s => exact skipBlanks_cons (h c rfl) s

theorem blanks_unique {a b : Blanks} {s s' : List Char} (h : a.chars ++ s = b.chars ++ s')
    (hs : BlanksEnd s) (hs' : BlanksEnd s') : s = s' := by
  have hskip := congrArg Json.skipBlanks h
  rwa [skipBlanks_append, skipBlanks_append, hs.skipBlanks, hs'.skipBlanks] at hskip

theorem HexWord.eq_of_chars {w v : HexWord} (h : w.chars = v.chars) : w = v := by
  obtain ⟨a, b, c, d, hex⟩ := w
  obtain ⟨a', b', c', d', hex'⟩ := v
  simpa [HexWord.chars] using h

theorem part_unique {p q : Part} {s s' : List Char} (h : p.chars ++ s = q.chars ++ s') :
    p = q ∧ s = s' := by
  have hu : ∀ {c}, (shortEscape? c).isSome = true → c ≠ 'u' := by
    rintro c known rfl
    exact absurd known (by decide)
  cases p with
  | bare c allowed =>
    cases q with
    | bare d => simpa [Part.chars] using h
    | short d known => exact absurd (List.cons.inj h).1 allowed.2.1
    | word w => exact absurd (List.cons.inj h).1 allowed.2.1
  | short c known =>
    cases q with
    | bare d allowed => exact absurd (List.cons.inj h).1.symm allowed.2.1
    | short d => simpa [Part.chars] using h
    | word w => exact absurd (List.cons.inj (List.cons.inj h).2).1 (hu known)
  | word w =>
    cases q with
    | bare d allowed => exact absurd (List.cons.inj h).1.symm allowed.2.1
    | short d known => exact absurd (List.cons.inj (List.cons.inj h).2).1.symm (hu known)
    | word v =>
      simp only [Part.chars, List.cons_append, List.cons.injEq, true_and] at h
      obtain ⟨hchars, hs⟩ := List.append_inj h (by simp [HexWord.chars])
      exact ⟨by rw [HexWord.eq_of_chars hchars], hs⟩

theorem Part.chars_ne_quote (p : Part) (s s' : List Char) : p.chars ++ s ≠ '"' :: s' := by
  cases p with
  | bare c allowed => exact fun h => allowed.1 (List.cons.inj h).1
  | _ => simp [Part.chars]

theorem parts_unique {ps qs : List Part} {s s' : List Char}
    (h : partsChars ps ++ '"' :: s = partsChars qs ++ '"' :: s') : ps = qs ∧ s = s' := by
  induction ps generalizing qs with
  | nil =>
    cases qs with
    | nil => simpa [partsChars] using h
    | cons q qs =>
      rw [partsChars_cons, List.append_assoc] at h
      exact absurd h.symm (q.chars_ne_quote _ _)
  | cons p ps ih =>
    cases qs with
    | nil =>
      rw [partsChars_cons, List.append_assoc] at h
      exact absurd h (p.chars_ne_quote _ _)
    | cons q qs =>
      rw [partsChars_cons, partsChars_cons, List.append_assoc, List.append_assoc] at h
      obtain ⟨rfl, hrest⟩ := part_unique h
      obtain ⟨rfl, hs⟩ := ih hrest
      exact ⟨rfl, hs⟩

theorem quoted_unique {ps qs : List Part} {s s' : List Char}
    (h : Tree.quoted ps ++ s = Tree.quoted qs ++ s') : ps = qs ∧ s = s' :=
  parts_unique (by simpa [Tree.quoted] using h)

theorem digits_unique {d e : Digits} {s s' : List Char} (h : d.chars ++ s = e.chars ++ s')
    (hs : DigitsEnd s) (hs' : DigitsEnd s') : d = e ∧ s = s' := by
  have hchars : d.chars = e.chars := by
    rw [← takeWhile_digits d.digit hs, h, takeWhile_digits e.digit hs']
  obtain ⟨dchars, ddigit, dne⟩ := d
  obtain ⟨echars, edigit, ene⟩ := e
  obtain rfl : dchars = echars := hchars
  exact ⟨rfl, List.append_cancel_left h⟩

theorem sign_unique {a b : Sign} {d e : Digits} {s s' : List Char}
    (h : a.chars ++ (d.chars ++ s) = b.chars ++ (e.chars ++ s')) :
    a = b ∧ d.chars ++ s = e.chars ++ s' := by
  obtain ⟨c, cs, hd, hc, -⟩ := d.exists_cons
  obtain ⟨c', cs', he, hc', -⟩ := e.exists_cons
  have hplus := isDigit_ne hc (show isDigit '+' = false by decide)
  have hminus := isDigit_ne hc (show isDigit '-' = false by decide)
  have hplus' := isDigit_ne hc' (show isDigit '+' = false by decide)
  have hminus' := isDigit_ne hc' (show isDigit '-' = false by decide)
  rw [hd, he] at h ⊢
  cases a <;> cases b <;> simp_all [Sign.chars, Ne.symm hplus', Ne.symm hminus']

theorem power_unique {p q : Option Power} {s s' : List Char}
    (h : Numeral.powerChars p ++ s = Numeral.powerChars q ++ s') (hs : NumberEnds s)
    (hs' : NumberEnds s') : p = q ∧ s = s' := by
  cases p with
  | none =>
    cases q with
    | none => exact ⟨rfl, h⟩
    | some q =>
      have hne := hs.ne (h.trans (by rfl))
      exact absurd q.isMark (by simp [hne.2.1, hne.2.2])
  | some p =>
    cases q with
    | none =>
      have hne := hs'.ne (h.symm.trans (by rfl))
      exact absurd p.isMark (by simp [hne.2.1, hne.2.2])
    | some q =>
      obtain ⟨mark, isMark, sign, digits⟩ := p
      obtain ⟨mark', isMark', sign', digits'⟩ := q
      simp only [Numeral.powerChars, Power.chars, List.cons_append, List.append_assoc,
        List.cons.injEq] at h
      obtain ⟨rfl, hsign⟩ := h
      obtain ⟨rfl, hdigits⟩ := sign_unique hsign
      obtain ⟨rfl, hrest⟩ := digits_unique hdigits hs.digitsEnd hs'.digitsEnd
      exact ⟨rfl, hrest⟩

theorem powerChars_ne_point (p : Option Power) {s : List Char} (hs : NumberEnds s)
    (s' : List Char) : Numeral.powerChars p ++ s ≠ '.' :: s' := by
  intro h
  cases p with
  | none => exact (hs.ne h).1 rfl
  | some p =>
    have hmark : p.mark = '.' := (List.cons.inj h).1
    have hpoint := p.isMark
    rw [hmark] at hpoint
    exact absurd hpoint (by decide)

theorem fraction_unique {f g : Option Digits} {p q : Option Power} {s s' : List Char}
    (h : Numeral.fractionChars f ++ (Numeral.powerChars p ++ s) =
      Numeral.fractionChars g ++ (Numeral.powerChars q ++ s'))
    (hs : NumberEnds s) (hs' : NumberEnds s') :
    f = g ∧ Numeral.powerChars p ++ s = Numeral.powerChars q ++ s' := by
  cases f with
  | none =>
    cases g with
    | none => exact ⟨rfl, h⟩
    | some g => exact absurd h (powerChars_ne_point p hs _)
  | some f =>
    cases g with
    | none => exact absurd h.symm (powerChars_ne_point q hs' _)
    | some g =>
      obtain ⟨rfl, hpower⟩ := digits_unique (List.cons.inj h).2
        (powerChars_digitsEnd p hs.digitsEnd) (powerChars_digitsEnd q hs'.digitsEnd)
      exact ⟨rfl, hpower⟩

theorem numeral_unique {n m : Numeral} {s s' : List Char} (h : n.chars ++ s = m.chars ++ s')
    (hs : NumberEnds s) (hs' : NumberEnds s') : n = m ∧ s = s' := by
  have hdigit : ∀ (n : Numeral) s s', n.unsignedChars ++ s ≠ '-' :: s' := by
    intro n s s' h
    obtain ⟨c, cs, hchars, hc, -⟩ := n.whole.exists_cons
    rw [Numeral.unsignedChars, hchars] at h
    exact isDigit_ne hc (show isDigit '-' = false by decide) (List.cons.inj h).1
  have hsign : n.negative = m.negative ∧ n.unsignedChars ++ s = m.unsignedChars ++ s' := by
    rw [Numeral.chars, Numeral.chars] at h
    cases hn : n.negative <;> cases hm : m.negative <;>
      simp only [hn, hm, Bool.false_eq_true, if_true, if_false] at h
    · exact ⟨rfl, h⟩
    · exact absurd h (hdigit n s _)
    · exact absurd h.symm (hdigit m s' _)
    · exact ⟨rfl, (List.cons.inj h).2⟩
  obtain ⟨negative, whole, plain, fraction, power⟩ := n
  obtain ⟨negative', whole', plain', fraction', power'⟩ := m
  obtain ⟨hnegative, hunsigned⟩ := hsign
  obtain rfl : negative = negative' := hnegative
  simp only [Numeral.unsignedChars, List.append_assoc] at hunsigned
  obtain ⟨rfl, hfraction⟩ := digits_unique hunsigned (afterWhole_digitsEnd _ _ hs.digitsEnd)
    (afterWhole_digitsEnd _ _ hs'.digitsEnd)
  obtain ⟨rfl, hpower⟩ := fraction_unique hfraction hs hs'
  obtain ⟨rfl, hrest⟩ := power_unique hpower hs hs'
  exact ⟨rfl, hrest⟩

/-! ## Lists, objects and whole values -/

/-- The text of a tree says what the tree is, and where it ends. -/
def Unique (t : Tree) : Prop := ∀ {u : Tree} {s s' : List Char}, t.chars ++ s = u.chars ++ s' →
  NumberEnds s → NumberEnds s' → t.unspaced = u.unspaced ∧ s = s'

/-- What a tree begins with. All numbers count as beginning with a zero. -/
def Tree.initial : Tree → Char
  | .null => 'n'
  | .bool b => if b then 't' else 'f'
  | .number _ => '0'
  | .text _ => '"'
  | .list _ _ => '['
  | .object _ _ => '{'

theorem Tree.initial_of_chars {t : Tree} {c : Char} {cs : List Char} (h : t.chars = c :: cs) :
    t.initial = if isDigit c ∨ c = '-' then '0' else c := by
  cases t with
  | null =>
    obtain rfl : 'n' = c := (List.cons.inj h).1
    rfl
  | bool b => cases b <;> (obtain rfl := (List.cons.inj h).1; rfl)
  | number n =>
    obtain ⟨d, ds, hchars, hd⟩ := n.exists_cons
    obtain rfl : d = c := (List.cons.inj (hchars.symm.trans h)).1
    rw [if_pos hd]
    rfl
  | text parts =>
    obtain rfl : '"' = c := (List.cons.inj h).1
    rfl
  | list ahead items =>
    obtain rfl : '[' = c := (List.cons.inj h).1
    rfl
  | object ahead members =>
    obtain rfl : '{' = c := (List.cons.inj h).1
    rfl

theorem Tree.initial_eq {t u : Tree} {s s' : List Char} (h : t.chars ++ s = u.chars ++ s') :
    t.initial = u.initial := by
  obtain ⟨c, cs, ht, -⟩ := t.exists_cons
  obtain ⟨d, ds, hu, -⟩ := u.exists_cons
  rw [ht, hu] at h
  rw [initial_of_chars ht, initial_of_chars hu, (List.cons.inj h).1]

theorem blanks_tree_unique {t u : Tree} (ht : Unique t) {a b : Blanks} {s s' : List Char}
    (h : a.chars ++ (t.chars ++ s) = b.chars ++ (u.chars ++ s')) (hs : NumberEnds s)
    (hs' : NumberEnds s') : t.unspaced = u.unspaced ∧ s = s' :=
  ht (blanks_unique h (blanksEnd_tree t s) (blanksEnd_tree u s')) hs hs'

theorem separator_unique {first : Bool} {a b c d : Blanks} {s s' : List Char}
    (h : a.chars ++ ((if first then [] else [',']) ++ (c.chars ++ s)) =
      b.chars ++ ((if first then [] else [',']) ++ (d.chars ++ s')))
    (hs : BlanksEnd s) (hs' : BlanksEnd s') : s = s' := by
  cases first with
  | true =>
    refine blanks_unique (a := a.append c) (b := b.append d) ?_ hs hs'
    simpa [Blanks.append] using h
  | false =>
    have hcomma := blanks_unique h (.cons (by decide) _) (.cons (by decide) _)
    exact blanks_unique (List.cons.inj hcomma).2 hs hs'

theorem closing_ne_item (close d : Char) {first : Bool} {a b c : Blanks} {s s' : List Char}
    (hclose : isJsonBlank close = false ∧ close ≠ ',') (hd : isJsonBlank d = false ∧ d ≠ close) :
    a.chars ++ close :: s ≠ b.chars ++ ((if first then [] else [',']) ++ (c.chars ++ d :: s')) := by
  intro h
  cases first with
  | true =>
    have hsame := blanks_unique (a := a) (b := b.append c) (by simpa [Blanks.append] using h)
      (.cons hclose.1 s) (.cons hd.1 s')
    exact hd.2 (List.cons.inj hsame).1.symm
  | false =>
    have hsame := blanks_unique h (.cons hclose.1 s) (.cons (by decide) _)
    exact hclose.2 (List.cons.inj hsame).1

theorem joinFrom_item (first : Bool) (before after : Blanks) (t : Tree)
    (items : List (Padded Tree)) (rest : List Char) :
    joinFrom first (Tree.itemTexts (⟨before, t, after⟩ :: items)) ++ rest =
      (if first then [] else [',']) ++ (before.chars ++ (t.chars ++
        (after.chars ++ (joinFrom false (Tree.itemTexts items) ++ rest)))) := by
  simp [Tree.itemTexts, joinFrom_cons]

theorem items_numberEnds (i : Padded Tree) (items : List (Padded Tree)) (s : List Char) :
    NumberEnds (i.after.chars ++ (joinFrom false (Tree.itemTexts items) ++ ']' :: s)) :=
  numberEnds_blanks _ fun _ hd => (joinFrom_head hd).imp_right Or.inl

theorem items_unique {items items' : List (Padded Tree)} (hitems : ∀ i ∈ items, Unique i.value)
    (first : Bool) {a b : Blanks} {s s' : List Char}
    (h : a.chars ++ (joinFrom first (Tree.itemTexts items) ++ ']' :: s) =
      b.chars ++ (joinFrom first (Tree.itemTexts items') ++ ']' :: s')) :
    unspacedItems items = unspacedItems items' ∧ s = s' := by
  induction items generalizing items' first a b with
  | nil =>
    cases items' with
    | nil =>
      simp only [Tree.itemTexts, joinFrom_nil, List.nil_append] at h
      have hclose := blanks_unique h (.cons (by decide) s) (.cons (by decide) s')
      exact ⟨rfl, (List.cons.inj hclose).2⟩
    | cons i' items' =>
      obtain ⟨before, t, after⟩ := i'
      obtain ⟨c, cs, hchars, hblank, -, hclose, -⟩ := t.exists_cons
      rw [joinFrom_item, hchars, Tree.itemTexts, joinFrom_nil, List.nil_append] at h
      exact absurd h (closing_ne_item ']' c (by decide) ⟨hblank, hclose⟩)
  | cons i items ih =>
    obtain ⟨before, t, after⟩ := i
    cases items' with
    | nil =>
      obtain ⟨c, cs, hchars, hblank, -, hclose, -⟩ := t.exists_cons
      rw [joinFrom_item, hchars, Tree.itemTexts, joinFrom_nil, List.nil_append] at h
      exact absurd h.symm (closing_ne_item ']' c (by decide) ⟨hblank, hclose⟩)
    | cons i' items' =>
      obtain ⟨before', t', after'⟩ := i'
      obtain ⟨ht, hrest⟩ := List.forall_mem_cons.mp hitems
      rw [joinFrom_item, joinFrom_item] at h
      have hvalues := separator_unique h (blanksEnd_tree t _) (blanksEnd_tree t' _)
      obtain ⟨hsame, hafter⟩ := ht hvalues (items_numberEnds ⟨before, t, after⟩ items s)
        (items_numberEnds ⟨before', t', after'⟩ items' s')
      obtain ⟨hitems', hs⟩ := ih hrest false hafter
      exact ⟨by simp only [unspacedItems, hsame, hitems'], hs⟩

theorem members_unique {members members' : List (Member Tree)}
    (hmembers : ∀ m ∈ members, Unique m.value.value) (first : Bool) {a b : Blanks}
    {s s' : List Char}
    (h : a.chars ++ (joinFrom first (Tree.memberTexts members) ++ '}' :: s) =
      b.chars ++ (joinFrom first (Tree.memberTexts members') ++ '}' :: s')) :
    unspacedMembers members = unspacedMembers members' ∧ s = s' := by
  induction members generalizing members' first a b with
  | nil =>
    cases members' with
    | nil =>
      simp only [Tree.memberTexts, joinFrom_nil, List.nil_append] at h
      have hclose := blanks_unique h (.cons (by decide) s) (.cons (by decide) s')
      exact ⟨rfl, (List.cons.inj hclose).2⟩
    | cons m' members' =>
      rw [joinFrom_member, Tree.memberTexts, joinFrom_nil, List.nil_append] at h
      exact absurd h (closing_ne_item '}' '"' (by decide) (by decide))
  | cons m members ih =>
    cases members' with
    | nil =>
      rw [joinFrom_member, Tree.memberTexts, joinFrom_nil, List.nil_append] at h
      exact absurd h.symm (closing_ne_item '}' '"' (by decide) (by decide))
    | cons m' members' =>
      obtain ⟨before, name, between, ⟨ahead, t, behind⟩⟩ := m
      obtain ⟨before', name', between', ⟨ahead', t', behind'⟩⟩ := m'
      obtain ⟨ht, hrest⟩ := List.forall_mem_cons.mp hmembers
      rw [joinFrom_member, joinFrom_member] at h
      have hnames := separator_unique h (.cons (by decide) _) (.cons (by decide) _)
      obtain ⟨rfl, hcolon⟩ := quoted_unique hnames
      have hvalues := blanks_unique hcolon (.cons (by decide) _) (.cons (by decide) _)
      obtain ⟨hsame, hafter⟩ := blanks_tree_unique ht (List.cons.inj hvalues).2
        (member_numberEnds ⟨before, name, between, ⟨ahead, t, behind⟩⟩ members s)
        (member_numberEnds ⟨before', name, between', ⟨ahead', t', behind'⟩⟩ members' s')
      obtain ⟨hmembers', hs⟩ := ih hrest false hafter
      exact ⟨by simp only [unspacedMembers, hsame, hmembers'], hs⟩

theorem tree_unique (t : Tree) : Unique t := by
  induction t using Tree.induct with
  | null =>
    intro u s s' h hs hs'
    have hinitial := Tree.initial_eq h
    cases u with
    | null => exact ⟨rfl, by simpa [Tree.chars] using h⟩
    | bool b => cases b <;> simp [Tree.initial] at hinitial
    | _ => simp [Tree.initial] at hinitial
  | bool b =>
    intro u s s' h hs hs'
    have hinitial := Tree.initial_eq h
    cases u with
    | bool b' =>
      obtain rfl : b = b' := by cases b <;> cases b' <;> simp_all [Tree.initial]
      exact ⟨rfl, List.append_cancel_left h⟩
    | _ => cases b <;> simp [Tree.initial] at hinitial
  | number n =>
    intro u s s' h hs hs'
    have hinitial := Tree.initial_eq h
    cases u with
    | number m =>
      obtain ⟨rfl, hrest⟩ := numeral_unique h hs hs'
      exact ⟨rfl, hrest⟩
    | bool b => cases b <;> simp [Tree.initial] at hinitial
    | _ => simp [Tree.initial] at hinitial
  | text parts =>
    intro u s s' h hs hs'
    have hinitial := Tree.initial_eq h
    cases u with
    | text parts' =>
      obtain ⟨rfl, hrest⟩ := quoted_unique h
      exact ⟨rfl, hrest⟩
    | bool b => cases b <;> simp [Tree.initial] at hinitial
    | _ => simp [Tree.initial] at hinitial
  | list ahead items ih =>
    intro u s s' h hs hs'
    have hinitial := Tree.initial_eq h
    cases u with
    | list ahead' items' =>
      simp only [Tree.chars, List.cons_append, List.append_assoc, List.cons.injEq, true_and,
        List.nil_append] at h
      obtain ⟨hitems, hrest⟩ := items_unique ih true h
      exact ⟨by simp only [Tree.unspaced, hitems], hrest⟩
    | bool b => cases b <;> simp [Tree.initial] at hinitial
    | _ => simp [Tree.initial] at hinitial
  | object ahead members ih =>
    intro u s s' h hs hs'
    have hinitial := Tree.initial_eq h
    cases u with
    | object ahead' members' =>
      simp only [Tree.chars, List.cons_append, List.append_assoc, List.cons.injEq, true_and,
        List.nil_append] at h
      obtain ⟨hmembers, hrest⟩ := members_unique ih true h
      exact ⟨by simp only [Tree.unspaced, hmembers], hrest⟩
    | bool b => cases b <;> simp [Tree.initial] at hinitial
    | _ => simp [Tree.initial] at hinitial

/-- One text has one tree, up to blanks. -/
theorem text_unique {d e : Padded Tree} (h : d.text = e.text) :
    d.value.unspaced = e.value.unspaced := by
  rw [Padded.text, Padded.text, String.ofList_inj] at h
  exact (blanks_tree_unique (tree_unique d.value) h d.after.numberEnds e.after.numberEnds).1

end PoolWatch.Json
