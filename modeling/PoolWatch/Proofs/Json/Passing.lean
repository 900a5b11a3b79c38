import PoolWatch.Json.Skip
import PoolWatch.Proofs.Json.Values

/-!
# Any value can be passed over

What nobody asked for is passed over by a machine with a stack of open brackets. It passes over
every tree, of any depth, and over nothing else.
-/

namespace PoolWatch.Json

theorem skipName_append (before after : Blanks) (parts : List Part) (s : List Char) :
    skipName (before.chars ++ (Tree.quoted parts ++ (after.chars ++ ':' :: s))) = .ok s := by
  have hskip := skipString_parts parts (after.chars ++ ':' :: s)
  rw [skipName, skipBlanks_append]
  simp only [Tree.quoted, List.cons_append, List.append_assoc, List.nil_append]
  rw [skipBlanks_cons (by decide)]
  simp [hskip, readColon_blanks]

theorem skipName_sound {s r : List Char} (h : skipName s = .ok r) :
    ∃ (before after : Blanks) (parts : List Part),
      s = before.chars ++ (Tree.quoted parts ++ (after.chars ++ ':' :: r)) := by
  obtain ⟨before, hs⟩ := skipBlanks_sound s
  unfold skipName at h
  split at h
  · simp [failPeek] at h
  rename_i c rest hskip
  split at h
  · rename_i hc
    split at h
    · simp at h
    rename_i r' hstring
    obtain ⟨parts, rfl⟩ := skipString_sound hstring
    obtain ⟨after, rfl⟩ := readColon_sound h
    exact ⟨before, after, parts, by rw [hs, hskip, hc]; simp [Tree.quoted]⟩
  · simp [failPeek] at h

/-! ## What is passed over is a tree -/

/-- What must follow a value when these brackets are open, with the text behind the last of them. -/
def Closes : List Enclosure → List Char → List Char → Prop
  | [], s, rest => s = rest
  | .list :: outer, s, rest => ∃ (ahead : Blanks) (items : List (Padded Tree)) (r : List Char),
    s = ahead.chars ++ (joinFrom false (Tree.itemTexts items) ++ ']' :: r) ∧ Closes outer r rest
  | .object :: outer, s, rest => ∃ (ahead : Blanks) (members : List (Member Tree)) (r : List Char),
    s = ahead.chars ++ (joinFrom false (Tree.memberTexts members) ++ '}' :: r) ∧
      Closes outer r rest

/-- What the machine still has to find in the text. -/
def Finds (next : Next) (around : List Enclosure) (s rest : List Char) : Prop :=
  match next with
  | .value => ∃ (ahead : Blanks) (t : Tree) (r : List Char),
    s = ahead.chars ++ (t.chars ++ r) ∧ Closes around r rest
  | .afterValue => Closes around s rest

theorem skipOpening_sound_list {s r : List Char} {next : Next}
    (h : skipOpening .list s = .ok (next, r)) :
    ∃ ahead : Blanks, (next = .value ∧ s = ahead.chars ++ r) ∨
      (next = .afterValue ∧ s = ahead.chars ++ ']' :: r) := by
  obtain ⟨ahead, hs⟩ := skipBlanks_sound s
  refine ⟨ahead, ?_⟩
  unfold skipOpening at h
  split at h
  · simp [failPeek] at h
  · simp_all
  · rename_i c r' hskip _
    split at h
    · rename_i hc
      simp only [Except.ok.injEq, Prod.mk.injEq] at h
      exact Or.inr ⟨h.1.symm, by rw [hs, hskip, hc, h.2]⟩
    · simp only [Except.ok.injEq, Prod.mk.injEq] at h
      exact Or.inl ⟨h.1.symm, by rw [hs, hskip, h.2]⟩
  · simp_all

theorem skipOpening_sound_object {s r : List Char} {next : Next}
    (h : skipOpening .object s = .ok (next, r)) :
    (next = .value ∧ ∃ (before after : Blanks) (parts : List Part),
      s = before.chars ++ (Tree.quoted parts ++ (after.chars ++ ':' :: r))) ∨
    (next = .afterValue ∧ ∃ ahead : Blanks, s = ahead.chars ++ '}' :: r) := by
  obtain ⟨ahead, hs⟩ := skipBlanks_sound s
  unfold skipOpening at h
  split at h
  · simp_all
  · simp [failPeek] at h
  · simp_all
  · rename_i c r' hskip _
    split at h
    · rename_i hc
      simp only [Except.ok.injEq, Prod.mk.injEq] at h
      exact Or.inr ⟨h.1.symm, ahead, by rw [hs, hskip, hc, h.2]⟩
    · split at h
      · simp at h
      rename_i r'' hname
      simp only [Except.ok.injEq, Prod.mk.injEq] at h
      obtain ⟨rfl, rfl⟩ := h
      obtain ⟨before, after, parts, hr⟩ := skipName_sound hname
      refine Or.inl ⟨rfl, ahead.append before, after, parts, ?_⟩
      rw [hs, hskip, hr]
      simp [Blanks.append]

theorem afterScalar_eq_ok {around around' : List Enclosure} {next : Next} {r : List Char}
    {result : Except Failure (List Char)} (h : afterScalar around result = .ok (next, around', r)) :
    result = .ok r ∧ next = .afterValue ∧ around' = around := by
  cases result with
  | error f => simp [afterScalar] at h
  | ok r' =>
    simp only [afterScalar, Except.ok.injEq, Prod.mk.injEq] at h
    simp [← h.1, ← h.2.1, ← h.2.2]

theorem finds_opening {enclosure : Enclosure} {around : List Enclosure} {next : Next}
    {s r rest : List Char} (h : skipOpening enclosure s = .ok (next, r))
    (hfinds : Finds next (if next = .value then enclosure :: around else around) r rest) :
    ∃ (t : Tree) (r' : List Char),
      (if enclosure = .list then '[' else '{') :: s = t.chars ++ r' ∧ Closes around r' rest := by
  cases enclosure with
  | list =>
    obtain ⟨pad, ⟨rfl, rfl⟩ | ⟨rfl, rfl⟩⟩ := skipOpening_sound_list h
    · obtain ⟨before, t, r', rfl, after, items, r'', rfl, hcloses⟩ := hfinds
      refine ⟨.list pad (⟨before, t, after⟩ :: items), r'', ?_, hcloses⟩
      simp [Tree.chars, Tree.itemTexts, commaJoin_cons]
    · exact ⟨.list pad [], r, by simp [Tree.chars, Tree.itemTexts, commaJoin], hfinds⟩
  | object =>
    obtain ⟨rfl, before, after, parts, rfl⟩ | ⟨rfl, pad, rfl⟩ := skipOpening_sound_object h
    · obtain ⟨ahead, t, r', rfl, behind, members, r'', rfl, hcloses⟩ := hfinds
      refine ⟨.object before (⟨.none, parts, after, ⟨ahead, t, behind⟩⟩ :: members), r'', ?_,
        hcloses⟩
      simp [Tree.chars, Tree.memberTexts, commaJoin_cons, Blanks.none]
    · exact ⟨.object pad [], r, by simp [Tree.chars, Tree.memberTexts, commaJoin], hfinds⟩

theorem skipStart_sound {around around' : List Enclosure} {next : Next} {c : Char}
    {s r rest : List Char} (h : skipStart around c s = .ok (next, around', r))
    (hfinds : Finds next around' r rest) :
    ∃ (t : Tree) (r' : List Char), c :: s = t.chars ++ r' ∧ Closes around r' rest := by
  unfold skipStart at h
  split at h
  · rename_i hc
    obtain ⟨hr, rfl, rfl⟩ := afterScalar_eq_ok h
    exact ⟨.null, r, by rw [hc, readWord_sound hr]; rfl, hfinds⟩
  split at h
  · rename_i hc
    obtain ⟨hr, rfl, rfl⟩ := afterScalar_eq_ok h
    exact ⟨.bool true, r, by rw [hc, readWord_sound hr]; rfl, hfinds⟩
  split at h
  · rename_i hc
    obtain ⟨hr, rfl, rfl⟩ := afterScalar_eq_ok h
    exact ⟨.bool false, r, by rw [hc, readWord_sound hr]; rfl, hfinds⟩
  split at h
  · rename_i hc
    obtain ⟨hr, rfl, rfl⟩ := afterScalar_eq_ok h
    obtain ⟨n, hsign, rfl⟩ := skipNumber_sound true hr
    exact ⟨.number n, r, by simp [hc, Tree.chars, Numeral.chars, hsign], hfinds⟩
  split at h
  · obtain ⟨hr, rfl, rfl⟩ := afterScalar_eq_ok h
    obtain ⟨n, hsign, hn⟩ := skipNumber_sound false hr
    exact ⟨.number n, r, by simp [hn, Tree.chars, Numeral.chars, hsign], hfinds⟩
  split at h
  · rename_i hc
    obtain ⟨hr, rfl, rfl⟩ := afterScalar_eq_ok h
    obtain ⟨parts, rfl⟩ := skipString_sound hr
    exact ⟨.text parts, r, by simp [hc, Tree.chars, Tree.quoted], hfinds⟩
  split at h
  · rename_i hbracket
    have hc : (if (if c = '[' then Enclosure.list else .object) = .list then '[' else '{') = c := by
      rcases hbracket with rfl | rfl <;> rfl
    simp only at h
    split at h
    · simp at h
    all_goals
      rename_i r' hopening
      simp only [Except.ok.injEq, Prod.mk.injEq] at h
      obtain ⟨rfl, rfl, rfl⟩ := h
      obtain ⟨t, r'', ht, hcloses⟩ := finds_opening hopening hfinds
      exact ⟨t, r'', by rw [← ht, hc], hcloses⟩
  · simp [failPeek] at h

theorem skipStep_sound_value {around around' : List Enclosure} {next : Next} {s r rest : List Char}
    (h : skipStep .value around s = .ok (next, around', r)) (hfinds : Finds next around' r rest) :
    Finds .value around s rest := by
  obtain ⟨ahead, hs⟩ := skipBlanks_sound s
  rcases hskip : skipBlanks s with _ | ⟨c, s'⟩
  · simp [skipStep, hskip, failPeek] at h
  simp only [skipStep, hskip] at h
  obtain ⟨t, r', ht, hcloses⟩ := skipStart_sound h hfinds
  exact ⟨ahead, t, r', by rw [hs, hskip, ht], hcloses⟩

theorem skipStep_sound_after {around around' : List Enclosure} {next : Next} {s r rest : List Char}
    (h : skipStep .afterValue around s = .ok (next, around', r))
    (hfinds : Finds next around' r rest) : Closes around s rest := by
  obtain ⟨ahead, hs⟩ := skipBlanks_sound s
  match around with
  | [] =>
    simp only [skipStep, Except.ok.injEq, Prod.mk.injEq] at h
    obtain ⟨rfl, rfl, rfl⟩ := h
    exact hfinds
  | .list :: outer =>
    rcases hskip : skipBlanks s with _ | ⟨c, s'⟩
    · simp [skipStep, hskip, failPeek] at h
    simp only [skipStep, hskip] at h
    split at h
    · rename_i hc
      simp only [Except.ok.injEq, Prod.mk.injEq] at h
      obtain ⟨rfl, rfl, rfl⟩ := h
      obtain ⟨before, t, r', rfl, after, items, r'', rfl, hcloses⟩ := hfinds
      refine ⟨ahead, ⟨before, t, after⟩ :: items, r'', ?_, hcloses⟩
      rw [hs, hskip, hc]
      simp [Tree.itemTexts, joinFrom_cons]
    split at h
    · rename_i hc
      simp only [Except.ok.injEq, Prod.mk.injEq] at h
      obtain ⟨rfl, rfl, rfl⟩ := h
      exact ⟨ahead, [], s', by rw [hs, hskip, hc]; rfl, hfinds⟩
    · simp [failPeek] at h
  | .object :: outer =>
    rcases hskip : skipBlanks s with _ | ⟨c, s'⟩
    · simp [skipStep, hskip, failPeek] at h
    simp only [skipStep, hskip] at h
    split at h
    · rename_i hc
      split at h
      · simp at h
      rename_i s'' hname
      simp only [Except.ok.injEq, Prod.mk.injEq] at h
      obtain ⟨rfl, rfl, rfl⟩ := h
      obtain ⟨before, after, parts, rfl⟩ := skipName_sound hname
      obtain ⟨pad, t, r', rfl, behind, members, r'', rfl, hcloses⟩ := hfinds
      refine ⟨ahead, ⟨before, parts, after, ⟨pad, t, behind⟩⟩ :: members, r'', ?_, hcloses⟩
      rw [hs, hskip, hc, joinFrom_member]
      simp [afterName]
    split at h
    · rename_i hc
      simp only [Except.ok.injEq, Prod.mk.injEq] at h
      obtain ⟨rfl, rfl, rfl⟩ := h
      exact ⟨ahead, [], s', by rw [hs, hskip, hc]; rfl, hfinds⟩
    · simp [failPeek] at h

theorem skipFrom_succ (fuel : Nat) {next : Next} {around : List Enclosure}
    (h : next = .value ∨ around ≠ []) (s : List Char) :
    skipFrom (fuel + 1) next around s =
      match skipStep next around s with
      | .error f => .error f
      | .ok (next, around, rest) => skipFrom fuel next around rest := by
  cases next with
  | value => rfl
  | afterValue =>
    cases around with
    | nil => simp at h
    | cons e outer => rfl

theorem skipFrom_sound {fuel : Nat} {next : Next} {around : List Enclosure} {s rest : List Char}
    (h : skipFrom fuel next around s = .ok rest) : Finds next around s rest := by
  induction fuel generalizing next around s with
  | zero => simp [skipFrom, failPeek] at h
  | succ fuel ih =>
    by_cases hdone : next = .value ∨ around ≠ []
    · rw [skipFrom_succ fuel hdone] at h
      split at h
      · simp at h
      rename_i next' around' r hstep
      cases next with
      | value => exact skipStep_sound_value hstep (ih h)
      | afterValue => exact skipStep_sound_after hstep (ih h)
    · obtain ⟨hnext, rfl⟩ : next = .afterValue ∧ around = [] := by
        cases next <;> simp_all
      subst hnext
      exact Except.ok.inj h

/-! ## Every tree is passed over -/

/-- From one state the machine comes to another, whatever fuel is left then. -/
def Leads (steps : Nat) (next : Next) (around : List Enclosure) (s : List Char) (next' : Next)
    (around' : List Enclosure) (s' : List Char) : Prop :=
  ∀ fuel, skipFrom (fuel + steps) next around s = skipFrom fuel next' around' s'

theorem Leads.trans {k l : Nat} {next next' next'' : Next}
    {around around' around'' : List Enclosure} {s s' s'' : List Char}
    (h : Leads k next around s next' around' s')
    (h' : Leads l next' around' s' next'' around'' s'') :
    Leads (k + l) next around s next'' around'' s'' := by
  intro fuel
  rw [← h' fuel, ← h (fuel + l)]
  congr 1
  omega

theorem leads_step {next next' : Next} {around around' : List Enclosure} {s s' : List Char}
    (h : skipStep next around s = .ok (next', around', s')) (hmore : next = .value ∨ around ≠ []) :
    Leads 1 next around s next' around' s' := by
  intro fuel
  rw [skipFrom_succ fuel hmore, h]

/-- The tree is passed over in no more steps than it has characters. -/
def Passed (t : Tree) : Prop :=
  ∀ (around : List Enclosure) (ahead : Blanks) (rest : List Char), NumberEnds rest →
    ∃ k ≤ t.chars.length,
      Leads k .value around (ahead.chars ++ (t.chars ++ rest)) .afterValue around rest

theorem passed_of_step {t : Tree} (h : ∀ (around : List Enclosure) (rest : List Char),
    NumberEnds rest → ∃ c cs, t.chars ++ rest = c :: cs ∧ isJsonBlank c = false ∧
      skipStart around c cs = .ok (.afterValue, around, rest)) : Passed t := by
  intro around ahead rest hends
  obtain ⟨c, cs, hchars, hblank, hstart⟩ := h around rest hends
  obtain ⟨d, ds, hd, -⟩ := t.exists_cons
  refine ⟨1, by simp [hd], leads_step ?_ (Or.inl rfl)⟩
  simp only [skipStep]
  rw [skipBlanks_append, hchars, skipBlanks_cons hblank]
  exact hstart

theorem passed_number (n : Numeral) : Passed (.number n) := by
  apply passed_of_step
  intro around rest hends
  have hskip := skipNumber_append n hends
  simp only [Tree.chars, Numeral.chars]
  cases hsign : n.negative with
  | true =>
    refine ⟨'-', n.unsignedChars ++ rest, rfl, by decide, ?_⟩
    simp [skipStart, hskip, afterScalar]
  | false =>
    obtain ⟨c, cs, hchars, hc, -⟩ := n.whole.exists_cons
    simp only [Bool.false_eq_true, if_false]
    generalize hs : n.unsignedChars ++ rest = s at hskip ⊢
    obtain ⟨r, rfl⟩ : ∃ r, s = c :: r := ⟨_, by rw [← hs, Numeral.unsignedChars, hchars]; rfl⟩
    refine ⟨c, r, rfl, not_blank_of_digit hc, ?_⟩
    simp only [skipStart, isDigit_ne hc (show isDigit 'n' = false by decide),
      isDigit_ne hc (show isDigit 't' = false by decide),
      isDigit_ne hc (show isDigit 'f' = false by decide),
      isDigit_ne hc (show isDigit '-' = false by decide), hc, if_true, if_false, hskip, afterScalar]

theorem leads_items {items : List (Padded Tree)} (hitems : ∀ i ∈ items, Passed i.value)
    (around : List Enclosure) (ahead : Blanks) (rest : List Char) :
    ∃ k ≤ (joinFrom false (Tree.itemTexts items)).length + 1,
      Leads k .afterValue (.list :: around)
        (ahead.chars ++ (joinFrom false (Tree.itemTexts items) ++ ']' :: rest))
        .afterValue around rest := by
  induction items generalizing ahead with
  | nil =>
    refine ⟨1, by simp [Tree.itemTexts], leads_step ?_ (Or.inr (by simp))⟩
    simp only [Tree.itemTexts, joinFrom_nil, List.nil_append, skipStep]
    rw [skipBlanks_append, skipBlanks_cons (by decide)]
    simp
  | cons i items ih =>
    obtain ⟨before, t, after⟩ := i
    obtain ⟨k, hk, hlead⟩ := ih (fun i hi => hitems i (List.mem_cons_of_mem _ hi)) after
    obtain ⟨l, hl, hvalue⟩ := hitems ⟨before, t, after⟩ List.mem_cons_self (.list :: around) before
      (after.chars ++ (joinFrom false (Tree.itemTexts items) ++ ']' :: rest))
      (numberEnds_blanks _ fun d hd => (joinFrom_head hd).imp_right Or.inl)
    have hcomma : skipStep .afterValue (.list :: around) (ahead.chars ++
        (joinFrom false (Tree.itemTexts (⟨before, t, after⟩ :: items)) ++ ']' :: rest)) =
        .ok (.value, .list :: around, before.chars ++ (t.chars ++
          (after.chars ++ (joinFrom false (Tree.itemTexts items) ++ ']' :: rest)))) := by
      simp only [skipStep, Tree.itemTexts, joinFrom_cons, List.append_assoc, List.cons_append,
        List.nil_append, Bool.false_eq_true, if_false]
      rw [skipBlanks_append, skipBlanks_cons (by decide)]
      simp
    refine ⟨1 + (l + k), ?_, (leads_step hcomma (Or.inr (by simp))).trans (hvalue.trans hlead)⟩
    simp only [Tree.itemTexts, joinFrom_cons, List.length_append] at hl hk ⊢
    simp
    omega

theorem leads_members {members : List (Member Tree)}
    (hmembers : ∀ m ∈ members, Passed m.value.value) (around : List Enclosure) (ahead : Blanks)
    (rest : List Char) :
    ∃ k ≤ (joinFrom false (Tree.memberTexts members)).length + 1,
      Leads k .afterValue (.object :: around)
        (ahead.chars ++ (joinFrom false (Tree.memberTexts members) ++ '}' :: rest))
        .afterValue around rest := by
  induction members generalizing ahead with
  | nil =>
    refine ⟨1, by simp [Tree.memberTexts], leads_step ?_ (Or.inr (by simp))⟩
    simp only [Tree.memberTexts, joinFrom_nil, List.nil_append, skipStep]
    rw [skipBlanks_append, skipBlanks_cons (by decide)]
    simp
  | cons m members ih =>
    obtain ⟨before, parts, after, ⟨pad, t, behind⟩⟩ := m
    obtain ⟨k, hk, hlead⟩ := ih (fun m hm => hmembers m (List.mem_cons_of_mem _ hm)) behind
    obtain ⟨l, hl, hvalue⟩ := hmembers ⟨before, parts, after, ⟨pad, t, behind⟩⟩ List.mem_cons_self
      (.object :: around) pad
      (behind.chars ++ (joinFrom false (Tree.memberTexts members) ++ '}' :: rest))
      (numberEnds_blanks _ fun d hd => (joinFrom_head hd).imp_right Or.inr)
    have hcomma : skipStep .afterValue (.object :: around) (ahead.chars ++
        (joinFrom false (Tree.memberTexts (⟨before, parts, after, ⟨pad, t, behind⟩⟩ :: members)) ++
          '}' :: rest)) =
        .ok (.value, .object :: around, pad.chars ++ (t.chars ++
          (behind.chars ++ (joinFrom false (Tree.memberTexts members) ++ '}' :: rest)))) := by
      rw [joinFrom_member]
      simp only [skipStep, afterName, List.cons_append, List.nil_append, Bool.false_eq_true,
        if_false]
      rw [skipBlanks_append, skipBlanks_cons (by decide)]
      simp [skipName_append]
    refine ⟨1 + (l + k), ?_, (leads_step hcomma (Or.inr (by simp))).trans (hvalue.trans hlead)⟩
    simp only [Tree.memberTexts, joinFrom_cons, List.length_append, List.length_cons] at hl hk ⊢
    simp
    omega

theorem passed_list (ahead : Blanks) {items : List (Padded Tree)}
    (hitems : ∀ i ∈ items, Passed i.value) : Passed (.list ahead items) := by
  intro around pad rest hends
  cases items with
  | nil =>
    refine ⟨1, by simp [Tree.chars], leads_step ?_ (Or.inl rfl)⟩
    simp only [Tree.chars, Tree.itemTexts, commaJoin, List.cons_append, List.append_assoc,
      List.nil_append, skipStep]
    rw [skipBlanks_append, skipBlanks_cons (by decide)]
    simp only [skipStart, skipOpening]
    rw [skipBlanks_append, skipBlanks_cons (by decide)]
    rfl
  | cons i items =>
    obtain ⟨before, t, after⟩ := i
    obtain ⟨k, hk, hlead⟩ :=
      leads_items (fun i hi => hitems i (List.mem_cons_of_mem _ hi)) around after rest
    obtain ⟨l, hl, hvalue⟩ := hitems ⟨before, t, after⟩ List.mem_cons_self (.list :: around) .none
      (after.chars ++ (joinFrom false (Tree.itemTexts items) ++ ']' :: rest))
      (numberEnds_blanks _ fun d hd => (joinFrom_head hd).imp_right Or.inl)
    have hopen : skipStep .value around (pad.chars ++
        ((Tree.list ahead (⟨before, t, after⟩ :: items)).chars ++ rest)) =
        .ok (.value, .list :: around, Blanks.none.chars ++ (t.chars ++
          (after.chars ++ (joinFrom false (Tree.itemTexts items) ++ ']' :: rest)))) := by
      obtain ⟨c, cs, hchars, hblank, -, hclose, -⟩ := t.exists_cons
      simp only [Tree.chars, Tree.itemTexts, commaJoin_cons, List.cons_append, List.append_assoc,
        List.nil_append, skipStep, Blanks.none]
      rw [skipBlanks_append, skipBlanks_cons (by decide)]
      simp only [skipStart, skipOpening]
      rw [skipBlanks_append, skipBlanks_append, hchars, List.cons_append, skipBlanks_cons hblank]
      simp [isDigit, hclose]
    refine ⟨1 + (l + k), ?_, (leads_step hopen (Or.inl rfl)).trans (hvalue.trans hlead)⟩
    simp only [Tree.chars, Tree.itemTexts, commaJoin_cons, List.length_append, List.length_cons,
      List.length_nil] at hl ⊢
    omega

theorem passed_object (ahead : Blanks) {members : List (Member Tree)}
    (hmembers : ∀ m ∈ members, Passed m.value.value) : Passed (.object ahead members) := by
  intro around pad rest hends
  cases members with
  | nil =>
    refine ⟨1, by simp [Tree.chars], leads_step ?_ (Or.inl rfl)⟩
    simp only [Tree.chars, Tree.memberTexts, commaJoin, List.cons_append, List.append_assoc,
      List.nil_append, skipStep]
    rw [skipBlanks_append, skipBlanks_cons (by decide)]
    simp only [skipStart, skipOpening]
    rw [skipBlanks_append, skipBlanks_cons (by decide)]
    rfl
  | cons m members =>
    obtain ⟨before, parts, after, ⟨pad', t, behind⟩⟩ := m
    obtain ⟨k, hk, hlead⟩ :=
      leads_members (fun m hm => hmembers m (List.mem_cons_of_mem _ hm)) around behind rest
    obtain ⟨l, hl, hvalue⟩ := hmembers ⟨before, parts, after, ⟨pad', t, behind⟩⟩
      List.mem_cons_self (.object :: around) pad'
      (behind.chars ++ (joinFrom false (Tree.memberTexts members) ++ '}' :: rest))
      (numberEnds_blanks _ fun d hd => (joinFrom_head hd).imp_right Or.inr)
    have hopen : skipStep .value around (pad.chars ++
        ((Tree.object ahead (⟨before, parts, after, ⟨pad', t, behind⟩⟩ :: members)).chars ++
          rest)) =
        .ok (.value, .object :: around, pad'.chars ++ (t.chars ++
          (behind.chars ++ (joinFrom false (Tree.memberTexts members) ++ '}' :: rest)))) := by
      have hname := skipName_append .none after parts (pad'.chars ++ (t.chars ++
        (behind.chars ++ (joinFrom false (Tree.memberTexts members) ++ '}' :: rest))))
      simp only [Tree.quoted, Blanks.none, List.cons_append, List.append_assoc,
        List.nil_append] at hname
      simp only [Tree.chars, Tree.memberTexts, commaJoin_cons, Tree.quoted, List.cons_append,
        List.append_assoc, List.nil_append, skipStep]
      rw [skipBlanks_append, skipBlanks_cons (by decide)]
      simp only [skipStart, skipOpening]
      rw [skipBlanks_append, skipBlanks_append, skipBlanks_cons (by decide)]
      simp [isDigit, hname]
    refine ⟨1 + (l + k), ?_, (leads_step hopen (Or.inl rfl)).trans (hvalue.trans hlead)⟩
    simp only [Tree.chars, Tree.memberTexts, commaJoin_cons, List.length_append,
      List.length_cons, List.length_nil] at hl ⊢
    omega

theorem passed (t : Tree) : Passed t := by
  induction t using Tree.induct with
  | null => exact passed_of_step fun around rest _ => ⟨'n', _, rfl, by decide, rfl⟩
  | bool b =>
    cases b <;> exact passed_of_step fun around rest _ => ⟨_, _, rfl, by decide, rfl⟩
  | number n => exact passed_number n
  | text parts =>
    apply passed_of_step
    intro around rest _
    refine ⟨'"', _, rfl, by decide, ?_⟩
    simp [skipStart, isDigit, skipString_parts, afterScalar]
  | list ahead items ih => exact passed_list ahead ih
  | object ahead members ih => exact passed_object ahead ih

theorem skipValue_append (ahead : Blanks) (t : Tree) {rest : List Char} (hends : NumberEnds rest) :
    skipValue (ahead.chars ++ (t.chars ++ rest)) = .ok rest := by
  obtain ⟨k, hk, hlead⟩ := passed t [] ahead rest hends
  obtain ⟨fuel, hfuel⟩ : ∃ fuel, (ahead.chars ++ (t.chars ++ rest)).length + 2 = (fuel + 1) + k :=
    ⟨(ahead.chars ++ (t.chars ++ rest)).length + 1 - k, by
      simp only [List.length_append]
      omega⟩
  rw [skipValue, hfuel, hlead]
  rfl

/-- A whole text is passed over up to the blanks at its end. -/
theorem skipValue_text (d : Padded Tree) : skipValue d.text.toList = .ok d.after.chars := by
  rw [Padded.text, String.toList_ofList]
  exact skipValue_append d.before d.value d.after.numberEnds

theorem skipValue_sound {s rest : List Char} (h : skipValue s = .ok rest) :
    ∃ (ahead : Blanks) (t : Tree), s = ahead.chars ++ (t.chars ++ rest) := by
  obtain ⟨ahead, t, r, hs, hcloses⟩ := skipFrom_sound h
  exact ⟨ahead, t, by rw [hs, show r = rest from hcloses]⟩

end PoolWatch.Json
