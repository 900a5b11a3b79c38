import PoolWatch.Json.Structure
import PoolWatch.Proofs.Json.Numerals
import PoolWatch.Proofs.Json.Strings

/-!
# Lists and objects are read as they are written

What a reader of values has to do is said once, by `Reads`. A reader of lists then reads exactly the
lists of what its items are read as.
-/

namespace PoolWatch.Json

/-- The reader accepts exactly the trees that have a meaning, and answers with the meaning. Blanks
may come first. -/
structure Reads {α : Type} (reader : Reader α) (meaning : Tree → Option α) : Prop where
  complete : ∀ (ahead : Blanks) {t : Tree} {rest : List Char} {v : α}, meaning t = some v →
    NumberEnds rest → reader (ahead.chars ++ (t.chars ++ rest)) = .ok (v, rest)
  sound : ∀ {s rest : List Char} {v : α}, reader s = .ok (v, rest) →
    ∃ (ahead : Blanks) (t : Tree), s = ahead.chars ++ (t.chars ++ rest) ∧ meaning t = some v

theorem Reads.bare {α : Type} {reader : Reader α} {meaning : Tree → Option α}
    (h : Reads reader meaning) {t : Tree} {rest : List Char} {v : α} (hv : meaning t = some v)
    (hends : NumberEnds rest) : reader (t.chars ++ rest) = .ok (v, rest) :=
  h.complete .none hv hends

/-! ## Blanks -/

def Blanks.append (a b : Blanks) : Blanks :=
  ⟨a.chars ++ b.chars, fun c hc => (List.mem_append.mp hc).elim (a.blank c) (b.blank c)⟩

theorem skipBlanks_append (b : Blanks) (s : List Char) :
    skipBlanks (b.chars ++ s) = skipBlanks s := List.dropWhile_append_of_pos b.blank

theorem skipBlanks_cons {c : Char} (h : isJsonBlank c = false) (s : List Char) :
    skipBlanks (c :: s) = c :: s := List.dropWhile_cons_of_neg (by simp [h])

theorem skipBlanks_sound (s : List Char) : ∃ b : Blanks, s = b.chars ++ skipBlanks s :=
  ⟨⟨s.takeWhile isJsonBlank, List.all_eq_true.mp List.all_takeWhile⟩,
    List.takeWhile_append_dropWhile.symm⟩

theorem skipBlanks_cases (s : List Char) : skipBlanks s = [] ∨
    ∃ (b : Blanks) (c : Char) (r : List Char), s = b.chars ++ c :: r ∧ isJsonBlank c = false := by
  obtain ⟨b, hs⟩ := skipBlanks_sound s
  cases hskip : skipBlanks s with
  | nil => exact .inl rfl
  | cons c r =>
    have hhead := List.head?_dropWhile_not isJsonBlank s
    rw [show s.dropWhile isJsonBlank = c :: r from hskip] at hhead
    rw [hskip] at hs
    exact .inr ⟨b, c, r, hs, by simpa using hhead⟩

theorem numberEnds_of_head {s : List Char}
    (h : ∀ c ∈ s.head?, isJsonBlank c = true ∨ c = ',' ∨ c = ']' ∨ c = '}') : NumberEnds s := by
  intro c hc
  rcases h c hc with h | rfl | rfl | rfl
  · simp only [isJsonBlank, Bool.or_eq_true, beq_iff_eq] at h
    rcases h with ((rfl | rfl) | rfl) | rfl <;> decide
  all_goals decide

theorem NumberEnds.behind {s : List Char} (h : NumberEnds s) (b : Blanks) :
    NumberEnds (b.chars ++ s) := by
  cases hb : b.chars with
  | nil => exact h
  | cons d ds =>
    apply numberEnds_of_head
    intro c hc
    obtain rfl : d = c := by simpa using hc
    exact .inl (b.blank d (by simp [hb]))

theorem numberEnds_blanks (b : Blanks) {s : List Char}
    (h : ∀ c ∈ s.head?, c = ',' ∨ c = ']' ∨ c = '}') : NumberEnds (b.chars ++ s) :=
  (numberEnds_of_head fun c hc => .inr (h c hc)).behind b

theorem Blanks.numberEnds (b : Blanks) : NumberEnds b.chars := by
  simpa using numberEnds_blanks b (s := []) (by simp)

/-! ## The first character of a value -/

theorem Numeral.exists_cons (n : Numeral) : ∃ c cs, n.chars = c :: cs ∧
    (isDigit c = true ∨ c = '-') := by
  obtain ⟨c, cs, hchars, hc, -⟩ := n.whole.exists_cons
  cases h : n.negative with
  | true => exact ⟨'-', n.unsignedChars, by simp [chars, h], Or.inr rfl⟩
  | false =>
    exact ⟨c, cs ++ (fractionChars n.fraction ++ powerChars n.power),
      by simp [chars, h, unsignedChars, hchars], Or.inl hc⟩

theorem not_blank_of_digit {c : Char} (hc : isDigit c = true) : isJsonBlank c = false := by
  simp only [isJsonBlank, Bool.or_eq_false_iff, beq_eq_false_iff_ne]
  exact ⟨⟨⟨isDigit_ne hc (by decide), isDigit_ne hc (by decide)⟩,
    isDigit_ne hc (by decide)⟩, isDigit_ne hc (by decide)⟩

theorem Tree.exists_cons (t : Tree) : ∃ c cs, t.chars = c :: cs ∧ isJsonBlank c = false ∧
    c ≠ ',' ∧ c ≠ ']' ∧ c ≠ '}' := by
  cases t with
  | null => exact ⟨'n', _, rfl, by decide⟩
  | bool b => cases b <;> exact ⟨_, _, rfl, by decide⟩
  | number n =>
    obtain ⟨c, cs, hchars, hc⟩ := n.exists_cons
    refine ⟨c, cs, by simp [Tree.chars, hchars], ?_⟩
    rcases hc with hc | rfl
    · exact ⟨not_blank_of_digit hc, isDigit_ne hc (by decide), isDigit_ne hc (by decide),
        isDigit_ne hc (by decide)⟩
    · decide
  | text parts => exact ⟨'"', _, rfl, by decide⟩
  | list ahead items => exact ⟨'[', _, rfl, by decide⟩
  | object ahead members => exact ⟨'{', _, rfl, by decide⟩

/-! ## Commas -/

/-- Texts with commas between them, and one ahead unless they are the first. -/
def joinFrom (first : Bool) (texts : List (List Char)) : List Char :=
  if first then commaJoin texts else texts.flatMap (',' :: ·)

theorem commaJoin_cons (p : List Char) (ps : List (List Char)) :
    commaJoin (p :: ps) = p ++ joinFrom false ps := by
  induction ps generalizing p with
  | nil => simp [commaJoin, joinFrom]
  | cons q qs ih =>
    have := ih q
    simp_all [commaJoin, joinFrom]

@[simp] theorem joinFrom_nil (first : Bool) : joinFrom first [] = [] := by
  cases first <;> rfl

theorem joinFrom_cons (first : Bool) (p : List Char) (ps : List (List Char)) :
    joinFrom first (p :: ps) = (if first then [] else [',']) ++ (p ++ joinFrom false ps) := by
  cases first with
  | true => exact commaJoin_cons p ps
  | false => simp [joinFrom]

theorem joinFrom_head {texts : List (List Char)} {c d : Char} {rest : List Char}
    (h : d ∈ (joinFrom false texts ++ c :: rest).head?) : d = ',' ∨ d = c := by
  cases texts with
  | nil => exact Or.inr (by simpa [eq_comm] using h)
  | cons p ps => exact Or.inl (by simpa [joinFrom_cons, eq_comm] using h)

/-! ## Items -/

theorem nextItem_end (first : Bool) (ahead : Blanks) (rest : List Char) :
    nextItem first (ahead.chars ++ ']' :: rest) = .ok (none, ']' :: rest) := by
  rw [nextItem, skipBlanks_append, skipBlanks_cons (by decide)]
  simp

theorem nextItem_item (first : Bool) (ahead : Blanks) (i : Padded Tree) (items : List (Padded Tree))
    (rest : List Char) :
    ∃ s, nextItem first (ahead.chars ++ (joinFrom first (Tree.itemTexts (i :: items)) ++ rest)) =
      .ok (some (i.value.chars ++ (i.after.chars ++
        (joinFrom false (Tree.itemTexts items) ++ rest))), s) := by
  obtain ⟨before, t, after⟩ := i
  obtain ⟨c, cs, hchars, hblank, hcomma, hclose, -⟩ := t.exists_cons
  simp only [Tree.itemTexts, joinFrom_cons, List.append_assoc]
  rw [nextItem, skipBlanks_append]
  cases first with
  | true =>
    rw [if_pos rfl, List.nil_append, skipBlanks_append, hchars, List.cons_append,
      skipBlanks_cons hblank]
    simp [hclose]
  | false =>
    simp only [Bool.false_eq_true, if_false, List.cons_append, List.nil_append]
    rw [skipBlanks_cons (by decide)]
    simp only [Char.reduceEq, if_false, if_true]
    rw [skipBlanks_append, hchars, List.cons_append, skipBlanks_cons hblank]
    simp [hclose]

theorem nextItem_sound_end {first : Bool} {s r : List Char} (h : nextItem first s = .ok (none, r)) :
    ∃ (ahead : Blanks), s = ahead.chars ++ ']' :: r.drop 1 := by
  obtain ⟨ahead, hs⟩ := skipBlanks_sound s
  unfold nextItem at h
  split at h
  · simp [failPeek] at h
  rename_i c rest hskip
  split at h
  · rename_i hc
    simp only [Except.ok.injEq, Prod.mk.injEq, true_and] at h
    exact ⟨ahead, by rw [hs, hskip, ← h, hc]; rfl⟩
  split at h
  · simp at h
  split at h
  · split at h
    · simp [failPeek] at h
    · split at h <;> simp [failPeek] at h
  · simp [failPeek] at h

theorem nextItem_sound_item {first : Bool} {s start r : List Char}
    (h : nextItem first s = .ok (some start, r)) :
    ∃ (ahead before : Blanks),
      s = ahead.chars ++ ((if first then [] else [',']) ++ (before.chars ++ start)) := by
  obtain ⟨ahead, hs⟩ := skipBlanks_sound s
  unfold nextItem at h
  split at h
  · simp [failPeek] at h
  rename_i c rest hskip
  split at h
  · simp at h
  split at h
  · rename_i hfirst
    simp only [Except.ok.injEq, Prod.mk.injEq, Option.some.injEq] at h
    exact ⟨ahead, .none, by rw [hs, hskip, h.1, if_pos hfirst]; rfl⟩
  rename_i hfirst
  split at h
  · rename_i hc
    obtain ⟨before, hbefore⟩ := skipBlanks_sound rest
    split at h
    · simp [failPeek] at h
    rename_i d r' hd
    split at h
    · simp [failPeek] at h
    simp only [Except.ok.injEq, Prod.mk.injEq, Option.some.injEq] at h
    refine ⟨ahead, before, ?_⟩
    rw [hs, hskip, hc, hbefore, hd, h.1, if_neg hfirst]
    rfl
  · simp [failPeek] at h

theorem readItemsFrom_items {α : Type} {item : Reader α} {meaning : Tree → Option α}
    (hitem : Reads item meaning) (rest : List Char) (items : List (Padded Tree)) (first : Bool)
    (ahead : Blanks) (done vs : List α) (fuel : Nat)
    (h : items.mapM (meaning ·.value) = some vs) (hfuel : items.length < fuel) :
    readItemsFrom item fuel first done
        (ahead.chars ++ (joinFrom first (Tree.itemTexts items) ++ ']' :: rest)) =
      .ok (done.reverse ++ vs, rest) := by
  induction items generalizing first ahead done vs fuel with
  | nil =>
    obtain ⟨fuel, rfl⟩ : ∃ n, fuel = n + 1 := ⟨fuel - 1, by omega⟩
    obtain rfl : [] = vs := by simpa using h
    simp [Tree.itemTexts, readItemsFrom, nextItem_end]
  | cons i items ih =>
    obtain ⟨fuel, rfl⟩ : ∃ n, fuel = n + 1 := ⟨fuel - 1, by omega⟩
    rw [List.length_cons] at hfuel
    rw [List.mapM_cons] at h
    obtain ⟨v, hv, h⟩ := Option.bind_eq_some_iff.mp h
    obtain ⟨ws, hws, h⟩ := Option.bind_eq_some_iff.mp h
    obtain rfl : v :: ws = vs := by simpa using h
    obtain ⟨s, hnext⟩ := nextItem_item first ahead i items (']' :: rest)
    have hends : NumberEnds
        (i.after.chars ++ (joinFrom false (Tree.itemTexts items) ++ ']' :: rest)) :=
      numberEnds_blanks _ fun d hd => (joinFrom_head hd).imp_right Or.inl
    have hread := hitem.bare hv hends
    simp only [readItemsFrom, hnext, hread]
    rw [ih false i.after (v :: done) ws fuel hws (by omega)]
    simp

theorem readItemsFrom_sound {α : Type} {item : Reader α} {meaning : Tree → Option α}
    (hitem : Reads item meaning) {rest : List Char} {fuel : Nat} {first : Bool}
    {done vs : List α} {s : List Char} (h : readItemsFrom item fuel first done s = .ok (vs, rest)) :
    ∃ (ahead : Blanks) (items : List (Padded Tree)) (ws : List α),
      s = ahead.chars ++ (joinFrom first (Tree.itemTexts items) ++ ']' :: rest) ∧
        items.mapM (meaning ·.value) = some ws ∧ vs = done.reverse ++ ws := by
  induction fuel generalizing first done s with
  | zero => simp [readItemsFrom, failPeek] at h
  | succ fuel ih =>
    simp only [readItemsFrom] at h
    split at h
    · simp at h
    · rename_i r hnext
      obtain ⟨ahead, rfl⟩ := nextItem_sound_end hnext
      simp only [Except.ok.injEq, Prod.mk.injEq] at h
      exact ⟨ahead, [], [], by simp [Tree.itemTexts, h.2], rfl, by simp [h.1]⟩
    · rename_i start r hnext
      obtain ⟨ahead, before, rfl⟩ := nextItem_sound_item hnext
      split at h
      · simp at h
      rename_i v r' hread
      obtain ⟨before', t, rfl, hv⟩ := hitem.sound hread
      obtain ⟨after, items, ws, rfl, hws, rfl⟩ := ih h
      refine ⟨ahead, ⟨before.append before', t, after⟩ :: items, v :: ws, ?_, ?_, by simp⟩
      · simp [Tree.itemTexts, joinFrom_cons, Blanks.append]
      · simp [hv, hws]

theorem length_itemTexts (items : List (Padded Tree)) :
    items.length ≤ (joinFrom true (Tree.itemTexts items)).length := by
  suffices h : ∀ first, items.length ≤ (joinFrom first (Tree.itemTexts items)).length from h true
  induction items with
  | nil => simp
  | cons i items ih =>
    intro first
    obtain ⟨c, cs, hchars, -⟩ := i.value.exists_cons
    have := ih false
    simp only [Tree.itemTexts, joinFrom_cons, List.length_append, hchars, List.length_cons]
    omega

theorem readItems_items {α : Type} {item : Reader α} {meaning : Tree → Option α}
    (hitem : Reads item meaning) {items : List (Padded Tree)} {vs : List α}
    (h : items.mapM (meaning ·.value) = some vs) (ahead : Blanks) (rest : List Char) :
    readItems item (ahead.chars ++ (commaJoin (Tree.itemTexts items) ++ ']' :: rest)) =
      .ok (vs, rest) := by
  have hlength := length_itemTexts items
  exact readItemsFrom_items hitem rest items true ahead [] vs _ h
    (by simp only [joinFrom, if_true, List.length_append] at hlength ⊢; omega)

theorem readItems_sound {α : Type} {item : Reader α} {meaning : Tree → Option α}
    (hitem : Reads item meaning) {s rest : List Char} {vs : List α}
    (h : readItems item s = .ok (vs, rest)) :
    ∃ (ahead : Blanks) (items : List (Padded Tree)),
      s = ahead.chars ++ (commaJoin (Tree.itemTexts items) ++ ']' :: rest) ∧
        items.mapM (meaning ·.value) = some vs := by
  obtain ⟨ahead, items, ws, hs, hws, rfl⟩ := readItemsFrom_sound hitem h
  exact ⟨ahead, items, hs, hws⟩

/-! ## Members -/

theorem nextName_end (first : Bool) (ahead : Blanks) (rest : List Char) :
    nextName first (ahead.chars ++ '}' :: rest) = .ok (none, '}' :: rest) := by
  rw [nextName, skipBlanks_append, skipBlanks_cons (by decide)]
  simp

/-- What follows the name of the first of some members. -/
def afterName (m : Member Tree) (members : List (Member Tree)) (rest : List Char) : List Char :=
  m.after.chars ++ ':' :: (m.value.before.chars ++ (m.value.value.chars ++
    (m.value.after.chars ++ (joinFrom false (Tree.memberTexts members) ++ rest))))

theorem nextName_member (first : Bool) (ahead : Blanks) {m : Member Tree} {name : String}
    (hname : partsText? m.name = some name) (members : List (Member Tree)) (rest : List Char) :
    nextName first (ahead.chars ++ (joinFrom first (Tree.memberTexts (m :: members)) ++ rest)) =
      .ok (some name, afterName m members rest) := by
  obtain ⟨before, parts, after, ⟨pad, t, behind⟩⟩ := m
  have hread := readString_parts hname
    (afterName ⟨before, parts, after, ⟨pad, t, behind⟩⟩ members rest)
  simp only [Tree.memberTexts, joinFrom_cons, List.append_assoc, Tree.quoted, List.cons_append,
    List.nil_append]
  simp only [afterName] at hread ⊢
  rw [nextName, skipBlanks_append]
  cases first with
  | true =>
    rw [if_pos rfl, List.nil_append, skipBlanks_append, skipBlanks_cons (by decide)]
    simp [hread]
  | false =>
    simp only [Bool.false_eq_true, if_false, List.cons_append, List.nil_append]
    rw [skipBlanks_cons (by decide)]
    simp only [Char.reduceEq, if_false, if_true]
    rw [skipBlanks_append, skipBlanks_cons (by decide)]
    simp [hread]

theorem nextName_sound_end {first : Bool} {s r : List Char} (h : nextName first s = .ok (none, r)) :
    ∃ (ahead : Blanks), s = ahead.chars ++ '}' :: r.drop 1 := by
  obtain ⟨ahead, hs⟩ := skipBlanks_sound s
  unfold nextName at h
  split at h
  · simp [failPeek] at h
  rename_i c rest hskip
  split at h
  · rename_i hc
    simp only [Except.ok.injEq, Prod.mk.injEq, true_and] at h
    exact ⟨ahead, by rw [hs, hskip, ← h, hc]; rfl⟩
  split at h
  · split at h
    · split at h <;> simp at h
    · simp [failPeek] at h
  split at h
  · split at h
    · simp [failPeek] at h
    split at h
    · split at h <;> simp at h
    · split at h <;> simp [failPeek] at h
  · simp [failPeek] at h

theorem nextName_sound_name {first : Bool} {s r : List Char} {name : String}
    (h : nextName first s = .ok (some name, r)) :
    ∃ (ahead before : Blanks) (parts : List Part),
      s = ahead.chars ++ ((if first then [] else [',']) ++
        (before.chars ++ (Tree.quoted parts ++ r))) ∧ partsText? parts = some name := by
  obtain ⟨ahead, hs⟩ := skipBlanks_sound s
  unfold nextName at h
  split at h
  · simp [failPeek] at h
  rename_i c rest hskip
  split at h
  · simp at h
  split at h
  · rename_i hfirst
    split at h
    · rename_i hc
      split at h
      · simp at h
      rename_i name' r' hread
      simp only [Except.ok.injEq, Prod.mk.injEq, Option.some.injEq] at h
      obtain ⟨rfl, rfl⟩ := h
      obtain ⟨parts, rfl, hparts⟩ := readString_sound hread
      refine ⟨ahead, .none, parts, ?_, hparts⟩
      rw [hs, hskip, hc, if_pos hfirst]
      simp [Blanks.none, Tree.quoted]
    · simp [failPeek] at h
  rename_i hfirst
  split at h
  · rename_i hc
    obtain ⟨before, hbefore⟩ := skipBlanks_sound rest
    split at h
    · simp [failPeek] at h
    rename_i d r' hd
    split at h
    · rename_i hquote
      split at h
      · simp at h
      rename_i name' r'' hread
      simp only [Except.ok.injEq, Prod.mk.injEq, Option.some.injEq] at h
      obtain ⟨rfl, rfl⟩ := h
      obtain ⟨parts, rfl, hparts⟩ := readString_sound hread
      refine ⟨ahead, before, parts, ?_, hparts⟩
      rw [hs, hskip, hc, hbefore, hd, hquote, if_neg hfirst]
      simp [Tree.quoted]
    · split at h <;> simp [failPeek] at h
  · simp [failPeek] at h

theorem readColon_blanks (after : Blanks) (s : List Char) :
    readColon (after.chars ++ ':' :: s) = .ok s := by
  rw [readColon, skipBlanks_append, skipBlanks_cons (by decide)]
  simp

theorem readColon_sound {s r : List Char} (h : readColon s = .ok r) :
    ∃ after : Blanks, s = after.chars ++ ':' :: r := by
  obtain ⟨after, hs⟩ := skipBlanks_sound s
  unfold readColon at h
  split at h
  · simp [failPeek] at h
  rename_i c rest hskip
  split at h
  · rename_i hc
    exact ⟨after, by rw [hs, hskip, hc, Except.ok.inj h]⟩
  · simp [failPeek] at h

theorem member_numberEnds (m : Member Tree) (members : List (Member Tree)) (rest : List Char) :
    NumberEnds
      (m.value.after.chars ++ (joinFrom false (Tree.memberTexts members) ++ '}' :: rest)) :=
  numberEnds_blanks _ fun _ hd => (joinFrom_head hd).imp_right Or.inr

theorem joinFrom_member (first : Bool) (before after : Blanks) (parts : List Part)
    (i : Padded Tree) (members : List (Member Tree)) (rest : List Char) :
    joinFrom first (Tree.memberTexts (⟨before, parts, after, i⟩ :: members)) ++ rest =
      (if first then [] else [',']) ++ (before.chars ++ (Tree.quoted parts ++
        afterName ⟨before, parts, after, i⟩ members rest)) := by
  obtain ⟨pad, t, behind⟩ := i
  simp [Tree.memberTexts, joinFrom_cons, afterName]

theorem length_memberTexts (members : List (Member Tree)) :
    members.length ≤ (joinFrom true (Tree.memberTexts members)).length := by
  suffices h : ∀ first, members.length ≤ (joinFrom first (Tree.memberTexts members)).length from
    h true
  induction members with
  | nil => simp
  | cons m members ih =>
    intro first
    have := ih false
    simp only [Tree.memberTexts, joinFrom_cons, List.length_append, Tree.quoted, List.length_cons]
    omega

end PoolWatch.Json
