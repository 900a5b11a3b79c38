import PoolWatch.Proofs.Json.Form
import PoolWatch.Proofs.Json.Records

/-!
# Beginnings that reveal a misfit

A reader stops where a text cannot become what is due any more. The characters up to there are
well-formed as far as they go, and they reveal a misfit whatever comes behind them. So a misfit is
told of a beginning of the text, in the words of the grammar, and the reader finds these and no
others.
-/

namespace PoolWatch.Json

/-- `reveals u rest m`: a text that begins with `u` is not what is due, and `m` says why. The `rest`
behind it counts only in so far as a number must not go on there. -/
abbrev Reveals := List Char → List Char → Misfit → Prop

/-- Nothing reveals a misfit where any value will do. -/
def Reveals.never : Reveals := fun _ _ _ => False

/-- The tree begins with characters that reveal a misfit. -/
def Opens (reveals : Reveals) (t : Tree) (u : List Char) (m : Misfit) : Prop :=
  u ≠ [] ∧ ∃ v, t.chars = u ++ v ∧ ∀ rest, NumberEnds rest → reveals u (v ++ rest) m

theorem Opens.whole {reveals : Reveals} {t : Tree} {m : Misfit}
    (h : ∀ rest, NumberEnds rest → reveals t.chars rest m) : Opens reveals t t.chars m := by
  obtain ⟨c, cs, hchars, -⟩ := t.exists_cons
  exact ⟨by simp [hchars], [], (List.append_nil _).symm, h⟩

/-- The reader fails by a misfit exactly where a beginning reveals it. Each such beginning is one of
some tree. A tree within the limits that has no meaning has such a beginning. -/
structure Sorts {α : Type} (reader : Reader α) (meaning : Tree → Option α) (reveals : Reveals)
    (within : Tree → Prop) : Prop where
  reads : Reads reader meaning
  refused : ∀ (ahead : Blanks) {u rest : List Char} {m : Misfit}, reveals u rest m →
    Misfits (reader (ahead.chars ++ (u ++ rest))) m
  revealed : ∀ {s : List Char} {m : Misfit}, Misfits (reader s) m →
    ∃ (ahead : Blanks) (u rest : List Char), s = ahead.chars ++ (u ++ rest) ∧ reveals u rest m
  begun : ∀ {u rest : List Char} {m : Misfit}, reveals u rest m → ∃ t, Opens reveals t u m
  decided : ∀ {t : Tree}, within t → meaning t = none → ∃ u m, Opens reveals t u m

section

variable {α β : Type} {reader : Reader α} {meaning : Tree → Option α} {reveals : Reveals}
  {within : Tree → Prop}

theorem Opens.head {t : Tree} {u : List Char} {m : Misfit} (h : Opens reveals t u m) :
    ∃ c cs, u = c :: cs ∧ isJsonBlank c = false ∧ c ≠ ']' := by
  obtain ⟨hne, v, hchars, -⟩ := h
  obtain ⟨c, cs, rfl⟩ := List.exists_cons_of_ne_nil hne
  obtain ⟨d, ds, hd, hblank, -, hclose, -⟩ := t.exists_cons
  obtain ⟨rfl, -⟩ := List.cons.inj (hd.symm.trans hchars)
  exact ⟨d, cs, rfl, hblank, hclose⟩

theorem Sorts.map (h : Sorts reader meaning reveals within) (f : α → β) :
    Sorts (Reader.map f reader) (fun t => (meaning t).map f) reveals within where
  reads := h.reads.map f
  refused := by
    intro ahead u rest m hu
    obtain ⟨e, he, hm⟩ := h.refused ahead hu
    exact ⟨e, by simp only [Reader.map, he], hm⟩
  revealed := by
    intro s m hs
    refine h.revealed ?_
    obtain ⟨e, he, hm⟩ := hs
    unfold Reader.map at he
    split at he
    next e' hread => exact ⟨e', hread, Except.error.inj he ▸ hm⟩
    · cases he
  begun := h.begun
  decided := by
    intro t ht hnone
    exact h.decided ht (Option.map_eq_none_iff.mp hnone)

theorem sorts_kept (depth : Nat) :
    Sorts (readValue depth) (kept? depth) .never (Keepable depth) where
  reads := reads_kept depth
  refused := by
    intro ahead u rest m hu
    exact hu.elim
  revealed := by
    intro s m hs
    exact absurd hs ((readValue_formal depth s).not_misfits m)
  begun := by
    intro u rest m hu
    exact hu.elim
  decided := by
    intro t ht hnone
    rw [← keepable_iff, hnone] at ht
    cases ht

end

/-! ## Scalars -/

/-- How a value is told of that stands where another was due. -/
def found : Json → Found
  | .null => .null
  | .bool b => .bool b
  | .number n => .number n
  | .text s => .text s
  | .list _ => .list
  | .object _ => .object

/-- A scalar stands where a list or a record is due. -/
inductive ScalarReveals (expected : Expected) : Reveals
  | intro {t : Tree} {v : Json} {rest : List Char} : kept? 0 t = some v → t.Ends rest →
    ScalarReveals expected t.chars rest (.wrongType (found v) expected)

theorem scalar_head {t : Tree} {v : Json} (h : kept? 0 t = some v) :
    ∃ c cs, t.chars = c :: cs ∧ isJsonBlank c = false ∧ c ≠ '[' ∧ c ≠ '{' := by
  cases t with
  | null => exact ⟨'n', _, rfl, by decide⟩
  | bool b => cases b <;> exact ⟨_, _, rfl, by decide⟩
  | number n =>
    obtain ⟨c, cs, hchars, hc⟩ := n.exists_cons
    refine ⟨c, cs, by rw [Tree.chars, hchars], ?_⟩
    rcases hc with hc | rfl
    · exact ⟨not_blank_of_digit hc, isDigit_ne hc (by decide), isDigit_ne hc (by decide)⟩
    · decide
  | text parts => exact ⟨'"', _, rfl, by decide⟩
  | list ahead items => simp [kept?, keptWith?] at h
  | object ahead members => simp [kept?, keptWith?] at h

theorem failType_eq {α : Type} (expected : Expected) {c : Char} (hblank : isJsonBlank c = false)
    (hlist : c ≠ '[') (hobject : c ≠ '{') (cs : List Char) :
    failType (α := α) expected (c :: cs) = match readValueWith none (c :: cs) with
      | .error f => .error f
      | .ok (v, rest) => failHere (.misfit (.wrongType (found v) expected)) rest := by
  rw [failType, skipBlanks_cons hblank]
  simp only [if_neg hlist, if_neg hobject]
  split <;> simp_all [found]

theorem ScalarReveals.refused {α : Type} {expected : Expected} {u rest : List Char} {m : Misfit}
    (h : ScalarReveals expected u rest m) :
    Misfits (failType (α := α) expected (u ++ rest)) m := by
  obtain ⟨hv, hends⟩ := h
  obtain ⟨c, cs, hchars, hblank, hlist, hobject⟩ := scalar_head hv
  have hread := readValueWith_complete Option.Rel.none hv hends
  rw [hchars, List.cons_append] at hread ⊢
  rw [failType_eq expected hblank hlist hobject, hread]
  exact ⟨_, rfl, rfl⟩

theorem failType_revealed {α : Type} {expected : Expected} {c : Char} {cs : List Char}
    (hblank : isJsonBlank c = false) (hlist : c ≠ '[') (hobject : c ≠ '{') {m : Misfit}
    (h : Misfits (failType (α := α) expected (c :: cs)) m) :
    ∃ u rest, c :: cs = u ++ rest ∧ ScalarReveals expected u rest m := by
  rw [failType_eq expected hblank hlist hobject] at h
  split at h
  next f hread =>
    exact absurd h ((readValueWith_formal (by simp) _).not_passed hread)
  next v rest hread =>
    obtain ⟨t, hchars, hv, hends⟩ := readValueWith_sound Option.Rel.none hread
    rw [skipBlanks_cons hblank] at hchars
    obtain rfl := Fault.misfit.inj (misfits_error.mp h)
    exact ⟨t.chars, rest, hchars, .intro hv hends⟩

theorem ScalarReveals.opens {expected : Expected} {reveals : Reveals}
    (hreveals : ∀ {u rest m}, ScalarReveals expected u rest m → reveals u rest m) {t : Tree}
    {v : Json} (hv : kept? 0 t = some v) :
    Opens reveals t t.chars (.wrongType (found v) expected) :=
  .whole fun _ hends => hreveals (.intro hv (hends.ends t))

/-! ## Some items, and then one that fails -/

/-- Texts with a comma behind each. -/
def led (texts : List (List Char)) : List Char := texts.flatMap (· ++ [','])

theorem led_cons (p : List Char) (ps : List (List Char)) : led (p :: ps) = p ++ ',' :: led ps := by
  simp [led]

theorem commaJoin_middle (ps : List (List Char)) (p : List Char) (qs : List (List Char)) :
    commaJoin (ps ++ p :: qs) = led ps ++ (p ++ joinFrom false qs) := by
  induction ps with
  | nil => exact commaJoin_cons p qs
  | cons q ps ih =>
    rw [List.cons_append, commaJoin_cons, led_cons]
    cases ps with
    | nil => simp [led, joinFrom_cons]
    | cons r ps =>
      rw [List.cons_append, commaJoin_cons] at ih
      rw [List.cons_append, joinFrom_cons, if_neg Bool.false_ne_true, ih, List.append_assoc]
      rfl

theorem itemTexts_append (items more : List (Padded Tree)) :
    Tree.itemTexts (items ++ more) = Tree.itemTexts items ++ Tree.itemTexts more := by
  induction items with
  | nil => rfl
  | cons i items ih =>
    obtain ⟨before, t, after⟩ := i
    simp [Tree.itemTexts, ih]

theorem itemTexts_length_le (items : List (Padded Tree)) :
    items.length ≤ (led (Tree.itemTexts items)).length := by
  induction items with
  | nil => simp
  | cons i items ih =>
    rw [Tree.itemTexts, led_cons, List.length_append, List.length_cons, List.length_cons]
    omega

/-- What begins a further item, with the comma ahead unless it is the first. -/
def leading (first : Bool) : List Char := if first then [] else [',']

theorem nextItem_start (first : Bool) (ahead before : Blanks) {c : Char}
    (hblank : isJsonBlank c = false) (hclose : c ≠ ']') (s : List Char) :
    nextItem first (ahead.chars ++ (leading first ++ (before.chars ++ c :: s))) =
      .ok (some (c :: s), c :: s) := by
  rw [nextItem, skipBlanks_append]
  cases first with
  | true =>
    rw [leading, if_pos rfl, List.nil_append, skipBlanks_append, skipBlanks_cons hblank]
    simp [hclose]
  | false =>
    rw [leading, if_neg Bool.false_ne_true, List.cons_append, List.nil_append,
      skipBlanks_cons (by decide)]
    simp [skipBlanks_append, skipBlanks_cons hblank, hclose]

theorem list_chars (pad : Blanks) (items : List (Padded Tree)) (i : Padded Tree)
    (more : List (Padded Tree)) {u v : List Char} (hi : i.value.chars = u ++ v) :
    (Tree.list pad (items ++ i :: more)).chars =
      ('[' :: (pad.chars ++ (led (Tree.itemTexts items) ++ (i.before.chars ++ u)))) ++
        (v ++ (i.after.chars ++ (joinFrom false (Tree.itemTexts more) ++ [']']))) := by
  obtain ⟨before, t, after⟩ := i
  simp only at hi
  simp [Tree.chars, itemTexts_append, Tree.itemTexts, commaJoin_middle, hi]

section

variable {α : Type} {item : Reader α} {item? : Tree → Option α} {reveals : Reveals}
  {within : Tree → Prop}

theorem readItemsFrom_refused (h : Sorts item item? reveals within) {items : List (Padded Tree)}
    (hitems : ∀ i ∈ items, (item? i.value).isSome = true) {u rest : List Char} {m : Misfit}
    (hu : reveals u rest m) (before : Blanks) (first : Bool) (ahead : Blanks) (done : List α)
    {fuel : Nat} (hfuel : items.length < fuel) :
    Misfits (readItemsFrom item fuel first done (ahead.chars ++ (leading first ++
      (led (Tree.itemTexts items) ++ (before.chars ++ (u ++ rest)))))) m := by
  induction items generalizing first ahead done fuel with
  | nil =>
    obtain ⟨fuel, rfl⟩ : ∃ n, fuel = n + 1 := ⟨fuel - 1, by omega⟩
    obtain ⟨t, hopens⟩ := h.begun hu
    obtain ⟨c, cs, rfl, hblank, hclose⟩ := hopens.head
    obtain ⟨f, hf, hm⟩ := h.refused .none hu
    have hnext := nextItem_start first ahead before hblank hclose (cs ++ rest)
    refine ⟨f, ?_, hm⟩
    simp only [Tree.itemTexts, led, List.flatMap_nil, List.nil_append, List.cons_append,
      Blanks.none] at hnext hf ⊢
    simp only [readItemsFrom, hnext, hf]
  | cons i items ih =>
    obtain ⟨fuel, rfl⟩ : ∃ n, fuel = n + 1 := ⟨fuel - 1, by omega⟩
    have hleft : items.length < fuel := by simpa using hfuel
    obtain ⟨pad, t, after⟩ := i
    obtain ⟨v, hv⟩ := Option.isSome_iff_exists.mp (hitems _ List.mem_cons_self)
    obtain ⟨c, cs, hchars, hblank, -, hclose, -⟩ := t.exists_cons
    have hends : NumberEnds (after.chars ++ ',' :: (led (Tree.itemTexts items) ++
        (before.chars ++ (u ++ rest)))) := numberEnds_blanks _ (by simp)
    have hread := h.reads.bare hv hends
    have hnext := nextItem_start first ahead pad hblank hclose
      (cs ++ (after.chars ++ ',' :: (led (Tree.itemTexts items) ++ (before.chars ++ (u ++ rest)))))
    have hrest := ih (fun j hj => hitems j (List.mem_cons_of_mem _ hj)) false after (v :: done)
      hleft
    rw [← List.cons_append, ← hchars] at hnext
    simp only [Tree.itemTexts, led_cons, List.append_assoc, List.cons_append]
    simp only [readItemsFrom, hnext, hread]
    exact hrest

theorem readItemsFrom_revealed (h : Sorts item item? reveals within) {fuel : Nat} {first : Bool}
    {done : List α} {s : List Char} {m : Misfit}
    (hfails : Misfits (readItemsFrom item fuel first done s) m) :
    ∃ (ahead : Blanks) (items : List (Padded Tree)) (before : Blanks) (u rest : List Char),
      s = ahead.chars ++ (leading first ++
        (led (Tree.itemTexts items) ++ (before.chars ++ (u ++ rest)))) ∧
      (∀ i ∈ items, (item? i.value).isSome = true) ∧ reveals u rest m := by
  induction fuel generalizing first done s with
  | zero => simp [readItemsFrom, failPeek, misfits_error] at hfails
  | succ fuel ih =>
    simp only [readItemsFrom] at hfails
    split at hfails
    next f hnext => exact absurd hfails ((nextItem_formal _ _).not_passed hnext)
    · exact absurd hfails not_misfits_ok
    next start r hnext =>
    obtain ⟨ahead, before, rfl⟩ := nextItem_sound_item hnext
    split at hfails
    next f hread =>
      obtain ⟨pad, u, rest, rfl, hu⟩ := h.revealed ⟨f, hread, misfits_error.mp hfails⟩
      exact ⟨ahead, [], before.append pad, u, rest, by simp [Tree.itemTexts, led, leading,
        Blanks.append], by simp, hu⟩
    next v r' hread =>
      obtain ⟨pad, t, rfl, hv⟩ := h.reads.sound hread
      obtain ⟨after, items, before', u, rest, rfl, hitems, hu⟩ := ih hfails
      refine ⟨ahead, ⟨before.append pad, t, after⟩ :: items, before', u, rest, ?_, ?_, hu⟩
      · simp [Tree.itemTexts, led_cons, leading, Blanks.append]
      · rw [List.forall_mem_cons]
        exact ⟨by simp [hv], hitems⟩

/-! ## Sequences -/

/-- What reveals that something is no sequence: a scalar, a brace, or an item that fails behind
items that are read. -/
inductive SequenceReveals (item? : Tree → Option α) (reveals : Reveals) : Reveals
  | scalar {u rest : List Char} {m : Misfit} : ScalarReveals .sequence u rest m →
    SequenceReveals item? reveals u rest m
  | object {rest : List Char} :
    SequenceReveals item? reveals ['{'] rest (.wrongType .object .sequence)
  | item (pad : Blanks) {items : List (Padded Tree)} (before : Blanks) {u rest : List Char}
    {m : Misfit} : (∀ i ∈ items, (item? i.value).isSome = true) → reveals u rest m →
    SequenceReveals item? reveals
      ('[' :: (pad.chars ++ (led (Tree.itemTexts items) ++ (before.chars ++ u)))) rest m

/-- The items of a list are within the limits, and so is a scalar in its place. -/
def WithinSequence (within : Tree → Prop) : Tree → Prop
  | .list _ items => ∀ i ∈ items, within i.value
  | .object _ _ => True
  | t => Keepable 0 t

theorem SequenceReveals.opens_item {t : Tree} {u : List Char} {m : Misfit}
    (h : Opens reveals t u m) (pad : Blanks) {items : List (Padded Tree)}
    (hitems : ∀ i ∈ items, (item? i.value).isSome = true) (before after : Blanks)
    (more : List (Padded Tree)) :
    Opens (SequenceReveals item? reveals) (.list pad (items ++ ⟨before, t, after⟩ :: more))
      ('[' :: (pad.chars ++ (led (Tree.itemTexts items) ++ (before.chars ++ u)))) m := by
  obtain ⟨-, v, hchars, hu⟩ := h
  refine ⟨by simp, _, list_chars pad items ⟨before, t, after⟩ more hchars, fun rest _ => ?_⟩
  refine .item pad before hitems ?_
  rw [List.append_assoc]
  apply hu
  rw [List.append_assoc, List.append_assoc]
  exact numberEnds_blanks _ fun c hc => (joinFrom_head hc).imp_right Or.inl

theorem sequence_first_failure {items : List (Padded Tree)}
    (h : items.mapM (item? ·.value) = none) :
    ∃ good bad more, items = good ++ bad :: more ∧
      (∀ i ∈ good, (item? i.value).isSome = true) ∧ item? bad.value = none := by
  induction items with
  | nil => simp at h
  | cons i items ih =>
    cases hi : item? i.value with
    | none => exact ⟨[], i, items, rfl, by simp, hi⟩
    | some v =>
      rw [List.mapM_cons, hi] at h
      have hitems : items.mapM (item? ·.value) = none := by
        cases hrest : items.mapM (item? ·.value) with
        | none => rfl
        | some vs => simp [hrest] at h
      obtain ⟨good, bad, more, rfl, hgood, hbad⟩ := ih hitems
      refine ⟨i :: good, bad, more, rfl, ?_, hbad⟩
      rw [List.forall_mem_cons]
      exact ⟨by simp [hi], hgood⟩

theorem readSequence_cons (item : Reader α) (ahead : Blanks) {c : Char}
    (hblank : isJsonBlank c = false) (s : List Char) :
    readSequence (some item) (ahead.chars ++ c :: s) =
      if c = '[' then readItems item s else failType .sequence (c :: s) := by
  rw [readSequence, skipBlanks_append, skipBlanks_cons hblank]

theorem failType_object {expected : Expected} (s : List Char) :
    failType (α := α) expected ('{' :: s) =
      failHere (.misfit (.wrongType .object expected)) ('{' :: s) := by
  rw [failType, skipBlanks_cons (by decide)]
  simp

theorem SequenceReveals.refused (h : Sorts item item? reveals within) (ahead : Blanks)
    {u rest : List Char} {m : Misfit} (hu : SequenceReveals item? reveals u rest m) :
    Misfits (readSequence (some item) (ahead.chars ++ (u ++ rest))) m := by
  cases hu with
  | scalar hscalar =>
    have hrefused := hscalar.refused (α := List α × List Char)
    obtain ⟨hv, -⟩ := hscalar
    obtain ⟨c, cs, hchars, hblank, hlist, -⟩ := scalar_head hv
    rw [hchars, List.cons_append] at hrefused ⊢
    rwa [readSequence_cons item ahead hblank, if_neg hlist]
  | object =>
    rw [List.cons_append, readSequence_cons item ahead (by decide), if_neg (by decide),
      failType_object]
    exact ⟨_, rfl, rfl⟩
  | @item pad items before u rest m hitems hu =>
    rw [List.cons_append, readSequence_cons item ahead (by decide), if_pos rfl]
    simp only [List.append_assoc]
    refine readItemsFrom_refused h hitems hu before true pad [] ?_
    have hlength := itemTexts_length_le items
    simp only [List.length_append]
    omega

theorem readSequence_revealed (h : Sorts item item? reveals within) {s : List Char} {m : Misfit}
    (hfails : Misfits (readSequence (some item) s) m) :
    ∃ (ahead : Blanks) (u rest : List Char), s = ahead.chars ++ (u ++ rest) ∧
      SequenceReveals item? reveals u rest m := by
  obtain hskip | ⟨ahead, c, r, rfl, hblank⟩ := skipBlanks_cases s
  · rw [readSequence, hskip] at hfails
    simp [failPeek, misfits_error] at hfails
  · rw [readSequence_cons item ahead hblank] at hfails
    by_cases hlist : c = '['
    · subst hlist
      rw [if_pos rfl] at hfails
      obtain ⟨pad, items, before, u, rest, rfl, hitems, hu⟩ := readItemsFrom_revealed h hfails
      exact ⟨ahead, _, rest, by simp [leading], .item pad before hitems hu⟩
    rw [if_neg hlist] at hfails
    by_cases hobject : c = '{'
    · subst hobject
      rw [failType_object] at hfails
      obtain rfl := Fault.misfit.inj (misfits_error.mp hfails)
      exact ⟨ahead, ['{'], r, rfl, .object⟩
    · obtain ⟨u, rest, hchars, hu⟩ := failType_revealed hblank hlist hobject hfails
      exact ⟨ahead, u, rest, by rw [hchars], .scalar hu⟩

theorem sorts_sequence (h : Sorts item item? reveals within) :
    Sorts (readSequence (some item)) (sequence? item?) (SequenceReveals item? reveals)
      (WithinSequence within) where
  reads := reads_sequence h.reads
  refused := SequenceReveals.refused h
  revealed := readSequence_revealed h
  begun := by
    intro u rest m hu
    cases hu with
    | scalar hscalar =>
      obtain ⟨hv, -⟩ := hscalar
      exact ⟨_, ScalarReveals.opens SequenceReveals.scalar hv⟩
    | object =>
      exact ⟨.object .none [], by simp, ['}'], rfl, fun rest _ => .object⟩
    | item pad before hitems hu =>
      obtain ⟨t, ht⟩ := h.begun hu
      exact ⟨_, SequenceReveals.opens_item ht pad hitems before .none []⟩
  decided := by
    intro t ht hnone
    cases t with
    | list pad items =>
      obtain ⟨good, bad, more, rfl, hgood, hbad⟩ := sequence_first_failure hnone
      obtain ⟨u, m, hopens⟩ := h.decided (ht bad (by simp)) hbad
      exact ⟨_, m, SequenceReveals.opens_item hopens pad hgood bad.before bad.after more⟩
    | object pad members =>
      refine ⟨['{'], _, by simp, _, rfl, fun rest _ => .object⟩
    | _ =>
      obtain ⟨v, hv⟩ := Option.isSome_iff_exists.mp ((keepable_iff _ 0).mpr ht)
      exact ⟨_, _, ScalarReveals.opens SequenceReveals.scalar hv⟩

end

end PoolWatch.Json
