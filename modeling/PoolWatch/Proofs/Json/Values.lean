import Mathlib.Logic.Basic
import Mathlib.Tactic.Tauto
import PoolWatch.Json.Reader
import PoolWatch.Proofs.Json.Structure

/-!
# Values are read as they are written

A value that is kept may be nested to a limit, its numbers are in range and its surrogates have
their partners. These values are read, and no others.
-/

namespace PoolWatch.Json

/-! ## The value of a tree -/

/-- Puts members behind those so far. `value?` says what the values are. -/
def keptMembers? (value? : Tree → Option Json) :
    List (String × Json) → List (Member Tree) → Option (List (String × Json))
  | done, [] => some done
  | done, m :: rest =>
    match partsText? m.name, value? m.value.value with
    | some name, some v => keptMembers? value? (insertMember name v done) rest
    | _, _ => none

/-- The value of a tree, `inner?` being the value of what it holds if anything may be nested. -/
def keptWith? (inner? : Option (Tree → Option Json)) : Tree → Option Json
  | .null => some null
  | .bool b => some (bool b)
  | .number n => n.number?.map number
  | .text parts => (partsText? parts).map text
  | .list _ items =>
    inner?.bind fun value? => (items.mapM (value? ·.value)).map list
  | .object _ members => inner?.bind fun value? => (keptMembers? value? [] members).map object

/-- The value of a tree that is nested to the depth at most. -/
def kept? : Nat → Tree → Option Json
  | 0 => keptWith? none
  | depth + 1 => keptWith? (some (kept? depth))

mutual

/-- All numbers are in range and all surrogates have their partners. -/
def Tree.Sound : Tree → Prop
  | .null => True
  | .bool _ => True
  | .number n => n.InRange
  | .text parts => Paired parts
  | .list _ items => itemsSound items
  | .object _ members => membersSound members

def itemsSound : List (Padded Tree) → Prop
  | [] => True
  | ⟨_, t, _⟩ :: rest => t.Sound ∧ itemsSound rest

def membersSound : List (Member Tree) → Prop
  | [] => True
  | ⟨_, name, _, ⟨_, t, _⟩⟩ :: rest => (Paired name ∧ t.Sound) ∧ membersSound rest

end

/-- A value that can be kept at this depth. -/
def Keepable (depth : Nat) (t : Tree) : Prop := t.height ≤ depth ∧ t.Sound

theorem itemsSound_iff {items : List (Padded Tree)} :
    itemsSound items ↔ ∀ i ∈ items, i.value.Sound := by
  induction items with
  | nil => simp [itemsSound]
  | cons i rest ih => simp [itemsSound, ih]

theorem membersSound_iff {members : List (Member Tree)} :
    membersSound members ↔ ∀ m ∈ members, Paired m.name ∧ m.value.value.Sound := by
  induction members with
  | nil => simp [membersSound]
  | cons m rest ih => simp [membersSound, ih]

theorem mapM_isSome {α β : Type} {f : α → Option β} {xs : List α} :
    (xs.mapM f).isSome = true ↔ ∀ x ∈ xs, (f x).isSome = true := by
  induction xs with
  | nil => simp
  | cons x xs ih =>
    rw [List.mapM_cons, List.forall_mem_cons, ← ih]
    cases f x <;> cases xs.mapM f <;> simp

theorem mapM_eq_some_iff {α β : Type} {f : α → Option β} {xs : List α} {ys : List β} :
    xs.mapM f = some ys ↔ xs.map f = ys.map some := by
  induction xs generalizing ys with
  | nil => cases ys <;> simp
  | cons x xs ih =>
    rw [List.mapM_cons]
    cases hx : f x with
    | none => cases ys <;> simp [hx]
    | some y =>
      cases ys with
      | nil => cases xs.mapM f <;> simp
      | cons z zs =>
        simp only [List.map_cons, hx, List.cons.injEq, Option.some.injEq, ← ih]
        cases xs.mapM f <;> simp

theorem keptMembers?_isSome {value? : Tree → Option Json} {done : List (String × Json)}
    {members : List (Member Tree)} : (keptMembers? value? done members).isSome = true ↔
      ∀ m ∈ members, Paired m.name ∧ (value? m.value.value).isSome = true := by
  induction members generalizing done with
  | nil => simp [keptMembers?]
  | cons m rest ih =>
    rw [keptMembers?, List.forall_mem_cons, Paired]
    cases partsText? m.name <;> cases value? m.value.value <;> simp [ih]

theorem keepable_iff (t : Tree) (depth : Nat) :
    (kept? depth t).isSome = true ↔ Keepable depth t := by
  induction t using Tree.induct generalizing depth with
  | null => cases depth <;> simp [kept?, keptWith?, Keepable, Tree.height, Tree.Sound]
  | bool b => cases depth <;> simp [kept?, keptWith?, Keepable, Tree.height, Tree.Sound]
  | number n =>
    cases depth <;> simp [kept?, keptWith?, Keepable, Tree.height, Tree.Sound, Numeral.InRange]
  | text parts =>
    cases depth <;> simp [kept?, keptWith?, Keepable, Tree.height, Tree.Sound, Paired]
  | list ahead items ih =>
    cases depth with
    | zero => simp [kept?, keptWith?, Keepable, Tree.height]
    | succ depth =>
      simp only [kept?, keptWith?, Option.bind_some, Option.isSome_map, mapM_isSome, Keepable,
        Tree.height, Tree.Sound, itemsSound_iff, Nat.add_le_add_iff_right, Tree.itemsHeight_le]
      rw [← forall₂_and]
      exact forall₂_congr fun i hi => ih i hi depth
  | object ahead members ih =>
    cases depth with
    | zero => simp [kept?, keptWith?, Keepable, Tree.height]
    | succ depth =>
      simp only [kept?, keptWith?, Option.bind_some, Option.isSome_map, keptMembers?_isSome,
        Keepable, Tree.height, Tree.Sound, membersSound_iff, Nat.add_le_add_iff_right,
        Tree.membersHeight_le]
      rw [← forall₂_and]
      refine forall₂_congr fun m hm => ?_
      rw [ih m hm depth, Keepable]
      tauto

/-! ## Reading it -/

theorem readWord_sound {word s rest : List Char} (h : readWord word s = .ok rest) :
    s = word ++ rest := by
  induction word generalizing s with
  | nil => exact Except.ok.inj h
  | cons c cs ih =>
    cases s with
    | nil => simp [readWord, failHere] at h
    | cons d r =>
      simp only [readWord] at h
      split at h
      · rename_i hd
        rw [hd, ih h]
        rfl
      · simp [failPeek] at h

theorem readMembersFrom_members {value : Reader Json} {value? : Tree → Option Json}
    (hvalue : Reads value value?) (rest : List Char) (members : List (Member Tree)) (first : Bool)
    (ahead : Blanks) (done vs : List (String × Json)) (fuel : Nat)
    (h : keptMembers? value? done members = some vs) (hfuel : members.length < fuel) :
    readMembersFrom value fuel first done
        (ahead.chars ++ (joinFrom first (Tree.memberTexts members) ++ '}' :: rest)) =
      .ok (vs, rest) := by
  induction members generalizing first ahead done fuel with
  | nil =>
    obtain ⟨fuel, rfl⟩ : ∃ n, fuel = n + 1 := ⟨fuel - 1, by omega⟩
    obtain rfl : done = vs := by simpa [keptMembers?] using h
    simp [Tree.memberTexts, readMembersFrom, nextName_end]
  | cons m members ih =>
    obtain ⟨fuel, rfl⟩ : ∃ n, fuel = n + 1 := ⟨fuel - 1, by omega⟩
    rw [List.length_cons] at hfuel
    rw [keptMembers?] at h
    split at h
    · rename_i name v hname hv
      have hread := hvalue.complete m.value.before hv (member_numberEnds m members rest)
      have hrest := ih false m.value.after (insertMember name v done) fuel h (by omega)
      simp only [readMembersFrom, nextName_member first ahead hname, afterName, readColon_blanks,
        hread, hrest]
    · simp at h

theorem readMembersFrom_sound {value : Reader Json} {value? : Tree → Option Json}
    (hvalue : Reads value value?) {rest : List Char} {fuel : Nat} {first : Bool}
    {done vs : List (String × Json)} {s : List Char}
    (h : readMembersFrom value fuel first done s = .ok (vs, rest)) :
    ∃ (ahead : Blanks) (members : List (Member Tree)),
      s = ahead.chars ++ (joinFrom first (Tree.memberTexts members) ++ '}' :: rest) ∧
        keptMembers? value? done members = some vs := by
  induction fuel generalizing first done s with
  | zero => simp [readMembersFrom, failPeek] at h
  | succ fuel ih =>
    simp only [readMembersFrom] at h
    split at h
    · simp at h
    · rename_i r hnext
      obtain ⟨ahead, rfl⟩ := nextName_sound_end hnext
      simp only [Except.ok.injEq, Prod.mk.injEq] at h
      exact ⟨ahead, [], by simp [Tree.memberTexts, h.2], by simp [keptMembers?, h.1]⟩
    · rename_i name r hnext
      obtain ⟨ahead, before, parts, rfl, hname⟩ := nextName_sound_name hnext
      split at h
      · simp at h
      rename_i r' hcolon
      obtain ⟨after, rfl⟩ := readColon_sound hcolon
      split at h
      · simp at h
      rename_i v r'' hread
      obtain ⟨pad, t, rfl, hv⟩ := hvalue.sound hread
      obtain ⟨behind, members, rfl, hvs⟩ := ih h
      refine ⟨ahead, ⟨before, parts, after, ⟨pad, t, behind⟩⟩ :: members, ?_, ?_⟩
      · rw [joinFrom_member]
        rfl
      · simp [keptMembers?, hname, hv, hvs]

theorem readMembers_members {value : Reader Json} {value? : Tree → Option Json}
    (hvalue : Reads value value?) {members : List (Member Tree)} {vs : List (String × Json)}
    (h : keptMembers? value? [] members = some vs) (ahead : Blanks) (rest : List Char) :
    readMembers value (ahead.chars ++ (commaJoin (Tree.memberTexts members) ++ '}' :: rest)) =
      .ok (vs, rest) := by
  have hlength := length_memberTexts members
  exact readMembersFrom_members hvalue rest members true ahead [] vs _ h
    (by simp only [joinFrom, if_true, List.length_append] at hlength ⊢; omega)

/-- A number must not go on in what follows. Any other value ends by itself. -/
def Tree.Ends (rest : List Char) : Tree → Prop
  | .number n => n.Ends rest
  | _ => True

theorem NumberEnds.ends {rest : List Char} (h : NumberEnds rest) (t : Tree) : t.Ends rest := by
  cases t with
  | number n => exact h.tailEnds _ _
  | _ => trivial

theorem readValueWith_number (inner : Option (Reader Json)) {n : Numeral} {v : Number}
    (hv : n.number? = some v) {rest : List Char} (hends : n.Ends rest) :
    readValueWith inner (n.chars ++ rest) = .ok (number v, rest) := by
  have hread := (readNumber_eq_ok hends).mpr ⟨hv, rfl⟩
  rw [Numeral.chars]
  -- A minus and a digit are read in branches of their own.
  cases hsign : n.negative with
  | true =>
    rw [hsign] at hread
    simp [readValueWith, skipBlanks_cons, isJsonBlank, hread]
  | false =>
    obtain ⟨c, cs, hchars, hc, -⟩ := n.whole.exists_cons
    rw [hsign] at hread
    simp only [Bool.false_eq_true, if_false]
    generalize hs : n.unsignedChars ++ rest = s at hread ⊢
    obtain ⟨r, rfl⟩ : ∃ r, s = c :: r := ⟨_, by rw [← hs, Numeral.unsignedChars, hchars]; rfl⟩
    rw [readValueWith, skipBlanks_cons (not_blank_of_digit hc)]
    simp only [isDigit_ne hc (show isDigit 'n' = false by decide),
      isDigit_ne hc (show isDigit 't' = false by decide),
      isDigit_ne hc (show isDigit 'f' = false by decide),
      isDigit_ne hc (show isDigit '-' = false by decide), hc, if_true, if_false, hread]

theorem readValueWith_complete {inner : Option (Reader Json)}
    {inner? : Option (Tree → Option Json)} (hinner : Option.Rel Reads inner inner?)
    {t : Tree} {rest : List Char} {v : Json} (hv : keptWith? inner? t = some v)
    (hends : t.Ends rest) : readValueWith inner (t.chars ++ rest) = .ok (v, rest) := by
  cases t with
  | null =>
    obtain rfl : null = v := by simpa [keptWith?] using hv
    rfl
  | bool b =>
    obtain rfl : bool b = v := by simpa [keptWith?] using hv
    cases b <;> rfl
  | number n =>
    obtain ⟨x, hx, rfl⟩ := Option.map_eq_some_iff.mp hv
    exact readValueWith_number inner hx hends
  | text parts =>
    obtain ⟨name, hname, rfl⟩ := Option.map_eq_some_iff.mp hv
    have hread := readString_parts hname rest
    simp [Tree.chars, Tree.quoted, readValueWith, skipBlanks_cons, isJsonBlank, isDigit, hread]
  | list ahead items =>
    cases hinner with
    | none => simp [keptWith?] at hv
    | some hreads =>
      obtain ⟨vs, hvs, rfl⟩ := Option.map_eq_some_iff.mp hv
      have hread := readItems_items hreads hvs ahead rest
      simp [Tree.chars, readValueWith, skipBlanks_cons, isJsonBlank, isDigit, hread]
  | object ahead members =>
    cases hinner with
    | none => simp [keptWith?] at hv
    | some hreads =>
      obtain ⟨vs, hvs, rfl⟩ := Option.map_eq_some_iff.mp hv
      have hread := readMembers_members hreads hvs ahead rest
      simp [Tree.chars, readValueWith, skipBlanks_cons, isJsonBlank, isDigit, hread]

theorem readValueWith_sound {inner : Option (Reader Json)}
    {inner? : Option (Tree → Option Json)} (hinner : Option.Rel Reads inner inner?)
    {s rest : List Char} {v : Json} (h : readValueWith inner s = .ok (v, rest)) :
    ∃ t : Tree, skipBlanks s = t.chars ++ rest ∧ keptWith? inner? t = some v ∧ t.Ends rest := by
  unfold readValueWith at h
  split at h
  · simp [failPeek] at h
  rename_i c r hskip
  rw [hskip]
  split at h
  · rename_i hc
    split at h
    · simp at h
    rename_i r' hread
    simp only [Except.ok.injEq, Prod.mk.injEq] at h
    obtain ⟨rfl, rfl⟩ := h
    exact ⟨.null, by rw [hc, readWord_sound hread]; rfl, rfl, trivial⟩
  split at h
  · rename_i hc
    split at h
    · simp at h
    rename_i r' hread
    simp only [Except.ok.injEq, Prod.mk.injEq] at h
    obtain ⟨rfl, rfl⟩ := h
    exact ⟨.bool true, by rw [hc, readWord_sound hread]; rfl, rfl, trivial⟩
  split at h
  · rename_i hc
    split at h
    · simp at h
    rename_i r' hread
    simp only [Except.ok.injEq, Prod.mk.injEq] at h
    obtain ⟨rfl, rfl⟩ := h
    exact ⟨.bool false, by rw [hc, readWord_sound hread]; rfl, rfl, trivial⟩
  split at h
  · rename_i hc
    split at h
    · simp at h
    rename_i x r' hread
    simp only [Except.ok.injEq, Prod.mk.injEq] at h
    obtain ⟨rfl, rfl⟩ := h
    obtain ⟨n, hsign, rfl, hx, hends⟩ := readNumber_sound hread
    exact ⟨.number n, by simp [hc, Tree.chars, Numeral.chars, hsign], by simp [keptWith?, hx],
      hends⟩
  split at h
  · split at h
    · simp at h
    rename_i x r' hread
    simp only [Except.ok.injEq, Prod.mk.injEq] at h
    obtain ⟨rfl, rfl⟩ := h
    obtain ⟨n, hsign, hn, hx, hends⟩ := readNumber_sound hread
    exact ⟨.number n, by simp [hn, Tree.chars, Numeral.chars, hsign], by simp [keptWith?, hx],
      hends⟩
  split at h
  · rename_i hc
    split at h
    · simp at h
    rename_i name r' hread
    simp only [Except.ok.injEq, Prod.mk.injEq] at h
    obtain ⟨rfl, rfl⟩ := h
    obtain ⟨parts, rfl, hparts⟩ := readString_sound hread
    exact ⟨.text parts, by simp [hc, Tree.chars, Tree.quoted], by simp [keptWith?, hparts], trivial⟩
  split at h
  · rename_i hc
    cases hinner with
    | none => simp [failPeek] at h
    | some hreads =>
      simp only at h
      split at h
      · simp at h
      rename_i items r' hread
      simp only [Except.ok.injEq, Prod.mk.injEq] at h
      obtain ⟨rfl, rfl⟩ := h
      obtain ⟨ahead, items, rfl, hitems⟩ := readItems_sound hreads hread
      exact ⟨.list ahead items, by simp [hc, Tree.chars], by simp [keptWith?, hitems], trivial⟩
  split at h
  · rename_i hc
    cases hinner with
    | none => simp [failPeek] at h
    | some hreads =>
      simp only at h
      split at h
      · simp at h
      rename_i members r' hread
      simp only [Except.ok.injEq, Prod.mk.injEq] at h
      obtain ⟨rfl, rfl⟩ := h
      obtain ⟨ahead, members, rfl, hmembers⟩ := readMembersFrom_sound hreads hread
      exact ⟨.object ahead members, by simp [hc, Tree.chars, joinFrom],
        by simp [keptWith?, hmembers], trivial⟩
  · simp [failPeek] at h

theorem reads_keptWith {inner : Option (Reader Json)} {inner? : Option (Tree → Option Json)}
    (hinner : Option.Rel Reads inner inner?) :
    Reads (readValueWith inner) (keptWith? inner?) where
  complete := by
    intro ahead t rest v hv hends
    rw [← readValueWith_complete hinner hv (hends.ends t), readValueWith, skipBlanks_append,
      readValueWith]
  sound := by
    intro s rest v h
    obtain ⟨ahead, hs⟩ := skipBlanks_sound s
    obtain ⟨t, ht, hv, -⟩ := readValueWith_sound hinner h
    exact ⟨ahead, t, by rw [hs, ht], hv⟩

/-- Values are read down to a depth, and what is read is what is written. -/
theorem reads_kept (depth : Nat) : Reads (readValue depth) (kept? depth) := by
  induction depth with
  | zero => exact reads_keptWith .none
  | succ depth ih => exact reads_keptWith (.some ih)

end PoolWatch.Json
