import PoolWatch.Proofs.Json.Beginnings
import PoolWatch.Proofs.Json.Spacing

/-!
# Beginnings of records that reveal a misfit

A record fails in a field that it knows, at a name that comes a second time, or at its end when a
required field is missing. All that stands before is read.
-/

namespace PoolWatch.Json

variable {σ : Type} {fields : List (KnownField σ)} {reveals : String → Reveals}
  {within : String → Tree → Prop}

/-- What reveals a misfit in a member, from its name on. `reveals` says what does in the value of
each field. -/
inductive MemberReveals (fields : List (KnownField σ)) (reveals : String → Reveals) (state : σ) :
    Reveals
  | value {parts : List Part} {name : String} {f : KnownField σ} (after pad : Blanks)
    {u rest : List Char} {m : Misfit} : partsText? parts = some name →
    fields.find? (fun f => f.name == name) = some f → f.given state = false →
    reveals name u rest m → MemberReveals fields reveals state
      (Tree.quoted parts ++ (after.chars ++ ':' :: (pad.chars ++ u))) rest m
  | repeated {parts : List Part} {name : String} {f : KnownField σ} {rest : List Char} :
    partsText? parts = some name → fields.find? (fun f => f.name == name) = some f →
    f.given state = true →
    MemberReveals fields reveals state (Tree.quoted parts) rest (.repeatedField name)

/-- What reveals that something is no record: a scalar, a member or an item that fails behind others
that are taken, or an end that comes too early. -/
inductive RecordReveals (expected : Expected) (fields : List (KnownField σ)) (blank : σ)
    (reveals : String → Reveals) : Reveals
  | scalar {u rest : List Char} {m : Misfit} : ScalarReveals expected u rest m →
    RecordReveals expected fields blank reveals u rest m
  | member (pad : Blanks) {members : List (Member Tree)} {state : σ} (before : Blanks)
    {u rest : List Char} {m : Misfit} : takeMembers? fields blank members = some state →
    MemberReveals fields reveals state u rest m → RecordReveals expected fields blank reveals
      ('{' :: (pad.chars ++ (led (Tree.memberTexts members) ++ (before.chars ++ u)))) rest m
  | missing (pad : Blanks) {members : List (Member Tree)} {state : σ} {i : Nat} {name : String}
    {rest : List Char} : takeMembers? fields blank members = some state →
    missing? state 0 (fields.map (·.toRecordField)) = some (i, name) →
    RecordReveals expected fields blank reveals (Tree.object pad members).chars rest
      (.missingField name)
  | position (pad : Blanks) {items : List (Padded Tree)} {state : σ} {f : KnownField σ}
    (before : Blanks) {u rest : List Char} {m : Misfit} :
    takePositions? fields blank items = some state → fields[items.length]? = some f →
    reveals f.name u rest m → RecordReveals expected fields blank reveals
      ('[' :: (pad.chars ++ (led (Tree.itemTexts items) ++ (before.chars ++ u)))) rest m
  | short (pad : Blanks) {items : List (Padded Tree)} {state : σ} {i : Nat} {name : String}
    {rest : List Char} : takePositions? fields blank items = some state →
    missing? state 0 (fields.map (·.toRecordField)) = some (i, name) →
    RecordReveals expected fields blank reveals (Tree.list pad items).chars rest
      (.tooFew i expected)

/-- All names are paired, the fields are within the limits, and a list holds no more than them. A
scalar in the place of a record is within the limits too. -/
def WithinRecord (names : List String) (within : String → Tree → Prop) : Tree → Prop
  | .object _ members => ∀ m ∈ members, ∃ name, partsText? m.name = some name ∧
    (name ∈ names → within name m.value.value)
  | .list _ items => items.length ≤ names.length ∧
    ∀ p ∈ names.zip items, within p.1 p.2.value
  | t => Keepable 0 t

/-! ## Members -/

theorem nextName_start (first : Bool) (ahead before : Blanks) {parts : List Part} {name : String}
    (hname : partsText? parts = some name) (s : List Char) :
    nextName first (ahead.chars ++ (leading first ++ (before.chars ++ (Tree.quoted parts ++ s)))) =
      .ok (some name, s) := by
  have hread := readString_parts hname s
  have hquoted : Tree.quoted parts ++ s = '"' :: (partsChars parts ++ '"' :: s) := by
    simp [Tree.quoted]
  rw [hquoted, nextName, skipBlanks_append]
  cases first with
  | true =>
    rw [leading, if_pos rfl, List.nil_append, skipBlanks_append, skipBlanks_cons (by decide)]
    simp [hread]
  | false =>
    rw [leading, if_neg Bool.false_ne_true, List.cons_append, List.nil_append,
      skipBlanks_cons (by decide)]
    simp [skipBlanks_append, skipBlanks_cons (show isJsonBlank '"' = false by decide), hread]

theorem memberTexts_append (members more : List (Member Tree)) :
    Tree.memberTexts (members ++ more) = Tree.memberTexts members ++ Tree.memberTexts more := by
  induction members with
  | nil => rfl
  | cons m members ih =>
    obtain ⟨before, name, after, ⟨ahead, t, behind⟩⟩ := m
    simp [Tree.memberTexts, ih]

theorem memberTexts_length_le (members : List (Member Tree)) :
    members.length ≤ (led (Tree.memberTexts members)).length := by
  induction members with
  | nil => simp
  | cons m members ih =>
    rw [Tree.memberTexts, led_cons, List.length_append, List.length_cons, List.length_cons]
    omega

/-- Each field sorts its values. -/
def FieldsSort (fields : List (KnownField σ)) (reveals : String → Reveals)
    (within : String → Tree → Prop) : Prop :=
  ∀ f ∈ fields, ∀ state, Sorts (f.read state) (f.take state) (reveals f.name) (within f.name)

theorem failRepeated_misfits {α : Type} (name : String) (s : List Char) (m : Misfit) :
    Misfits (failRepeated (α := α) name s) m ↔ m = .repeatedField name := by
  unfold failRepeated
  split <;> simp [failHere, misfits_error, eq_comm]

theorem MemberReveals.refused (h : FieldsSort fields reveals within) {state : σ}
    {u rest : List Char} {m : Misfit} (hu : MemberReveals fields reveals state u rest m)
    (before : Blanks) (first : Bool) (ahead : Blanks) (fuel : Nat) :
    Misfits (readFieldsFrom (fields.map (·.toRecordField)) (fuel + 1) first state
      (ahead.chars ++ (leading first ++ (before.chars ++ (u ++ rest))))) m := by
  cases hu with
  | @value parts name f after pad u rest m hname hfind hgiven hu =>
    obtain rfl : f.name = name := by simpa using List.find?_some hfind
    obtain ⟨e, he, hm⟩ := (h f (List.mem_of_find?_eq_some hfind) state).refused pad hu
    have hnext := nextName_start first ahead before hname
      (after.chars ++ ':' :: (pad.chars ++ (u ++ rest)))
    refine ⟨e, ?_, hm⟩
    simp only [List.append_assoc, List.cons_append]
    simp only [readFieldsFrom, hnext, findField_eq, hfind, Option.map_some, hgiven,
      Bool.false_eq_true, if_false, readColon_blanks, he]
  | @repeated parts name f rest hname hfind hgiven =>
    simp only [readFieldsFrom, nextName_start first ahead before hname, findField_eq, hfind,
      Option.map_some, hgiven, if_true]
    exact (failRepeated_misfits _ _ _).mpr rfl

theorem readFieldsFrom_refused (h : FieldsSort fields reveals within)
    {members : List (Member Tree)} {state state' : σ}
    (hmembers : takeMembers? fields state members = some state') {u rest : List Char} {m : Misfit}
    (hu : MemberReveals fields reveals state' u rest m) (before : Blanks) (first : Bool)
    (ahead : Blanks) {fuel : Nat} (hfuel : members.length < fuel) :
    Misfits (readFieldsFrom (fields.map (·.toRecordField)) fuel first state
      (ahead.chars ++ (leading first ++
        (led (Tree.memberTexts members) ++ (before.chars ++ (u ++ rest)))))) m := by
  induction members generalizing first ahead state fuel with
  | nil =>
    obtain ⟨fuel, rfl⟩ : ∃ n, fuel = n + 1 := ⟨fuel - 1, by omega⟩
    obtain rfl : state = state' := by simpa [takeMembers?] using hmembers
    exact hu.refused h before first ahead fuel
  | cons i members ih =>
    obtain ⟨fuel, rfl⟩ : ∃ n, fuel = n + 1 := ⟨fuel - 1, by omega⟩
    rw [List.length_cons] at hfuel
    obtain ⟨pad, parts, after, ⟨ahead', t, behind⟩⟩ := i
    have hends : NumberEnds (behind.chars ++ ',' :: (led (Tree.memberTexts members) ++
        (before.chars ++ (u ++ rest)))) := numberEnds_blanks _ (by simp)
    rw [takeMembers?] at hmembers
    split at hmembers
    · cases hmembers
    next name hname =>
    have hnext := nextName_start first ahead pad hname (after.chars ++ ':' :: (ahead'.chars ++
      (t.chars ++ (behind.chars ++ ',' :: (led (Tree.memberTexts members) ++
        (before.chars ++ (u ++ rest)))))))
    simp only [Tree.memberTexts, led_cons, List.append_assoc, List.cons_append]
    simp only [readFieldsFrom, hnext, findField_eq]
    split at hmembers
    next hfind =>
      have hskip := skipValue_append ahead' t hends
      simp only [hfind, Option.map_none, readColon_blanks, hskip]
      exact ih hmembers false behind (by omega)
    next f hfind =>
    split at hmembers
    · cases hmembers
    next hgiven =>
    split at hmembers
    · cases hmembers
    next state'' htake =>
    have hread := (f.reads state).complete ahead' htake hends
    simp only [hfind, Option.map_some, hgiven, if_false, Bool.false_eq_true, readColon_blanks,
      hread]
    exact ih hmembers false behind (by omega)

theorem readFieldsFrom_revealed (h : FieldsSort fields reveals within) {fuel : Nat} {first : Bool}
    {state : σ} {s : List Char} {m : Misfit}
    (hfails : Misfits (readFieldsFrom (fields.map (·.toRecordField)) fuel first state s) m) :
    ∃ (ahead : Blanks) (members : List (Member Tree)) (state' : σ) (before : Blanks)
      (u rest : List Char),
      s = ahead.chars ++ (leading first ++
        (led (Tree.memberTexts members) ++ (before.chars ++ (u ++ rest)))) ∧
      takeMembers? fields state members = some state' ∧
      MemberReveals fields reveals state' u rest m := by
  induction fuel generalizing first state s with
  | zero => simp [readFieldsFrom, failPeek, misfits_error] at hfails
  | succ fuel ih =>
    simp only [readFieldsFrom, findField_eq] at hfails
    split at hfails
    next f hnext => exact absurd hfails ((nextName_formal _ _).not_passed hnext)
    · exact absurd hfails not_misfits_ok
    next name r hnext =>
    obtain ⟨ahead, before, parts, rfl, hname⟩ := nextName_sound_name hnext
    cases hfind : fields.find? (fun f => f.name == name) with
    | none =>
      simp only [hfind, Option.map_none] at hfails
      split at hfails
      next f hcolon => exact absurd hfails ((readColon_formal _).not_passed hcolon)
      next r' hcolon =>
      obtain ⟨after, rfl⟩ := readColon_sound hcolon
      split at hfails
      next f hskip => exact absurd hfails ((skipValue_formal _).not_passed hskip)
      next r'' hskip =>
      obtain ⟨pad, t, rfl⟩ := skipValue_sound hskip
      obtain ⟨behind, members, state', before', u, rest, rfl, hmembers, hu⟩ := ih hfails
      refine ⟨ahead, ⟨before, parts, after, ⟨pad, t, behind⟩⟩ :: members, state', before', u, rest,
        ?_, ?_, hu⟩
      · simp [Tree.memberTexts, led_cons, leading]
      · simp [takeMembers?, hname, hfind, hmembers]
    | some f =>
      simp only [hfind, Option.map_some] at hfails
      obtain rfl : f.name = name := by simpa using List.find?_some hfind
      split at hfails
      next hgiven =>
        obtain rfl := (failRepeated_misfits _ _ _).mp hfails
        exact ⟨ahead, [], state, before, Tree.quoted parts, r,
          by simp [Tree.memberTexts, led, leading], rfl, .repeated hname hfind hgiven⟩
      next hgiven =>
      split at hfails
      next f hcolon => exact absurd hfails ((readColon_formal _).not_passed hcolon)
      next r' hcolon =>
      obtain ⟨after, rfl⟩ := readColon_sound hcolon
      split at hfails
      next e hread =>
        obtain ⟨pad, u, rest, rfl, hu⟩ := (h f (List.mem_of_find?_eq_some hfind) state).revealed
          ⟨e, hread, misfits_error.mp hfails⟩
        exact ⟨ahead, [], state, before, _, rest, by simp [Tree.memberTexts, led, leading], rfl,
          .value after pad hname hfind (by simpa using hgiven) hu⟩
      next state'' r'' hread =>
      obtain ⟨pad, t, rfl, htake⟩ := (f.reads state).sound hread
      obtain ⟨behind, members, state', before', u, rest, rfl, hmembers, hu⟩ := ih hfails
      refine ⟨ahead, ⟨before, parts, after, ⟨pad, t, behind⟩⟩ :: members, state', before', u, rest,
        ?_, ?_, hu⟩
      · simp [Tree.memberTexts, led_cons, leading]
      · simp [takeMembers?, hname, hfind, hgiven, htake, hmembers]

/-! ## Positions -/

theorem FieldsSort.tail {f : KnownField σ} (h : FieldsSort (f :: fields) reveals within) :
    FieldsSort fields reveals within :=
  fun g hg => h g (List.mem_cons_of_mem _ hg)

theorem readPositions_refused (h : FieldsSort fields reveals within) {items : List (Padded Tree)}
    {state state' : σ} (hitems : takePositions? fields state items = some state')
    {f : KnownField σ} (hf : fields[items.length]? = some f) {u rest : List Char} {m : Misfit}
    (hu : reveals f.name u rest m) (before : Blanks) (first : Bool) (ahead : Blanks) :
    Misfits (readPositions (fields.map (·.toRecordField)) first state
      (ahead.chars ++ (leading first ++
        (led (Tree.itemTexts items) ++ (before.chars ++ (u ++ rest)))))) m := by
  induction items generalizing fields first ahead state with
  | nil =>
    obtain ⟨left, rfl⟩ : ∃ left, fields = f :: left := by
      cases fields with
      | nil => simp at hf
      | cons g left => exact ⟨left, by simpa using hf⟩
    obtain rfl : state = state' := by simpa [takePositions?] using hitems
    have hsorts := h f List.mem_cons_self state
    obtain ⟨t, hopens⟩ := hsorts.begun hu
    obtain ⟨c, cs, rfl, hblank, hclose⟩ := hopens.head
    obtain ⟨e, he, hm⟩ := hsorts.refused .none hu
    have hnext := nextItem_start first ahead before hblank hclose (cs ++ rest)
    refine ⟨e, ?_, hm⟩
    simp only [Tree.itemTexts, led, List.flatMap_nil, List.nil_append, List.cons_append,
      Blanks.none] at hnext he ⊢
    simp only [List.map_cons, readPositions, hnext, he]
  | cons i items ih =>
    cases fields with
    | nil => simp [takePositions?] at hitems
    | cons g left =>
      obtain ⟨pad, t, after⟩ := i
      simp only [takePositions?] at hitems
      split at hitems
      · cases hitems
      next state'' htake =>
      obtain ⟨c, cs, hchars, hblank, -, hclose, -⟩ := t.exists_cons
      have hends : NumberEnds (after.chars ++ ',' :: (led (Tree.itemTexts items) ++
          (before.chars ++ (u ++ rest)))) := numberEnds_blanks _ (by simp)
      have hread := (g.reads state).bare htake hends
      have hnext := nextItem_start first ahead pad hblank hclose
        (cs ++ (after.chars ++
          ',' :: (led (Tree.itemTexts items) ++ (before.chars ++ (u ++ rest)))))
      have hrest := ih h.tail hitems (by simpa using hf) false after
      rw [← List.cons_append, ← hchars] at hnext
      simp only [Tree.itemTexts, led_cons, List.append_assoc, List.cons_append]
      simp only [List.map_cons, readPositions, hnext, hread]
      exact hrest

theorem readPositions_revealed (h : FieldsSort fields reveals within) {first : Bool} {state : σ}
    {s : List Char} {m : Misfit}
    (hfails : Misfits (readPositions (fields.map (·.toRecordField)) first state s) m) :
    ∃ (ahead : Blanks) (items : List (Padded Tree)) (state' : σ) (f : KnownField σ)
      (before : Blanks) (u rest : List Char),
      s = ahead.chars ++ (leading first ++
        (led (Tree.itemTexts items) ++ (before.chars ++ (u ++ rest)))) ∧
      takePositions? fields state items = some state' ∧ fields[items.length]? = some f ∧
      reveals f.name u rest m := by
  induction fields generalizing first state s with
  | nil => exact absurd hfails not_misfits_ok
  | cons f left ih =>
    simp only [List.map_cons, readPositions] at hfails
    split at hfails
    next e hnext => exact absurd hfails ((nextItem_formal _ _).not_passed hnext)
    · exact absurd hfails not_misfits_ok
    next start r hnext =>
    obtain ⟨ahead, before, rfl⟩ := nextItem_sound_item hnext
    split at hfails
    next e hread =>
      obtain ⟨pad, u, rest, rfl, hu⟩ := (h f List.mem_cons_self state).revealed
        ⟨e, hread, misfits_error.mp hfails⟩
      exact ⟨ahead, [], state, f, before.append pad, u, rest,
        by simp [Tree.itemTexts, led, leading, Blanks.append], rfl, rfl, hu⟩
    next state'' r' hread =>
    obtain ⟨pad, t, rfl, htake⟩ := (f.reads state).sound hread
    obtain ⟨after, items, state', g, before', u, rest, rfl, hitems, hg, hu⟩ := ih h.tail hfails
    refine ⟨ahead, ⟨before.append pad, t, after⟩ :: items, state', g, before', u, rest, ?_, ?_, ?_,
      hu⟩
    · simp [Tree.itemTexts, led_cons, leading, Blanks.append]
    · simp [takePositions?, htake, hitems]
    · simpa using hg

/-! ## Records -/

theorem readRecord_other (expected : Expected) (blank : σ) (fields : List (RecordField σ))
    (ahead : Blanks) {c : Char} (hblank : isJsonBlank c = false) (hlist : c ≠ '[')
    (hobject : c ≠ '{') (s : List Char) :
    readRecord expected blank (some fields) (ahead.chars ++ c :: s) =
      failType expected (c :: s) := by
  rw [readRecord, skipBlanks_append, skipBlanks_cons hblank]
  simp only [if_neg hlist, if_neg hobject]

theorem readRecord_object_misfits {expected : Expected} {blank : σ}
    {fields : List (RecordField σ)} {ahead : Blanks} {s : List Char} {m : Misfit}
    (h : Misfits (readFieldsFrom fields (s.length + 1) true blank s) m) :
    Misfits (readRecord expected blank (some fields) (ahead.chars ++ '{' :: s)) m := by
  obtain ⟨e, he, hm⟩ := h
  exact ⟨e, by simp only [readRecord_object, he], hm⟩

theorem readRecord_list_misfits {expected : Expected} {blank : σ}
    {fields : List (RecordField σ)} {ahead : Blanks} {s : List Char} {m : Misfit}
    (h : Misfits (readPositions fields true blank s) m) :
    Misfits (readRecord expected blank (some fields) (ahead.chars ++ '[' :: s)) m := by
  obtain ⟨e, he, hm⟩ := h
  exact ⟨e, by simp only [readRecord_list, he], hm⟩

theorem RecordReveals.refused (h : FieldsSort fields reveals within) {expected : Expected}
    {blank : σ} (ahead : Blanks) {u rest : List Char} {m : Misfit}
    (hu : RecordReveals expected fields blank reveals u rest m) :
    Misfits (readRecord expected blank (some (fields.map (·.toRecordField)))
      (ahead.chars ++ (u ++ rest))) m := by
  cases hu with
  | scalar hscalar =>
    have hrefused := hscalar.refused (α := σ × List Char)
    obtain ⟨hv, -⟩ := hscalar
    obtain ⟨c, cs, hchars, hblank, hlist, hobject⟩ := scalar_head hv
    rw [hchars, List.cons_append] at hrefused ⊢
    rwa [readRecord_other _ _ _ ahead hblank hlist hobject]
  | @member pad members state before u rest m hmembers hu =>
    rw [List.cons_append]
    refine readRecord_object_misfits ?_
    simp only [List.append_assoc]
    refine readFieldsFrom_refused h hmembers hu before true pad ?_
    have hlength := memberTexts_length_le members
    simp only [List.length_append]
    omega
  | @missing pad members state i name rest hmembers hmissing =>
    rw [readRecord_members expected ahead pad hmembers, hmissing]
    exact ⟨_, rfl, rfl⟩
  | @position pad items state f before u rest m hitems hf hu =>
    rw [List.cons_append]
    refine readRecord_list_misfits ?_
    simp only [List.append_assoc]
    exact readPositions_refused h hitems hf hu before true pad
  | @short pad items state i name rest hitems hmissing =>
    rw [readRecord_items expected ahead pad hitems, hmissing]
    exact ⟨_, rfl, rfl⟩

theorem readRecord_revealed (h : FieldsSort fields reveals within) {expected : Expected}
    {blank : σ} {s : List Char} {m : Misfit}
    (hfails : Misfits (readRecord expected blank (some (fields.map (·.toRecordField))) s) m) :
    ∃ (ahead : Blanks) (u rest : List Char), s = ahead.chars ++ (u ++ rest) ∧
      RecordReveals expected fields blank reveals u rest m := by
  obtain hskip | ⟨ahead, c, r, rfl, hblank⟩ := skipBlanks_cases s
  · rw [readRecord, hskip] at hfails
    simp [failPeek, misfits_error] at hfails
  · by_cases hobject : c = '{'
    · subst hobject
      rw [readRecord_object] at hfails
      split at hfails
      next e hread =>
        obtain ⟨pad, members, state, before, u, rest, rfl, hmembers, hu⟩ :=
          readFieldsFrom_revealed h ⟨e, hread, misfits_error.mp hfails⟩
        exact ⟨ahead, _, rest, by simp [leading], .member pad before hmembers hu⟩
      next state rest hread =>
      split at hfails
      next i name hmissing =>
        obtain ⟨pad, members, rfl, hmembers⟩ := readFieldsFrom_sound fields hread
        obtain rfl := Fault.misfit.inj (misfits_error.mp hfails)
        exact ⟨ahead, _, rest, by simp [Tree.chars, joinFrom], .missing pad hmembers hmissing⟩
      · exact absurd hfails not_misfits_ok
    by_cases hlist : c = '['
    · subst hlist
      rw [readRecord_list] at hfails
      split at hfails
      next e hread =>
        obtain ⟨pad, items, state, f, before, u, rest, rfl, hitems, hf, hu⟩ :=
          readPositions_revealed h ⟨e, hread, misfits_error.mp hfails⟩
        exact ⟨ahead, _, rest, by simp [leading], .position pad before hitems hf hu⟩
      next state r' hread =>
      split at hfails
      next e hend => exact absurd hfails ((endList_formal _).not_passed hend)
      next rest hend =>
      split at hfails
      next i name hmissing =>
        obtain ⟨pad, items, rfl, hitems⟩ := readPositions_sound hread hend
        obtain rfl := Fault.misfit.inj (misfits_error.mp hfails)
        exact ⟨ahead, _, rest, by simp [Tree.chars, joinFrom], .short pad hitems hmissing⟩
      · exact absurd hfails not_misfits_ok
    rw [readRecord_other _ _ _ ahead hblank hlist hobject] at hfails
    obtain ⟨u, rest, hchars, hu⟩ := failType_revealed hblank hlist hobject hfails
    exact ⟨ahead, u, rest, by rw [hchars], .scalar hu⟩

/-! ## Trees that begin so -/

/-- What stands behind a name up to the next member. -/
def behindName (m : Member Tree) : List Char :=
  m.after.chars ++ ':' :: (m.value.before.chars ++ (m.value.value.chars ++ m.value.after.chars))

theorem object_chars (pad : Blanks) (members : List (Member Tree)) (i : Member Tree)
    (more : List (Member Tree)) {u v : List Char}
    (hi : Tree.quoted i.name ++ behindName i = u ++ v) :
    (Tree.object pad (members ++ i :: more)).chars =
      ('{' :: (pad.chars ++ (led (Tree.memberTexts members) ++ (i.before.chars ++ u)))) ++
        (v ++ (joinFrom false (Tree.memberTexts more) ++ ['}'])) := by
  obtain ⟨before, name, after, ⟨ahead, t, behind⟩⟩ := i
  simp only [behindName] at hi
  simp only [Tree.chars, memberTexts_append, Tree.memberTexts, commaJoin_middle, hi]
  simp

section

variable {expected : Expected} {blank : σ}

theorem RecordReveals.opens_member (pad : Blanks) {members : List (Member Tree)} {state : σ}
    (hmembers : takeMembers? fields blank members = some state) (i : Member Tree)
    (more : List (Member Tree)) {u v : List Char} {m : Misfit}
    (hi : Tree.quoted i.name ++ behindName i = u ++ v)
    (hu : ∀ rest, NumberEnds rest → MemberReveals fields reveals state u (v ++ rest) m) :
    Opens (RecordReveals expected fields blank reveals) (.object pad (members ++ i :: more))
      ('{' :: (pad.chars ++ (led (Tree.memberTexts members) ++ (i.before.chars ++ u)))) m := by
  refine ⟨by simp, _, object_chars pad members i more hi, fun rest _ => ?_⟩
  refine .member pad i.before hmembers ?_
  rw [List.append_assoc, List.append_assoc]
  apply hu
  exact numberEnds_of_head fun c hc => .inr ((joinFrom_head hc).imp_right Or.inr)

theorem RecordReveals.opens_value (pad : Blanks) {members : List (Member Tree)} {state : σ}
    (hmembers : takeMembers? fields blank members = some state) (i : Member Tree)
    (more : List (Member Tree)) {name : String} (hname : partsText? i.name = some name)
    {f : KnownField σ} (hfind : fields.find? (fun f => f.name == name) = some f)
    (hgiven : f.given state = false) {u : List Char} {m : Misfit}
    (h : Opens (reveals name) i.value.value u m) :
    Opens (RecordReveals expected fields blank reveals) (.object pad (members ++ i :: more))
      ('{' :: (pad.chars ++ (led (Tree.memberTexts members) ++ (i.before.chars ++
        (Tree.quoted i.name ++ (i.after.chars ++ ':' :: (i.value.before.chars ++ u))))))) m := by
  obtain ⟨-, v, hchars, hu⟩ := h
  refine opens_member pad hmembers i more (v := v ++ i.value.after.chars)
    (by simp [behindName, hchars]) fun rest hends => ?_
  refine .value i.after i.value.before hname hfind hgiven ?_
  rw [List.append_assoc]
  exact hu _ (hends.behind i.value.after)

theorem RecordReveals.opens_repeated (pad : Blanks) {members : List (Member Tree)} {state : σ}
    (hmembers : takeMembers? fields blank members = some state) (i : Member Tree)
    (more : List (Member Tree)) {name : String} (hname : partsText? i.name = some name)
    {f : KnownField σ} (hfind : fields.find? (fun f => f.name == name) = some f)
    (hgiven : f.given state = true) :
    Opens (RecordReveals expected fields blank reveals) (.object pad (members ++ i :: more))
      ('{' :: (pad.chars ++ (led (Tree.memberTexts members) ++
        (i.before.chars ++ Tree.quoted i.name)))) (.repeatedField name) :=
  opens_member pad hmembers i more rfl fun _ _ => .repeated hname hfind hgiven

theorem RecordReveals.opens_position (pad : Blanks) {items : List (Padded Tree)} {state : σ}
    (hitems : takePositions? fields blank items = some state) {f : KnownField σ}
    (hf : fields[items.length]? = some f) (i : Padded Tree) (more : List (Padded Tree))
    {u : List Char} {m : Misfit} (h : Opens (reveals f.name) i.value u m) :
    Opens (RecordReveals expected fields blank reveals) (.list pad (items ++ i :: more))
      ('[' :: (pad.chars ++ (led (Tree.itemTexts items) ++ (i.before.chars ++ u)))) m := by
  obtain ⟨-, v, hchars, hu⟩ := h
  refine ⟨by simp, _, list_chars pad items i more hchars, fun rest _ => ?_⟩
  refine .position pad i.before hitems hf ?_
  rw [List.append_assoc]
  apply hu
  rw [List.append_assoc, List.append_assoc]
  exact numberEnds_blanks _ fun c hc => (joinFrom_head hc).imp_right Or.inl

theorem RecordReveals.begun (h : FieldsSort fields reveals within) {u rest : List Char}
    {m : Misfit} (hu : RecordReveals expected fields blank reveals u rest m) :
    ∃ t, Opens (RecordReveals expected fields blank reveals) t u m := by
  cases hu with
  | scalar hscalar =>
    obtain ⟨hv, -⟩ := hscalar
    exact ⟨_, ScalarReveals.opens RecordReveals.scalar hv⟩
  | member pad before hmembers hu =>
    cases hu with
    | @value parts name f after ahead u rest m hname hfind hgiven hu =>
      obtain rfl : f.name = name := by simpa using List.find?_some hfind
      obtain ⟨t, ht⟩ := (h f (List.mem_of_find?_eq_some hfind) blank).begun hu
      exact ⟨_, opens_value pad hmembers ⟨before, parts, after, ⟨ahead, t, .none⟩⟩ [] hname hfind
        hgiven ht⟩
    | @repeated parts name f rest hname hfind hgiven =>
      exact ⟨_, opens_repeated pad hmembers ⟨before, parts, .none, ⟨.none, .null, .none⟩⟩ [] hname
        hfind hgiven⟩
  | missing pad hmembers hmissing => exact ⟨_, .whole fun _ _ => .missing pad hmembers hmissing⟩
  | position pad before hitems hf hu =>
    obtain ⟨t, ht⟩ := (h _ (List.mem_of_getElem? hf) blank).begun hu
    exact ⟨_, opens_position pad hitems hf ⟨before, t, .none⟩ [] ht⟩
  | short pad hitems hmissing => exact ⟨_, .whole fun _ _ => .short pad hitems hmissing⟩

/-! ## Trees within the limits -/

theorem members_first_failure {members : List (Member Tree)} {state : σ}
    (h : takeMembers? fields state members = none) :
    ∃ good bad more state', members = good ++ bad :: more ∧
      takeMembers? fields state good = some state' ∧ takeMember? fields state' bad = none := by
  induction members generalizing state with
  | nil => cases h
  | cons m members ih =>
    rw [takeMembers?_cons] at h
    cases hm : takeMember? fields state m with
    | none => exact ⟨[], m, members, state, rfl, rfl, hm⟩
    | some state'' =>
      rw [hm] at h
      obtain ⟨good, bad, more, state', rfl, hgood, hbad⟩ := ih h
      exact ⟨m :: good, bad, more, state', rfl, by rw [takeMembers?_cons, hm]; exact hgood, hbad⟩

theorem positions_first_failure {items : List (Padded Tree)} {state : σ}
    (hlength : items.length ≤ fields.length) (h : takePositions? fields state items = none) :
    ∃ good bad more state' f, items = good ++ bad :: more ∧
      takePositions? fields state good = some state' ∧ fields[good.length]? = some f ∧
      f.take state' bad.value = none := by
  induction items generalizing fields state with
  | nil => cases fields <;> cases h
  | cons i items ih =>
    cases fields with
    | nil => simp at hlength
    | cons f left =>
      cases htake : f.take state i.value with
      | none => exact ⟨[], i, items, state, f, rfl, rfl, rfl, htake⟩
      | some state'' =>
        simp only [takePositions?, htake] at h
        obtain ⟨good, bad, more, state', g, rfl, hgood, hg, hbad⟩ :=
          ih (by simpa using hlength) h
        refine ⟨i :: good, bad, more, state', g, rfl, ?_, by simpa using hg, hbad⟩
        simp only [takePositions?, htake, hgood]

theorem takeMember?_eq_none {state : σ} {m : Member Tree} {name : String}
    (hname : partsText? m.name = some name) (h : takeMember? fields state m = none) :
    ∃ f, fields.find? (fun f => f.name == name) = some f ∧
      (f.given state = true ∨ f.given state = false ∧ f.take state m.value.value = none) := by
  simp only [takeMember?, hname] at h
  split at h
  · cases h
  next f hfind =>
  refine ⟨f, hfind, ?_⟩
  cases hgiven : f.given state with
  | true => exact .inl rfl
  | false =>
    rw [hgiven] at h
    exact .inr ⟨rfl, by simpa using h⟩

theorem exists_missing {state : σ} (h : complete fields state = false) :
    ∃ i name, missing? state 0 (fields.map (·.toRecordField)) = some (i, name) := by
  cases hmissing : missing? state 0 (fields.map (·.toRecordField)) with
  | none => simp [missing?_eq_none.mp hmissing] at h
  | some p => exact ⟨p.1, p.2, rfl⟩

theorem RecordReveals.decided (h : FieldsSort fields reveals within) {t : Tree}
    (ht : WithinRecord (fields.map (·.name)) within t) (hnone : record? fields blank t = none) :
    ∃ u m, Opens (RecordReveals expected fields blank reveals) t u m := by
  cases t with
  | object pad members =>
    cases htake : takeMembers? fields blank members with
    | none =>
      obtain ⟨good, bad, more, state, rfl, hgood, hbad⟩ := members_first_failure htake
      obtain ⟨name, hname, hwithin⟩ := ht bad (by simp)
      obtain ⟨f, hfind, hgiven | ⟨hgiven, hvalue⟩⟩ := takeMember?_eq_none hname hbad
      · exact ⟨_, _, opens_repeated pad hgood bad more hname hfind hgiven⟩
      · obtain rfl : f.name = name := by simpa using List.find?_some hfind
        have hf := List.mem_of_find?_eq_some hfind
        obtain ⟨u, m, hopens⟩ :=
          (h f hf state).decided (hwithin (List.mem_map_of_mem hf)) hvalue
        exact ⟨_, m, opens_value pad hgood bad more hname hfind hgiven hopens⟩
    | some state =>
      have hincomplete : complete fields state = false := by
        simpa [record?, htake, Option.filter_some] using hnone
      obtain ⟨i, name, hmissing⟩ := exists_missing hincomplete
      exact ⟨_, _, .whole fun _ _ => .missing pad htake hmissing⟩
  | list pad items =>
    obtain ⟨hlength, hwithin⟩ := ht
    rw [List.length_map] at hlength
    cases htake : takePositions? fields blank items with
    | none =>
      obtain ⟨good, bad, more, state, f, rfl, hgood, hf, hvalue⟩ :=
        positions_first_failure hlength htake
      have hmem : (f.name, bad) ∈ (fields.map (·.name)).zip (good ++ bad :: more) := by
        rw [List.mem_iff_getElem?]
        exact ⟨good.length, by simp [List.getElem?_zip_eq_some, hf]⟩
      obtain ⟨u, m, hopens⟩ :=
        (h f (List.mem_of_getElem? hf) state).decided (hwithin _ hmem) hvalue
      exact ⟨_, m, opens_position pad hgood hf bad more hopens⟩
    | some state =>
      have hincomplete : complete fields state = false := by
        simpa [record?, htake, Option.filter_some] using hnone
      obtain ⟨i, name, hmissing⟩ := exists_missing hincomplete
      exact ⟨_, _, .whole fun _ _ => .short pad htake hmissing⟩
  | _ =>
    obtain ⟨v, hv⟩ := Option.isSome_iff_exists.mp ((keepable_iff _ 0).mpr ht)
    exact ⟨_, _, ScalarReveals.opens RecordReveals.scalar hv⟩

theorem sorts_record (h : FieldsSort fields reveals within) :
    Sorts (readRecord expected blank (some (fields.map (·.toRecordField)))) (record? fields blank)
      (RecordReveals expected fields blank reveals)
      (WithinRecord (fields.map (·.name)) within) where
  reads := reads_record expected fields blank
  refused := RecordReveals.refused h
  revealed := readRecord_revealed h
  begun := RecordReveals.begun h
  decided := RecordReveals.decided h

end

end PoolWatch.Json
