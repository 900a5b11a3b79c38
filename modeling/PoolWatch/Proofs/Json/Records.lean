import PoolWatch.Json.Record
import PoolWatch.Proofs.Json.Passing
import PoolWatch.Proofs.Json.Values

/-!
# Records are read as they are written

What each field makes of its value says what a record makes of a tree. Exactly the trees it makes
something of are read.
-/

namespace PoolWatch.Json

/-- What may stand in a field of a record. -/
structure Rule where
  name : String
  required : Bool
  allows : Tree → Prop

/-- A field with what it makes of the tree of its value. -/
structure KnownField (σ : Type) extends RecordField σ where
  take : σ → Tree → Option σ
  reads : ∀ state, Reads (read state) (take state)
  allows : Tree → Prop
  takes : ∀ state t, (take state t).isSome = true ↔ allows t

variable {σ : Type}

def KnownField.rule (f : KnownField σ) : Rule := ⟨f.name, f.required, f.allows⟩

/-- All required fields are given. -/
def complete (fields : List (KnownField σ)) (state : σ) : Bool :=
  fields.all fun f => !f.required || f.given state

/-- The members that are fields are taken, each once. The others are passed over. -/
def takeMembers? (fields : List (KnownField σ)) : σ → List (Member Tree) → Option σ
  | state, [] => some state
  | state, m :: rest =>
    match partsText? m.name with
    | none => none
    | some name =>
      match fields.find? (fun f => f.name == name) with
      | none => takeMembers? fields state rest
      | some f =>
        if f.given state then none
        else match f.take state m.value.value with
          | none => none
          | some state => takeMembers? fields state rest

/-- The items are the fields in order. There may be fewer. -/
def takePositions? : List (KnownField σ) → σ → List (Padded Tree) → Option σ
  | _, state, [] => some state
  | [], _, _ :: _ => none
  | f :: fields, state, i :: items =>
    match f.take state i.value with
    | none => none
    | some state => takePositions? fields state items

/-- What a record makes of a tree. -/
def record? (fields : List (KnownField σ)) (blank : σ) : Tree → Option σ
  | .object _ members => (takeMembers? fields blank members).filter (complete fields)
  | .list _ items => (takePositions? fields blank items).filter (complete fields)
  | _ => none

/-- What a list makes of a tree. -/
def sequence? {α : Type} (inner? : Tree → Option α) : Tree → Option (List α)
  | .list _ items => items.mapM (inner? ·.value)
  | _ => none

/-! ## Fields -/

theorem Reads.map {α β : Type} {reader : Reader α} {meaning : Tree → Option α}
    (h : Reads reader meaning) (f : α → β) :
    Reads (Reader.map f reader) (fun t => (meaning t).map f) where
  complete := by
    intro ahead t rest w hw hends
    obtain ⟨v, hv, rfl⟩ := Option.map_eq_some_iff.mp hw
    simp only [Reader.map, h.complete ahead hv hends]
  sound := by
    intro s rest w hread
    unfold Reader.map at hread
    split at hread
    · simp at hread
    rename_i v r hr
    simp only [Except.ok.injEq, Prod.mk.injEq] at hread
    obtain ⟨rfl, rfl⟩ := hread
    obtain ⟨ahead, t, hs, hv⟩ := h.sound hr
    exact ⟨ahead, t, hs, by simp [hv]⟩

/-- A field that keeps the value it reads. -/
def KnownField.storing {α : Type} (name : String) (required : Bool) (given : σ → Bool)
    (store : σ → α → σ) {reader : Reader α} {meaning : Tree → Option α} {allows : Tree → Prop}
    (reads : Reads reader meaning) (takes : ∀ t, (meaning t).isSome = true ↔ allows t) :
    KnownField σ where
  name := name
  required := required
  given := given
  read := fun state => Reader.map (store state) reader
  take := fun state t => (meaning t).map (store state)
  reads := fun state => reads.map (store state)
  allows := allows
  takes := fun state t => by rw [Option.isSome_map, takes]

theorem findField_eq (name : String) (fields : List (KnownField σ)) :
    findField name (fields.map (·.toRecordField)) =
      (fields.find? (fun f => f.name == name)).map (·.toRecordField) := by
  rw [findField, List.find?_map]
  rfl

theorem missing?_eq_none {state : σ} {i : Nat} {fields : List (KnownField σ)} :
    missing? state i (fields.map (·.toRecordField)) = none ↔ complete fields state = true := by
  induction fields generalizing i with
  | nil => simp [missing?, complete]
  | cons f fields ih =>
    have hrest := ih (i := i + 1)
    rw [complete] at hrest
    rw [List.map_cons, missing?, complete, List.all_cons]
    cases f.required <;> cases f.given state <;> simp [hrest]

/-! ## As an object -/

theorem readFieldsFrom_members (fields : List (KnownField σ)) (rest : List Char)
    (members : List (Member Tree)) (first : Bool) (ahead : Blanks) (state final : σ) (fuel : Nat)
    (h : takeMembers? fields state members = some final) (hfuel : members.length < fuel) :
    readFieldsFrom (fields.map (·.toRecordField)) fuel first state
        (ahead.chars ++ (joinFrom first (Tree.memberTexts members) ++ '}' :: rest)) =
      .ok (final, rest) := by
  induction members generalizing first ahead state fuel with
  | nil =>
    obtain ⟨fuel, rfl⟩ : ∃ n, fuel = n + 1 := ⟨fuel - 1, by omega⟩
    obtain rfl : state = final := by simpa [takeMembers?] using h
    simp [Tree.memberTexts, readFieldsFrom, nextName_end]
  | cons m members ih =>
    obtain ⟨fuel, rfl⟩ : ∃ n, fuel = n + 1 := ⟨fuel - 1, by omega⟩
    rw [List.length_cons] at hfuel
    have hends := member_numberEnds m members rest
    rw [takeMembers?] at h
    split at h
    · simp at h
    rename_i name hname
    simp only [readFieldsFrom, nextName_member first ahead hname, findField_eq]
    split at h
    · rename_i hfind
      have hskip := skipValue_append m.value.before m.value.value hends
      have hrest := ih false m.value.after state fuel h (by omega)
      simp only [hfind, Option.map_none, afterName, readColon_blanks, hskip, hrest]
    · rename_i f hfind
      split at h
      · simp at h
      rename_i hgiven
      split at h
      · simp at h
      rename_i state' htake
      have hread := (f.reads state).complete m.value.before htake hends
      have hrest := ih false m.value.after state' fuel h (by omega)
      simp only [hfind, Option.map_some, hgiven, if_false, Bool.false_eq_true, afterName,
        readColon_blanks, hread, hrest]

theorem readFieldsFrom_sound (fields : List (KnownField σ)) {rest : List Char} {fuel : Nat}
    {first : Bool} {state final : σ} {s : List Char}
    (h : readFieldsFrom (fields.map (·.toRecordField)) fuel first state s = .ok (final, rest)) :
    ∃ (ahead : Blanks) (members : List (Member Tree)),
      s = ahead.chars ++ (joinFrom first (Tree.memberTexts members) ++ '}' :: rest) ∧
        takeMembers? fields state members = some final := by
  induction fuel generalizing first state s with
  | zero => simp [readFieldsFrom, failPeek] at h
  | succ fuel ih =>
    simp only [readFieldsFrom, findField_eq] at h
    split at h
    · simp at h
    · rename_i r hnext
      obtain ⟨ahead, rfl⟩ := nextName_sound_end hnext
      simp only [Except.ok.injEq, Prod.mk.injEq] at h
      exact ⟨ahead, [], by simp [Tree.memberTexts, h.2], by simp [takeMembers?, h.1]⟩
    rename_i name r hnext
    obtain ⟨ahead, before, parts, rfl, hname⟩ := nextName_sound_name hnext
    cases hfind : fields.find? (fun f => f.name == name) with
    | none =>
      simp only [hfind, Option.map_none] at h
      split at h
      · simp at h
      rename_i r' hcolon
      obtain ⟨after, rfl⟩ := readColon_sound hcolon
      split at h
      · simp at h
      rename_i r'' hskip
      obtain ⟨pad, t, rfl⟩ := skipValue_sound hskip
      obtain ⟨behind, members, rfl, hmembers⟩ := ih h
      refine ⟨ahead, ⟨before, parts, after, ⟨pad, t, behind⟩⟩ :: members, ?_, ?_⟩
      · rw [joinFrom_member]
        rfl
      · simp [takeMembers?, hname, hfind, hmembers]
    | some f =>
      simp only [hfind, Option.map_some] at h
      split at h
      · unfold failRepeated at h
        split at h <;> simp [failHere] at h
      rename_i hgiven
      split at h
      · simp at h
      rename_i r' hcolon
      obtain ⟨after, rfl⟩ := readColon_sound hcolon
      split at h
      · simp at h
      rename_i state' r'' hread
      obtain ⟨pad, t, rfl, htake⟩ := (f.reads state).sound hread
      obtain ⟨behind, members, rfl, hmembers⟩ := ih h
      refine ⟨ahead, ⟨before, parts, after, ⟨pad, t, behind⟩⟩ :: members, ?_, ?_⟩
      · rw [joinFrom_member]
        rfl
      · simp [takeMembers?, hname, hfind, hgiven, htake, hmembers]

/-! ## As a list -/

theorem endList_blanks (ahead : Blanks) (rest : List Char) :
    endList (ahead.chars ++ ']' :: rest) = .ok rest := by
  rw [endList, skipBlanks_append, skipBlanks_cons (by decide)]
  simp

theorem endList_sound {s rest : List Char} (h : endList s = .ok rest) :
    ∃ ahead : Blanks, s = ahead.chars ++ ']' :: rest := by
  obtain ⟨ahead, hs⟩ := skipBlanks_sound s
  unfold endList at h
  split at h
  · simp [failPeek] at h
  rename_i c r hskip
  split at h
  · rename_i hc
    exact ⟨ahead, by rw [hs, hskip, hc, Except.ok.inj h]⟩
  split at h
  · split at h
    · split at h <;> simp [failPeek] at h
    · simp [failPeek] at h
  · simp [failPeek] at h

theorem readPositions_items (rest : List Char) (items : List (Padded Tree))
    (fields : List (KnownField σ)) (first : Bool) (ahead : Blanks) (state final : σ)
    (h : takePositions? fields state items = some final) :
    ∃ s, readPositions (fields.map (·.toRecordField)) first state
        (ahead.chars ++ (joinFrom first (Tree.itemTexts items) ++ ']' :: rest)) = .ok (final, s) ∧
      endList s = .ok rest := by
  induction items generalizing fields first ahead state with
  | nil =>
    obtain rfl : state = final := by cases fields <;> simpa [takePositions?] using h
    cases fields with
    | nil => exact ⟨_, by simp [readPositions, Tree.itemTexts], endList_blanks ahead rest⟩
    | cons f fields =>
      exact ⟨']' :: rest, by simp [readPositions, Tree.itemTexts, nextItem_end],
        endList_blanks .none rest⟩
  | cons i items ih =>
    cases fields with
    | nil => simp [takePositions?] at h
    | cons f fields =>
      simp only [takePositions?] at h
      split at h
      · simp at h
      rename_i state' htake
      obtain ⟨s, hnext⟩ := nextItem_item first ahead i items (']' :: rest)
      have hends : NumberEnds
          (i.after.chars ++ (joinFrom false (Tree.itemTexts items) ++ ']' :: rest)) :=
        numberEnds_blanks _ fun d hd => (joinFrom_head hd).imp_right Or.inl
      have hread := (f.reads state).bare htake hends
      obtain ⟨s', hrest, hend⟩ := ih fields false i.after state' h
      refine ⟨s', ?_, hend⟩
      simp only [List.map_cons, readPositions, hnext, hread, hrest]

theorem readPositions_sound {rest r : List Char} {fields : List (KnownField σ)} {first : Bool}
    {state final : σ} {s : List Char}
    (h : readPositions (fields.map (·.toRecordField)) first state s = .ok (final, r))
    (hend : endList r = .ok rest) :
    ∃ (ahead : Blanks) (items : List (Padded Tree)),
      s = ahead.chars ++ (joinFrom first (Tree.itemTexts items) ++ ']' :: rest) ∧
        takePositions? fields state items = some final := by
  induction fields generalizing first state s with
  | nil =>
    simp only [List.map_nil, readPositions, Except.ok.injEq, Prod.mk.injEq] at h
    obtain ⟨rfl, rfl⟩ := h
    obtain ⟨ahead, rfl⟩ := endList_sound hend
    exact ⟨ahead, [], by simp [Tree.itemTexts], rfl⟩
  | cons f fields ih =>
    simp only [List.map_cons, readPositions] at h
    split at h
    · simp at h
    · rename_i r' hnext
      simp only [Except.ok.injEq, Prod.mk.injEq] at h
      obtain ⟨rfl, rfl⟩ := h
      obtain ⟨ahead, rfl⟩ := nextItem_sound_end hnext
      have hclose : r' = ']' :: r'.drop 1 := by simpa [nextItem_end, eq_comm] using hnext
      rw [hclose, ← List.nil_append (']' :: _)] at hend
      obtain rfl := Except.ok.inj ((endList_blanks .none _).symm.trans hend)
      exact ⟨ahead, [], by simp [Tree.itemTexts], rfl⟩
    · rename_i start r' hnext
      obtain ⟨ahead, before, rfl⟩ := nextItem_sound_item hnext
      split at h
      · simp at h
      rename_i state' r'' hread
      obtain ⟨before', t, rfl, htake⟩ := (f.reads state).sound hread
      obtain ⟨after, items, rfl, hitems⟩ := ih h
      refine ⟨ahead, ⟨before.append before', t, after⟩ :: items, ?_, ?_⟩
      · simp [Tree.itemTexts, joinFrom_cons, Blanks.append]
      · simp [takePositions?, htake, hitems]

/-! ## Both -/

theorem failType_ne_ok {α : Type} (expected : Expected) (s : List Char) (v : α) :
    failType expected s ≠ .ok v := by
  unfold failType
  split
  · simp [failPeek]
  split
  · simp [failHere]
  split
  · simp [failHere]
  split <;> simp [failHere]

theorem reads_sequence {α : Type} {item : Reader α} {item? : Tree → Option α}
    (hitem : Reads item item?) : Reads (readSequence (some item)) (sequence? item?) where
  complete := by
    intro ahead t rest vs h hends
    cases t with
    | list pad items =>
      have hread := readItems_items hitem h pad rest
      rw [readSequence, skipBlanks_append]
      simp [Tree.chars, skipBlanks_cons, isJsonBlank, hread]
    | _ => simp [sequence?] at h
  sound := by
    intro s rest vs h
    obtain ⟨ahead, hs⟩ := skipBlanks_sound s
    unfold readSequence at h
    split at h
    · simp [failPeek] at h
    rename_i c r hskip
    split at h
    · rename_i hc
      obtain ⟨pad, items, rfl, hitems⟩ := readItems_sound hitem h
      exact ⟨ahead, .list pad items, by rw [hs, hskip, hc]; simp [Tree.chars], hitems⟩
    · exact absurd h (failType_ne_ok _ _ _)

theorem readRecord_object (expected : Expected) (blank : σ) (fields : List (RecordField σ))
    (ahead : Blanks) (s : List Char) :
    readRecord expected blank (some fields) (ahead.chars ++ '{' :: s) =
      match readFieldsFrom fields (s.length + 1) true blank s with
      | .error f => .error f
      | .ok (state, rest) =>
        match missing? state 0 fields with
        | some (_, name) => failHere (.misfit (.missingField name)) rest
        | none => .ok (state, rest) := by
  rw [readRecord, skipBlanks_append, skipBlanks_cons (by decide)]
  rfl

theorem readRecord_list (expected : Expected) (blank : σ) (fields : List (RecordField σ))
    (ahead : Blanks) (s : List Char) :
    readRecord expected blank (some fields) (ahead.chars ++ '[' :: s) =
      match readPositions fields true blank s with
      | .error f => .error f
      | .ok (state, rest) =>
        match endList rest with
        | .error f => .error f
        | .ok rest =>
          match missing? state 0 fields with
          | some (i, _) => failHere (.misfit (.tooFew i expected)) rest
          | none => .ok (state, rest) := by
  rw [readRecord, skipBlanks_append, skipBlanks_cons (by decide)]
  rfl

theorem readRecord_members (expected : Expected) {fields : List (KnownField σ)} {blank final : σ}
    (ahead pad : Blanks) {members : List (Member Tree)} {rest : List Char}
    (h : takeMembers? fields blank members = some final) :
    readRecord expected blank (some (fields.map (·.toRecordField)))
        (ahead.chars ++ ((Tree.object pad members).chars ++ rest)) =
      match missing? final 0 (fields.map (·.toRecordField)) with
      | some (_, name) => failHere (.misfit (.missingField name)) rest
      | none => .ok (final, rest) := by
  have hlength := length_memberTexts members
  have hread := readFieldsFrom_members fields rest members true pad blank final
    ((pad.chars ++ (joinFrom true (Tree.memberTexts members) ++ '}' :: rest)).length + 1) h
    (by simp only [List.length_append]; omega)
  simp only [joinFrom, if_true] at hread
  rw [Tree.chars, List.cons_append, readRecord_object]
  simp only [List.append_assoc, List.cons_append, List.nil_append, hread]

theorem readRecord_items (expected : Expected) {fields : List (KnownField σ)} {blank final : σ}
    (ahead pad : Blanks) {items : List (Padded Tree)} {rest : List Char}
    (h : takePositions? fields blank items = some final) :
    readRecord expected blank (some (fields.map (·.toRecordField)))
        (ahead.chars ++ ((Tree.list pad items).chars ++ rest)) =
      match missing? final 0 (fields.map (·.toRecordField)) with
      | some (i, _) => failHere (.misfit (.tooFew i expected)) rest
      | none => .ok (final, rest) := by
  obtain ⟨s, hread, hend⟩ := readPositions_items rest items fields true pad blank final h
  simp only [joinFrom, if_true] at hread
  rw [Tree.chars, List.cons_append, readRecord_list]
  simp only [List.append_assoc, List.cons_append, List.nil_append, hread, hend]

theorem readRecord_complete (expected : Expected) {fields : List (KnownField σ)} {blank : σ}
    (ahead : Blanks) {t : Tree} {rest : List Char} {final : σ}
    (h : record? fields blank t = some final) :
    readRecord expected blank (some (fields.map (·.toRecordField)))
      (ahead.chars ++ (t.chars ++ rest)) = .ok (final, rest) := by
  cases t with
  | list pad items =>
    obtain ⟨htake, hcomplete⟩ := Option.filter_eq_some_iff.mp h
    rw [readRecord_items expected ahead pad htake, missing?_eq_none.mpr hcomplete]
  | object pad members =>
    obtain ⟨htake, hcomplete⟩ := Option.filter_eq_some_iff.mp h
    rw [readRecord_members expected ahead pad htake, missing?_eq_none.mpr hcomplete]
  | _ => simp [record?] at h

theorem reads_record (expected : Expected) (fields : List (KnownField σ)) (blank : σ) :
    Reads (readRecord expected blank (some (fields.map (·.toRecordField))))
      (record? fields blank) where
  complete := fun ahead _ _ _ h _ => readRecord_complete expected ahead h
  sound := by
    intro s rest final h
    obtain ⟨ahead, hs⟩ := skipBlanks_sound s
    unfold readRecord at h
    split at h
    · simp [failPeek] at h
    rename_i c r hskip
    split at h
    · rename_i hc
      simp only at h
      split at h
      · simp at h
      rename_i state r' hread
      split at h
      · simp [failHere] at h
      rename_i hmissing
      simp only [Except.ok.injEq, Prod.mk.injEq] at h
      obtain ⟨rfl, rfl⟩ := h
      obtain ⟨pad, members, rfl, hmembers⟩ := readFieldsFrom_sound fields hread
      refine ⟨ahead, .object pad members, ?_, ?_⟩
      · rw [hs, hskip, hc]
        simp [Tree.chars, joinFrom]
      · exact Option.filter_eq_some_iff.mpr ⟨hmembers, missing?_eq_none.mp hmissing⟩
    split at h
    · rename_i hc
      simp only at h
      split at h
      · simp at h
      rename_i state r' hread
      split at h
      · simp at h
      rename_i r'' hend
      split at h
      · simp [failHere] at h
      rename_i hmissing
      simp only [Except.ok.injEq, Prod.mk.injEq] at h
      obtain ⟨rfl, rfl⟩ := h
      obtain ⟨pad, items, rfl, hitems⟩ := readPositions_sound hread hend
      refine ⟨ahead, .list pad items, ?_, ?_⟩
      · rw [hs, hskip, hc]
        simp [Tree.chars, joinFrom]
      · exact Option.filter_eq_some_iff.mpr ⟨hitems, missing?_eq_none.mp hmissing⟩
    · exact absurd h (failType_ne_ok _ _ _)

end PoolWatch.Json
