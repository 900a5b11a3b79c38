import PoolWatch.Proofs.Json.Records

/-!
# Blanks do not matter

What a record makes of a tree is what it makes of the tree without its blanks.
-/

namespace PoolWatch.Json

mutual

/-- The tree without its blanks. -/
def Tree.unspaced : Tree → Tree
  | .null => .null
  | .bool b => .bool b
  | .number n => .number n
  | .text parts => .text parts
  | .list _ items => .list .none (unspacedItems items)
  | .object _ members => .object .none (unspacedMembers members)

def unspacedItems : List (Padded Tree) → List (Padded Tree)
  | [] => []
  | ⟨_, t, _⟩ :: rest => ⟨.none, t.unspaced, .none⟩ :: unspacedItems rest

def unspacedMembers : List (Member Tree) → List (Member Tree)
  | [] => []
  | ⟨_, name, _, ⟨_, t, _⟩⟩ :: rest =>
    ⟨.none, name, .none, ⟨.none, t.unspaced, .none⟩⟩ :: unspacedMembers rest

end

/-! ## What is read -/

theorem mapM_unspaced {α : Type} {value? : Tree → Option α} {items : List (Padded Tree)}
    (h : ∀ i ∈ items, value? i.value.unspaced = value? i.value) :
    (unspacedItems items).mapM (value? ·.value) = items.mapM (value? ·.value) := by
  induction items with
  | nil => rfl
  | cons i items ih =>
    obtain ⟨hi, hitems⟩ := List.forall_mem_cons.mp h
    rw [unspacedItems, List.mapM_cons, List.mapM_cons, ih hitems, hi]

theorem keptMembers?_unspaced {value? : Tree → Option Json} {members : List (Member Tree)}
    (h : ∀ m ∈ members, value? m.value.value.unspaced = value? m.value.value)
    (done : List (String × Json)) :
    keptMembers? value? done (unspacedMembers members) = keptMembers? value? done members := by
  induction members generalizing done with
  | nil => rfl
  | cons m members ih =>
    obtain ⟨hm, hmembers⟩ := List.forall_mem_cons.mp h
    simp only [unspacedMembers, keptMembers?, hm, ih hmembers]

theorem kept?_unspaced (t : Tree) (depth : Nat) : kept? depth t.unspaced = kept? depth t := by
  induction t using Tree.induct generalizing depth with
  | list ahead items ih =>
    cases depth with
    | zero => rfl
    | succ depth =>
      simp only [Tree.unspaced, kept?, keptWith?, Option.bind_some,
        mapM_unspaced fun i hi => ih i hi depth]
  | object ahead members ih =>
    cases depth with
    | zero => rfl
    | succ depth =>
      simp only [Tree.unspaced, kept?, keptWith?, Option.bind_some,
        keptMembers?_unspaced fun m hm => ih m hm depth]
  | _ => rfl

theorem sequence?_unspaced {α : Type} {inner? : Tree → Option α}
    (h : ∀ t, inner? t.unspaced = inner? t) (t : Tree) :
    sequence? inner? t.unspaced = sequence? inner? t := by
  cases t with
  | list ahead items => exact mapM_unspaced fun i _ => h i.value
  | _ => rfl

section

variable {σ : Type} {fields : List (KnownField σ)}

/-- What one member makes of the fields so far. -/
def takeMember? (fields : List (KnownField σ)) (state : σ) (m : Member Tree) : Option σ :=
  match partsText? m.name with
  | none => none
  | some name =>
    match fields.find? (fun f => f.name == name) with
    | none => some state
    | some f => if f.given state then none else f.take state m.value.value

theorem takeMembers?_cons (state : σ) (m : Member Tree) (members : List (Member Tree)) :
    takeMembers? fields state (m :: members) =
      (takeMember? fields state m).bind (takeMembers? fields · members) := by
  rw [takeMembers?, takeMember?]
  cases partsText? m.name with
  | none => rfl
  | some name =>
    dsimp only
    cases fields.find? (fun f => f.name == name) with
    | none => rfl
    | some f =>
      dsimp only
      split
      · rfl
      · cases f.take state m.value.value <;> rfl

/-- No field looks at blanks. -/
def Unspaced (fields : List (KnownField σ)) : Prop :=
  ∀ f ∈ fields, ∀ state t, f.take state t.unspaced = f.take state t

theorem takeMembers?_unspaced (h : Unspaced fields) (members : List (Member Tree)) (state : σ) :
    takeMembers? fields state (unspacedMembers members) = takeMembers? fields state members := by
  induction members generalizing state with
  | nil => rfl
  | cons m members ih =>
    obtain ⟨before, parts, after, ⟨ahead, t, behind⟩⟩ := m
    have hmember : takeMember? fields state
        ⟨.none, parts, .none, ⟨.none, t.unspaced, .none⟩⟩ =
        takeMember? fields state ⟨before, parts, after, ⟨ahead, t, behind⟩⟩ := by
      unfold takeMember?
      cases partsText? parts with
      | none => rfl
      | some name =>
        cases hfind : fields.find? (fun f => f.name == name) with
        | none => simp only [hfind]
        | some f => simp only [hfind, h f (List.mem_of_find?_eq_some hfind)]
    rw [unspacedMembers, takeMembers?_cons, takeMembers?_cons, hmember]
    exact Option.bind_congr fun state _ => ih state

theorem takePositions?_unspaced (h : Unspaced fields) (items : List (Padded Tree)) (state : σ) :
    takePositions? fields state (unspacedItems items) = takePositions? fields state items := by
  induction items generalizing fields state with
  | nil => rfl
  | cons i items ih =>
    cases fields with
    | nil => rfl
    | cons f fields =>
      obtain ⟨hf, hfields⟩ := List.forall_mem_cons.mp h
      simp only [unspacedItems, takePositions?, hf, ih hfields]

theorem record?_unspaced (h : Unspaced fields) (blank : σ) (t : Tree) :
    record? fields blank t.unspaced = record? fields blank t := by
  cases t with
  | list ahead items => simp only [Tree.unspaced, record?, takePositions?_unspaced h]
  | object ahead members => simp only [Tree.unspaced, record?, takeMembers?_unspaced h]
  | _ => rfl

end

end PoolWatch.Json
