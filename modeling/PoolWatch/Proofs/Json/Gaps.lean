import PoolWatch.Proofs.Json.Edits

/-!
# Records with a gap

A record or a list with one value left open. What becomes of the rest does not depend on that value,
so it may be taken last.
-/

namespace PoolWatch.Json

/-! ## Gaps -/

def Padded.holding (i : Padded Unit) (t : Tree) : Padded Tree := ⟨i.before, t, i.after⟩

def Member.holding (m : Member Unit) (t : Tree) : Member Tree :=
  ⟨m.before, m.name, m.after, m.value.holding t⟩

/-- A record without the value of one field. An object has the field under its name, and a list has
it in its place. -/
inductive RecordGap (name : String) (place : Nat)
  | object (ahead : Blanks) (front : List (Member Tree)) (m : Member Unit)
    (back : List (Member Tree)) (named : partsText? m.name = some name)
  | list (ahead : Blanks) (front : List (Padded Tree)) (i : Padded Unit)
    (back : List (Padded Tree)) (placed : front.length = place)

def RecordGap.fill {name : String} {place : Nat} : RecordGap name place → Tree → Tree
  | object ahead front m back _, t => .object ahead (front ++ m.holding t :: back)
  | list ahead front i back _, t => .list ahead (front ++ i.holding t :: back)

/-- A list without one of its items. -/
structure ListGap where
  ahead : Blanks
  front : List (Padded Tree)
  item : Padded Unit
  back : List (Padded Tree)

namespace ListGap

def index (gap : ListGap) : Nat := gap.front.length

def fill (gap : ListGap) (t : Tree) : Tree :=
  .list gap.ahead (gap.front ++ gap.item.holding t :: gap.back)

theorem sequence?_fill {α : Type} {inner? : Tree → Option α} {gap : ListGap} {t : Tree}
    {vs : List α} (h : sequence? inner? (gap.fill t) = some vs) :
    ∃ v, inner? t = some v ∧ vs[gap.index]? = some v ∧ ∀ u w, inner? u = some w →
      sequence? inner? (gap.fill u) = some (vs.set gap.index w) := by
  have hitems := mapM_eq_some_iff.mp h
  have hitem : (vs.map some)[gap.index]? = some (inner? t) := by
    rw [← hitems]
    simp [index, Padded.holding]
  rw [List.getElem?_map, Option.map_eq_some_iff] at hitem
  obtain ⟨v, hv, ht⟩ := hitem
  refine ⟨v, ht.symm, hv, fun u w hu => mapM_eq_some_iff.mpr ?_⟩
  rw [List.map_set, ← hitems, ← hu]
  simp [index, Padded.holding]

end ListGap

/-! ## Taking the value last -/

variable {σ α : Type} {fields : List (KnownField σ)} {finish : σ → α} {scalars : List String}
  {inner : Option Inner}

theorem takePositions?_cons (f : KnownField σ) (left : List (KnownField σ)) (state : σ)
    (i : Padded Tree) (items : List (Padded Tree)) : takePositions? (f :: left) state (i :: items) =
      (f.take state i.value).bind (takePositions? left · items) := by
  rw [takePositions?]
  cases f.take state i.value <;> rfl

theorem takePositions?_last {f : KnownField σ} {left : List (KnownField σ)}
    (h : ∀ g ∈ left, Exchangeable f g) (t : Tree) (items : List (Padded Tree)) (state : σ) :
    (f.take state t).bind (takePositions? left · items) =
      (takePositions? left state items).bind (f.take · t) := by
  induction items generalizing left state with
  | nil => cases left <;> simp [takePositions?]
  | cons i items ih =>
    cases left with
    | nil => simp [takePositions?]
    | cons g left =>
      obtain ⟨hg, hleft⟩ := List.forall_mem_cons.mp h
      simp only [takePositions?_cons, ← Option.bind_assoc, hg state t i.value]
      rw [Option.bind_assoc, Option.bind_assoc]
      exact Option.bind_congr fun state _ => ih hleft state

theorem Editable.record?_fill (h : Editable fields finish scalars inner) {name : String}
    {place : Nat} (gap : RecordGap name place) {f : KnownField σ} (hf : fields[place]? = some f)
    (hname : f.name = name) (blank : σ) : ∃ rest : Option σ, ∀ t,
      record? fields blank (gap.fill t) = (rest.bind (f.take · t)).filter (complete fields) := by
  cases gap with
  | object ahead front m back named =>
    have hfield : f ∈ fields := List.mem_of_getElem? hf
    refine ⟨(takeMembers? fields blank (front ++ back)).filter fun state => !f.given state,
      fun t => ?_⟩
    have hlast : (front ++ m.holding t :: back).Perm (front ++ back ++ [m.holding t]) :=
      List.perm_middle.trans (List.perm_append_singleton _ _).symm
    have hm : partsText? (m.holding t).name = some f.name := by rw [hname]; exact named
    rw [RecordGap.fill, record?, takeMembers?_perm h hlast, takeMembers?_append]
    congr 1
    cases takeMembers? fields blank (front ++ back) with
    | none => rfl
    | some state =>
      rw [Option.bind_some, takeMembers?_cons, takeMember?_known h.toLawful hfield hm]
      cases hgiven : f.given state <;>
        simp [hgiven, Option.filter_some, takeMembers?, Member.holding, Padded.holding]
  | list ahead front i back placed =>
    obtain ⟨hplace, rfl⟩ := List.getElem?_eq_some_iff.mp hf
    have hdrop := List.drop_eq_getElem_cons hplace
    have hexchange := @List.Pairwise.drop _ _ _ place h.exchangeable
    rw [hdrop, List.pairwise_cons] at hexchange
    refine ⟨(takePositions? fields blank front).bind
      (takePositions? (fields.drop (place + 1)) · back), fun t => ?_⟩
    rw [RecordGap.fill, record?, takePositions?_append, placed, hdrop, Option.bind_assoc]
    congr 1
    refine Option.bind_congr fun state _ => ?_
    rw [takePositions?_cons, takePositions?_last hexchange.1]
    rfl

end PoolWatch.Json
