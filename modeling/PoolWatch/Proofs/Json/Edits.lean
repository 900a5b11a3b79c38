import Mathlib.Data.List.Pairwise
import PoolWatch.Proofs.Json.Rules
import PoolWatch.Proofs.Json.Spacing

/-!
# Edits that a record does not see

A record may be edited where it does not look: members that no field is named like may come and go,
members may change places, and a field that is not given may be given as null. The same edits may be
made of the records that a record lists. None of them changes what the record is.
-/

namespace PoolWatch.Json

/-! ## Edits -/

/-- A field that lists records, and what one edit makes of such a record. -/
structure Inner where
  name : String
  edit : Tree → Tree → Prop

/-- An edit of one item of a list. -/
inductive ListEdit (edit : Tree → Tree → Prop) : Tree → Tree → Prop
  | item {ahead : Blanks} {front back : List (Padded Tree)} {i i' : Padded Tree} :
    edit i.value i'.value →
    ListEdit edit (.list ahead (front ++ i :: back)) (.list ahead (front ++ i' :: back))

/-- One edit of a record whose fields are some that keep any value, and perhaps a last one that
lists records. -/
inductive Edit (scalars : List String) (inner : Option Inner) : Tree → Tree → Prop
  | insert {ahead : Blanks} {front back : List (Member Tree)} {m : Member Tree} {name : String} :
    partsText? m.name = some name → name ∉ scalars → (∀ i ∈ inner, name ≠ i.name) →
    Edit scalars inner (.object ahead (front ++ back)) (.object ahead (front ++ m :: back))
  | reorder {ahead : Blanks} {members members' : List (Member Tree)} : members.Perm members' →
    Edit scalars inner (.object ahead members) (.object ahead members')
  | null {ahead : Blanks} {front back : List (Member Tree)} {m : Member Tree} {name : String} :
    partsText? m.name = some name → name ∈ scalars → m.value.value = .null →
    named name (front ++ back) = [] →
    Edit scalars inner (.object ahead (front ++ back)) (.object ahead (front ++ m :: back))
  | nullItem {ahead : Blanks} {items : List (Padded Tree)} {i : Padded Tree} :
    items.length < scalars.length → i.value = .null →
    Edit scalars inner (.list ahead items) (.list ahead (items ++ [i]))
  | inside {ahead : Blanks} {front back : List (Member Tree)} {m m' : Member Tree} {i : Inner} :
    inner = some i → partsText? m.name = some i.name → m'.name = m.name →
    ListEdit i.edit m.value.value m'.value.value →
    Edit scalars inner (.object ahead (front ++ m :: back)) (.object ahead (front ++ m' :: back))
  | insideItem {ahead : Blanks} {front : List (Padded Tree)} {p p' : Padded Tree} {i : Inner} :
    inner = some i → front.length = scalars.length → ListEdit i.edit p.value p'.value →
    Edit scalars inner (.list ahead (front ++ [p])) (.list ahead (front ++ [p']))

theorem sequence?_edit {α : Type} {inner? : Tree → Option α} {edit : Tree → Tree → Prop}
    (h : ∀ t u v, edit t u → inner? t = some v → inner? u = some v) {t u : Tree}
    (hedit : ListEdit edit t u) {vs : List α} (ht : sequence? inner? t = some vs) :
    sequence? inner? u = some vs := by
  obtain ⟨hitem⟩ := hedit
  rename_i ahead front back i i'
  simp only [sequence?, List.mapM_append, List.mapM_cons, Option.bind_eq_bind, Option.pure_def,
    Option.bind_eq_some_iff] at ht ⊢
  obtain ⟨ws, hfront, xs, ⟨v, hv, rest⟩, hvs⟩ := ht
  exact ⟨ws, hfront, xs, ⟨v, h _ _ v hitem hv, rest⟩, hvs⟩

/-! ## What the fields have to obey -/

variable {σ α : Type} {fields : List (KnownField σ)} {finish : σ → α} {scalars : List String}
  {inner : Option Inner}

/-- Which of two fields is taken first does not matter. -/
def Exchangeable (f g : KnownField σ) : Prop :=
  ∀ state t u, (f.take state t).bind (g.take · u) = (g.take state u).bind (f.take · t)

instance : Std.Symm (@Exchangeable σ) where
  symm _ _ h state t u := (h state u t).symm

/-- Fields whose order does not matter. A null changes nothing that `finish` sees, and neither does
an edit of what is listed. -/
structure Editable (fields : List (KnownField σ)) (finish : σ → α) (scalars : List String)
    (inner : Option Inner) : Prop extends Lawful fields where
  names : fields.map (·.name) = scalars ++ (inner.map (·.name)).toList
  exchangeable : fields.Pairwise Exchangeable
  null : ∀ f ∈ fields, f.name ∈ scalars → ∀ state, f.given state = false →
    ∃ state', f.take state .null = some state' ∧ finish state' = finish state
  inside : ∀ i ∈ inner, ∀ f ∈ fields, f.name = i.name → ∀ {t u}, ListEdit i.edit t u →
    ∀ {state state'}, f.take state t = some state' → f.take state u = some state'

/-! ## Members -/

theorem takeMembers?_append (state : σ) (front back : List (Member Tree)) :
    takeMembers? fields state (front ++ back) =
      (takeMembers? fields state front).bind (takeMembers? fields · back) := by
  induction front generalizing state with
  | nil => rfl
  | cons m front ih =>
    rw [List.cons_append, takeMembers?_cons, takeMembers?_cons, Option.bind_assoc]
    exact Option.bind_congr fun state _ => ih state

theorem takeMember?_unknown {m : Member Tree} {name : String}
    (hname : partsText? m.name = some name) (hunknown : name ∉ fields.map (·.name)) (state : σ) :
    takeMember? fields state m = some state := by
  have hfind : fields.find? (fun f => f.name == name) = none := by
    rw [List.find?_eq_none]
    intro f hf hfname
    exact hunknown (List.mem_map.mpr ⟨f, hf, by simpa using hfname⟩)
  simp only [takeMember?, hname, hfind]

theorem takeMember?_known (h : Lawful fields) {m : Member Tree} {f : KnownField σ} (hf : f ∈ fields)
    (hname : partsText? m.name = some f.name) (state : σ) :
    takeMember? fields state m = if f.given state then none else f.take state m.value.value := by
  have hfind : fields.find? (fun g => g.name == f.name) = some f := by
    have hfound : (fields.find? (fun g => g.name == f.name)).isSome = true :=
      List.find?_isSome.mpr ⟨f, hf, beq_self_eq_true f.name⟩
    obtain ⟨g, hg⟩ := Option.isSome_iff_exists.mp hfound
    have hsame : g.name = f.name := by simpa using List.find?_some hg
    rw [hg, h.eq_of_name (List.mem_of_find?_eq_some hg) hf hsame]
  simp only [takeMember?, hname, hfind]

theorem takeMember?_cases (h : Lawful fields) (m : Member Tree) :
    (∀ state, takeMember? fields state m = none) ∨
      (∀ state, takeMember? fields state m = some state) ∨
      ∃ f ∈ fields, ∀ state,
        takeMember? fields state m =
          if f.given state then none else f.take state m.value.value := by
  cases hname : partsText? m.name with
  | none => exact .inl fun state => by simp only [takeMember?, hname]
  | some name =>
    by_cases hknown : name ∈ fields.map (·.name)
    · obtain ⟨f, hf, rfl⟩ := List.mem_map.mp hknown
      exact .inr (.inr ⟨f, hf, takeMember?_known h hf hname⟩)
    · exact .inr (.inl (takeMember?_unknown hname hknown))

theorem Lawful.take_then (h : Lawful fields) {f g : KnownField σ} (hf : f ∈ fields)
    (hg : g ∈ fields) (hname : f.name ≠ g.name) (state : σ) (t u : Tree) :
    (if f.given state then none else f.take state t).bind
        (fun state' => if g.given state' then none else g.take state' u) =
      if f.given state || g.given state then none else (f.take state t).bind (g.take · u) := by
  have hnoted : ∀ state', f.take state t = some state' → g.given state' = g.given state := by
    intro state' htake
    rw [h.noted f hf g hg htake, beq_false_of_ne (Ne.symm hname), Bool.false_or]
  cases f.given state with
  | true => rfl
  | false =>
    cases htake : f.take state t with
    | none => simp
    | some state' => simp [hnoted state' htake]

theorem takeMember?_comm (h : Editable fields finish scalars inner) (m n : Member Tree)
    (state : σ) : (takeMember? fields state m).bind (takeMember? fields · n) =
      (takeMember? fields state n).bind (takeMember? fields · m) := by
  rcases takeMember?_cases h.toLawful m with hm | hm | ⟨f, hf, hm⟩
  · simp [hm]
  · simp [hm]
  rcases takeMember?_cases h.toLawful n with hn | hn | ⟨g, hg, hn⟩
  · simp [hn]
  · simp [hn]
  simp only [hm, hn]
  by_cases hname : f.name = g.name
  · obtain rfl := h.eq_of_name hf hg hname
    have htwice : ∀ t u, (f.take state t).bind
        (fun state' => if f.given state' then none else f.take state' u) = none := by
      intro t u
      rw [Option.bind_eq_none_iff]
      intro state' htake
      simp [h.noted f hf f hf htake]
    split
    · rfl
    · rw [htwice, htwice]
  · have hexchange : Exchangeable f g :=
      h.exchangeable.forall hf hg fun hsame => hname (by rw [hsame])
    rw [h.take_then hf hg hname, h.take_then hg hf (Ne.symm hname), Bool.or_comm, hexchange]

theorem takeMembers?_perm (h : Editable fields finish scalars inner)
    {members members' : List (Member Tree)} (hperm : members.Perm members') (state : σ) :
    takeMembers? fields state members = takeMembers? fields state members' := by
  induction hperm generalizing state with
  | nil => rfl
  | cons m _ ih =>
    rw [takeMembers?_cons, takeMembers?_cons]
    exact Option.bind_congr fun state _ => ih state
  | swap m n members =>
    simp only [takeMembers?_cons, ← Option.bind_assoc, takeMember?_comm h n m]
  | trans _ _ ih ih' => rw [ih, ih']

theorem takeMembers?_given (h : Lawful fields) {f : KnownField σ} (hf : f ∈ fields)
    {members : List (Member Tree)} (hnamed : named f.name members = []) {state final : σ}
    (htake : takeMembers? fields state members = some final) : f.given final = f.given state := by
  induction members generalizing state with
  | nil => rw [Option.some.inj htake]
  | cons m members ih =>
    rw [takeMembers?_cons, Option.bind_eq_some_iff] at htake
    obtain ⟨state', hmember, hmembers⟩ := htake
    have hname : partsText? m.name ≠ some f.name := by
      intro hname
      rw [named_cons_eq hname] at hnamed
      exact List.cons_ne_nil _ _ hnamed
    rw [named_cons_ne hname] at hnamed
    rw [ih hnamed hmembers]
    cases hparts : partsText? m.name with
    | none => simp [takeMember?, hparts] at hmember
    | some name =>
      by_cases hknown : name ∈ fields.map (·.name)
      · obtain ⟨g, hg, rfl⟩ := List.mem_map.mp hknown
        rw [takeMember?_known h hg hparts] at hmember
        split at hmember
        · simp at hmember
        have hother : f.name ≠ g.name := fun hsame => hname (by rw [hparts, hsame])
        rw [h.noted g hg f hf hmember, beq_false_of_ne hother, Bool.false_or]
      · rw [takeMember?_unknown hparts hknown, Option.some.injEq] at hmember
        rw [hmember]

/-! ## Items -/

theorem takePositions?_append (left : List (KnownField σ)) (state : σ)
    (front back : List (Padded Tree)) : takePositions? left state (front ++ back) =
      (takePositions? left state front).bind
        (takePositions? (left.drop front.length) · back) := by
  induction front generalizing left state with
  | nil => cases left <;> rfl
  | cons i front ih =>
    cases left with
    | nil => rfl
    | cons f left =>
      simp only [List.cons_append, takePositions?, List.length_cons, List.drop_succ_cons]
      cases f.take state i.value with
      | none => rfl
      | some state => exact ih left state

theorem takePositions?_given (h : Lawful fields) {g : KnownField σ} (hg : g ∈ fields)
    {left : List (KnownField σ)} (hleft : left ⊆ fields) {items : List (Padded Tree)}
    (hapart : ∀ f ∈ left.take items.length, g.name ≠ f.name) {state final : σ}
    (htake : takePositions? left state items = some final) : g.given final = g.given state := by
  induction items generalizing left state with
  | nil => cases left <;> rw [Option.some.inj htake]
  | cons i items ih =>
    cases left with
    | nil => simp [takePositions?] at htake
    | cons f left =>
      rw [List.length_cons, List.take_succ_cons, List.forall_mem_cons] at hapart
      rw [List.cons_subset] at hleft
      simp only [takePositions?] at htake
      split at htake
      · simp at htake
      rename_i state' hf
      rw [ih hleft.2 hapart.2 htake, h.noted f hleft.1 g hg hf, beq_false_of_ne hapart.1,
        Bool.false_or]

/-! ## Records -/

theorem complete_take (h : Lawful fields) {f : KnownField σ} (hf : f ∈ fields) {state state' : σ}
    {t : Tree} (htake : f.take state t = some state') (hcomplete : complete fields state = true) :
    complete fields state' = true := by
  rw [complete_iff] at hcomplete ⊢
  intro g hg hrequired
  rw [h.noted f hf g hg htake, hcomplete g hg hrequired, Bool.or_true]

theorem Editable.mem_of_scalar (h : Editable fields finish scalars inner) {name : String}
    (hname : name ∈ scalars) : ∃ f ∈ fields, f.name = name := by
  have hnames : name ∈ fields.map (·.name) := by
    rw [h.names]
    exact List.mem_append_left _ hname
  simpa using hnames

theorem Editable.mem_of_inner (h : Editable fields finish scalars inner) {i : Inner}
    (hi : inner = some i) : ∃ f ∈ fields, f.name = i.name := by
  have hnames : i.name ∈ fields.map (·.name) := by
    rw [h.names, hi]
    exact List.mem_append_right _ (List.mem_singleton.mpr rfl)
  simpa using hnames

theorem Editable.unknown (h : Editable fields finish scalars inner) {name : String}
    (hscalar : name ∉ scalars) (hinner : ∀ i ∈ inner, name ≠ i.name) :
    name ∉ fields.map (·.name) := by
  rw [h.names, List.mem_append, Option.mem_toList, Option.map_eq_some_iff]
  rintro (hname | ⟨i, hi, rfl⟩)
  · exact hscalar hname
  · exact hinner i hi rfl

theorem Editable.next (h : Editable fields finish scalars inner) {items : List (Padded Tree)}
    (hshort : items.length < scalars.length) {blank state : σ}
    (hblank : ∀ f ∈ fields, f.given blank = false)
    (htake : takePositions? fields blank items = some state) :
    ∃ f left, fields.drop items.length = f :: left ∧ f.name ∈ scalars ∧ f.given state = false := by
  have hlength : items.length < fields.length := by
    have hnames := congrArg List.length h.names
    rw [List.length_map, List.length_append] at hnames
    omega
  have hdrop := List.drop_eq_getElem_cons hlength
  refine ⟨_, _, hdrop, ?_, ?_⟩
  · have hname : (fields.map (·.name))[items.length]? = scalars[items.length]? := by
      rw [h.names, List.getElem?_append_left hshort]
    rw [List.getElem?_map, List.getElem?_eq_getElem hlength, List.getElem?_eq_getElem hshort,
      Option.map_some, Option.some.injEq] at hname
    rw [hname]
    exact List.getElem_mem hshort
  · have hdistinct := h.distinct
    rw [← List.take_append_drop items.length fields, hdrop, List.map_append,
      List.map_cons] at hdistinct
    have hapart : ∀ f ∈ fields.take items.length, fields[items.length].name ≠ f.name := by
      intro f hf hname
      exact (List.nodup_append.mp hdistinct).2.2 f.name (List.mem_map_of_mem hf)
        fields[items.length].name List.mem_cons_self hname.symm
    rw [takePositions?_given h.toLawful (List.getElem_mem hlength) (List.Subset.refl _) hapart
      htake, hblank _ (List.getElem_mem hlength)]

theorem Editable.last (h : Editable fields finish scalars inner) {i : Inner}
    (hi : inner = some i) :
    ∃ f ∈ fields, f.name = i.name ∧ fields.drop scalars.length = [f] := by
  have hnames := congrArg (List.drop scalars.length) h.names
  rw [hi, List.drop_left, ← List.map_drop] at hnames
  obtain ⟨f, hdrop, hfname⟩ := List.map_eq_singleton_iff.mp hnames
  exact ⟨f, List.mem_of_mem_drop (hdrop ▸ List.mem_singleton.mpr rfl), hfname, hdrop⟩

/-- A record that is edited stays the record that it is. -/
theorem Editable.record?_edit (h : Editable fields finish scalars inner) {blank : σ}
    (hblank : ∀ f ∈ fields, f.given blank = false) {t u : Tree} (hedit : Edit scalars inner t u)
    {state : σ} (ht : record? fields blank t = some state) :
    ∃ state', record? fields blank u = some state' ∧ finish state' = finish state := by
  cases hedit with
  | @insert ahead front back m name hname hscalar hinner =>
    refine ⟨state, ?_, rfl⟩
    have hskip := takeMember?_unknown hname (h.unknown hscalar hinner)
    rw [← ht, record?, record?, takeMembers?_append, takeMembers?_append]
    simp [takeMembers?_cons, hskip]
  | reorder hperm =>
    refine ⟨state, ?_, rfl⟩
    rw [← ht, record?, record?, takeMembers?_perm h hperm]
  | @null ahead front back m name hname hscalar hnull hnamed =>
    obtain ⟨f, hf, rfl⟩ := h.mem_of_scalar hscalar
    obtain ⟨htake, hcomplete⟩ := Option.filter_eq_some_iff.mp ht
    have hgiven : f.given state = false := by
      rw [takeMembers?_given h.toLawful hf hnamed htake, hblank f hf]
    obtain ⟨state', hnone, hfinish⟩ := h.null f hf hscalar state hgiven
    refine ⟨state', ?_, hfinish⟩
    -- A member may as well stand last.
    have hlast : (front ++ m :: back).Perm (front ++ back ++ [m]) :=
      List.perm_middle.trans (List.perm_append_singleton m _).symm
    rw [record?, takeMembers?_perm h hlast, takeMembers?_append, htake, Option.bind_some,
      takeMembers?_cons, takeMember?_known h.toLawful hf hname, hgiven, hnull]
    simp [hnone, takeMembers?, complete_take h.toLawful hf hnone hcomplete]
  | @nullItem ahead items i hshort hnull =>
    obtain ⟨htake, hcomplete⟩ := Option.filter_eq_some_iff.mp ht
    obtain ⟨f, left, hleft, hscalar, hgiven⟩ := h.next hshort hblank htake
    have hf : f ∈ fields := List.mem_of_mem_drop (hleft ▸ List.mem_cons_self)
    obtain ⟨state', hnone, hfinish⟩ := h.null f hf hscalar state hgiven
    refine ⟨state', ?_, hfinish⟩
    rw [record?, takePositions?_append, htake, Option.bind_some, hleft]
    simp [takePositions?, hnull, hnone, complete_take h.toLawful hf hnone hcomplete]
  | @inside ahead front back m m' i hi hname hsame hlist =>
    obtain ⟨f, hf, hfname⟩ := h.mem_of_inner hi
    refine ⟨state, ?_, rfl⟩
    obtain ⟨htake, hcomplete⟩ := Option.filter_eq_some_iff.mp ht
    simp only [takeMembers?_append, takeMembers?_cons, Option.bind_eq_some_iff] at htake
    obtain ⟨before, hfront, between, hm, hback⟩ := htake
    have hm' : takeMember? fields before m' = some between := by
      rw [takeMember?_known h.toLawful hf (by rw [hname, hfname])] at hm
      rw [takeMember?_known h.toLawful hf (by rw [hsame, hname, hfname])]
      split at hm
      · simp at hm
      rename_i hgiven
      rw [if_neg hgiven, h.inside i hi f hf hfname hlist hm]
    simp [record?, takeMembers?_append, takeMembers?_cons, hfront, hm', hback, hcomplete]
  | @insideItem ahead front p p' i hi hlength hlist =>
    refine ⟨state, ?_, rfl⟩
    obtain ⟨htake, hcomplete⟩ := Option.filter_eq_some_iff.mp ht
    simp only [takePositions?_append, Option.bind_eq_some_iff] at htake
    obtain ⟨before, hfront, hlast⟩ := htake
    obtain ⟨f, hf, hfname, hdrop⟩ := h.last hi
    rw [hlength, hdrop] at hlast
    have hp' : f.take before p'.value = some state := by
      simp only [takePositions?] at hlast
      split at hlast
      · simp at hlast
      rename_i after hp
      rw [h.inside i hi f hf hfname hlist hp, ← hlast]
    simp [record?, takePositions?_append, hfront, hlength, hdrop, takePositions?, hp', hcomplete]

end PoolWatch.Json
