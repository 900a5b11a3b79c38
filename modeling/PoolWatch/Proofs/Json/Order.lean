import Mathlib.Data.String.Basic
import PoolWatch.Proofs.Json.Rules
import PoolWatch.Proofs.Json.Written

/-!
# Members in the order of their names

Whatever the order of the members in a text, those that are kept stand in the order of their names,
one to a name. Written and read again, such a value is what it was.
-/

namespace PoolWatch.Json

theorem induct {P : Json → Prop} (null : P .null) (bool : ∀ b, P (.bool b))
    (number : ∀ n, P (.number n)) (text : ∀ s, P (.text s))
    (list : ∀ items, (∀ v ∈ items, P v) → P (.list items))
    (object : ∀ members, (∀ m ∈ members, P m.2) → P (.object members)) (v : Json) : P v := by
  refine @Json.rec P (fun items => ∀ v ∈ items, P v) (fun members => ∀ m ∈ members, P m.2)
    (fun m => P m.2) null bool number text list object ?_ ?_ ?_ ?_ ?_ v <;> simp_all

/-! ## A member in its place -/

/-- Each name comes once, behind all smaller ones. -/
def Ascending (members : List (String × Json)) : Prop := members.Pairwise fun m n => m.1 < n.1

section

variable {name : String} {value : Json} {done : List (String × Json)}

theorem mem_insertMember {m : String × Json} (h : m ∈ insertMember name value done) :
    m = (name, value) ∨ m ∈ done := by
  induction done with
  | nil => exact .inl (List.mem_singleton.mp h)
  | cons n done ih =>
    unfold insertMember at h
    split at h
    · exact List.mem_cons.mp h
    split at h
    · exact (List.mem_cons.mp h).imp_right (List.mem_cons_of_mem _)
    · rcases List.mem_cons.mp h with rfl | h
      · exact .inr List.mem_cons_self
      · exact (ih h).imp_right (List.mem_cons_of_mem _)

theorem insertMember_ascending (h : Ascending done) : Ascending (insertMember name value done) := by
  induction done with
  | nil => exact List.pairwise_singleton _ _
  | cons n done ih =>
    obtain ⟨hhead, htail⟩ := List.pairwise_cons.mp h
    unfold insertMember
    split
    · next hlt =>
      refine List.pairwise_cons.mpr ⟨?_, h⟩
      rw [List.forall_mem_cons]
      exact ⟨hlt, fun m hm => hlt.trans (hhead m hm)⟩
    split
    · next hname =>
      subst hname
      exact List.pairwise_cons.mpr ⟨hhead, htail⟩
    · next hlt hname =>
      refine List.pairwise_cons.mpr ⟨fun m hm => ?_, ih htail⟩
      rcases mem_insertMember hm with rfl | hm
      · exact lt_of_le_of_ne (not_lt.mp hlt) (Ne.symm hname)
      · exact hhead m hm

theorem insertMember_last (h : ∀ m ∈ done, m.1 < name) :
    insertMember name value done = done ++ [(name, value)] := by
  induction done with
  | nil => rfl
  | cons n done ih =>
    obtain ⟨hhead, htail⟩ := List.forall_mem_cons.mp h
    unfold insertMember
    rw [if_neg hhead.not_gt, if_neg hhead.ne', ih htail, List.cons_append]

theorem lookup_member (key : String) : ((name, value) :: done).lookup key =
    if key = name then some value else done.lookup key := by
  rw [List.lookup_cons]
  by_cases hkey : key = name
  · simp [hkey]
  · simp [hkey, beq_eq_false_iff_ne.mpr hkey]

theorem mem_of_lookup {key : String} (h : done.lookup key = some value) : (key, value) ∈ done := by
  obtain ⟨front, back, rfl, -⟩ := List.lookup_eq_some_iff.mp h
  simp

theorem lookup_insertMember (key : String) : (insertMember name value done).lookup key =
    if key = name then some value else done.lookup key := by
  induction done with
  | nil => exact lookup_member key
  | cons n done ih =>
    unfold insertMember
    split
    · exact lookup_member key
    split
    · next hname =>
      subst hname
      rw [lookup_member, lookup_member]
      split <;> rfl
    · next hlt hname =>
      rw [lookup_member, lookup_member, ih]
      split
      · next hkey => rw [if_neg (hkey ▸ Ne.symm hname)]
      · rfl

theorem lookup_below {key : String} (h : ∀ m ∈ done, key < m.1) : done.lookup key = none := by
  refine List.lookup_eq_none_iff.mpr fun m hm => ?_
  simpa using (h m hm).ne

theorem Ascending.le_of_lookup {first : String × Json} (h : Ascending (first :: done))
    {key : String} (hkey : (first :: done).lookup key = some value) : first.1 ≤ key := by
  by_contra hlt
  have hbelow : ∀ m ∈ first :: done, key < m.1 := by
    rw [List.forall_mem_cons]
    exact ⟨not_le.mp hlt, fun m hm => (not_le.mp hlt).trans ((List.pairwise_cons.mp h).1 m hm)⟩
  rw [lookup_below hbelow] at hkey
  cases hkey

/-- Members in order are known by what is found under each name. -/
theorem Ascending.ext {members members' : List (String × Json)} (h : Ascending members)
    (h' : Ascending members') (hlookup : ∀ key, members.lookup key = members'.lookup key) :
    members = members' := by
  induction members generalizing members' with
  | nil =>
    cases members' with
    | nil => rfl
    | cons n ns =>
      have hn := hlookup n.1
      rw [List.lookup_cons_self] at hn
      cases hn
  | cons m ms ih =>
    obtain ⟨name, v⟩ := m
    have hm := hlookup name
    rw [List.lookup_cons_self] at hm
    cases members' with
    | nil => cases hm
    | cons n ns =>
      obtain ⟨name', w⟩ := n
      have hn := hlookup name'
      rw [List.lookup_cons_self] at hn
      obtain rfl : name = name' := le_antisymm (h.le_of_lookup hn) (h'.le_of_lookup hm.symm)
      obtain rfl : v = w := by
        rw [List.lookup_cons_self] at hm
        exact Option.some.inj hm
      obtain ⟨hhead, htail⟩ := List.pairwise_cons.mp h
      obtain ⟨hhead', htail'⟩ := List.pairwise_cons.mp h'
      refine congrArg _ (ih htail htail' fun key => ?_)
      by_cases hkey : key = name
      · rw [hkey, lookup_below hhead, lookup_below hhead']
      · have hrest := hlookup key
        rwa [lookup_member, lookup_member, if_neg hkey, if_neg hkey] at hrest

end

/-! ## Members that are kept -/

section

variable {value? : Tree → Option Json} {done vs : List (String × Json)}
  {members : List (Member Tree)}

theorem keptMembers?_cons {m : Member Tree} : keptMembers? value? done (m :: members) = some vs ↔
    ∃ name v, partsText? m.name = some name ∧ value? m.value.value = some v ∧
      keptMembers? value? (insertMember name v done) members = some vs := by
  rw [keptMembers?]
  cases partsText? m.name <;> cases value? m.value.value <;> simp

theorem keptMembers?_ascending (hdone : Ascending done)
    (h : keptMembers? value? done members = some vs) : Ascending vs := by
  induction members generalizing done with
  | nil => exact Option.some.inj h ▸ hdone
  | cons m members ih =>
    obtain ⟨name, v, -, -, hrest⟩ := keptMembers?_cons.mp h
    exact ih (insertMember_ascending hdone) hrest

theorem mem_keptMembers? (h : keptMembers? value? done members = some vs) {p : String × Json}
    (hp : p ∈ vs) : p ∈ done ∨ ∃ m ∈ members, value? m.value.value = some p.2 := by
  induction members generalizing done with
  | nil => exact .inl (Option.some.inj h ▸ hp)
  | cons m members ih =>
    obtain ⟨name, v, -, hv, hrest⟩ := keptMembers?_cons.mp h
    rcases ih hrest with hdone | ⟨n, hn, hvalue⟩
    · rcases mem_insertMember hdone with rfl | hdone
      · exact .inr ⟨m, List.mem_cons_self, hv⟩
      · exact .inl hdone
    · exact .inr ⟨n, List.mem_cons_of_mem _ hn, hvalue⟩

theorem lookup_keptMembers? (h : keptMembers? value? done members = some vs) (key : String) :
    vs.lookup key = ((named key members).getLast?.map value?).getD (done.lookup key) := by
  induction members generalizing done with
  | nil =>
    obtain rfl := Option.some.inj h
    rfl
  | cons m members ih =>
    obtain ⟨name, v, hname, hv, hrest⟩ := keptMembers?_cons.mp h
    rw [ih hrest, lookup_insertMember]
    by_cases hkey : key = name
    · subst hkey
      rw [named_cons_eq hname, List.getLast?_cons, if_pos rfl]
      cases (named key members).getLast? with
      | none => exact hv.symm
      | some t => rfl
    · rw [named_cons_ne (by simpa [hname] using Ne.symm hkey), if_neg hkey]

end

/-! ## Values that are kept -/

/-- What is kept of a tree, by its kind. -/
inductive KeptAs : Nat → Tree → Json → Prop
  | null {depth : Nat} : KeptAs depth .null .null
  | bool {depth : Nat} (b : Bool) : KeptAs depth (.bool b) (.bool b)
  | number {depth : Nat} {n : Numeral} {x : Number} : n.number? = some x →
    KeptAs depth (.number n) (.number x)
  | text {depth : Nat} {parts : List Part} {s : String} : partsText? parts = some s →
    KeptAs depth (.text parts) (.text s)
  | list {depth : Nat} {ahead : Blanks} {items : List (Padded Tree)} {vs : List Json} :
    items.map (kept? depth ·.value) = vs.map some →
    KeptAs (depth + 1) (.list ahead items) (.list vs)
  | object {depth : Nat} {ahead : Blanks} {members : List (Member Tree)}
    {vs : List (String × Json)} : keptMembers? (kept? depth) [] members = some vs →
    KeptAs (depth + 1) (.object ahead members) (.object vs)

theorem KeptAs.kept?_eq {depth : Nat} {t : Tree} {v : Json} (h : KeptAs depth t v) :
    kept? depth t = some v := by
  cases h with
  | null | bool => cases depth <;> rfl
  | number hx => cases depth <;> exact congrArg (Option.map Json.number) hx
  | text hs => cases depth <;> exact congrArg (Option.map Json.text) hs
  | list hvs => exact congrArg (Option.map Json.list) (mapM_eq_some_iff.mpr hvs)
  | object hvs => exact congrArg (Option.map Json.object) hvs

theorem keptAs_of_eq {depth : Nat} {t : Tree} {v : Json} (h : kept? depth t = some v) :
    KeptAs depth t v := by
  cases t with
  | null =>
    obtain rfl : null = v := by cases depth <;> exact Option.some.inj h
    exact .null
  | bool b =>
    obtain rfl : bool b = v := by cases depth <;> exact Option.some.inj h
    exact .bool b
  | number n =>
    have hmap : n.number?.map number = some v := by cases depth <;> exact h
    obtain ⟨x, hx, rfl⟩ := Option.map_eq_some_iff.mp hmap
    exact .number hx
  | text parts =>
    have hmap : (partsText? parts).map text = some v := by cases depth <;> exact h
    obtain ⟨s, hs, rfl⟩ := Option.map_eq_some_iff.mp hmap
    exact .text hs
  | list ahead items =>
    cases depth with
    | zero => cases h
    | succ depth =>
      obtain ⟨vs, hvs, rfl⟩ := Option.map_eq_some_iff.mp h
      exact .list (mapM_eq_some_iff.mp hvs)
  | object ahead members =>
    cases depth with
    | zero => cases h
    | succ depth =>
      obtain ⟨vs, hvs, rfl⟩ := Option.map_eq_some_iff.mp h
      exact .object hvs

theorem exists_of_map_eq {α β : Type} {f : α → Option β} {xs : List α} {ys : List β}
    (h : xs.map f = ys.map some) {y : β} (hy : y ∈ ys) : ∃ x ∈ xs, f x = some y := by
  have hmem : some y ∈ xs.map f := h ▸ List.mem_map_of_mem hy
  exact List.mem_map.mp hmem

/-- The members of all objects stand in the order of their names. -/
inductive Ordered : Json → Prop
  | null : Ordered .null
  | bool (b : Bool) : Ordered (.bool b)
  | number (n : Number) : Ordered (.number n)
  | text (s : String) : Ordered (.text s)
  | list {items : List Json} : (∀ v ∈ items, v.Ordered) → Ordered (.list items)
  | object {members : List (String × Json)} : Ascending members → (∀ m ∈ members, m.2.Ordered) →
    Ordered (.object members)

theorem kept?_ordered {t : Tree} {depth : Nat} {v : Json} (h : kept? depth t = some v) :
    v.Ordered := by
  induction t using Tree.induct generalizing depth v with
  | list ahead items ih =>
    cases keptAs_of_eq h with
    | list hvs =>
      refine .list fun v hv => ?_
      obtain ⟨i, hi, hkept⟩ := exists_of_map_eq hvs hv
      exact ih i hi hkept
  | object ahead members ih =>
    cases keptAs_of_eq h with
    | object hvs =>
      refine .object (keptMembers?_ascending List.Pairwise.nil hvs) fun p hp => ?_
      rcases mem_keptMembers? hvs hp with hnil | ⟨m, hm, hkept⟩
      · cases hnil
      · exact ih m hm hkept
  | _ =>
    cases keptAs_of_eq h
    constructor

/-! ## Written and read again -/

theorem membersWhole_iff {members : List (String × Json)} :
    membersWhole members ↔ ∀ m ∈ members, m.2.Whole := by
  induction members with
  | nil => simp [membersWhole]
  | cons m rest ih => simp [membersWhole, ih]

theorem whole_of_mem_list {items : List Json} (h : (list items).Whole) {v : Json} (hv : v ∈ items) :
    v.Whole := itemsWhole_iff.mp h v hv

theorem whole_of_mem_object {members : List (String × Json)} (h : (object members).Whole)
    {m : String × Json} (hm : m ∈ members) : m.2.Whole := membersWhole_iff.mp h m hm

theorem itemTrees_eq_map (vs : List Json) : itemTrees vs = vs.map (bare ·.tree) := by
  induction vs with
  | nil => rfl
  | cons v vs ih => rw [itemTrees, ih, List.map_cons]

theorem memberTrees_eq_map (members : List (String × Json)) :
    memberTrees members = members.map fun m => writtenMember m.1 m.2.tree := by
  induction members with
  | nil => rfl
  | cons m members ih => rw [memberTrees, ih, List.map_cons]

theorem map_itemTrees {value? : Tree → Option Json} {vs : List Json}
    (h : ∀ v ∈ vs, value? v.tree = some v) :
    (itemTrees vs).map (value? ·.value) = vs.map some := by
  rw [itemTrees_eq_map, List.map_map]
  exact List.map_congr_left h

theorem keptMembers?_memberTrees {value? : Tree → Option Json} {done vs : List (String × Json)}
    (hascending : Ascending (done ++ vs)) (h : ∀ m ∈ vs, value? m.2.tree = some m.2) :
    keptMembers? value? done (memberTrees vs) = some (done ++ vs) := by
  induction vs generalizing done with
  | nil => rw [memberTrees, keptMembers?, List.append_nil]
  | cons m vs ih =>
    obtain ⟨hm, hvs⟩ := List.forall_mem_cons.mp h
    have hlast : ∀ n ∈ done, n.1 < m.1 := fun n hn =>
      (List.pairwise_append.mp hascending).2.2 n hn m List.mem_cons_self
    rw [List.append_cons] at hascending ⊢
    refine keptMembers?_cons.mpr ⟨m.1, m.2, partsText?_written m.1, hm, ?_⟩
    rw [insertMember_last hlast]
    exact ih hascending hvs

theorem kept?_tree {t : Tree} {depth : Nat} {v : Json} (h : kept? depth t = some v)
    (hwhole : v.Whole) : kept? depth v.tree = some v := by
  induction t using Tree.induct generalizing depth v with
  | null =>
    cases keptAs_of_eq h
    exact h
  | bool b =>
    cases keptAs_of_eq h
    exact h
  | number n =>
    cases keptAs_of_eq h with
    | @number _ _ x hx =>
      cases x with
      | whole k fits => exact kept?_whole depth k fits
      | real x => exact hwhole.elim
  | text parts =>
    cases keptAs_of_eq h with
    | text hs => exact kept?_text depth _
  | list ahead items ih =>
    cases keptAs_of_eq h with
    | list hvs =>
      refine (KeptAs.list (map_itemTrees fun v hv => ?_)).kept?_eq
      obtain ⟨i, hi, hkept⟩ := exists_of_map_eq hvs hv
      exact ih i hi hkept (whole_of_mem_list hwhole hv)
  | object ahead members ih =>
    cases keptAs_of_eq h with
    | object hvs =>
      have hascending := keptMembers?_ascending List.Pairwise.nil hvs
      refine (KeptAs.object (keptMembers?_memberTrees hascending fun p hp => ?_)).kept?_eq
      rcases mem_keptMembers? hvs hp with hnil | ⟨m, hm, hkept⟩
      · cases hnil
      · exact ih m hm hkept (whole_of_mem_object hwhole hp)

end PoolWatch.Json
