import PoolWatch.Proofs.Json.Order

/-!
# What a text says along a path

A path leads into lists by position and into objects by name, to the last member of that name. What
is seen at its end is said of trees and of values alike, and of trees without reading them. A value
whose numbers are whole says what its text says, and it is known by what it says.
-/

namespace PoolWatch

def Number.integer? : Number → Option Int
  | whole n _ => some n
  | real _ => none

namespace Json

inductive Step
  | item (i : Nat)
  | member (name : String)

/-- What is seen of a value from outside. A numeral may spell no whole number, and a string may be
no text. -/
inductive Sight
  | null
  | bool (b : Bool)
  | number (n : Option Int)
  | text (s : Option String)
  | list (length : Nat)
  | object
deriving DecidableEq

/-- The whole number that a numeral spells without fraction and power. Minus zero is none. -/
def Numeral.integer? (n : Numeral) : Option Int :=
  match n.fraction, n.power with
  | none, none =>
    if n.negative then
      if valueFrom 0 n.whole.chars = 0 then none else some (-valueFrom 0 n.whole.chars)
    else some (valueFrom 0 n.whole.chars)
  | _, _ => none

/-! ## Along a path -/

def Tree.sight : Tree → Sight
  | .null => .null
  | .bool b => .bool b
  | .number n => .number n.integer?
  | .text parts => .text (partsText? parts)
  | .list _ items => .list items.length
  | .object _ _ => .object

def Tree.part? (step : Step) (t : Tree) : Option Tree :=
  match step, t with
  | .item i, .list _ items => items[i]?.map (·.value)
  | .member name, .object _ members => (named name members).getLast?
  | _, _ => none

def Tree.look : List Step → Tree → Option Sight
  | [], t => some t.sight
  | step :: path, t => (t.part? step).bind (Tree.look path)

def sight : Json → Sight
  | .null => .null
  | .bool b => .bool b
  | .number n => .number n.integer?
  | .text s => .text (some s)
  | .list items => .list items.length
  | .object _ => .object

def part? (step : Step) (v : Json) : Option Json :=
  match step, v with
  | .item i, .list items => items[i]?
  | .member name, .object members => members.lookup name
  | _, _ => none

def look : List Step → Json → Option Sight
  | [], v => some v.sight
  | step :: path, v => (v.part? step).bind (look path)

/-! ## Numerals -/

theorem scaled?_real {negative : Bool} {digits : Nat} {e : Int} {v : Number}
    (h : scaled? negative digits e = some v) : ∃ x, v = .real x := by
  unfold scaled? at h
  obtain ⟨x, -, hx⟩ := Option.bind_eq_some_iff.mp h
  dsimp only at hx
  split at hx
  all_goals
    obtain ⟨y, -, hy⟩ := Option.bind_eq_some_iff.mp hx
    exact ⟨_, (Option.some.inj hy).symm⟩

theorem powered?_real {negative : Bool} {digits : Nat} {scale : Int} {power : Option Power}
    {v : Number} (h : powered? negative digits scale power = some v) : ∃ x, v = .real x := by
  cases power with
  | none => exact scaled?_real h
  | some p =>
    unfold powered? scaledBy? at h
    dsimp only at h
    split at h
    · exact scaled?_real h
    split at h
    · cases h
    · exact ⟨_, (Option.some.inj h).symm⟩

theorem fitted_all {digits : List Char} {n : Nat} (h : digits.length ≤ (fitted n digits).2) :
    (fitted n digits).1 = valueFrom n digits := by
  induction digits generalizing n with
  | nil => rfl
  | cons c cs ih =>
    unfold fitted at h ⊢
    split at h
    · next hfits =>
      rw [if_pos hfits]
      exact ih (by simpa using h)
    · simp at h

theorem wholeNumber_whole {negative : Bool} {m : Nat} {k : Int} {fits : Number.Fits k}
    (h : wholeNumber negative m = some (.whole k fits)) :
    if negative then m ≠ 0 ∧ k = -m else k = m := by
  unfold wholeNumber at h
  cases negative with
  | true =>
    rw [if_pos rfl] at h ⊢
    split at h
    · next hm =>
      injection h with h
      injection h with h
      exact ⟨hm.1, h.symm⟩
    · obtain ⟨x, -, hx⟩ := Option.map_eq_some_iff.mp h
      cases hx
  | false =>
    rw [if_neg (by decide)] at h ⊢
    split at h
    · injection h with h
      injection h with h
      exact h.symm
    · cases h

theorem Numeral.integer?_eq {n : Numeral} {k : Int} {fits : Number.Fits k}
    (h : n.number? = some (.whole k fits)) : n.integer? = some k := by
  obtain ⟨negative, whole, plain, fraction, power⟩ := n
  unfold number? at h
  unfold integer?
  cases fraction with
  | some f =>
    obtain ⟨x, hx⟩ := powered?_real h
    cases hx
  | none =>
    cases power with
    | some p =>
      dsimp only [numberFrom?] at h
      obtain ⟨x, hx⟩ := powered?_real h
      cases hx
    | none =>
      simp only [numberFrom?] at h
      split at h
      · next hdropped =>
        rw [fitted_all (by omega)] at h
        have hwhole := wholeNumber_whole h
        cases negative with
        | true =>
          obtain ⟨hm, rfl⟩ := hwhole
          simp [hm]
        | false =>
          obtain rfl : k = _ := hwhole
          rfl
      · obtain ⟨x, hx⟩ := powered?_real h
        cases hx

/-! ## Trees and their values -/

theorem sight_kept {t : Tree} {depth : Nat} {v : Json} (h : kept? depth t = some v)
    (hwhole : v.Whole) : t.sight = v.sight := by
  cases keptAs_of_eq h with
  | null | bool b | object hvs => rfl
  | @number _ _ x hx =>
    cases x with
    | whole k fits => exact congrArg Sight.number (Numeral.integer?_eq hx)
    | real x => exact hwhole.elim
  | text hs => exact congrArg Sight.text hs
  | list hvs => exact congrArg Sight.list (by simpa using congrArg List.length hvs)

theorem named_kept {value? : Tree → Option Json} {done vs : List (String × Json)}
    {members : List (Member Tree)} (h : keptMembers? value? done members = some vs) {name : String}
    {t : Tree} (ht : t ∈ named name members) : (value? t).isSome = true := by
  obtain ⟨m, hm, rfl⟩ := List.mem_map.mp ht
  have hkept := keptMembers?_isSome.mp (Option.isSome_iff_exists.mpr ⟨vs, h⟩)
  exact (hkept m (List.mem_filter.mp hm).1).2

theorem part?_kept {t : Tree} {depth : Nat} {v : Json} (h : kept? depth t = some v) :
    ∃ d, ∀ step, Option.Rel (fun t v => kept? d t = some v) (t.part? step) (v.part? step) := by
  cases keptAs_of_eq h with
  | null | bool b | number hx | text hs =>
    exact ⟨0, fun step => by cases step <;> exact .none⟩
  | @list d ahead items vs hvs =>
    refine ⟨d, fun step => ?_⟩
    cases step with
    | member name => exact .none
    | item i =>
      have hi : (items[i]?.map fun p => kept? d p.value) = vs[i]?.map some := by
        rw [← List.getElem?_map, hvs, List.getElem?_map]
      simp only [Tree.part?, part?]
      generalize items[i]? = item at hi ⊢
      generalize vs[i]? = v at hi ⊢
      cases item <;> cases v
      · exact .none
      · cases hi
      · cases hi
      · exact .some (Option.some.inj hi)
  | @object d ahead members vs hvs =>
    refine ⟨d, fun step => ?_⟩
    cases step with
    | item i => exact .none
    | member name =>
      have hname := lookup_keptMembers? hvs name
      simp only [Tree.part?, part?, hname]
      cases hlast : (named name members).getLast? with
      | none => exact .none
      | some t =>
        obtain ⟨v, hv⟩ := Option.isSome_iff_exists.mp
          (named_kept hvs (List.mem_of_getLast? hlast))
        rw [Option.map_some, Option.getD_some, hv]
        exact .some hv

theorem Whole.part {v w : Json} {step : Step} (h : v.Whole) (hpart : v.part? step = some w) :
    w.Whole := by
  cases v with
  | list items =>
    cases step with
    | item i => exact whole_of_mem_list h (List.mem_of_getElem? hpart)
    | member name => cases hpart
  | object members =>
    cases step with
    | item i => cases hpart
    | member name => exact whole_of_mem_object h (mem_of_lookup hpart)
  | _ => cases step <;> cases hpart

/-- A value says what its text says. -/
theorem look_kept {t : Tree} {depth : Nat} {v : Json} (h : kept? depth t = some v)
    (hwhole : v.Whole) (path : List Step) : t.look path = v.look path := by
  induction path generalizing t depth v with
  | nil => exact congrArg some (sight_kept h hwhole)
  | cons step path ih =>
    obtain ⟨d, hparts⟩ := part?_kept h
    have hpart := hparts step
    rw [Tree.look, look]
    generalize t.part? step = u at hpart ⊢
    generalize hw : v.part? step = w at hpart ⊢
    cases hpart with
    | none => rfl
    | some hkept => exact ih hkept (hwhole.part hw)

/-! ## Values that say the same -/

theorem look_part {v w : Json} (h : ∀ path, v.look path = w.look path) (step : Step) :
    Option.Rel (fun a b => ∀ path, a.look path = b.look path) (v.part? step) (w.part? step) := by
  have hstep : ∀ path, (v.part? step).bind (look path) = (w.part? step).bind (look path) :=
    fun path => h (step :: path)
  cases hv : v.part? step <;> cases hw : w.part? step <;> rw [hv, hw] at hstep
  · exact .none
  · cases hstep []
  · cases hstep []
  · exact .some hstep

theorem sight_eq {v w : Json} (h : ∀ path, v.look path = w.look path) : v.sight = w.sight :=
  Option.some.inj (h [])

/-- Whole values in order are known by what they say. -/
theorem Ordered.ext {v w : Json} (hv : v.Ordered) (hw : w.Ordered) (hwhole : v.Whole)
    (hwhole' : w.Whole) (h : ∀ path, v.look path = w.look path) : v = w := by
  induction v using Json.induct generalizing w with
  | null =>
    cases hw with
    | null => rfl
    | _ => cases sight_eq h
  | bool b =>
    cases hw with
    | bool c => exact congrArg _ (Sight.bool.inj (sight_eq h))
    | _ => cases sight_eq h
  | number n =>
    cases hw with
    | number m =>
      have hinteger := Sight.number.inj (sight_eq h)
      cases n with
      | real x => exact hwhole.elim
      | whole k fits =>
        cases m with
        | real y => exact hwhole'.elim
        | whole l fits' =>
          obtain rfl : k = l := Option.some.inj hinteger
          rfl
    | _ => cases sight_eq h
  | text s =>
    cases hw with
    | text s' => exact congrArg _ (Option.some.inj (Sight.text.inj (sight_eq h)))
    | _ => cases sight_eq h
  | list items ih =>
    cases hv with
    | list hitems =>
    cases hw with
    | @list items' hitems' =>
      have hlength : items.length = items'.length := Sight.list.inj (sight_eq h)
      refine congrArg _ (List.ext_getElem hlength fun i hi hi' => ?_)
      have hpart := look_part h (.item i)
      simp only [part?, List.getElem?_eq_getElem hi, List.getElem?_eq_getElem hi'] at hpart
      cases hpart with
      | some hlook =>
        have hmem := List.getElem_mem hi
        have hmem' := List.getElem_mem hi'
        exact ih _ hmem (hitems _ hmem) (hitems' _ hmem') (whole_of_mem_list hwhole hmem)
          (whole_of_mem_list hwhole' hmem') hlook
    | _ => cases sight_eq h
  | object members ih =>
    cases hv with
    | object hascending hmembers =>
    cases hw with
    | @object members' hascending' hmembers' =>
      refine congrArg _ (hascending.ext hascending' fun name => ?_)
      have hpart := look_part h (.member name)
      simp only [part?] at hpart
      generalize hfound : members.lookup name = found at hpart ⊢
      generalize hfound' : members'.lookup name = found' at hpart ⊢
      cases hpart with
      | none => rfl
      | some hlook =>
        have hmem := mem_of_lookup hfound
        have hmem' := mem_of_lookup hfound'
        exact congrArg _ (ih _ hmem (hmembers _ hmem) (hmembers' _ hmem')
          (whole_of_mem_object hwhole hmem) (whole_of_mem_object hwhole' hmem') hlook)
    | _ => cases sight_eq h

end Json

end PoolWatch
