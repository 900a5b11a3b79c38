import Mathlib.Data.List.Nodup
import PoolWatch.Proofs.Json.Records

/-!
# Which trees are records

A record says by rules what it holds. No rule mentions how a record is read.
-/

namespace PoolWatch.Json

/-- What stands in a field: nothing unless it is required, or one value that is allowed. -/
def Rule.Admits (r : Rule) : List Tree → Prop
  | [] => r.required = false
  | [t] => r.allows t
  | _ => False

/-- The values of the members with this name. -/
def named (name : String) (members : List (Member Tree)) : List Tree :=
  (members.filter fun m => partsText? m.name = some name).map (·.value.value)

/-- The values of the rules in order. Those of the last rules may be left out if none of these is
required. -/
def InOrder : List Rule → List (Padded Tree) → Prop
  | rules, [] => ∀ r ∈ rules, r.required = false
  | [], _ :: _ => False
  | r :: rules, i :: items => r.allows i.value ∧ InOrder rules items

/-- An object that obeys each rule, or a list of the values. An object may have further members, and
their values may be anything. -/
def IsRecord (rules : List Rule) : Tree → Prop
  | .object _ members =>
    (∀ m ∈ members, Paired m.name) ∧ ∀ r ∈ rules, Rule.Admits r (named r.name members)
  | .list _ items => InOrder rules items
  | _ => False

def IsSequence (inner : Tree → Prop) : Tree → Prop
  | .list _ items => ∀ i ∈ items, inner i.value
  | _ => False

theorem sequence?_isSome {α : Type} {inner? : Tree → Option α} {inner : Tree → Prop}
    (h : ∀ t, (inner? t).isSome = true ↔ inner t) (t : Tree) :
    (sequence? inner? t).isSome = true ↔ IsSequence inner t := by
  cases t with
  | list ahead items => simp only [sequence?, IsSequence, mapM_isSome, h]
  | _ => simp [sequence?, IsSequence]

/-! ## The fields of a record -/

variable {σ : Type} {fields : List (KnownField σ)}

/-- Fields that know each other apart: taking one says that it is given, and leaves what is given of
the others. -/
structure Lawful (fields : List (KnownField σ)) : Prop where
  distinct : (fields.map (·.name)).Nodup
  noted : ∀ f ∈ fields, ∀ g ∈ fields, ∀ {state t state'}, f.take state t = some state' →
    g.given state' = (g.name == f.name || g.given state)

theorem Lawful.eq_of_name (h : Lawful fields) {f g : KnownField σ} (hf : f ∈ fields)
    (hg : g ∈ fields) (hname : f.name = g.name) : f = g :=
  List.inj_on_of_nodup_map h.distinct hf hg hname

theorem complete_iff {state : σ} :
    complete fields state = true ↔ ∀ f ∈ fields, f.required = true → f.given state = true := by
  simp only [complete, List.all_eq_true]
  refine forall₂_congr fun f _ => ?_
  cases f.required <;> simp

/-! ## As an object -/

/-- What a field may still find among further members. -/
def KnownField.Awaits (f : KnownField σ) (state : σ) (values : List Tree) : Prop :=
  if f.given state then values = [] else f.rule.Admits values

theorem KnownField.awaits_nil {f : KnownField σ} {state : σ} :
    f.Awaits state [] ↔ (f.required = true → f.given state = true) := by
  unfold KnownField.Awaits
  cases f.given state <;> cases hrequired : f.required <;>
    simp [Rule.Admits, KnownField.rule, hrequired]

theorem KnownField.awaits_cons {f : KnownField σ} {state : σ} {t : Tree} {values : List Tree} :
    f.Awaits state (t :: values) ↔ f.given state = false ∧ f.allows t ∧ values = [] := by
  unfold KnownField.Awaits
  cases f.given state <;> cases values <;> simp [Rule.Admits, KnownField.rule]

theorem named_cons_eq {name : String} {m : Member Tree} (h : partsText? m.name = some name)
    (members : List (Member Tree)) :
    named name (m :: members) = m.value.value :: named name members := by
  simp [named, h]

theorem named_cons_ne {name : String} {m : Member Tree} (h : partsText? m.name ≠ some name)
    (members : List (Member Tree)) : named name (m :: members) = named name members := by
  simp [named, h]

theorem takeMembers?_isSome (h : Lawful fields) (members : List (Member Tree)) (state : σ) :
    ((takeMembers? fields state members).filter (complete fields)).isSome = true ↔
      (∀ m ∈ members, Paired m.name) ∧ ∀ f ∈ fields, f.Awaits state (named f.name members) := by
  induction members generalizing state with
  | nil =>
    simp only [takeMembers?, Option.filter_some, named, List.filter_nil, List.map_nil,
      KnownField.awaits_nil, ← complete_iff]
    cases complete fields state <;> simp
  | cons m members ih =>
    rw [takeMembers?, List.forall_mem_cons, Paired]
    cases hname : partsText? m.name with
    | none => simp
    | some name =>
      simp only [Option.isSome_some, true_and]
      cases hfind : fields.find? (fun f => f.name == name) with
      | none =>
        rw [ih]
        refine and_congr_right fun _ => forall₂_congr fun f hf => ?_
        have hne : f.name ≠ name := by simpa using List.find?_eq_none.mp hfind f hf
        rw [named_cons_ne (by simpa [hname] using hne.symm)]
      | some f =>
        have hf := List.mem_of_find?_eq_some hfind
        obtain rfl : f.name = name := by simpa using List.find?_some hfind
        have hnamed := named_cons_eq hname members
        cases hgiven : f.given state with
        | true =>
          simp only [hgiven, if_true, Option.filter_none, Option.isSome_none, Bool.false_eq_true,
            false_iff]
          rintro ⟨-, hall⟩
          simpa [hnamed, KnownField.awaits_cons, hgiven] using hall f hf
        | false =>
          simp only [hgiven, Bool.false_eq_true, if_false]
          have hallows := f.takes state m.value.value
          cases htake : f.take state m.value.value with
          | none =>
            simp only [Option.filter_none, Option.isSome_none, Bool.false_eq_true, false_iff]
            rintro ⟨-, hall⟩
            have hawaits := hall f hf
            rw [hnamed, KnownField.awaits_cons, ← hallows, htake] at hawaits
            simp at hawaits
          | some state' =>
            rw [htake] at hallows
            simp only [ih]
            refine and_congr_right fun _ => forall₂_congr fun g hg => ?_
            have hnoted := h.noted f hf g hg htake
            by_cases hsame : g.name = f.name
            · obtain rfl := h.eq_of_name hg hf hsame
              rw [hnamed, KnownField.awaits_cons, KnownField.Awaits, hnoted]
              simp [hgiven, ← hallows]
            · rw [named_cons_ne (by simpa [hname] using Ne.symm hsame), KnownField.Awaits, hnoted]
              simp [hsame, KnownField.Awaits]

/-! ## As a list -/

theorem takePositions?_isSome (h : Lawful fields) (items : List (Padded Tree))
    (done left : List (KnownField σ)) (hfields : fields = done ++ left) (state : σ)
    (hdone : ∀ f ∈ done, f.given state = true) (hleft : ∀ f ∈ left, f.given state = false) :
    ((takePositions? left state items).filter (complete fields)).isSome = true ↔
      InOrder (left.map KnownField.rule) items := by
  induction items generalizing done left state with
  | nil =>
    have hcomplete : complete fields state = true ↔ ∀ f ∈ left, f.required = false := by
      rw [complete_iff, hfields, List.forall_mem_append]
      constructor
      · rintro ⟨-, hall⟩ f hf
        simpa [hleft f hf] using hall f hf
      · intro hall
        exact ⟨fun f hf _ => hdone f hf, fun f hf hrequired => by simp [hall f hf] at hrequired⟩
    have htake : takePositions? left state [] = some state := by cases left <;> rfl
    rw [htake, Option.filter_some, InOrder, List.forall_mem_map]
    refine Iff.trans ?_ hcomplete
    cases complete fields state <;> simp
  | cons i items ih =>
    cases left with
    | nil => simp [takePositions?, InOrder]
    | cons f left =>
      have hf : f ∈ fields := by simp [hfields]
      have hallows : f.rule.allows i.value ↔ (f.take state i.value).isSome = true :=
        (f.takes state i.value).symm
      rw [takePositions?, List.map_cons, InOrder, hallows]
      cases htake : f.take state i.value with
      | none => simp
      | some state' =>
        have hnoted : ∀ g ∈ fields, g.given state' = (g.name == f.name || g.given state) :=
          fun g hg => h.noted f hf g hg htake
        have hdone' : ∀ g ∈ done ++ [f], g.given state' = true := by
          intro g hg
          rw [hnoted g (by rw [hfields, List.append_cons]; exact List.mem_append_left _ hg)]
          rcases List.mem_append.mp hg with hg | hg
          · simp [hdone g hg]
          · simp [List.mem_singleton.mp hg]
        have hleft' : ∀ g ∈ left, g.given state' = false := by
          intro g hg
          have hdistinct := h.distinct
          rw [hfields, List.map_append, List.map_cons] at hdistinct
          have hapart : g.name ≠ f.name := fun hname =>
            (List.nodup_cons.mp (List.nodup_append.mp hdistinct).2.1).1
              (List.mem_map.mpr ⟨g, hg, hname⟩)
          rw [hnoted g (by simp [hfields, hg]), hleft g (by simp [hg])]
          simp [hapart]
        simp only [ih (done ++ [f]) left (by simp [hfields]) state' hdone' hleft',
          Option.isSome_some, true_and]

/-- The trees that a record makes something of are those that its rules describe. -/
theorem record?_isSome (h : Lawful fields) {blank : σ}
    (hblank : ∀ f ∈ fields, f.given blank = false) (t : Tree) :
    (record? fields blank t).isSome = true ↔ IsRecord (fields.map KnownField.rule) t := by
  cases t with
  | object ahead members =>
    rw [record?, takeMembers?_isSome h, IsRecord, List.forall_mem_map]
    refine and_congr_right fun _ => forall₂_congr fun f hf => ?_
    simp [KnownField.Awaits, hblank f hf, KnownField.rule]
  | list ahead items =>
    rw [record?, takePositions?_isSome h items [] fields rfl blank (by simp) hblank, IsRecord]
  | _ => simp [record?, IsRecord]

end PoolWatch.Json
