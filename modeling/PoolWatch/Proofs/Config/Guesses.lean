import PoolWatch.Config.Convert
import PoolWatch.Config.Source
import PoolWatch.Proofs.Number.Numerals

/-!
# What a variable is taken for

The value of a variable is a text. It is taken for a truth value or a number if it looks like one,
and is turned back where a setting is a text.
-/

namespace PoolWatch.Config

def IsTruth (cs : List Char) (b : Bool) : Prop := lowered cs = (toString b).toList

/-- A whole number of a signed 64-bit word. -/
def IsSmallWhole (cs : List Char) (n : Int) : Prop := IsWhole cs n ∧ Integer.fitsInt64 n = true

def LooksTyped (v : String) : Prop := (∃ b, IsTruth v.toList b) ∨ LooksReal v.toList

/-- The text that is made of a text. It is first taken for a truth value, then for a whole number,
then for a real one, and kept if it is none of these. -/
inductive Guessed (v : String) : String → Prop
  | truth {b : Bool} : IsTruth v.toList b → Guessed v (toString b)
  | whole {n : Int} : (∀ b, ¬ IsTruth v.toList b) → IsSmallWhole v.toList n →
    Guessed v (Integer.text n)
  | real {x : Binary64.Extended} : (∀ b, ¬ IsTruth v.toList b) →
    (∀ n, ¬ IsSmallWhole v.toList n) → Binary64.Extended.ofChars? v.toList = some x →
    Guessed v x.text
  | kept : ¬ LooksTyped v → Guessed v v

theorem int64OfChars?_whole {cs : List Char} {n : Int} (h : IsSmallWhole cs n) :
    (Integer.int64OfChars? cs).map Int64.toInt = some n := by
  obtain ⟨hwhole, hfits⟩ := h
  have hrange : -(2 ^ 63) ≤ n ∧ n < 2 ^ 63 := by simpa [Integer.fitsInt64] using hfits
  have hword : (Int64.ofInt n).toInt = n := Int64.toInt_ofInt_of_le hrange.1 hrange.2
  have hread := Integer.int64OfChars?_eq_some cs (.ofInt n)
  rw [hword] at hread
  rw [hread.mpr hwhole, Option.map_some, hword]

theorem int64OfChars?_none {cs : List Char} (h : ∀ n, ¬ IsSmallWhole cs n) :
    Integer.int64OfChars? cs = none := by
  cases hn : Integer.int64OfChars? cs with
  | none => rfl
  | some n =>
    have hwhole := (Integer.int64OfChars?_eq_some cs n).mp hn
    exact absurd ⟨hwhole, Integer.fitsInt64_toInt n⟩ (h n.toInt)

theorem variableValue_truth {v : String} {b : Bool} (h : IsTruth v.toList b) :
    variableValue v = .bool b := by
  have hword : v.toList.map Char.toLower = (toString b).toList := h
  unfold variableValue
  rw [hword]
  cases b <;> rfl

theorem variableValue_other {v : String} (h : ∀ b, ¬ IsTruth v.toList b) : variableValue v =
    match Integer.int64OfChars? v.toList with
    | some n => .whole n.toInt
    | none =>
      match Binary64.Extended.ofChars? v.toList with
      | some x => .real x
      | none => .text v := by
  have htrue : v.toList.map Char.toLower ≠ "true".toList := h true
  have hfalse : v.toList.map Char.toLower ≠ "false".toList := h false
  unfold variableValue
  exact (if_neg htrue).trans (if_neg hfalse)

theorem Guessed.asText {v w : String} (h : Guessed v w) (origin : Option String) :
    (Tree.scalar origin (variableValue v)).asText = .ok w := by
  cases h with
  | truth h =>
    rename_i b
    rw [variableValue_truth h]
    cases b <;> rfl
  | whole htruth hwhole =>
    have hsmall := int64OfChars?_whole hwhole
    rw [variableValue_other htruth]
    cases hn : Integer.int64OfChars? v.toList with
    | none => simp [hn] at hsmall
    | some n =>
      rw [hn, Option.map_some, Option.some.injEq] at hsmall
      rw [← hsmall]
      rfl
  | real htruth hwhole hreal =>
    rw [variableValue_other htruth, int64OfChars?_none hwhole, hreal]
    rfl
  | kept hplain =>
    have htruth (b : Bool) : ¬ IsTruth v.toList b := fun hb => hplain (.inl ⟨b, hb⟩)
    have hreal : ¬ LooksReal v.toList := fun h => hplain (.inr h)
    have hwhole (n : Int) : ¬ IsSmallWhole v.toList n := fun h => hreal h.1.looksReal
    have hnone : Binary64.Extended.ofChars? v.toList = none := by
      rwa [← Binary64.Extended.ofChars?_isSome, Option.not_isSome_iff_eq_none] at hreal
    rw [variableValue_other htruth, int64OfChars?_none hwhole, hnone]
    rfl

theorem exists_guessed (v : String) : ∃ w, Guessed v w := by
  by_cases htyped : LooksTyped v
  · by_cases htruth : ∃ b, IsTruth v.toList b
    · obtain ⟨b, hb⟩ := htruth
      exact ⟨_, .truth hb⟩
    · have hno (b : Bool) : ¬ IsTruth v.toList b := fun hb => htruth ⟨b, hb⟩
      by_cases hwhole : ∃ n, IsSmallWhole v.toList n
      · obtain ⟨n, hn⟩ := hwhole
        exact ⟨_, .whole hno hn⟩
      · have hreal := (Binary64.Extended.ofChars?_isSome _).mpr (htyped.resolve_left htruth)
        obtain ⟨x, hx⟩ := Option.isSome_iff_exists.mp hreal
        exact ⟨_, .real hno (fun n hn => hwhole ⟨n, hn⟩) hx⟩
  · exact ⟨v, .kept htyped⟩

end PoolWatch.Config
