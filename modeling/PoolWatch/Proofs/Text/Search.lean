import Mathlib.Data.List.Infix
import PoolWatch.Text.Search

/-!
# What a search for a marker finds

The first occurrence, and it fails only if there is none. A marker whose first character comes only
once in it cannot lie across the beginning of another one.
-/

namespace PoolWatch.Text

variable {marker cs : List Char}

theorem fromMarker?_eq_none : fromMarker? marker cs = none ↔ ¬ marker <:+: cs := by
  induction cs with
  | nil => simp [fromMarker?]
  | cons c cs ih =>
    unfold fromMarker?
    split
    · next hprefix =>
      rw [List.isPrefixOf_iff_prefix] at hprefix
      have hfound : marker <:+: c :: cs := List.IsPrefix.isInfix hprefix
      simp [hfound]
    · next hprefix =>
      rw [List.isPrefixOf_iff_prefix] at hprefix
      simp [ih, List.infix_cons_iff, hprefix]

theorem hasMarker_iff : hasMarker marker cs = true ↔ marker <:+: cs := by
  rw [← not_iff_not, ← fromMarker?_eq_none]
  simp [hasMarker]

theorem fromMarker?_eq_some (hne : marker ≠ []) {found : List Char}
    (h : fromMarker? marker cs = some found) :
    ∃ pre rest, cs = pre ++ found ∧ found = marker ++ rest ∧ ¬ marker <:+: pre := by
  obtain ⟨rest, hrest⟩ := marker_isPrefix_of_fromMarker? h
  induction cs with
  | nil =>
    unfold fromMarker? at h
    simp [hne] at h
  | cons c cs ih =>
    unfold fromMarker? at h
    split at h
    · refine ⟨[], rest, (Option.some.inj h), hrest.symm, ?_⟩
      simpa using hne
    · next hprefix =>
      obtain ⟨pre, rest, hcs, hfound, hpre⟩ := ih h
      refine ⟨c :: pre, rest, by rw [hcs, List.cons_append], hfound, ?_⟩
      rw [List.infix_cons_iff]
      rintro (hhead | htail)
      · rw [List.isPrefixOf_iff_prefix, hcs, ← List.cons_append] at hprefix
        exact hprefix (hhead.trans (List.prefix_append _ _))
      · exact hpre htail

theorem fromMarker?_append {c : Char} {tail pre : List Char} (hpre : c ∉ pre) (rest : List Char) :
    fromMarker? (c :: tail) (pre ++ (c :: tail ++ rest)) = some (c :: tail ++ rest) := by
  induction pre with
  | nil => simp [fromMarker?]
  | cons d pre ih =>
    rw [List.mem_cons, not_or] at hpre
    rw [List.cons_append, fromMarker?, if_neg (by simp [List.isPrefixOf, hpre.1])]
    exact ih hpre.2

theorem infix_append_cons {c : Char} {tail : List Char} (htail : c ∉ tail) (pre rest : List Char) :
    (c :: tail) <:+: pre ++ c :: rest ↔ (c :: tail) <:+: pre ∨ (c :: tail) <:+: c :: rest := by
  rw [List.infix_append_iff_ne_nil]
  constructor
  · rintro (h | h | ⟨before, behind, hbefore, hbehind, hmarker, -, hrest⟩)
    · exact .inl h
    · exact .inr h
    -- The marker would lie across the later `c` and hold it.
    · obtain ⟨d, before, rfl⟩ := List.exists_cons_of_ne_nil hbefore
      obtain ⟨e, behind, rfl⟩ := List.exists_cons_of_ne_nil hbehind
      obtain ⟨rfl, -⟩ := List.cons_prefix_cons.mp hrest
      obtain ⟨-, rfl⟩ := List.cons.inj hmarker
      exact absurd (by simp) htail
  · rintro (h | h)
    · exact .inl h
    · exact .inr (.inl h)

end PoolWatch.Text
