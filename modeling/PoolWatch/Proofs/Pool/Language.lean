import PoolWatch.Proofs.Json.Range
import PoolWatch.Proofs.Pool.Meaning

/-!
# The language of pools

Which texts are decoded.
-/

namespace PoolWatch.Decode

open Json

theorem readAll_eq_ok {α : Type} {reader : Reader α} {meaning : Tree → Option α}
    (h : Reads reader meaning) (text : String) (v : α) : readAll reader text = .ok v ↔
      ∃ d : Padded Tree, d.text = text ∧ meaning d.value = some v := by
  constructor
  · intro hread
    unfold readAll endText at hread
    split at hread
    · simp at hread
    rename_i w rest hw
    split at hread
    · rename_i hrest
      obtain rfl := Except.ok.inj hread
      obtain ⟨ahead, t, hs, hv⟩ := h.sound hw
      obtain ⟨after, hafter⟩ := skipBlanks_sound rest
      refine ⟨⟨ahead, t, after⟩, ?_, hv⟩
      rw [Padded.text, ← String.toList_inj, String.toList_ofList, hs]
      rw [hrest, List.append_nil] at hafter
      rw [hafter]
    · simp [failPeek] at hread
  · rintro ⟨⟨ahead, t, after⟩, rfl, hv⟩
    have hblank : skipBlanks after.chars = [] := by
      simpa [skipBlanks] using skipBlanks_append after []
    simp [readAll, endText, Padded.text, String.toList_ofList, h.complete ahead hv after.numberEnds,
      hblank]

theorem decodeWith_eq_ok {α : Type} (reader : Nat → Reader α) (text : String) (v : α) :
    decodeWith reader text = .ok v ↔ readAll (reader depthLimit) text = .ok v := by
  unfold decodeWith
  cases readAll (reader depthLimit) text <;> simp

theorem decode_eq_ok (text : String) (p : Pool) : Pool.decode text = .ok p ↔
    ∃ d : Padded Tree, d.text = text ∧ pool? (depthLimit - 5) d.value = some p := by
  have hreads : Reads (readPool depthLimit) (pool? (depthLimit - 5)) := reads_pool (depthLimit - 5)
  rw [Pool.decode, decodeWith_eq_ok, readAll_eq_ok hreads]

theorem decodes_iff (text : String) : (∃ p, Pool.decode text = .ok p) ↔
    ∃ d : Padded Tree, d.text = text ∧ IsPool (depthLimit - 5) d.value := by
  simp only [decode_eq_ok, ← pool?_isSome, Option.isSome_iff_exists]
  constructor
  · rintro ⟨p, d, htext, hp⟩
    exact ⟨d, htext, p, hp⟩
  · rintro ⟨d, htext, p, hp⟩
    exact ⟨p, d, htext, hp⟩

/-- A text is decoded when it is a JSON text whose value is a pool, and only then. The numbers that
a pool may hold are in range by their size. -/
theorem decode_isOk_iff (text : String) : ((∃ p, Pool.decode text = .ok p) ↔
      ∃ d : Padded Tree, d.text = text ∧ IsPool (depthLimit - 5) d.value) ∧
    ∀ n : Numeral, n.RangeBySize :=
  ⟨decodes_iff text, Numeral.rangeBySize⟩

end PoolWatch.Decode
