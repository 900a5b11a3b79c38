import PoolWatch.Proofs.Envelope
import PoolWatch.Proofs.Text.Search
import PoolWatch.Rpc.Document
import PoolWatch.Text.Blank

/-!
# Documents on their way

The line breaks of a call document are those of the method. An answer that is cut at its declaration
says what it said before, unless what is cut off had a say.
-/

namespace PoolWatch.Rpc

/-! ## Line breaks -/

variable {c : Char}

theorem mem_escapeChar (h : c = '\n' ∨ c = '\r') (d : Char) : c ∈ escapeChar d ↔ c = d := by
  unfold escapeChar
  rcases h with rfl | rfl
  all_goals
    repeat' split
    all_goals first | (subst d; decide) | exact List.mem_singleton

theorem mem_escape (h : c = '\n' ∨ c = '\r') (text : List Char) : c ∈ escape text ↔ c ∈ text := by
  simp [escape, mem_escapeChar h]

theorem mem_document (h : c = '\n' ∨ c = '\r') (method : String) :
    c ∈ (document method).toList ↔ c ∈ method.toList := by
  have hopening : c ∉ opening := by
    rcases h with rfl | rfl <;> decide
  have hclosing : c ∉ closing := by
    rcases h with rfl | rfl <;> decide
  simp [document, mem_escape h, hopening, hclosing]

/-! ## Cutting at the declaration -/

/-- What stands in front of the declaration has neither a brace nor a fault. -/
def QuietAhead (answer : List Char) : Prop := ∀ pre rest, answer = pre ++ (documentStart ++ rest) →
  ¬ documentStart <:+: pre → '{' ∉ pre ∧ ¬ faultMark <:+: pre

theorem quietAhead_append {pre rest : List Char} (hfirst : ¬ documentStart <:+: pre)
    (hbrace : '{' ∉ pre) (hfault : ¬ faultMark <:+: pre) :
    QuietAhead (pre ++ (documentStart ++ rest)) := by
  have hmark : documentStart = ['<', '?'] := by decide
  intro pre' rest' hanswer hfirst'
  rcases List.append_eq_append_iff.mp hanswer with ⟨more, rfl, hmore⟩ | ⟨more, rfl, hmore⟩
  · rw [hmark] at hmore hfirst'
    match more with
    | [] => simpa using ⟨hbrace, hfault⟩
    | [c] => simp at hmore
    | c :: d :: more =>
      obtain ⟨rfl, rfl, -⟩ : '<' = c ∧ '?' = d ∧ _ := by simpa using hmore
      exact absurd ⟨pre, more, by simp⟩ hfirst'
  · refine ⟨fun hmem => hbrace (List.mem_append_left _ hmem), fun hmem => hfault ?_⟩
    exact List.infix_append_of_infix_left hmem

theorem fromDeclaration_cases (answer : String) :
    fromDeclaration answer = answer ∨
    ∃ pre rest, answer.toList = pre ++ (documentStart ++ rest) ∧ ¬ documentStart <:+: pre ∧
      fromDeclaration answer = String.ofList (documentStart ++ rest) := by
  unfold fromDeclaration
  cases hfound : Text.fromMarker? documentStart answer.toList with
  | none => exact .inl (by simp)
  | some found =>
    obtain ⟨pre, rest, hanswer, rfl, hpre⟩ := Text.fromMarker?_eq_some (by decide) hfound
    exact .inr ⟨pre, rest, hanswer, hpre, rfl⟩

theorem isBlankText_fromDeclaration (answer : String) :
    Text.isBlankText (fromDeclaration answer) = Text.isBlankText answer := by
  rcases fromDeclaration_cases answer with h | ⟨pre, rest, hanswer, -, h⟩
  · rw [h]
  · have hmark : documentStart.all Text.isBlank = false := by decide
    rw [h, Text.isBlankText, Text.isBlankText, hanswer, String.toList_ofList]
    simp only [List.all_append, hmark, Bool.false_and, Bool.and_false]

theorem faultMark_infix (pre rest : List Char) :
    faultMark <:+: pre ++ (documentStart ++ rest) ↔
      faultMark <:+: pre ∨ faultMark <:+: documentStart ++ rest :=
  Text.infix_append_cons (by decide) pre _

theorem isFault_fromDeclaration {answer : String} (h : QuietAhead answer.toList) :
    isFault (fromDeclaration answer) = isFault answer := by
  rcases fromDeclaration_cases answer with hsame | ⟨pre, rest, hanswer, hpre, hcut⟩
  · rw [hsame]
  · obtain ⟨-, hquiet⟩ := h pre rest hanswer hpre
    have hmark := faultMark_infix pre rest
    rw [Bool.eq_iff_iff, isFault, isFault, Text.hasMarker_iff, Text.hasMarker_iff, hanswer, hcut,
      String.toList_ofList, hmark]
    simp only [hquiet, false_or]

theorem payload?_fromDeclaration {answer : String} (h : QuietAhead answer.toList) :
    Envelope.payload? (fromDeclaration answer) = Envelope.payload? answer := by
  rcases fromDeclaration_cases answer with hsame | ⟨pre, rest, hanswer, hpre, hcut⟩
  · rw [hsame]
  · obtain ⟨hquiet, -⟩ := h pre rest hanswer hpre
    rw [Envelope.payload?, Envelope.payload?, hanswer, hcut, String.toList_ofList,
      Envelope.payloadChars?_ahead hquiet]

end PoolWatch.Rpc
