import PoolWatch.Json.Reader
import PoolWatch.Proofs.Json.Passing

/-!
# Readers that look at the form only

What a reader expects to be there may be of another shape, and then the failure is a misfit. One
that keeps any value, and one that passes over it, expect no shape: they fail only where a text is
malformed or past a limit.
-/

namespace PoolWatch.Json

/-- The failure is this misfit. -/
def Misfits {α : Type} (result : Except Failure α) (m : Misfit) : Prop :=
  ∃ f, result = .error f ∧ f.fault = .misfit m

/-- A success, or a failure that is no misfit. -/
def Formal {α : Type} : Except Failure α → Prop
  | .ok _ => True
  | .error f => f.fault.isMisfit = false

section

variable {α β : Type}

theorem Formal.not_misfits {result : Except Failure α} (h : Formal result) (m : Misfit) :
    ¬ Misfits result m := by
  rintro ⟨f, rfl, hf⟩
  simp [Formal, hf, Fault.isMisfit] at h

theorem misfits_error {f : Failure} {m : Misfit} :
    Misfits (.error f : Except Failure α) m ↔ f.fault = .misfit m := by
  simp [Misfits]

theorem not_misfits_ok {a : α} {m : Misfit} : ¬ Misfits (.ok a : Except Failure α) m := by
  simp [Misfits]

theorem Formal.pass {result : Except Failure α} (h : Formal result) {f : Failure}
    (hf : result = .error f) : Formal (.error f : Except Failure β) := by
  subst hf
  exact h

theorem Formal.not_passed {result : Except Failure α} (h : Formal result) {f : Failure}
    (hf : result = .error f) {m : Misfit} : ¬ Misfits (.error f : Except Failure β) m :=
  (h.pass hf).not_misfits m

end

/-! ## Words and numbers -/

theorem readWord_formal (word s : List Char) : Formal (readWord word s) := by
  induction word generalizing s with
  | nil => trivial
  | cons e es ih =>
    cases s with
    | nil => rfl
    | cons c rest =>
      unfold readWord
      split
      · exact ih rest
      · rfl

theorem finishScaled_formal (negative : Bool) (digits : Nat) (exponent : Int) (rest : List Char) :
    Formal (finishScaled negative digits exponent rest) := by
  unfold finishScaled checkRange
  split
  · trivial
  · rfl

theorem readExponent_formal (negative : Bool) (digits : Nat) (start : Int) (s : List Char) :
    Formal (readExponent negative digits start s) := by
  unfold readExponent
  dsimp only
  split
  · rfl
  · split
    · split
      · exact finishScaled_formal _ _ _ _
      · split
        · rfl
        · trivial
    · rfl

theorem readPower_formal (negative : Bool) (digits : Nat) (start : Int) (s : List Char) :
    Formal (readPower negative digits start s) := by
  unfold readPower
  split
  · exact readExponent_formal _ _ _ _
  · exact readExponent_formal _ _ _ _
  · exact finishScaled_formal _ _ _ _

theorem readAfterDigits_formal (negative : Bool) (digits dropped : Nat) (s : List Char) :
    Formal (readAfterDigits negative digits dropped s) := by
  unfold readAfterDigits
  split
  · unfold readFraction
    split
    · rfl
    · split
      · exact readPower_formal _ _ _ _
      · rfl
  · exact readExponent_formal _ _ _ _
  · exact readExponent_formal _ _ _ _
  · split
    · unfold checkRange
      split
      · trivial
      · rfl
    · exact finishScaled_formal _ _ _ _

theorem readNumber_formal (negative : Bool) (s : List Char) : Formal (readNumber negative s) := by
  unfold readNumber
  split
  · rfl
  · split
    · split
      · split
        · rfl
        · exact readAfterDigits_formal _ _ _ _
      · exact readAfterDigits_formal _ _ _ _
    · split
      · exact readAfterDigits_formal _ _ _ _
      · rfl

/-! ## Strings -/

theorem readHexWord_formal (s : List Char) : Formal (readHexWord s) := by
  unfold readHexWord
  split
  · rfl
  · split
    · split
      · trivial
      · rfl
    · rfl

theorem readEscape_formal (s : List Char) : Formal (readEscape s) := by
  unfold readEscape
  split
  · rfl
  · split
    · unfold readUnicodeEscape
      split
      next f hword => exact (readHexWord_formal _).pass hword
      · split
        · rfl
        · split
          · unfold readLowSurrogate
            split
            · split
              next f hword => exact (readHexWord_formal _).pass hword
              · split
                · trivial
                · rfl
            all_goals rfl
          · trivial
    · split
      · trivial
      · rfl

theorem readStringFrom_formal (fuel : Nat) (done s : List Char) :
    Formal (readStringFrom fuel done s) := by
  induction fuel generalizing done s with
  | zero => rfl
  | succ fuel ih =>
    cases s with
    | nil => rfl
    | cons c rest =>
      simp only [readStringFrom]
      split
      · trivial
      · split
        · split
          next f hescape => exact (readEscape_formal _).pass hescape
          · exact ih _ _
        · split
          · rfl
          · exact ih _ _

theorem readString_formal (s : List Char) : Formal (readString s) := by
  unfold readString
  split
  next f hread => exact (readStringFrom_formal _ _ _).pass hread
  · trivial

theorem skipEscape_formal (s : List Char) : Formal (skipEscape s) := by
  unfold skipEscape
  split
  · rfl
  · split
    · split
      next f hword => exact (readHexWord_formal _).pass hword
      · trivial
    · split
      · trivial
      · rfl

theorem skipString_formal (s : List Char) : Formal (skipString s) := by
  unfold skipString
  generalize s.length + 1 = fuel
  induction fuel generalizing s with
  | zero => rfl
  | succ fuel ih =>
    cases s with
    | nil => rfl
    | cons c rest =>
      simp only [skipStringFrom]
      split
      · trivial
      · split
        · split
          next f hescape => exact (skipEscape_formal _).pass hescape
          · exact ih _
        · split
          · rfl
          · exact ih _

/-! ## The frame of lists and objects -/

theorem nextItem_formal (first : Bool) (s : List Char) : Formal (nextItem first s) := by
  unfold nextItem
  split
  · rfl
  · split
    · trivial
    · split
      · trivial
      · split
        · split
          · rfl
          · split
            · rfl
            · trivial
        · rfl

theorem endList_formal (s : List Char) : Formal (endList s) := by
  unfold endList
  split
  · rfl
  · split
    · trivial
    · split
      · split
        · split
          · rfl
          · rfl
        · rfl
      · rfl

theorem nextName_formal (first : Bool) (s : List Char) : Formal (nextName first s) := by
  unfold nextName
  split
  · rfl
  · split
    · trivial
    · split
      · split
        · split
          next f hname => exact (readString_formal _).pass hname
          · trivial
        · rfl
      · split
        · split
          · rfl
          · split
            · split
              next f hname => exact (readString_formal _).pass hname
              · trivial
            · split
              · rfl
              · rfl
        · rfl

theorem readColon_formal (s : List Char) : Formal (readColon s) := by
  unfold readColon
  split
  · rfl
  · split
    · trivial
    · rfl

/-! ## Values that are kept -/

theorem readItems_formal {α : Type} {item : Reader α} (hitem : ∀ s, Formal (item s))
    (s : List Char) : Formal (readItems item s) := by
  unfold readItems
  generalize s.length + 1 = fuel, true = first, ([] : List α) = done
  induction fuel generalizing first done s with
  | zero => rfl
  | succ fuel ih =>
    simp only [readItemsFrom]
    split
    next f hnext => exact (nextItem_formal _ _).pass hnext
    · trivial
    · split
      next f hread => exact (hitem _).pass hread
      · exact ih _ _ _

theorem readMembers_formal {value : Reader Json} (hvalue : ∀ s, Formal (value s))
    (s : List Char) : Formal (readMembers value s) := by
  unfold readMembers
  generalize s.length + 1 = fuel, true = first, ([] : List (String × Json)) = done
  induction fuel generalizing first done s with
  | zero => rfl
  | succ fuel ih =>
    simp only [readMembersFrom]
    split
    next f hnext => exact (nextName_formal _ _).pass hnext
    · trivial
    · split
      next f hcolon => exact (readColon_formal _).pass hcolon
      · split
        next f hread => exact (hvalue _).pass hread
        · exact ih _ _ _

theorem readValueWith_formal {inner : Option (Reader Json)}
    (hinner : ∀ reader ∈ inner, ∀ s, Formal (reader s)) (s : List Char) :
    Formal (readValueWith inner s) := by
  unfold readValueWith
  split
  · rfl
  split
  · split
    next f hword => exact (readWord_formal _ _).pass hword
    · trivial
  split
  · split
    next f hword => exact (readWord_formal _ _).pass hword
    · trivial
  split
  · split
    next f hword => exact (readWord_formal _ _).pass hword
    · trivial
  split
  · split
    next f hnumber => exact (readNumber_formal _ _).pass hnumber
    · trivial
  split
  · split
    next f hnumber => exact (readNumber_formal _ _).pass hnumber
    · trivial
  split
  · split
    next f htext => exact (readString_formal _).pass htext
    · trivial
  split
  · split
    · rfl
    · split
      next reader _ f hitems => exact (readItems_formal (hinner reader rfl) _).pass hitems
      · trivial
  split
  · split
    · rfl
    · split
      next reader _ f hmembers => exact (readMembers_formal (hinner reader rfl) _).pass hmembers
      · trivial
  · rfl

theorem readValue_formal (depth : Nat) (s : List Char) : Formal (readValue depth s) := by
  induction depth generalizing s with
  | zero => exact readValueWith_formal (by simp) s
  | succ depth ih => exact readValueWith_formal (by simpa using ih) s

/-! ## Values that are passed over -/

theorem skipExponent_formal (s : List Char) : Formal (skipExponent s) := by
  unfold skipExponent
  split
  · rfl
  · split
    · trivial
    · rfl

theorem skipPower_formal (s : List Char) : Formal (skipPower s) := by
  unfold skipPower
  split
  · exact skipExponent_formal _
  · exact skipExponent_formal _
  · trivial

theorem skipAfterDigits_formal (s : List Char) : Formal (skipAfterDigits s) := by
  unfold skipAfterDigits
  split
  · unfold skipFraction
    split
    · rfl
    · split
      · exact skipPower_formal _
      · rfl
  · exact skipPower_formal _

theorem skipNumber_formal (s : List Char) : Formal (skipNumber s) := by
  unfold skipNumber
  split
  · rfl
  · split
    · split
      · split
        · rfl
        · exact skipAfterDigits_formal _
      · trivial
    · split
      · exact skipAfterDigits_formal _
      · rfl

theorem skipName_formal (s : List Char) : Formal (skipName s) := by
  unfold skipName
  split
  · rfl
  · split
    · split
      next f hname => exact (skipString_formal _).pass hname
      · exact readColon_formal _
    · rfl

theorem skipOpening_formal (enclosure : Enclosure) (s : List Char) :
    Formal (skipOpening enclosure s) := by
  unfold skipOpening
  split
  · rfl
  · rfl
  · split
    · trivial
    · trivial
  · split
    · trivial
    · split
      next f hname => exact (skipName_formal _).pass hname
      · trivial

theorem afterScalar_formal (around : List Enclosure) {result : Except Failure (List Char)}
    (h : Formal result) : Formal (afterScalar around result) := by
  cases result with
  | error f => exact h
  | ok rest => trivial

theorem skipStart_formal (around : List Enclosure) (c : Char) (rest : List Char) :
    Formal (skipStart around c rest) := by
  unfold skipStart
  split
  · exact afterScalar_formal _ (readWord_formal _ _)
  split
  · exact afterScalar_formal _ (readWord_formal _ _)
  split
  · exact afterScalar_formal _ (readWord_formal _ _)
  split
  · exact afterScalar_formal _ (skipNumber_formal _)
  split
  · exact afterScalar_formal _ (skipNumber_formal _)
  split
  · exact afterScalar_formal _ (skipString_formal _)
  split
  · dsimp only
    generalize (if c = '[' then Enclosure.list else .object) = enclosure
    split
    next f hopening => exact (skipOpening_formal _ _).pass hopening
    · trivial
    · trivial
  · rfl

theorem skipStep_formal (next : Next) (around : List Enclosure) (s : List Char) :
    Formal (skipStep next around s) := by
  unfold skipStep
  split
  · rfl
  · exact skipStart_formal _ _ _
  · trivial
  · rfl
  · rfl
  · split
    · trivial
    · split
      · trivial
      · rfl
  · split
    · split
      next f hname => exact (skipName_formal _).pass hname
      · trivial
    · split
      · trivial
      · rfl

theorem skipValue_formal (s : List Char) : Formal (skipValue s) := by
  unfold skipValue
  generalize s.length + 2 = fuel, Next.value = following, ([] : List Enclosure) = around
  induction fuel generalizing following around s with
  | zero => rfl
  | succ fuel ih =>
    by_cases hmore : following = .value ∨ around ≠ []
    · rw [skipFrom_succ fuel hmore]
      split
      next f hstep => exact (skipStep_formal _ _ _).pass hstep
      · exact ih _ _ _
    · obtain ⟨rfl, rfl⟩ : following = .afterValue ∧ around = [] := by
        cases following <;> simp_all
      trivial

end PoolWatch.Json
