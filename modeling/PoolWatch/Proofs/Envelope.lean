import PoolWatch.Envelope

/-!
# Text around a payload

Text without braces around a payload does not disturb the scan. Whatever the scan finds is such a
payload, and it finds nothing only if there is nothing to find.
-/

namespace PoolWatch.Envelope

theorem dropWhile_ahead {c : Char} {ahead : List Char} (h : c ∉ ahead) (rest : List Char) :
    (ahead ++ rest).dropWhile (· != c) = rest.dropWhile (· != c) := by
  rw [List.dropWhile_append_of_pos]
  intro d hd
  simpa using fun hdc : d = c => h (hdc ▸ hd)

theorem dropWhile_ne {c : Char} {ahead : List Char} (h : c ∉ ahead) (rest : List Char) :
    (ahead ++ c :: rest).dropWhile (· != c) = c :: rest := by
  rw [dropWhile_ahead h, List.dropWhile_cons_of_neg (by simp)]

theorem payloadChars?_ahead {pre : List Char} (hpre : '{' ∉ pre) (rest : List Char) :
    payloadChars? (pre ++ rest) = payloadChars? rest := by
  rw [payloadChars?, payloadChars?, dropWhile_ahead hpre]

/-- No opening brace before the payload and no closing one behind it: the payload is found. -/
theorem payloadChars?_append {pre post : List Char} (hpre : '{' ∉ pre) (hpost : '}' ∉ post)
    (inner : List Char) :
    payloadChars? (pre ++ '{' :: (inner ++ '}' :: post)) = some ('{' :: (inner ++ ['}'])) := by
  have hreverse : ('{' :: (inner ++ '}' :: post)).reverse =
      post.reverse ++ '}' :: ('{' :: inner).reverse := by simp
  have hpost' : '}' ∉ post.reverse := by simpa using hpost
  have hclose := dropWhile_ne hpost' ('{' :: inner).reverse
  rw [payloadChars?, dropWhile_ne hpre, hreverse, hclose]
  simp

theorem payload?_append {pre post payload : String} (hpre : '{' ∉ pre.toList)
    (hpost : '}' ∉ post.toList) {inner : List Char}
    (hpayload : payload.toList = '{' :: (inner ++ ['}'])) :
    payload? (pre ++ payload ++ post) = some payload := by
  have hraw : (pre ++ payload ++ post).toList =
      pre.toList ++ '{' :: (inner ++ '}' :: post.toList) := by simp [hpayload]
  rw [payload?, hraw, payloadChars?_append hpre hpost, ← hpayload]
  simp

/-! ## What is found -/

/-- Some opening brace has a closing one behind it. -/
def Braced (raw : List Char) : Prop :=
  ∃ before inner after, raw = before ++ '{' :: (inner ++ '}' :: after)

/-- The part of a text from the first opening brace to the last closing one. -/
def Cut (raw payload : List Char) : Prop := ∃ pre inner post,
  raw = pre ++ payload ++ post ∧ payload = '{' :: (inner ++ ['}']) ∧ '{' ∉ pre ∧ '}' ∉ post

theorem dropWhile_ne_cases (c : Char) (raw : List Char) :
    (c ∉ raw ∧ raw.dropWhile (· != c) = []) ∨
    ∃ ahead rest, raw = ahead ++ c :: rest ∧ c ∉ ahead ∧ raw.dropWhile (· != c) = c :: rest := by
  induction raw with
  | nil => exact .inl ⟨List.not_mem_nil, rfl⟩
  | cons d raw ih =>
    by_cases hd : d = c
    · subst hd
      exact .inr ⟨[], raw, rfl, List.not_mem_nil, List.dropWhile_cons_of_neg (by simp)⟩
    · rw [List.dropWhile_cons_of_pos (by simpa using hd)]
      rcases ih with ⟨hnone, hdrop⟩ | ⟨ahead, rest, rfl, hahead, hdrop⟩
      · exact .inl ⟨List.not_mem_cons_of_ne_of_not_mem (Ne.symm hd) hnone, hdrop⟩
      · exact .inr ⟨d :: ahead, rest, rfl,
          List.not_mem_cons_of_ne_of_not_mem (Ne.symm hd) hahead, hdrop⟩

theorem closing_mem_of_braced {pre rest : List Char} (hpre : '{' ∉ pre)
    (h : Braced (pre ++ '{' :: rest)) : '}' ∈ '{' :: rest := by
  obtain ⟨before, inner, after, hraw⟩ := h
  rcases List.append_eq_append_iff.mp hraw with ⟨more, -, hrest⟩ | ⟨more, hbefore, hrest⟩
  · rw [hrest]
    simp
  · cases more with
    | nil =>
      rw [← List.nil_append ('{' :: rest), ← hrest]
      simp
    | cons d more =>
      obtain ⟨rfl, -⟩ := List.cons.inj hrest
      exact absurd (by simp [hbefore]) hpre

theorem payloadChars?_cases (raw : List Char) :
    (payloadChars? raw = none ∧ ¬ Braced raw) ∨
    ∃ payload, payloadChars? raw = some payload ∧ Braced raw ∧ Cut raw payload := by
  rcases dropWhile_ne_cases '{' raw with ⟨hnone, hdrop⟩ | ⟨pre, rest, rfl, hpre, hdrop⟩
  · refine .inl ⟨by rw [payloadChars?, hdrop]; rfl, ?_⟩
    rintro ⟨before, inner, after, rfl⟩
    simp at hnone
  · rcases dropWhile_ne_cases '}' ('{' :: rest).reverse with
      ⟨hnone, hclosed⟩ | ⟨post, front, hreverse, hpost, -⟩
    · refine .inl ⟨by rw [payloadChars?, hdrop, hclosed]; rfl, fun hbraced => ?_⟩
      exact hnone (List.mem_reverse.mpr (closing_mem_of_braced hpre hbraced))
    · have hopened : '{' :: rest = front.reverse ++ '}' :: post.reverse := by
        rw [← List.reverse_reverse ('{' :: rest), hreverse]
        simp
      -- The closing brace is not the opening one.
      cases hfront : front.reverse with
      | nil => simp [hfront] at hopened
      | cons d inner =>
        rw [hfront] at hopened
        obtain ⟨rfl, rfl⟩ := List.cons.inj hopened
        have hpost' : '}' ∉ post.reverse := by simpa using hpost
        exact .inr ⟨_, payloadChars?_append hpre hpost' inner, ⟨pre, inner, post.reverse, rfl⟩,
          pre, inner, post.reverse, by simp, rfl, hpre, hpost'⟩

theorem payload?_eq_none (raw : String) : payload? raw = none ↔ ¬ Braced raw.toList := by
  rw [payload?, Option.map_eq_none_iff]
  rcases payloadChars?_cases raw.toList with ⟨hnone, hbraced⟩ | ⟨payload, hsome, hbraced, -⟩
  · simp [hnone, hbraced]
  · simp [hsome, hbraced]

theorem payload?_eq_some (raw payload : String) :
    payload? raw = some payload ↔ Cut raw.toList payload.toList := by
  constructor
  · intro h
    obtain ⟨chars, hchars, rfl⟩ := Option.map_eq_some_iff.mp h
    rcases payloadChars?_cases raw.toList with ⟨hnone, -⟩ | ⟨found, hfound, -, hcut⟩
    · simp [hnone] at hchars
    · obtain rfl : found = chars := by simpa [hfound] using hchars
      simpa using hcut
  · rintro ⟨pre, inner, post, hraw, hpayload, hpre, hpost⟩
    have hchars : raw.toList = pre ++ '{' :: (inner ++ '}' :: post) := by simp [hraw, hpayload]
    rw [payload?, hchars, payloadChars?_append hpre hpost, ← hpayload]
    simp

end PoolWatch.Envelope
