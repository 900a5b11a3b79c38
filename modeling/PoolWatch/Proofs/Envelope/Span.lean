import PoolWatch.Proofs.Envelope
import PoolWatch.Proofs.Text.Utf8

/-!
# Where a payload stands

A text falls into three parts at its first opening brace and its last closing one, in one way only.
Or it falls into two, without an opening brace in front and without a closing one behind. Its bytes
fall into parts where its characters do.
-/

namespace PoolWatch.Envelope

/-! ## Parts of a list -/

section

variable {α : Type} {opening closing : α} {raw ahead payload behind : List α}

/-- Three parts: nothing opens ahead of the payload, which opens and closes, and nothing closes
behind it. -/
structure Spans (opening closing : α) (raw ahead payload behind : List α) : Prop where
  whole : raw = ahead ++ payload ++ behind
  unopened : opening ∉ ahead
  opens : payload.head? = some opening
  closes : payload.getLast? = some closing
  unclosed : closing ∉ behind

/-- Two parts: nothing opens in the first, and nothing closes in the second. -/
def Apart (opening closing : α) (raw : List α) : Prop :=
  ∃ front back, raw = front ++ back ∧ opening ∉ front ∧ closing ∉ back

theorem first_unique {x : α} {front front' back back' : List α} (h : x ∉ front) (h' : x ∉ front')
    (heq : front ++ x :: back = front' ++ x :: back') : front = front' ∧ back = back' := by
  induction front generalizing front' with
  | nil =>
    cases front' with
    | nil => exact ⟨rfl, List.tail_eq_of_cons_eq heq⟩
    | cons y front' =>
      obtain ⟨rfl, -⟩ := List.cons.inj heq
      exact absurd List.mem_cons_self h'
  | cons y front ih =>
    cases front' with
    | nil =>
      obtain ⟨rfl, -⟩ := List.cons.inj heq
      exact absurd List.mem_cons_self h
    | cons z front' =>
      obtain ⟨rfl, htail⟩ := List.cons.inj heq
      obtain ⟨rfl, hback⟩ := ih (List.not_mem_of_not_mem_cons h) (List.not_mem_of_not_mem_cons h')
        htail
      exact ⟨rfl, hback⟩

theorem last_unique {x : α} {front front' back back' : List α} (h : x ∉ back) (h' : x ∉ back')
    (heq : front ++ [x] ++ back = front' ++ [x] ++ back') : front = front' ∧ back = back' := by
  have hreverse := congrArg List.reverse heq
  simp only [List.reverse_append, List.reverse_singleton, List.singleton_append] at hreverse
  obtain ⟨hback, hfront⟩ := first_unique (by simpa using h) (by simpa using h') hreverse
  exact ⟨List.reverse_inj.mp hfront, List.reverse_inj.mp hback⟩

theorem Spans.unique {ahead' payload' behind' : List α}
    (h : Spans opening closing raw ahead payload behind)
    (h' : Spans opening closing raw ahead' payload' behind') :
    ahead = ahead' ∧ payload = payload' ∧ behind = behind' := by
  have heq := h.whole.symm.trans h'.whole
  rw [List.append_assoc, List.append_assoc] at heq
  obtain ⟨inner, hinner⟩ := List.head?_eq_some_iff.mp h.opens
  obtain ⟨inner', hinner'⟩ := List.head?_eq_some_iff.mp h'.opens
  obtain ⟨rfl, -⟩ : ahead = ahead' ∧ inner ++ behind = inner' ++ behind' := by
    rw [hinner, hinner'] at heq
    exact first_unique h.unopened h'.unopened heq
  obtain ⟨body, rfl⟩ := List.getLast?_eq_some_iff.mp h.closes
  obtain ⟨body', rfl⟩ := List.getLast?_eq_some_iff.mp h'.closes
  obtain ⟨rfl, rfl⟩ := last_unique h.unclosed h'.unclosed (List.append_cancel_left heq)
  exact ⟨rfl, rfl, rfl⟩

theorem not_apart (before inner after : List α) :
    ¬ Apart opening closing (before ++ opening :: (inner ++ closing :: after)) := by
  rintro ⟨front, back, hraw, hfront, hback⟩
  rcases List.append_eq_append_iff.mp hraw with ⟨more, rfl, hmore⟩ | ⟨more, -, rfl⟩
  · cases more with
    | nil =>
      rw [List.nil_append] at hmore
      exact hback (by simp [← hmore])
    | cons x more =>
      obtain ⟨rfl, -⟩ := List.cons.inj hmore
      exact hfront (by simp)
  · exact hback (by simp)

theorem Spans.exists_inner (hne : opening ≠ closing)
    (h : Spans opening closing raw ahead payload behind) :
    ∃ inner, payload = opening :: (inner ++ [closing]) := by
  obtain ⟨body, rfl⟩ := List.getLast?_eq_some_iff.mp h.closes
  have hopens := h.opens
  cases body with
  | nil => exact absurd (Option.some.inj hopens).symm hne
  | cons x inner =>
    obtain rfl := Option.some.inj hopens
    exact ⟨inner, rfl⟩

theorem Spans.not_apart (hne : opening ≠ closing)
    (h : Spans opening closing raw ahead payload behind) : ¬ Apart opening closing raw := by
  obtain ⟨inner, rfl⟩ := h.exists_inner hne
  have hraw : raw = ahead ++ opening :: (inner ++ closing :: behind) := by simp [h.whole]
  rw [hraw]
  exact Envelope.not_apart ahead inner behind

theorem spans_or_apart (hne : opening ≠ closing) (raw : List α) :
    (∃ ahead payload behind, Spans opening closing raw ahead payload behind) ∨
      Apart opening closing raw := by
  by_cases hopening : opening ∈ raw
  · obtain ⟨ahead, rest, rfl, hahead⟩ := List.eq_append_cons_of_mem hopening
    by_cases hclosing : closing ∈ rest
    · obtain ⟨behind, inner, hrest, hbehind⟩ :=
        List.eq_append_cons_of_mem (List.mem_reverse.mpr hclosing)
      obtain rfl : rest = inner.reverse ++ closing :: behind.reverse := by
        rw [← List.reverse_reverse rest, hrest]
        simp
      exact .inl ⟨ahead, opening :: (inner.reverse ++ [closing]), behind.reverse, by simp, hahead,
        rfl, by simp [List.getLast?_cons], by simpa using hbehind⟩
    · exact .inr ⟨ahead, opening :: rest, rfl, hahead,
        List.not_mem_cons_of_ne_of_not_mem hne.symm hclosing⟩
  · exact .inr ⟨raw, [], by simp, hopening, List.not_mem_nil⟩

end

/-! ## Parts of a text -/

variable {raw ahead payload behind : List Char}

theorem brace_ne : '{' ≠ '}' := by decide

theorem cut_iff_spans :
    Cut raw payload ↔ ∃ ahead behind, Spans '{' '}' raw ahead payload behind := by
  constructor
  · rintro ⟨pre, inner, post, hraw, rfl, hpre, hpost⟩
    exact ⟨pre, post, hraw, hpre, rfl, by simp [List.getLast?_cons], hpost⟩
  · rintro ⟨pre, post, h⟩
    obtain ⟨inner, hinner⟩ := h.exists_inner brace_ne
    exact ⟨pre, inner, post, h.whole, hinner, h.unopened, h.unclosed⟩

theorem payload?_spans (raw payload : String) : payload? raw = some payload ↔
    ∃ ahead behind, Spans '{' '}' raw.toList ahead payload.toList behind := by
  rw [payload?_eq_some, cut_iff_spans]

theorem braced_iff_not_apart : Braced raw ↔ ¬ Apart '{' '}' raw := by
  constructor
  · rintro ⟨before, inner, after, rfl⟩
    exact not_apart before inner after
  · intro h
    obtain ⟨ahead, payload, behind, hspans⟩ := (spans_or_apart brace_ne raw).resolve_right h
    obtain ⟨inner, rfl⟩ := hspans.exists_inner brace_ne
    exact ⟨ahead, inner, behind, by simp [hspans.whole]⟩

theorem payload?_apart (raw : String) : payload? raw = none ↔ Apart '{' '}' raw.toList := by
  rw [payload?_eq_none, braced_iff_not_apart, not_not]

theorem Spans.alone (h : Spans '{' '}' raw ahead payload behind) :
    Spans '{' '}' payload [] payload [] where
  whole := by simp
  unopened := List.not_mem_nil
  opens := h.opens
  closes := h.closes
  unclosed := List.not_mem_nil

theorem Spans.framed (h : Spans '{' '}' raw ahead payload behind) {pre post : List Char}
    (hpre : '{' ∉ pre) (hpost : '}' ∉ post) :
    Spans '{' '}' (pre ++ raw ++ post) (pre ++ ahead) payload (behind ++ post) where
  whole := by simp [h.whole]
  unopened := by simp [hpre, h.unopened]
  opens := h.opens
  closes := h.closes
  unclosed := by simp [hpost, h.unclosed]

theorem Apart.framed (h : Apart '{' '}' raw) {pre post : List Char} (hpre : '{' ∉ pre)
    (hpost : '}' ∉ post) : Apart '{' '}' (pre ++ raw ++ post) := by
  obtain ⟨front, back, rfl, hfront, hback⟩ := h
  exact ⟨pre ++ front, back ++ post, by simp, by simp [hpre, hfront], by simp [hpost, hback]⟩

theorem payload?_framed (raw : String) {pre post : String} (hpre : '{' ∉ pre.toList)
    (hpost : '}' ∉ post.toList) : payload? (pre ++ raw ++ post) = payload? raw := by
  have htext : (pre ++ raw ++ post).toList = pre.toList ++ raw.toList ++ post.toList := by simp
  cases hpayload : payload? raw with
  | none =>
    rw [payload?_apart] at hpayload ⊢
    rw [htext]
    exact hpayload.framed hpre hpost
  | some payload =>
    rw [payload?_spans] at hpayload ⊢
    obtain ⟨ahead, behind, hspans⟩ := hpayload
    rw [htext]
    exact ⟨_, _, hspans.framed hpre hpost⟩

/-! ## Parts of its bytes -/

open Text (utf8Bytes)

theorem plainByte_mem {c : Char} (hc : c.toNat < 128) (d : Char) :
    UInt8.ofNat c.toNat ∈ String.utf8EncodeChar d ↔ c = d := by
  have hbyte : ∀ n, n < 256 → (UInt8.ofNat c.toNat = UInt8.ofNat n ↔ c.toNat = n) := by
    intro n hn
    rw [← UInt8.toNat_inj, Text.toNat_ofNat_byte (by omega), Text.toNat_ofNat_byte hn]
  have hchar : c = d ↔ c.toNat = d.val.toNat := Char.toNat_inj.symm
  rw [hchar]
  unfold String.utf8EncodeChar
  generalize d.val.toNat = v
  dsimp only
  -- The bytes of any longer character are past the plain ones.
  split
  · rw [List.mem_singleton, hbyte v (by omega)]
  split
  · simp only [List.mem_cons, List.not_mem_nil, or_false]
    rw [hbyte _ (by omega), hbyte _ (by omega)]
    omega
  split
  · simp only [List.mem_cons, List.not_mem_nil, or_false]
    rw [hbyte _ (by omega), hbyte _ (by omega), hbyte _ (by omega)]
    omega
  · simp only [List.mem_cons, List.not_mem_nil, or_false]
    rw [hbyte _ (by omega), hbyte _ (by omega), hbyte _ (by omega), hbyte _ (by omega)]
    omega

theorem plainByte_mem_utf8Bytes {c : Char} (hc : c.toNat < 128) (cs : List Char) :
    UInt8.ofNat c.toNat ∈ utf8Bytes cs ↔ c ∈ cs := by
  simp [utf8Bytes, plainByte_mem hc]

theorem utf8Bytes_append (cs ds : List Char) :
    utf8Bytes (cs ++ ds) = utf8Bytes cs ++ utf8Bytes ds := List.flatMap_append

theorem opening_mem_bytes (cs : List Char) : (0x7b : UInt8) ∈ utf8Bytes cs ↔ '{' ∈ cs :=
  plainByte_mem_utf8Bytes (c := '{') (by decide) cs

theorem closing_mem_bytes (cs : List Char) : (0x7d : UInt8) ∈ utf8Bytes cs ↔ '}' ∈ cs :=
  plainByte_mem_utf8Bytes (c := '}') (by decide) cs

theorem Spans.bytes (h : Spans '{' '}' raw ahead payload behind) : Spans (0x7b : UInt8) 0x7d
    (utf8Bytes raw) (utf8Bytes ahead) (utf8Bytes payload) (utf8Bytes behind) where
  whole := by rw [h.whole, utf8Bytes_append, utf8Bytes_append]
  unopened := (opening_mem_bytes ahead).not.mpr h.unopened
  opens := by
    obtain ⟨inner, rfl⟩ := List.head?_eq_some_iff.mp h.opens
    rfl
  closes := by
    obtain ⟨body, rfl⟩ := List.getLast?_eq_some_iff.mp h.closes
    rw [utf8Bytes_append]
    exact List.getLast?_concat
  unclosed := (closing_mem_bytes behind).not.mpr h.unclosed

theorem Apart.bytes (h : Apart '{' '}' raw) : Apart (0x7b : UInt8) 0x7d (utf8Bytes raw) := by
  obtain ⟨front, back, rfl, hfront, hback⟩ := h
  exact ⟨utf8Bytes front, utf8Bytes back, utf8Bytes_append front back,
    (opening_mem_bytes front).not.mpr hfront, (closing_mem_bytes back).not.mpr hback⟩

/-- No part of the bytes begins or ends inside a character. -/
theorem spans_bytes_iff (raw : List Char) (ahead payload behind : List UInt8) :
    Spans 0x7b 0x7d (utf8Bytes raw) ahead payload behind ↔ ∃ a p b, Spans '{' '}' raw a p b ∧
      ahead = utf8Bytes a ∧ payload = utf8Bytes p ∧ behind = utf8Bytes b := by
  constructor
  · intro h
    rcases spans_or_apart brace_ne raw with ⟨a, p, b, hspans⟩ | hapart
    · exact ⟨a, p, b, hspans, h.unique hspans.bytes⟩
    · exact absurd hapart.bytes (h.not_apart (by decide))
  · rintro ⟨a, p, b, hspans, rfl, rfl, rfl⟩
    exact hspans.bytes

/-! ## The payload of a text -/

/-- What is known of the payload of a text, whatever the text. -/
structure Located (raw : String) : Prop where
  found : ∀ payload, payload? raw = some payload ↔
    ∃ ahead behind, Spans '{' '}' raw.toList ahead payload.toList behind
  unique : ∀ {ahead payload behind ahead' payload' behind'},
    Spans '{' '}' raw.toList ahead payload behind →
      Spans '{' '}' raw.toList ahead' payload' behind' →
        ahead = ahead' ∧ payload = payload' ∧ behind = behind'
  missing : payload? raw = none ↔ Apart '{' '}' raw.toList
  unbraced : payload? raw = none ↔ ¬ Braced raw.toList
  again : ∀ payload, payload? raw = some payload → payload? payload = some payload
  framed : ∀ pre post : String, '{' ∉ pre.toList → '}' ∉ post.toList →
    payload? (pre ++ raw ++ post) = payload? raw
  bytes : ∀ ahead payload behind : List UInt8,
    Spans 0x7b 0x7d (utf8Bytes raw.toList) ahead payload behind ↔
      ∃ a p b, Spans '{' '}' raw.toList a p b ∧
        ahead = utf8Bytes a ∧ payload = utf8Bytes p ∧ behind = utf8Bytes b

/-- The payload of a text is found where it stands, and nowhere else. -/
theorem located (raw : String) : Located raw where
  found := payload?_spans raw
  unique h h' := h.unique h'
  missing := payload?_apart raw
  unbraced := payload?_eq_none raw
  again payload h := by
    obtain ⟨ahead, behind, hspans⟩ := (payload?_spans raw payload).mp h
    exact (payload?_spans payload payload).mpr ⟨[], [], hspans.alone⟩
  framed _ _ hpre hpost := payload?_framed raw hpre hpost
  bytes := spans_bytes_iff raw.toList

example : payload? "é\x7b\"n\":\"ü\"\x7dß" = some "\x7b\"n\":\"ü\"\x7d" := by decide

example : payload? "\x7d reversed \x7b" = none := by decide

end PoolWatch.Envelope
