import PoolWatch.Proofs.Text.Search
import PoolWatch.Rpc.Document

/-!
# The method in its document

A method cannot leave the element that it stands in. Whatever it is, it is read back from its
document, and the tags of the document are the same.
-/

namespace PoolWatch.Rpc

/-! ## Entities -/

/-- The five entities, each with the character that it stands for. -/
def entities : List (List Char × Char) :=
  [("&amp;".toList, '&'), ("&lt;".toList, '<'), ("&gt;".toList, '>'), ("&quot;".toList, '"'),
    ("&apos;".toList, '\'')]

/-- Replaces the entities of a text. `passed` characters still belong to the last one. -/
def unescapeFrom : Nat → List Char → List Char
  | _, [] => []
  | passed + 1, _ :: cs => unescapeFrom passed cs
  | 0, c :: cs =>
    match entities.find? fun e => e.1.isPrefixOf (c :: cs) with
    | some (entity, meant) => meant :: unescapeFrom (entity.length - 1) cs
    | none => c :: unescapeFrom 0 cs

def unescape : List Char → List Char := unescapeFrom 0

theorem escapeChar_cases (c : Char) :
    (escapeChar c, c) ∈ entities ∨ escapeChar c = [c] ∧ c ∉ entities.map Prod.snd := by
  by_cases hmarked : c ∈ entities.map Prod.snd
  · refine .inl ?_
    simp only [entities, List.map_cons, List.map_nil, List.mem_cons, List.not_mem_nil,
      or_false] at hmarked
    rcases hmarked with rfl | rfl | rfl | rfl | rfl <;> decide
  · refine .inr ⟨?_, hmarked⟩
    simp only [entities, List.map_cons, List.map_nil, List.mem_cons, List.not_mem_nil, or_false,
      not_or] at hmarked
    simp [escapeChar, hmarked]

theorem escape_cons (c : Char) (text : List Char) :
    escape (c :: text) = escapeChar c ++ escape text := List.flatMap_cons

theorem not_mem_escape {c : Char} (hc : c ∈ ['<', '>', '"', '\'']) (text : List Char) :
    c ∉ escape text := by
  have hentities : ∀ e ∈ entities, ∀ c ∈ ['<', '>', '"', '\''], c ∉ e.1 := by
    simp [entities]
  have hmarks : ∀ c ∈ ['<', '>', '"', '\''], c ∈ entities.map Prod.snd := by
    simp [entities]
  intro hmem
  obtain ⟨d, -, hd⟩ := List.mem_flatMap.mp hmem
  -- The ampersand has an entity too, but the entities begin with it, so it is not one of `c`.
  rcases escapeChar_cases d with hentity | ⟨hplain, hunmarked⟩
  · exact hentities _ hentity c hc hd
  · rw [hplain, List.mem_singleton] at hd
    exact hunmarked (hd ▸ hmarks c hc)

theorem entity_of_ampersand {text pre rest : List Char} (h : escape text = pre ++ '&' :: rest) :
    ∃ e ∈ entities, e.1 <+: '&' :: rest := by
  have hlater : ∀ e ∈ entities, '&' ∉ e.1.tail := by decide
  induction text generalizing pre with
  | nil => simp [escape] at h
  | cons c text ih =>
    rw [escape_cons] at h
    rcases List.append_eq_append_iff.mp h with ⟨more, -, hmore⟩ | ⟨more, hchar, hmore⟩
    · exact ih hmore
    -- The ampersand is in what is written for `c`, unless that ends in front of it.
    cases more with
    | nil =>
      have hbehind : escape text = [] ++ '&' :: rest := hmore.symm
      exact ih hbehind
    | cons d more =>
      obtain ⟨rfl, hrest⟩ := List.cons.inj hmore
      rcases escapeChar_cases c with hentity | ⟨hplain, hunmarked⟩
      · cases pre with
        | nil => exact ⟨_, hentity, by rw [hchar, hmore]; exact List.prefix_append _ _⟩
        | cons d pre =>
          refine absurd ?_ (hlater _ hentity)
          simp [hchar]
      · have hc : '&' ∈ [c] := by simp [← hplain, hchar]
        rw [List.mem_singleton] at hc
        exact absurd (by rw [← hc]; decide) hunmarked

theorem unescapeFrom_entity {e : List Char × Char} (he : e ∈ entities) (rest : List Char) :
    unescape (e.1 ++ rest) = e.2 :: unescape rest := by
  simp only [entities, List.mem_cons, List.not_mem_nil, or_false] at he
  rcases he with rfl | rfl | rfl | rfl | rfl <;> rfl

theorem unescape_plain {c : Char} (hc : c ≠ '&') (rest : List Char) :
    unescape (c :: rest) = c :: unescape rest := by
  have hnone : (entities.find? fun e => e.1.isPrefixOf (c :: rest)) = none := by
    simp [entities, List.isPrefixOf, hc.symm]
  simp only [unescape, unescapeFrom, hnone]

theorem unescape_escape (text : List Char) : unescape (escape text) = text := by
  induction text with
  | nil => rfl
  | cons c text ih =>
    rw [escape_cons]
    rcases escapeChar_cases c with hentity | ⟨hplain, hunmarked⟩
    · rw [unescapeFrom_entity hentity, ih]
    · have hc : c ≠ '&' := by
        rintro rfl
        exact hunmarked (by decide)
      rw [hplain, List.singleton_append, unescape_plain hc, ih]

/-! ## The element -/

def nameStart : List Char := "<methodName>".toList

def nameEnd : List Char := "</methodName>".toList

/-- What stands in front of the first `stop` of a text. -/
def upTo? (stop cs : List Char) : Option (List Char) :=
  (Text.fromMarker? stop cs).map fun rest => cs.take (cs.length - rest.length)

/-- What stands between the first `start` of a text and the first `stop` behind it. -/
def between? (start stop cs : List Char) : Option (List Char) :=
  (Text.fromMarker? start cs).bind fun found => upTo? stop (found.drop start.length)

theorem between?_opening {text : List Char} (h : '<' ∉ text) :
    between? nameStart nameEnd (opening ++ text ++ closing) = some text := by
  have hstart : Text.fromMarker? nameStart (opening ++ text ++ closing) =
      some (nameStart ++ (text ++ closing)) := rfl
  have hstop : Text.fromMarker? nameEnd (text ++ closing) = some closing :=
    Text.fromMarker?_append h _
  rw [between?, hstart, Option.bind_some, List.drop_left, upTo?, hstop, Option.map_some]
  simp

/-! ## Tags -/

/-- The tags of a text in order. `begun` is a tag that has not ended yet. -/
def tagsFrom : Option (List Char) → List Char → List (List Char)
  | none, [] => []
  | some begun, [] => [begun]
  | none, c :: cs => tagsFrom (if c = '<' then some ['<'] else none) cs
  | some begun, c :: cs =>
    if c = '>' then (begun ++ ['>']) :: tagsFrom none cs else tagsFrom (some (begun ++ [c])) cs

def tags (cs : List Char) : List (List Char) := tagsFrom none cs

/-- The tags of every call document. -/
def callTags : List (List Char) :=
  ["<?xml version=\"1.0\"?>".toList, "<methodCall>".toList, nameStart, nameEnd, "<params>".toList,
    "</params>".toList, "</methodCall>".toList]

theorem tags_append {text : List Char} (h : '<' ∉ text) (rest : List Char) :
    tags (text ++ rest) = tags rest := by
  induction text with
  | nil => rfl
  | cons c text ih =>
    rw [List.mem_cons, not_or] at h
    rw [List.cons_append, tags, tagsFrom, if_neg (Ne.symm h.1)]
    exact ih h.2

theorem tags_opening {text : List Char} (h : '<' ∉ text) :
    tags (opening ++ text ++ closing) = callTags := by
  have hopening : tags (opening ++ text ++ closing) =
      "<?xml version=\"1.0\"?>".toList :: "<methodCall>".toList :: nameStart ::
        tags (text ++ closing) := rfl
  rw [hopening, tags_append h]
  rfl

/-! ## The document -/

/-- A document holds a method as a text in its one name element, and nothing of it is a tag. -/
structure Contains (document method : List Char) : Prop where
  framed : document = opening ++ escape method ++ closing
  unmarked : ∀ c ∈ ['<', '>', '"', '\''], c ∉ escape method
  ampersands : ∀ pre rest, escape method = pre ++ '&' :: rest →
    ∃ e ∈ entities, e.1 <+: '&' :: rest
  readBack : (between? nameStart nameEnd document).map unescape = some method
  sameTags : tags document = callTags
  oneElement : (tags document).count nameStart = 1 ∧ (tags document).count nameEnd = 1

theorem document_contains (method : String) :
    Contains (document method).toList method.toList := by
  have hframed : (document method).toList = opening ++ escape method.toList ++ closing :=
    String.toList_ofList
  have hopen : '<' ∉ escape method.toList := not_mem_escape (by decide) _
  have htags : tags (document method).toList = callTags := by rw [hframed, tags_opening hopen]
  constructor
  · exact hframed
  · exact fun c hc => not_mem_escape hc _
  · exact fun pre rest h => entity_of_ampersand h
  · rw [hframed, between?_opening hopen, Option.map_some, unescape_escape]
  · exact htags
  · rw [htags]
    decide

/-- A method stays within its element, so documents tell methods apart. -/
theorem methods_contained :
    (∀ method, Contains (document method).toList method.toList) ∧ Function.Injective document := by
  refine ⟨document_contains, fun method other hsame => ?_⟩
  have hmethod := (document_contains method).readBack
  rw [hsame, (document_contains other).readBack, Option.some.injEq] at hmethod
  exact String.toList_inj.mp hmethod.symm

end PoolWatch.Rpc
