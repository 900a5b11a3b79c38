import PoolWatch.Pool.Lenient
import PoolWatch.Proofs.Json.Sights
import PoolWatch.Proofs.Json.Uniqueness
import PoolWatch.Proofs.Pool.Language
import PoolWatch.Proofs.Text.Order

/-!
# Labels that were no texts

A value that is neither a text nor null is kept as compact JSON. If its numbers are whole, that text
is read back as the value, and it is the same for two sources exactly if they say the same. How they
are spaced and escaped, and in which order their members come, does not show.
-/

namespace PoolWatch

namespace Json

/-! ## Trees in order -/

/-- The bytes of one name come before those of another. -/
def Member.Before (m n : Member Tree) : Prop :=
  ∃ name name', partsText? m.name = some name ∧ partsText? n.name = some name' ∧
    Text.utf8Bytes name.toList < Text.utf8Bytes name'.toList

/-- The members of all objects are written in the order of the bytes of their names. -/
inductive Tree.Ordered : Tree → Prop
  | null : Tree.Ordered .null
  | bool (b : Bool) : Tree.Ordered (.bool b)
  | number (n : Numeral) : Tree.Ordered (.number n)
  | text (parts : List Part) : Tree.Ordered (.text parts)
  | list {ahead : Blanks} {items : List (Padded Tree)} : (∀ i ∈ items, i.value.Ordered) →
    Tree.Ordered (.list ahead items)
  | object {ahead : Blanks} {members : List (Member Tree)} : members.Pairwise Member.Before →
    (∀ m ∈ members, m.value.value.Ordered) → Tree.Ordered (.object ahead members)

theorem writtenMember_before {name name' : String} (h : name < name') (t u : Tree) :
    (writtenMember name t).Before (writtenMember name' u) :=
  ⟨name, name', partsText?_written name, partsText?_written name',
    Text.utf8Bytes_lt (String.lt_iff_toList_lt.mp h)⟩

theorem Ordered.tree {v : Json} (h : v.Ordered) : v.tree.Ordered := by
  induction h with
  | null => exact .null
  | bool b => exact .bool b
  | number n => exact .number _
  | text s => exact .text _
  | list _ ih =>
    refine .list ?_
    rw [itemTrees_eq_map, List.forall_mem_map]
    exact ih
  | object hascending _ ih =>
    rw [Json.tree, memberTrees_eq_map]
    refine .object (List.pairwise_map.mpr ?_) (List.forall_mem_map.mpr ih)
    exact hascending.imp fun hlt => writtenMember_before hlt _ _

/-! ## Trees without blanks -/

theorem tree_unspaced (v : Json) : v.tree.unspaced = v.tree := by
  induction v using Json.induct with
  | list items ih =>
    suffices hitems : unspacedItems (itemTrees items) = itemTrees items by
      rw [tree, Tree.unspaced, hitems]
    induction items with
    | nil => rfl
    | cons v items ih' =>
      obtain ⟨hv, hitems⟩ := List.forall_mem_cons.mp ih
      rw [itemTrees, bare, unspacedItems, hv, ih' hitems]
  | object members ih =>
    suffices hmembers : unspacedMembers (memberTrees members) = memberTrees members by
      rw [tree, Tree.unspaced, hmembers]
    induction members with
    | nil => rfl
    | cons m members ih' =>
      obtain ⟨hm, hmembers⟩ := List.forall_mem_cons.mp ih
      rw [memberTrees, writtenMember, bare, unspacedMembers, hm, ih' hmembers]
  | _ => rfl

theorem bare_tree_text {v : Json} (h : v.Whole) : (bare v.tree).text = v.compact := by
  simp [Padded.text, bare, Blanks.none, tree_chars v h, compact]

end Json

open Json

/-! ## What is kept as a text -/

/-- The text is read as the value, which is neither a text nor null and holds whole numbers only. -/
structure Spells (depth : Nat) (source : String) (v : Json) : Prop where
  read : readAll (readValue depth) source = .ok v
  whole : v.Whole
  noText : ∀ s, v ≠ .text s
  given : v ≠ .null

/-- A label that is compact JSON in order, and from which the value is read back. -/
structure Canonical (depth : Nat) (v : Json) (label : String) : Prop where
  compact : ∃ t : Tree, (bare t).text = label ∧ t.unspaced = t ∧ t.Ordered
  readBack : readAll (readValue depth) label = .ok v

namespace Spells

variable {depth depth' : Nat} {d e : Padded Tree} {v w : Json}

theorem labelOfJson_eq (h : Spells depth d.text v) : labelOfJson v = v.compact := by
  cases v with
  | null => exact absurd rfl h.given
  | text s => exact absurd rfl (h.noText s)
  | _ => rfl

theorem shown_eq (h : Spells depth d.text v) (hnumber : ∀ n, v ≠ .number n) :
    Shown.ofJson v = .text (labelOfJson v) := by
  cases v with
  | null => exact absurd rfl h.given
  | text s => exact absurd rfl (h.noText s)
  | number n => exact absurd rfl (hnumber n)
  | _ => rfl

theorem kept (h : Spells depth d.text v) : kept? depth d.value = some v := by
  obtain ⟨e, htext, hkept⟩ := (Decode.readAll_eq_ok (reads_kept depth) _ _).mp h.read
  rwa [← kept?_unspaced, ← text_unique htext, kept?_unspaced]

theorem ext (h : Spells depth d.text v) (h' : Spells depth' e.text w)
    (hlook : ∀ path, v.look path = w.look path) : v = w :=
  (kept?_ordered h.kept).ext (kept?_ordered h'.kept) h.whole h'.whole hlook

theorem canonical (h : Spells depth d.text v) : Canonical depth v (labelOfJson v) := by
  rw [h.labelOfJson_eq, ← bare_tree_text h.whole]
  refine ⟨⟨v.tree, rfl, tree_unspaced v, (kept?_ordered h.kept).tree⟩, ?_⟩
  exact (Decode.readAll_eq_ok (reads_kept depth) _ _).mpr ⟨_, rfl, kept?_tree h.kept h.whole⟩

theorem eq_iff_look (h : Spells depth d.text v) (h' : Spells depth' e.text w) :
    v = w ↔ ∀ path, d.value.look path = e.value.look path := by
  simp only [look_kept h.kept h.whole, look_kept h'.kept h'.whole]
  constructor
  · rintro rfl path
    rfl
  · exact h.ext h'

theorem eq_of_compact (h : Spells depth d.text v) (h' : Spells depth' e.text w)
    (hsame : v.compact = w.compact) : v = w := by
  rw [← bare_tree_text h.whole, ← bare_tree_text h'.whole] at hsame
  have htree : v.tree = w.tree := by
    rw [← tree_unspaced v, ← tree_unspaced w]
    exact text_unique hsame
  refine h.ext h' fun path => ?_
  rw [← look_kept (kept?_tree h.kept h.whole) h.whole, htree,
    look_kept (kept?_tree h'.kept h'.whole) h'.whole]

theorem label_eq_iff (h : Spells depth d.text v) (h' : Spells depth' e.text w) :
    labelOfJson v = labelOfJson w ↔ v = w := by
  constructor
  · intro hlabel
    rw [h.labelOfJson_eq, h'.labelOfJson_eq] at hlabel
    exact h.eq_of_compact h' hlabel
  · exact congrArg _

/-- Numbers are shown as what they are, so none is taken for a text. -/
theorem shown_eq_iff (h : Spells depth d.text v) (h' : Spells depth' e.text w) :
    Shown.ofJson v = Shown.ofJson w ↔ v = w := by
  refine ⟨fun hshown => ?_, congrArg _⟩
  by_cases hv : ∃ n, v = .number n
  · obtain ⟨n, rfl⟩ := hv
    by_cases hw : ∃ m, w = .number m
    · obtain ⟨m, rfl⟩ := hw
      exact congrArg _ (Shown.number.inj hshown)
    · rw [h'.shown_eq (not_exists.mp hw)] at hshown
      cases hshown
  · rw [h.shown_eq (not_exists.mp hv)] at hshown
    by_cases hw : ∃ m, w = .number m
    · obtain ⟨m, rfl⟩ := hw
      cases hshown
    · rw [h'.shown_eq (not_exists.mp hw)] at hshown
      exact (h.label_eq_iff h').mp (Shown.text.inj hshown)

end Spells

/-- What is kept of a value that is no text is canonical JSON, and of two sources it is the same
exactly if they say the same along every path. -/
theorem labels_canonical {depth : Nat} {d : Padded Tree} {v : Json} (h : Spells depth d.text v) :
    Canonical depth v (labelOfJson v) ∧
    ((∀ n, v ≠ .number n) → Shown.ofJson v = .text (labelOfJson v)) ∧
    ∀ {depth' : Nat} {e : Padded Tree} {w : Json}, Spells depth' e.text w →
      (labelOfJson v = labelOfJson w ↔ v = w) ∧ (Shown.ofJson v = Shown.ofJson w ↔ v = w) ∧
      (v = w ↔ ∀ path, d.value.look path = e.value.look path) :=
  ⟨h.canonical, h.shown_eq, fun h' => ⟨h.label_eq_iff h', h.shown_eq_iff h', h.eq_iff_look h'⟩⟩

/-! ## Two sources of one value -/

/-- A name comes twice, the second time with the value that counts. -/
def repeatedSource : Padded Tree :=
  bare (.object .none [writtenMember "z" (.list .none [bare (.number (.ofInt (-7)))]),
    writtenMember "é" (.object .none []), writtenMember "z" (.bool true)])

/-- The members come in the other order, and one name is escaped. -/
def escapedSource : Padded Tree :=
  ⟨⟨['\n'], by simp [isJsonBlank]⟩, .object ⟨[' '], by simp [isJsonBlank]⟩
    [⟨.none, [.word ⟨'0', '0', 'E', '9', by decide⟩], .none, bare (.object .none [])⟩,
      writtenMember "z" (.bool true)], .none⟩

def sourceValue : Json := .object [("z", .bool true), ("é", .object [])]

theorem spells_sourceValue {depth : Nat} {d : Padded Tree}
    (h : kept? depth d.value = some sourceValue) : Spells depth d.text sourceValue where
  read := (Decode.readAll_eq_ok (reads_kept depth) _ _).mpr ⟨d, rfl, h⟩
  whole := by simp [sourceValue, Whole, membersWhole]
  noText := by simp [sourceValue]
  given := by simp [sourceValue]

theorem repeatedSource_labels :
    Spells 2 repeatedSource.text sourceValue ∧ Spells 3 escapedSource.text sourceValue ∧
    labelOfJson sourceValue = "\x7b\"z\":true,\"é\":\x7b\x7d\x7d" ∧
    Canonical 2 sourceValue (labelOfJson sourceValue) ∧
    ∀ path, repeatedSource.value.look path = escapedSource.value.look path := by
  have hrepeated : Spells 2 repeatedSource.text sourceValue := spells_sourceValue rfl
  have hescaped : Spells 3 escapedSource.text sourceValue := spells_sourceValue rfl
  obtain ⟨hcanonical, -, hothers⟩ := labels_canonical hrepeated
  exact ⟨hrepeated, hescaped, by decide, hcanonical, (hothers hescaped).2.2.mp rfl⟩

end PoolWatch
