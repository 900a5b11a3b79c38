import PoolWatch.Proofs.Json.Records

/-!
# Compact JSON is JSON

The tree of a value as it is written. Only binary64 numbers are left out: their shortest digits are
not looked at here.
-/

namespace PoolWatch.Json

/-! ## Numbers -/

theorem isDigit_of_mem_toDigits {n : Nat} {c : Char} (h : c ∈ Nat.toDigits 10 n) :
    isDigit c = true := by
  have hc := Nat.isDigit_of_mem_toDigits (by decide) (by decide) h
  simpa [isDigit, Char.isDigit, Char.le_def] using hc

theorem toDigits_plain (n : Nat) (h : (Nat.toDigits 10 n).head? = some '0') :
    Nat.toDigits 10 n = ['0'] := by
  suffices hzero : n = 0 by rw [hzero]; rfl
  induction n using Nat.strongRecOn with
  | ind n ih =>
    rw [Nat.toDigits_eq_if (by decide)] at h
    split at h
    · rename_i hn
      have hchar : n.digitChar = '0' := by simpa using h
      have := Nat.toNat_digitChar_of_lt_ten hn
      rw [hchar] at this
      simpa using this.symm
    · have hdiv : n / 10 = 0 := by
        refine ih _ (by omega) ?_
        rwa [List.head?_append, Option.or_of_isSome (by simp)] at h
      omega

def Digits.ofNat (n : Nat) : Digits :=
  ⟨Nat.toDigits 10 n, fun _ => isDigit_of_mem_toDigits, Nat.toDigits_ne_nil⟩

def Numeral.ofInt (n : Int) : Numeral where
  negative := n < 0
  whole := .ofNat n.natAbs
  plain := toDigits_plain n.natAbs
  fraction := none
  power := none

theorem Numeral.ofInt_chars (n : Int) : (ofInt n).chars = Decimal.signedChars n := by
  by_cases h : n < 0 <;>
    simp [ofInt, chars, unsignedChars, fractionChars, powerChars, Digits.ofNat,
      Decimal.signedChars, h]

theorem valueFrom_toDigits (n : Nat) : valueFrom 0 (Nat.toDigits 10 n) = n := by
  have h : valueFrom 0 (Nat.toDigits 10 n) = Nat.ofDigitChars 10 (Nat.toDigits 10 n) 0 := by
    simp only [valueFrom, Nat.ofDigitChars_eq_foldl, digitValue, Nat.mul_comm]
    rfl
  rw [h, Nat.ofDigitChars_ten_toDigits]

theorem fitted_of_lt {digits : List Char} {n : Nat} (h : valueFrom n digits < 1 <<< 64) :
    fitted n digits = (valueFrom n digits, digits.length) := by
  induction digits generalizing n with
  | nil => rfl
  | cons c cs ih =>
    have hle := le_valueFrom (n * 10 + digitValue c) cs
    have hcs : valueFrom n (c :: cs) = valueFrom (n * 10 + digitValue c) cs := rfl
    rw [hcs] at h ⊢
    have hfits : fitsWord (n * 10 + digitValue c) = true := by
      simpa [fitsWord] using Nat.lt_of_le_of_lt hle h
    simp [fitted, hfits, ih h]

theorem Numeral.ofInt_number? (n : Int) (fits : Number.Fits n) :
    (ofInt n).number? = some (.whole n fits) := by
  have hfits := fits
  unfold Number.Fits at hfits
  have hvalue := valueFrom_toDigits n.natAbs
  have hfitted : fitted 0 (Nat.toDigits 10 n.natAbs) =
      (n.natAbs, (Nat.toDigits 10 n.natAbs).length) := by
    rw [fitted_of_lt (by rw [hvalue]; omega), hvalue]
  simp only [number?, ofInt, Digits.ofNat, hfitted, numberFrom?, Nat.sub_self, if_true, wholeNumber]
  by_cases hneg : n < 0
  · have hrange : n.natAbs ≠ 0 ∧ n.natAbs ≤ 1 <<< 63 := by omega
    have habs : -(n.natAbs : Int) = n := by omega
    rw [if_pos (decide_eq_true hneg), dif_pos hrange]
    simp only [habs]
  · have hrange : n.natAbs < 1 <<< 64 := by omega
    have habs : (n.natAbs : Int) = n := by omega
    rw [if_neg (by simpa using hneg), dif_pos hrange]
    simp only [habs]

/-! ## Strings -/

theorem hexWord?_control : ∀ n < 32,
    hexWord? '0' '0' (hexDigit (n / 16)) (hexDigit (n % 16)) = some n := by decide

/-- The part that a character is written as. -/
def Part.ofChar (c : Char) : Part :=
  if hquote : c = '"' then .short '"' rfl
  else if hslash : c = '\\' then .short '\\' rfl
  else if c = '\x08' then .short 'b' rfl
  else if c = '\t' then .short 't' rfl
  else if c = '\n' then .short 'n' rfl
  else if c = '\x0c' then .short 'f' rfl
  else if c = '\r' then .short 'r' rfl
  else if h : c.toNat < 0x20 then
    .word ⟨'0', '0', hexDigit (c.toNat / 16), hexDigit (c.toNat % 16),
      by rw [hexWord?_control _ h]; rfl⟩
  else .bare c ⟨hquote, hslash, by simpa [isControl] using h⟩

def written (s : String) : List Part := s.toList.map Part.ofChar

theorem Part.ofChar_spec (c : Char) : (Part.ofChar c).chars = escapeChar c ∧
    ∀ parts, partsTextFrom? none (Part.ofChar c :: parts) =
      (partsTextFrom? none parts).map (c :: ·) := by
  by_cases hquote : c = '"'
  · subst hquote; exact ⟨rfl, fun _ => rfl⟩
  by_cases hslash : c = '\\'
  · subst hslash; exact ⟨rfl, fun _ => rfl⟩
  by_cases hb : c = '\x08'
  · subst hb; exact ⟨rfl, fun _ => rfl⟩
  by_cases ht : c = '\t'
  · subst ht; exact ⟨rfl, fun _ => rfl⟩
  by_cases hn : c = '\n'
  · subst hn; exact ⟨rfl, fun _ => rfl⟩
  by_cases hf : c = '\x0c'
  · subst hf; exact ⟨rfl, fun _ => rfl⟩
  by_cases hr : c = '\r'
  · subst hr; exact ⟨rfl, fun _ => rfl⟩
  by_cases h : c.toNat < 0x20
  · have hpart : ∃ w : HexWord, Part.ofChar c = .word w ∧ w.value = c.toNat ∧
        w.chars = ['0', '0', hexDigit (c.toNat / 16), hexDigit (c.toNat % 16)] :=
      ⟨_, by simp [Part.ofChar, hquote, hslash, hb, ht, hn, hf, hr, h]; rfl,
        by simp [HexWord.value, hexWord?_control _ h], rfl⟩
    obtain ⟨w, hw, hvalue, hchars⟩ := hpart
    have hlow : isLowSurrogate c.toNat = false := by simp [isLowSurrogate]; omega
    have hhigh : isHighSurrogate c.toNat = false := by simp [isHighSurrogate]; omega
    constructor
    · simp [hw, Part.chars, hchars, escapeChar, hquote, hslash, hb, ht, hn, hf, hr, h]
    · simp [hw, partsTextFrom?, hvalue, hlow, hhigh]
  · simp [Part.ofChar, Part.chars, escapeChar, hquote, hslash, hb, ht, hn, hf, hr, h,
      partsTextFrom?]

theorem quoted_written (s : String) : Tree.quoted (written s) = quotedChars s := by
  simp [Tree.quoted, quotedChars, partsChars, written, List.flatMap_map, (Part.ofChar_spec _).1]

theorem partsText?_written (s : String) : partsText? (written s) = some s := by
  suffices h : ∀ cs : List Char, partsTextFrom? none (cs.map Part.ofChar) = some cs by
    rw [partsText?, written, h, Option.map_some, String.ofList_toList]
  intro cs
  induction cs with
  | nil => rfl
  | cons c cs ih => rw [List.map_cons, (Part.ofChar_spec c).2, ih, Option.map_some]

/-! ## Values -/

def bare (t : Tree) : Padded Tree := ⟨.none, t, .none⟩

def writtenMember (name : String) (t : Tree) : Member Tree := ⟨.none, written name, .none, bare t⟩

def numeralOf : Number → Numeral
  | .whole n _ => .ofInt n
  | .real x => .ofInt x.truncated

mutual

/-- The tree of a value as it is written. -/
def tree : Json → Tree
  | null => .null
  | bool b => .bool b
  | number n => .number (numeralOf n)
  | text s => .text (written s)
  | list items => .list .none (itemTrees items)
  | object members => .object .none (memberTrees members)

def itemTrees : List Json → List (Padded Tree)
  | [] => []
  | v :: rest => bare v.tree :: itemTrees rest

def memberTrees : List (String × Json) → List (Member Tree)
  | [] => []
  | (name, v) :: rest => writtenMember name v.tree :: memberTrees rest

end

mutual

/-- All numbers are whole. -/
def Whole : Json → Prop
  | number (.real _) => False
  | list items => itemsWhole items
  | object members => membersWhole members
  | _ => True

def itemsWhole : List Json → Prop
  | [] => True
  | v :: rest => v.Whole ∧ itemsWhole rest

def membersWhole : List (String × Json) → Prop
  | [] => True
  | (_, v) :: rest => v.Whole ∧ membersWhole rest

end

theorem itemsWhole_iff {items : List Json} : itemsWhole items ↔ ∀ v ∈ items, v.Whole := by
  induction items with
  | nil => simp [itemsWhole]
  | cons v rest ih => simp [itemsWhole, ih]

theorem bare_text (t : Tree) (items : List (Padded Tree)) :
    Tree.itemTexts (bare t :: items) = t.chars :: Tree.itemTexts items := by
  simp [bare, Tree.itemTexts, Blanks.none]

theorem writtenMember_text (name : String) (t : Tree) (members : List (Member Tree)) :
    Tree.memberTexts (writtenMember name t :: members) =
      memberChars name t.chars :: Tree.memberTexts members := by
  simp [writtenMember, bare, Tree.memberTexts, Blanks.none, memberChars, quoted_written]

mutual

theorem tree_chars : ∀ v : Json, v.Whole → v.tree.chars = v.chars
  | null, _ => rfl
  | bool _, _ => rfl
  | number (.whole n _), _ => Numeral.ofInt_chars n
  | text s, _ => quoted_written s
  | list items, h => by
    simp [tree, Tree.chars, chars, listChars, Blanks.none, itemTrees_texts items h]
  | object members, h => by
    simp [tree, Tree.chars, chars, objectChars, Blanks.none, memberTrees_texts members h]

theorem itemTrees_texts : ∀ items : List Json, itemsWhole items →
    Tree.itemTexts (itemTrees items) = itemsChars items
  | [], _ => rfl
  | v :: rest, h => by
    rw [itemTrees, bare_text, tree_chars v h.1, itemTrees_texts rest h.2, itemsChars]

theorem memberTrees_texts : ∀ members : List (String × Json), membersWhole members →
    Tree.memberTexts (memberTrees members) = membersChars members
  | [], _ => rfl
  | (name, v) :: rest, h => by
    rw [memberTrees, writtenMember_text, tree_chars v h.1, memberTrees_texts rest h.2, membersChars]

end

/-! ## What is kept of it -/

theorem kept?_text (depth : Nat) (s : String) : kept? depth (text s).tree = some (text s) := by
  cases depth <;> simp [tree, kept?, keptWith?, partsText?_written]

theorem kept?_whole (depth : Nat) (n : Int) (fits : Number.Fits n) :
    kept? depth (number (.whole n fits)).tree = some (number (.whole n fits)) := by
  cases depth <;> simp [tree, kept?, keptWith?, numeralOf, Numeral.ofInt_number? n fits]

theorem sequence?_tree {α : Type} {inner? : Tree → Option α} {toJson : α → Json} {xs : List α}
    (h : ∀ x ∈ xs, inner? (toJson x).tree = some x) :
    sequence? inner? (list (xs.map toJson)).tree = some xs := by
  rw [tree, sequence?]
  induction xs with
  | nil => rfl
  | cons x xs ih =>
    rw [List.forall_mem_cons] at h
    rw [List.map_cons, itemTrees, List.mapM_cons, ih h.2]
    simp [bare, h.1]

end PoolWatch.Json
