import PoolWatch.Screen.Draw

/-!
# What painting does to a cell

Each operation on a screen is known by what it does to each cell. A text changes the cells of its
own line in its own column, and at most the one behind the column. No operation but the restyling of
a status sets a background.
-/

namespace PoolWatch

/-- A cell with a mark on it, if there is one. -/
def Mark.over (m : Option Mark) (c : Cell) : Cell := m.elim c (·.apply c)

@[simp]
theorem Mark.over_none (c : Cell) : Mark.over none c = c := rfl

@[simp]
theorem Mark.over_some (m : Mark) (c : Cell) : Mark.over (some m) c = m.apply c := rfl

/-! ## Texts in a column -/

theorem length_tableMarks (room : Nat) (gs : List (List Char)) :
    (tableMarks room gs).length ≤ room + 1 := by
  induction gs generalizing room with
  | nil => simp [tableMarks]
  | cons g gs ih =>
    unfold tableMarks
    dsimp only
    split
    · simp
    · split
      · have hrest := ih room
        split <;> simp_all
      · have hrest := ih (room - Text.clusterWidth g)
        simp only [List.length_cons, List.length_append, List.length_replicate]
        omega

theorem mem_tableMarks {room : Nat} {gs : List (List Char)} {m : Mark}
    (h : m ∈ tableMarks room gs) : (∃ g, m = .symbol g none) ∨ m = .hidden := by
  induction gs generalizing room with
  | nil => simp [tableMarks] at h
  | cons g gs ih =>
    unfold tableMarks at h
    dsimp only at h
    split at h
    · simp at h
    · split at h
      · split at h
        · exact .inl ⟨g, List.mem_singleton.mp h⟩
        · exact ih h
      · simp only [List.mem_cons, List.mem_append] at h
        rcases h with h | h | h
        · exact .inl ⟨g, h⟩
        · exact .inr (List.mem_replicate.mp h).2
        · exact ih h

/-- The columns that clusters take. -/
def widthSum : List (List Char) → Nat
  | [] => 0
  | g :: gs => Text.clusterWidth g + widthSum gs

theorem tableMarks_symbol {room : Nat} {before : List (List Char)} {g : List Char}
    (hwidth : 0 < Text.clusterWidth g) (hfits : widthSum before + Text.clusterWidth g ≤ room)
    (after : List (List Char)) :
    (tableMarks room (before ++ g :: after))[widthSum before]? = some (.symbol g none) := by
  induction before generalizing room with
  | nil =>
    simp only [widthSum, Nat.zero_add] at hfits
    have hroom : ¬ Text.clusterWidth g > room := by omega
    simp [tableMarks, widthSum, hroom, Nat.ne_of_gt hwidth]
  | cons b before ih =>
    have hsum : widthSum (b :: before) = Text.clusterWidth b + widthSum before := rfl
    have hbehind : widthSum before + Text.clusterWidth g ≤ room - Text.clusterWidth b := by omega
    have hrest := ih hbehind
    have hroom : ¬ Text.clusterWidth b > room := by omega
    rw [List.cons_append, hsum]
    unfold tableMarks
    simp only [hroom, if_false]
    split
    · rename_i hzero
      rw [hzero, Nat.sub_zero] at hrest
      rw [hzero, Nat.zero_add]
      split
      · rename_i hnone
        simp [hnone] at hrest
      · exact hrest
    · rename_i hb
      have hindex : Text.clusterWidth b + widthSum before =
          Text.clusterWidth b - 1 + widthSum before + 1 := by omega
      rw [hindex, List.getElem?_cons_succ, List.getElem?_append_right (by simp)]
      simpa using hrest

/-- A place in a column is hidden if a cluster that fits begins before it and reaches over it. -/
def HiddenIn (room : Nat) (gs : List (List Char)) (i : Nat) : Prop :=
  ∃ before g after, gs = before ++ g :: after ∧ widthSum before < i ∧
    i < widthSum before + Text.clusterWidth g ∧ widthSum before + Text.clusterWidth g ≤ room

theorem hiddenIn_nil (room i : Nat) : ¬ HiddenIn room [] i := by
  rintro ⟨before, g, after, hsplit, -⟩
  simp at hsplit

theorem hiddenIn_cons (room : Nat) (g : List Char) (gs : List (List Char)) (i : Nat) :
    HiddenIn room (g :: gs) i ↔ Text.clusterWidth g ≤ room ∧
      ((0 < i ∧ i < Text.clusterWidth g) ∨
        (Text.clusterWidth g ≤ i ∧
          HiddenIn (room - Text.clusterWidth g) gs (i - Text.clusterWidth g))) := by
  constructor
  · rintro ⟨before, g', after, hsplit, hstart, hend, hroom⟩
    cases before with
    | nil =>
      obtain ⟨rfl, rfl⟩ := List.cons.inj hsplit
      simp only [widthSum, Nat.zero_add] at hstart hend hroom
      exact ⟨hroom, .inl ⟨hstart, hend⟩⟩
    | cons _ before =>
      obtain ⟨rfl, rfl⟩ := List.cons.inj hsplit
      simp only [widthSum] at hstart hend hroom
      exact ⟨by omega, .inr ⟨by omega, before, g', after, rfl, by omega, by omega, by omega⟩⟩
  · rintro ⟨hroom, ⟨hstart, hend⟩ | ⟨hbehind, before, g', after, rfl, hstart, hend, hfits⟩⟩
    · exact ⟨[], g, gs, rfl, by simpa [widthSum] using hstart, by simpa [widthSum] using hend,
        by simpa [widthSum] using hroom⟩
    · refine ⟨g :: before, g', after, rfl, ?_, ?_, ?_⟩ <;>
        simp only [widthSum] at hstart hend hfits ⊢ <;> omega

theorem tableMarks_hidden (room : Nat) (gs : List (List Char)) (i : Nat) :
    (tableMarks room gs)[i]? = some .hidden ↔ HiddenIn room gs i := by
  induction gs generalizing room i with
  | nil => simp [tableMarks, hiddenIn_nil]
  | cons g gs ih =>
    rw [hiddenIn_cons]
    unfold tableMarks
    dsimp only
    split
    · rename_i hwide
      simp only [List.getElem?_nil, reduceCtorEq, false_iff, not_and]
      omega
    split
    · -- a cluster without width hides nothing
      rename_i hroom hzero
      have hrest := ih room i
      simp only [hzero, Nat.not_lt_zero, and_false, false_or, Nat.zero_le, true_and, Nat.sub_zero,
        ← hrest]
      split
      · rename_i hnil
        cases i <;> simp [hnil]
      · rfl
    · rename_i hroom hwidth
      have hroom : Text.clusterWidth g ≤ room := by omega
      rcases i with _ | i
      · have hnot : ¬ Text.clusterWidth g ≤ 0 := by omega
        simp [hnot]
      rw [List.getElem?_cons_succ]
      by_cases hi : i < Text.clusterWidth g - 1
      · rw [List.getElem?_append_left (by simpa using hi), List.getElem?_replicate, if_pos hi]
        simp only [hroom, true_and, true_iff]
        exact .inl ⟨by omega, by omega⟩
      · rw [List.getElem?_append_right (by simpa using hi), List.length_replicate, ih]
        have hnot : ¬ i + 1 < Text.clusterWidth g := by omega
        have hle : Text.clusterWidth g ≤ i + 1 := by omega
        have hplace : i - (Text.clusterWidth g - 1) = i + 1 - Text.clusterWidth g := by omega
        simp [hroom, hnot, hle, hplace]

namespace Screen

/-- The mark that a text in a column leaves on a cell of its line. -/
def Column.mark? (c : Column) (text : List Char) (x : Nat) : Option Mark :=
  if c.left ≤ x then (tableMarks c.width (tableClusters text))[x - c.left]? else none

namespace Column

variable {c : Column}

theorem mark?_before {x : Nat} (h : x < c.left) (text : List Char) : c.mark? text x = none :=
  if_neg (by omega)

theorem mark?_behind {x : Nat} (h : c.left + c.width < x) (text : List Char) :
    c.mark? text x = none := by
  have hlength := length_tableMarks c.width (tableClusters text)
  rw [mark?, if_pos (by omega), List.getElem?_eq_none (by omega)]

theorem mark?_inside (i : Nat) (text : List Char) :
    c.mark? text (c.left + i) = (tableMarks c.width (tableClusters text))[i]? := by
  rw [mark?, if_pos (Nat.le_add_right _ _), Nat.add_sub_cancel_left]

@[simp]
theorem mark?_nil (x : Nat) : c.mark? [] x = none := by
  simp [mark?, tableClusters, Text.clusters, tableMarks]

theorem background_mark? (text : List Char) (x : Nat) (cell : Cell) :
    (Mark.over (c.mark? text x) cell).style.background =
      if c.mark? text x = some .hidden then .reset else cell.style.background := by
  cases hm : c.mark? text x with
  | none => simp
  | some m =>
    have hmem : m ∈ tableMarks c.width (tableClusters text) := by
      unfold mark? at hm
      split at hm
      · exact List.mem_of_getElem? hm
      · simp at hm
    rcases mem_tableMarks hmem with ⟨g, rfl⟩ | rfl
    · simp [Mark.apply]
    · simp [Mark.apply, Cell.blank]

end Column

/-! ## Operations -/

theorem contains_outside {a : Area} {y : Nat} (h : y < a.top ∨ a.top + a.height ≤ y) (x : Nat) :
    a.contains y x = false := by
  have hline : (a.top ≤ y && y < a.top + a.height : Bool) = false := by
    rw [Bool.and_eq_false_imp, decide_eq_true_eq, decide_eq_false_iff_not]
    omega
  rw [Area.contains, hline]
  rfl

theorem restyle_outside {a : Area} {y : Nat} (h : y < a.top ∨ a.top + a.height ≤ y)
    (style : CellStyle) (s : Screen) (x : Nat) : s.restyle a style y x = s y x := by
  rw [restyle, contains_outside h]
  rfl

theorem border_outside {a : Area} {y : Nat} (h : y < a.top ∨ a.top + a.height ≤ y)
    (style : CellStyle) (s : Screen) (x : Nat) : s.border a style y x = s y x := by
  rw [border, contains_outside h]
  rfl

theorem mark_eq (top left : Nat) (marks : List Mark) (s : Screen) (y x : Nat) :
    s.mark top left marks y x =
      Mark.over (if y = top ∧ left ≤ x then marks[x - left]? else none) (s y x) := by
  unfold mark
  split
  · split <;> simp_all
  · rfl

theorem mark_outside {top y : Nat} (h : y ≠ top) (left : Nat) (marks : List Mark) (s : Screen)
    (x : Nat) : s.mark top left marks y x = s y x := by
  rw [mark_eq, if_neg (by simp [h]), Mark.over_none]

theorem writeTexts_outside {top room y : Nat} (h : y < top ∨ top + room ≤ y) (c : Column)
    (texts : List (List Char)) (s : Screen) (x : Nat) :
    writeTexts top c room texts s y x = s y x := by
  induction texts generalizing top room s with
  | nil => simp [writeTexts]
  | cons t texts ih =>
    cases room with
    | zero => rfl
    | succ room =>
      rw [writeTexts, ih (by omega), mark_outside (by omega)]

theorem writeTexts_inside {room j : Nat} (h : j < room) (top : Nat) (c : Column)
    (texts : List (List Char)) (s : Screen) (x : Nat) :
    writeTexts top c room texts s (top + j) x =
      Mark.over (c.mark? (texts[j]?.getD []) x) (s (top + j) x) := by
  induction texts generalizing top room j s with
  | nil => simp [writeTexts]
  | cons t texts ih =>
    obtain ⟨room, rfl⟩ := Nat.exists_eq_add_of_lt (Nat.zero_lt_of_lt h)
    rw [show 0 + room + 1 = room + 1 by omega] at h ⊢
    rw [writeTexts]
    cases j with
    | zero =>
      rw [writeTexts_outside (by omega), mark_eq]
      simp [Column.mark?]
    | succ j =>
      have hline : top + (j + 1) = top + 1 + j := by omega
      rw [hline, ih (by omega), mark_outside (by omega)]
      simp

/-! ## Backgrounds -/

/-- No cell has a background of its own. -/
def NoBackground (s : Screen) : Prop := ∀ y x, (s y x).style.background = .reset

/-- Marks that set no background. -/
def PlainMarks (marks : List Mark) : Prop :=
  ∀ m ∈ marks, ∀ g style, m = .symbol g (some style) → style.background = .reset

theorem PlainMarks.over {marks : List Mark} (h : PlainMarks marks) {m : Option Mark}
    (hm : ∀ a, m = some a → a ∈ marks) {c : Cell} (hc : c.style.background = .reset) :
    (Mark.over m c).style.background = .reset := by
  cases m with
  | none => exact hc
  | some m =>
    cases m with
    | symbol g style =>
      cases style with
      | none => exact hc
      | some style => exact h _ (hm _ rfl) g style rfl
    | skip => exact hc
    | hidden => rfl

theorem plainMarks_tableMarks (room : Nat) (gs : List (List Char)) :
    PlainMarks (tableMarks room gs) := by
  rintro m hm g style rfl
  rcases mem_tableMarks hm with ⟨g', h⟩ | h <;> simp at h

theorem plainMarks_lineMarks (width room : Nat) {gs : List (List Char × CellStyle)}
    (h : ∀ g ∈ gs, g.2.background = .reset) : PlainMarks (lineMarks width room gs) := by
  induction gs generalizing room with
  | nil => simp [lineMarks, PlainMarks]
  | cons g gs ih =>
    obtain ⟨g, style⟩ := g
    obtain ⟨hg, hgs⟩ := List.forall_mem_cons.mp h
    unfold lineMarks
    dsimp only
    split
    · exact ih room hgs
    split
    · simp [PlainMarks]
    split
    · exact ih room hgs
    · rintro m hm g' style' rfl
      simp only [List.mem_cons, Mark.symbol.injEq, Option.some.injEq, List.mem_append,
        List.mem_replicate, reduceCtorEq, and_false, false_or] at hm
      rcases hm with ⟨-, rfl⟩ | hm
      · exact hg
      · exact ih _ hgs _ hm g' style' rfl

theorem styledClusters_plain {style : CellStyle} (h : style.background = .reset)
    (text : List Char) : ∀ g ∈ styledClusters style text, g.2.background = .reset := by
  unfold styledClusters
  rw [List.forall_mem_map]
  exact fun _ _ => h

namespace NoBackground

variable {s : Screen}

theorem blank : NoBackground Screen.blank := fun _ _ => rfl

theorem border (h : NoBackground s) (a : Area) {style : CellStyle}
    (hstyle : style.background = .reset) : NoBackground (s.border a style) := by
  intro y x
  unfold Screen.border
  split
  · split
    · exact hstyle
    · exact h y x
  · exact h y x

theorem restyle (h : NoBackground s) (a : Area) {style : CellStyle}
    (hstyle : style.background = .reset) : NoBackground (s.restyle a style) := by
  intro y x
  unfold Screen.restyle
  split
  · exact hstyle
  · exact h y x

theorem mark (h : NoBackground s) (top left : Nat) {marks : List Mark} (hmarks : PlainMarks marks) :
    NoBackground (s.mark top left marks) := by
  intro y x
  rw [mark_eq]
  refine hmarks.over (fun a ha => ?_) (h y x)
  split at ha
  · exact List.mem_of_getElem? ha
  · simp at ha

theorem writeTexts (h : NoBackground s) (top : Nat) (c : Column) (room : Nat)
    (texts : List (List Char)) : NoBackground (Screen.writeTexts top c room texts s) := by
  induction texts generalizing top room s with
  | nil => simpa [Screen.writeTexts] using h
  | cons t texts ih =>
    cases room with
    | zero => exact h
    | succ room => exact ih (h.mark _ _ (plainMarks_tableMarks _ _)) _ _

end NoBackground

end Screen

end PoolWatch
