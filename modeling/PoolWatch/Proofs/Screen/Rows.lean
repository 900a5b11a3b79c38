import PoolWatch.Proofs.Screen.Painting

/-!
# Rows of the table on a screen

A row paints the cells of its own lines. Rows are stacked, so of all rows exactly one decides what a
cell of the stack becomes.
-/

namespace PoolWatch.Screen

/-! ## Columns -/

def clusterColumn (width : Nat) : Column := (columns width).head (List.cons_ne_nil _ _)

def vmColumn (width : Nat) : Column := (columns width).tail.head (List.cons_ne_nil _ _)

theorem columns_eq (width : Nat) :
    columns width = [clusterColumn width, vmColumn width, statusColumn width] := rfl

namespace Column

def covers (c : Column) (x : Nat) : Bool := c.left ≤ x && x < c.left + c.width

theorem covers_iff {c : Column} {x : Nat} : c.covers x = true ↔ ∃ i < c.width, x = c.left + i := by
  simp only [covers, Bool.and_eq_true, decide_eq_true_eq]
  exact ⟨fun h => ⟨x - c.left, by omega, by omega⟩, fun ⟨i, hi, hx⟩ => by omega⟩

/-- Texts in one column do not reach into the other. -/
structure Before (a b : Column) : Prop where
  apart : a.left + a.width ≤ b.left
  gap : 0 < b.width → a.left + a.width < b.left

variable {a b : Column}

theorem Before.mark?_left (h : a.Before b) {i : Nat} (hi : i < a.width) (text : List Char) :
    b.mark? text (a.left + i) = none :=
  mark?_before (Nat.lt_of_lt_of_le (Nat.add_lt_add_left hi _) h.apart) text

theorem Before.covers_left (h : a.Before b) {i : Nat} (hi : i < a.width) :
    b.covers (a.left + i) = false := by
  have hapart := h.apart
  simp only [covers, Bool.and_eq_false_imp, decide_eq_true_eq, decide_eq_false_iff_not]
  omega

theorem Before.mark?_right (h : a.Before b) {i : Nat} (hi : i < b.width) (text : List Char) :
    a.mark? text (b.left + i) = none :=
  mark?_behind (Nat.lt_add_right i (h.gap (Nat.zero_lt_of_lt hi))) text

end Column

theorem cluster_before_vm (width : Nat) : (clusterColumn width).Before (vmColumn width) := by
  constructor <;> simp [clusterColumn, vmColumn, columns, roundFifth] <;> omega

theorem vm_before_status (width : Nat) : (vmColumn width).Before (statusColumn width) := by
  constructor <;> simp [vmColumn, statusColumn, columns, roundFifth] <;> omega

theorem cluster_before_status (width : Nat) :
    (clusterColumn width).Before (statusColumn width) := by
  constructor <;> simp [clusterColumn, statusColumn, columns, roundFifth] <;> omega

theorem columns_inside {width : Nat} {c : Column} (hc : c ∈ columns width) {i : Nat}
    (hi : i < c.width) : 0 < c.left + i ∧ c.left + i + 1 < width := by
  simp only [columns, roundFifth, List.mem_cons, List.not_mem_nil, or_false] at hc
  rcases hc with rfl | rfl | rfl <;> simp only at hi ⊢ <;> omega

/-! ## One row -/

/-- A row with the cluster that is named on it, if there is one. -/
abbrev LabelledRow := Option ClusterCell × TableRow

def lineAt (texts : List (List Char)) (j : Nat) : List Char := texts[j]?.getD []

/-- The texts of a row in each column. -/
def clusterLines : Option ClusterCell → List (List Char)
  | some c => clusterTexts c
  | none => []

def vmLines : TableRow → List (List Char)
  | .clusterOnly => []
  | .vm cell _ => vmTexts cell

def statusLines : TableRow → List (List Char)
  | .clusterOnly => []
  | .vm _ status => Text.lines status.text.toList

def statusStyle : TableRow → CellStyle
  | .clusterOnly => {}
  | .vm _ status => { foreground := .black, background := indicatorColour status.indicator }

/-- What a row makes of a cell on its line `j`. -/
def rowCell (width : Nat) (r : LabelledRow) (j x : Nat) (c : Cell) : Cell :=
  let c := Mark.over ((clusterColumn width).mark? (lineAt (clusterLines r.1) j) x) c
  match r.2 with
  | .clusterOnly => c
  | .vm _ _ =>
    let c := Mark.over ((vmColumn width).mark? (lineAt (vmLines r.2) j) x) c
    let c := if (statusColumn width).covers x then { c with style := statusStyle r.2 } else c
    Mark.over ((statusColumn width).mark? (lineAt (statusLines r.2) j) x) c

theorem drawRow_clusterOnly (width top : Nat) (cluster : Option ClusterCell) (s : Screen) :
    drawRow width (top, cluster, .clusterOnly) s =
      writeTexts top (clusterColumn width) 3 (clusterLines cluster) s := by
  cases cluster <;> rfl

theorem drawRow_vm (width top : Nat) (cluster : Option ClusterCell) (cell : VmCell)
    (status : StatusCell) (s : Screen) :
    drawRow width (top, cluster, .vm cell status) s =
      writeTexts top (statusColumn width) 4 (statusLines (.vm cell status))
        (restyle ⟨top, (statusColumn width).left, 4, (statusColumn width).width⟩
          (statusStyle (.vm cell status))
          (writeTexts top (vmColumn width) 4 (vmLines (.vm cell status))
            (writeTexts top (clusterColumn width) 4 (clusterLines cluster) s))) := by
  cases cluster <;> rfl

theorem drawRow_outside {width top y : Nat} {r : LabelledRow}
    (h : y < top ∨ top + rowHeight r.2 ≤ y) (s : Screen) (x : Nat) :
    drawRow width (top, r) s y x = s y x := by
  obtain ⟨cluster, row⟩ := r
  cases row with
  | clusterOnly =>
    rw [drawRow_clusterOnly]
    exact writeTexts_outside h _ _ _ _
  | vm cell status =>
    have hlines : y < top ∨ top + 4 ≤ y := h
    rw [drawRow_vm, writeTexts_outside hlines, restyle_outside hlines, writeTexts_outside hlines,
      writeTexts_outside hlines]

theorem drawRow_inside {width : Nat} {r : LabelledRow} {j : Nat} (h : j < rowHeight r.2)
    (top : Nat) (s : Screen) (x : Nat) :
    drawRow width (top, r) s (top + j) x = rowCell width r j x (s (top + j) x) := by
  obtain ⟨cluster, row⟩ := r
  cases row with
  | clusterOnly =>
    rw [drawRow_clusterOnly]
    exact writeTexts_inside h _ _ _ _ _
  | vm cell status =>
    have hline : j < 4 := h
    have harea (c : Column) : (Area.mk top c.left 4 c.width).contains (top + j) x = c.covers x := by
      simp [Area.contains, Column.covers, hline]
    simp only [drawRow_vm, writeTexts_inside hline, restyle, harea]
    rfl

/-- A text in a column of its own style, over blanks. -/
def textCell (room : Nat) (style : CellStyle) (text : List Char) (i : Nat) : Cell :=
  Mark.over (tableMarks room (tableClusters text))[i]? ⟨[' '], style⟩

section Cells

variable {width : Nat} {r : LabelledRow} {i : Nat} (j : Nat)

theorem rowCell_cluster (hi : i < (clusterColumn width).width) :
    rowCell width r j ((clusterColumn width).left + i) .blank =
      textCell (clusterColumn width).width {} (lineAt (clusterLines r.1) j) i := by
  have hcovers := (cluster_before_status width).covers_left hi
  unfold rowCell
  cases r.2 with
  | clusterOnly => rw [Column.mark?_inside]; rfl
  | vm cell status =>
    simp only [(cluster_before_vm width).mark?_left hi, (cluster_before_status width).mark?_left hi,
      hcovers, Column.mark?_inside]
    rfl

theorem rowCell_vm (hi : i < (vmColumn width).width) :
    rowCell width r j ((vmColumn width).left + i) .blank =
      textCell (vmColumn width).width {} (lineAt (vmLines r.2) j) i := by
  have hcovers := (vm_before_status width).covers_left hi
  unfold rowCell
  cases r.2 with
  | clusterOnly => simp only [(cluster_before_vm width).mark?_right hi]; rfl
  | vm cell status =>
    simp only [(cluster_before_vm width).mark?_right hi, (vm_before_status width).mark?_left hi,
      hcovers, Column.mark?_inside]
    rfl

theorem rowCell_status (hi : i < (statusColumn width).width) :
    rowCell width r j ((statusColumn width).left + i) .blank =
      textCell (statusColumn width).width (statusStyle r.2) (lineAt (statusLines r.2) j) i := by
  have hcovers : (statusColumn width).covers ((statusColumn width).left + i) = true :=
    Column.covers_iff.mpr ⟨i, hi, rfl⟩
  unfold rowCell
  cases r.2 with
  | clusterOnly => simp only [(cluster_before_status width).mark?_right hi]; rfl
  | vm cell status =>
    simp only [(cluster_before_status width).mark?_right hi,
      (vm_before_status width).mark?_right hi, hcovers, Column.mark?_inside]
    rfl

end Cells

/-- A place in the status column that no wide symbol of the line hides. -/
def InStatus (width : Nat) (line : List Char) (x : Nat) : Prop :=
  ∃ i < (statusColumn width).width, x = (statusColumn width).left + i ∧
    ¬ HiddenIn (statusColumn width).width (tableClusters line) i

theorem hidden_status {width x : Nat} {line : List Char} :
    (statusColumn width).covers x = true ∧ (statusColumn width).mark? line x ≠ some .hidden ↔
      InStatus width line x := by
  rw [Column.covers_iff]
  constructor
  · rintro ⟨⟨i, hi, rfl⟩, hmark⟩
    rw [Column.mark?_inside] at hmark
    exact ⟨i, hi, rfl, fun h => hmark ((tableMarks_hidden _ _ _).mpr h)⟩
  · rintro ⟨i, hi, rfl, hhidden⟩
    refine ⟨⟨i, hi, rfl⟩, fun hmark => hhidden ?_⟩
    rw [Column.mark?_inside] at hmark
    exact (tableMarks_hidden _ _ _).mp hmark

theorem background_rowCell {c : Cell} (hc : c.style.background = .reset) (width : Nat)
    (r : LabelledRow) (j x : Nat) :
    (rowCell width r j x c).style.background =
      if (statusColumn width).covers x = true ∧
          (statusColumn width).mark? (lineAt (statusLines r.2) j) x ≠ some .hidden then
        (statusStyle r.2).background
      else .reset := by
  unfold rowCell
  cases r.2 with
  | clusterOnly => simp [Column.background_mark?, hc, statusStyle]
  | vm cell status =>
    simp only [Column.background_mark?]
    split
    · simp_all
    · cases (statusColumn width).covers x <;> simp_all [Column.background_mark?]

/-! ## Stacked rows -/

def linesOf : List TableRow → Nat
  | [] => 0
  | row :: rows => rowHeight row + linesOf rows

@[simp]
theorem linesOf_nil : linesOf [] = 0 := rfl

@[simp]
theorem linesOf_cons (row : TableRow) (rows : List TableRow) :
    linesOf (row :: rows) = rowHeight row + linesOf rows := rfl

theorem linesOf_append (rows below : List TableRow) :
    linesOf (rows ++ below) = linesOf rows + linesOf below := by
  induction rows with
  | nil => simp
  | cons row rows ih => rw [List.cons_append, linesOf_cons, linesOf_cons, ih, Nat.add_assoc]

/-- Rows without gaps between them, each with its first line. -/
def stacked (top : Nat) : List LabelledRow → List (Nat × LabelledRow)
  | [] => []
  | r :: rest => (top, r) :: stacked (top + rowHeight r.2) rest

/-- How many of the rows fit into so many lines. -/
def fitting (room : Nat) : List TableRow → Nat
  | [] => 0
  | row :: rest => if rowHeight row ≤ room then fitting (room - rowHeight row) rest + 1 else 0

theorem fitting_le_length (room : Nat) (rows : List TableRow) :
    fitting room rows ≤ rows.length := by
  induction rows generalizing room with
  | nil => simp [fitting]
  | cons row rest ih =>
    have hrest := ih (room - rowHeight row)
    unfold fitting
    split
    · exact Nat.succ_le_succ hrest
    · exact Nat.zero_le _

theorem linesOf_take_le_iff {rows : List TableRow} {m : Nat} (hm : m ≤ rows.length) (room : Nat) :
    linesOf (rows.take m) ≤ room ↔ m ≤ fitting room rows := by
  induction rows generalizing m room with
  | nil => simp_all [fitting]
  | cons row rest ih =>
    cases m with
    | zero => simp
    | succ m =>
      have hrest := ih (m := m) (by simpa using hm) (room - rowHeight row)
      rw [List.take_succ_cons, linesOf_cons]
      unfold fitting
      split <;> omega

theorem placedRows_eq (top room : Nat) (rows : List LabelledRow) :
    placedRows top room rows = stacked top (rows.take (fitting room (rows.map Prod.snd))) := by
  induction rows generalizing top room with
  | nil => rfl
  | cons r rest ih =>
    unfold placedRows
    rw [List.map_cons, fitting]
    split
    · rw [List.take_succ_cons, stacked, ih]
    · rfl

def drawRows (width : Nat) (rows : List (Nat × LabelledRow)) (s : Screen) : Screen :=
  rows.foldl (fun s r => drawRow width r s) s

theorem drawRows_outside {top y : Nat} {rows : List LabelledRow}
    (h : y < top ∨ top + linesOf (rows.map Prod.snd) ≤ y) (width : Nat) (s : Screen) (x : Nat) :
    drawRows width (stacked top rows) s y x = s y x := by
  induction rows generalizing top s with
  | nil => rfl
  | cons r rest ih =>
    rw [List.map_cons, linesOf_cons] at h
    calc drawRows width (stacked top (r :: rest)) s y x
      _ = drawRow width (top, r) s y x := ih (by omega) _
      _ = s y x := drawRow_outside (by omega) s x

theorem drawRows_inside {rows : List LabelledRow} {i j : Nat} {r : LabelledRow}
    (hr : rows[i]? = some r) (hj : j < rowHeight r.2) (width top : Nat) (s : Screen) {y : Nat}
    (hy : y = top + linesOf ((rows.take i).map Prod.snd) + j) (x : Nat) :
    drawRows width (stacked top rows) s y x = rowCell width r j x (s y x) := by
  induction rows generalizing top i s with
  | nil => simp at hr
  | cons first rest ih =>
    cases i with
    | zero =>
      obtain rfl : first = r := by simpa using hr
      obtain rfl : y = top + j := hy
      have hbelow : top + j < top + rowHeight first.2 := by omega
      calc drawRows width (stacked top (first :: rest)) s (top + j) x
        _ = drawRow width (top, first) s (top + j) x := drawRows_outside (.inl hbelow) width _ x
        _ = rowCell width first j x (s (top + j) x) := drawRow_inside hj top s x
    | succ i =>
      rw [List.take_succ_cons, List.map_cons, linesOf_cons] at hy
      calc drawRows width (stacked top (first :: rest)) s y x
        _ = rowCell width r j x (drawRow width (top, first) s y x) :=
          ih (by simpa using hr) _ _ (by omega)
        _ = rowCell width r j x (s y x) := by rw [drawRow_outside (by omega)]

theorem exists_row {rows : List TableRow} {k : Nat} (hk : k < linesOf rows) :
    ∃ i row j, rows[i]? = some row ∧ j < rowHeight row ∧ k = linesOf (rows.take i) + j := by
  induction rows generalizing k with
  | nil => simp at hk
  | cons row rest ih =>
    by_cases hfirst : k < rowHeight row
    · exact ⟨0, row, k, rfl, hfirst, by simp⟩
    · rw [linesOf_cons] at hk
      obtain ⟨i, below, j, hi, hj, hsum⟩ := ih (k := k - rowHeight row) (by omega)
      refine ⟨i + 1, below, j, hi, hj, ?_⟩
      rw [List.take_succ_cons, linesOf_cons]
      omega

end PoolWatch.Screen
