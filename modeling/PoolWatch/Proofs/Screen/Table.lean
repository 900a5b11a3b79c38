import PoolWatch.Proofs.Screen.Rows

/-!
# The table on a screen

The table shows as many of its rows as fit. Only the statuses of virtual machines have a background,
and it tells their indicator.
-/

namespace PoolWatch.Screen

/-! ## What a reader sees -/

/-- A row, with its cluster and its place among the cluster's rows. -/
structure GroupRow where
  cluster : ClusterCell
  place : Nat
  row : TableRow

def tableRows (t : Table) : List GroupRow :=
  t.groups.flatMap fun g => g.rows.mapIdx fun i row => ⟨g.cluster, i, row⟩

/-- The first line of a row, if those above it are drawn. -/
def rowTop (t : Table) (i : Nat) : Nat := 6 + linesOf (((tableRows t).take i).map (·.row))

/-- A column shows a text on a line, cut where the column ends. -/
def Column.Shows (c : Column) (s : Screen) (y : Nat) (style : CellStyle) (text : List Char) :
    Prop :=
  ∀ i < c.width, s y (c.left + i) = textCell c.width style text i

theorem Column.Shows.symbol {c : Column} {s : Screen} {y : Nat} {style : CellStyle}
    {text : List Char} (h : c.Shows s y style text) {before after : List (List Char)}
    {g : List Char} (htext : tableClusters text = before ++ g :: after)
    (hwidth : 0 < Text.clusterWidth g) (hfits : widthSum before + Text.clusterWidth g ≤ c.width) :
    s y (c.left + widthSum before) = ⟨g, style⟩ := by
  rw [h _ (by omega), textCell, htext, tableMarks_symbol hwidth hfits]
  rfl

structure RowShown (width top : Nat) (r : GroupRow) (s : Screen) : Prop where
  cluster : r.place = 0 → ∀ j < rowHeight r.row,
    (clusterColumn width).Shows s (top + j) {} (lineAt (clusterTexts r.cluster) j)
  unnamed : r.place ≠ 0 → ∀ j < rowHeight r.row, (clusterColumn width).Shows s (top + j) {} []
  vm : ∀ j < rowHeight r.row, (vmColumn width).Shows s (top + j) {} (lineAt (vmLines r.row) j)
  status : ∀ j < rowHeight r.row,
    (statusColumn width).Shows s (top + j) (statusStyle r.row) (lineAt (statusLines r.row) j)

/-- A visible cell of a status, on one of the first `n` rows. -/
def OnStatus (width : Nat) (t : Table) (n y x : Nat) (indicator : Indicator) : Prop :=
  ∃ i < n, ∃ cluster place cell status, ∃ j < 4,
    (tableRows t)[i]? = some ⟨cluster, place, .vm cell status⟩ ∧ y = rowTop t i + j ∧
      InStatus width (lineAt (Text.lines status.text.toList) j) x ∧ status.indicator = indicator

/-- The screen shows the first `n` rows of the table, as many as there is room for. -/
structure TableShown (width height : Nat) (t : Table) (s : Screen) (n : Nat) : Prop where
  present : n ≤ (tableRows t).length
  longest : ∀ m ≤ (tableRows t).length,
    linesOf (((tableRows t).take m).map (·.row)) ≤ height - 8 ↔ m ≤ n
  row : ∀ i < n, ∀ r, (tableRows t)[i]? = some r → RowShown width (rowTop t i) r s
  below : ∀ y x, rowTop t n ≤ y → y + 2 < height → 0 < x → x + 1 < width → s y x = .blank
  coloured : ∀ y x, (s y x).style.background ≠ .reset ↔ ∃ i, OnStatus width t n y x i
  colour : ∀ y x i, OnStatus width t n y x i → (s y x).style.background = indicatorColour i

/-! ## Rows of the groups -/

/-- A cluster is named on its first row. -/
def GroupRow.labelled (r : GroupRow) : LabelledRow :=
  (if r.place = 0 then some r.cluster else none, r.row)

theorem labelledRows_eq (t : Table) : labelledRows t = (tableRows t).map GroupRow.labelled := by
  unfold labelledRows tableRows
  rw [List.map_flatMap]
  congr 1
  funext g
  cases g.rows with
  | nil => rfl
  | cons row rest =>
    rw [List.mapIdx_cons, List.map_cons]
    refine congrArg _ (List.ext_getElem? fun i => ?_)
    simp [GroupRow.labelled, Function.comp_def]

theorem rowTop_succ {t : Table} {i : Nat} {r : GroupRow} (hr : (tableRows t)[i]? = some r) :
    rowTop t (i + 1) = rowTop t i + rowHeight r.row := by
  unfold rowTop
  rw [List.take_add_one, hr, List.map_append, linesOf_append]
  simp [Nat.add_assoc]

theorem rowTop_mono (t : Table) {i n : Nat} (h : i ≤ n) : rowTop t i ≤ rowTop t n := by
  have hsplit := List.take_append_drop i ((tableRows t).take n)
  rw [List.take_take, Nat.min_eq_left h] at hsplit
  unfold rowTop
  rw [← hsplit, List.map_append, linesOf_append]
  omega

/-! ## Around the rows -/

theorem drawHeader_below {y : Nat} (h : 3 ≤ y) (width : Nat) (f : Frame) (endpoint : String)
    (s : Screen) (x : Nat) : drawHeader width f endpoint s y x = s y x := by
  unfold drawHeader
  rw [mark_outside (by omega), mark_outside (by omega), border_outside (.inr h)]

theorem bodyBorder_inside {height width y x : Nat} (htop : 4 ≤ y) (hbottom : y + 2 < height)
    (hleft : 0 < x) (hright : x + 1 < width) (style : CellStyle) (s : Screen) :
    s.border (bodyArea width height) style y x = s y x := by
  have hsymbol : borderSymbol? (bodyArea width height) y x = none := by
    have hfirst : y ≠ 3 := by omega
    have hfinal : y + 1 ≠ 3 + (height - 4) := by omega
    have hside : x ≠ 0 := by omega
    have hother : x + 1 ≠ width := by omega
    simp [borderSymbol?, bodyArea, hfirst, hfinal, hside, hother]
  unfold border
  split
  · simp [hsymbol]
  · rfl

theorem drawHeading_outside {y : Nat} (h : y ≠ 4) (width : Nat) (s : Screen) (x : Nat) :
    drawHeading width s y x = s y x := by
  have hlines : y < 4 ∨ 4 + 1 ≤ y := by omega
  unfold drawHeading
  simp only [columns_eq, headings, List.zip_cons_cons, List.zip_nil_right, List.foldl_cons,
    List.foldl_nil, writeTexts_outside hlines]
  exact restyle_outside hlines _ _ _

theorem drawFooter_outside {height y : Nat} (h : y ≠ height - 1) (width : Nat) (s : Screen)
    (x : Nat) : drawFooter width height s y x = s y x :=
  mark_outside h _ _ _ _

theorem plain_headerText (f : Frame) (endpoint : String) :
    ∀ g ∈ headerText f endpoint, g.2.background = .reset := by
  have hstate : (stateStyle f.state).background = .reset := by cases f.state <;> rfl
  unfold headerText
  simp only [List.forall_mem_append]
  exact ⟨⟨⟨styledClusters_plain rfl _, styledClusters_plain rfl _⟩, styledClusters_plain hstate _⟩,
    styledClusters_plain rfl _⟩

namespace NoBackground

variable {s : Screen}

theorem drawHeader (h : NoBackground s) (width : Nat) (f : Frame) (endpoint : String) :
    NoBackground (Screen.drawHeader width f endpoint s) :=
  ((h.border _ rfl).mark _ _ (plainMarks_tableMarks _ _)).mark _ _
    (plainMarks_lineMarks _ _ (plain_headerText f endpoint))

theorem drawHeading (h : NoBackground s) (width : Nat) :
    NoBackground (Screen.drawHeading width s) :=
  (((h.restyle _ rfl).writeTexts _ _ _ _).writeTexts _ _ _ _).writeTexts _ _ _ _

theorem drawMessage (h : NoBackground s) (width : Nat) {style : CellStyle}
    (hstyle : style.background = .reset) (message : List Char) :
    NoBackground (Screen.drawMessage width style message s) :=
  h.mark _ _ (plainMarks_lineMarks _ _ (styledClusters_plain hstyle message))

theorem drawFooter (h : NoBackground s) (width height : Nat) :
    NoBackground (Screen.drawFooter width height s) :=
  h.mark _ _ (plainMarks_lineMarks _ _ (styledClusters_plain rfl _))

end NoBackground

/-! ## The whole screen -/

/-- A screen before its rows are drawn. -/
def backdrop (width height : Nat) (f : Frame) (endpoint : String) : Screen :=
  drawHeading width (border (bodyArea width height) {} (drawHeader width f endpoint blank))

theorem noBackground_backdrop (width height : Nat) (f : Frame) (endpoint : String) :
    NoBackground (backdrop width height f endpoint) :=
  ((NoBackground.blank.drawHeader width f endpoint).border _ rfl).drawHeading width

theorem backdrop_inside {width height y x : Nat} (htop : 5 ≤ y) (hbottom : y + 2 < height)
    (hleft : 0 < x) (hright : x + 1 < width) (f : Frame) (endpoint : String) :
    backdrop width height f endpoint y x = .blank := by
  unfold backdrop
  rw [drawHeading_outside (by omega), bodyBorder_inside (by omega) hbottom hleft hright,
    drawHeader_below (by omega)]
  rfl

/-- How many rows of the table a screen has room for. -/
def drawnRows (height : Nat) (t : Table) : Nat :=
  fitting (height - 8) ((tableRows t).map (·.row))

def shownRows (height : Nat) (t : Table) : List LabelledRow :=
  ((tableRows t).map GroupRow.labelled).take (drawnRows height t)

section Drawn

variable {width height : Nat} {f : Frame} {t : Table} (endpoint : String)

theorem draw_table (hf : f.model = .table t) :
    draw width height f endpoint =
      drawFooter width height
        (drawRows width (stacked 6 (shownRows height t)) (backdrop width height f endpoint)) := by
  have hplaced := placedRows_eq 6 (height - 8) ((tableRows t).map GroupRow.labelled)
  rw [List.map_map] at hplaced
  unfold draw drawModel
  simp only [hf, drawTable, labelledRows_eq]
  exact congrArg (fun rows => drawFooter width height (drawRows width rows _)) hplaced

theorem rowTop_drawn (hheight : 9 ≤ height) (t : Table) :
    rowTop t (drawnRows height t) + 2 ≤ height := by
  have hrows := fitting_le_length (height - 8) ((tableRows t).map (·.row))
  have hfits := (linesOf_take_le_iff hrows (height - 8)).mpr (Nat.le_refl _)
  rw [← List.map_take] at hfits
  unfold rowTop drawnRows
  omega

theorem line_of_row {i j n : Nat} {r : GroupRow} (hi : i < n) (hr : (tableRows t)[i]? = some r)
    (hj : j < rowHeight r.row) : rowTop t i + j < rowTop t n := by
  have hsucc := rowTop_succ hr
  have hmono : rowTop t (i + 1) ≤ rowTop t n := rowTop_mono t hi
  omega

theorem draw_row (hf : f.model = .table t) (hheight : 9 ≤ height) {i j : Nat} {r : GroupRow}
    (hi : i < drawnRows height t) (hr : (tableRows t)[i]? = some r) (hj : j < rowHeight r.row)
    (x : Nat) :
    draw width height f endpoint (rowTop t i + j) x =
      rowCell width r.labelled j x (backdrop width height f endpoint (rowTop t i + j) x) := by
  have hline := line_of_row hi hr hj
  have hend := rowTop_drawn hheight t
  have hlabelled : (shownRows height t)[i]? = some r.labelled := by
    rw [shownRows, List.getElem?_take, if_pos hi, List.getElem?_map, hr]
    rfl
  rw [draw_table endpoint hf, drawFooter_outside (by omega)]
  refine drawRows_inside hlabelled hj width 6 _ ?_ x
  rw [shownRows, List.take_take, Nat.min_eq_left (Nat.le_of_lt hi), ← List.map_take, List.map_map]
  rfl

theorem draw_around (hf : f.model = .table t) {y : Nat}
    (hy : y < 6 ∨ rowTop t (drawnRows height t) ≤ y) (x : Nat) :
    draw width height f endpoint y x =
      drawFooter width height (backdrop width height f endpoint) y x := by
  have houtside : drawRows width (stacked 6 (shownRows height t))
      (backdrop width height f endpoint) y x = backdrop width height f endpoint y x := by
    refine drawRows_outside ?_ width _ x
    rw [shownRows, ← List.map_take, List.map_map]
    exact hy
  rw [draw_table endpoint hf, drawFooter, mark_eq, houtside, drawFooter, mark_eq]

/-- A line of the screen belongs to a row, or is around the rows. -/
theorem line_cases (t : Table) (n y : Nat) :
    (y < 6 ∨ rowTop t n ≤ y) ∨
      ∃ i < n, ∃ r j, (tableRows t)[i]? = some r ∧ j < rowHeight r.row ∧ y = rowTop t i + j := by
  by_cases hy : y < 6 ∨ rowTop t n ≤ y
  · exact .inl hy
  · have hline : y - 6 < linesOf (((tableRows t).take n).map (·.row)) := by
      unfold rowTop at hy
      omega
    obtain ⟨i, row, j, hrow, hj, hsum⟩ := exists_row hline
    rw [List.getElem?_map, Option.map_eq_some_iff] at hrow
    obtain ⟨r, hr, rfl⟩ := hrow
    rw [List.getElem?_take] at hr
    obtain ⟨hi, hr⟩ := Option.ite_none_right_eq_some.mp hr
    rw [← List.map_take, List.take_take, Nat.min_eq_left (Nat.le_of_lt hi)] at hsum
    exact .inr ⟨i, hi, r, j, hr, hj, by unfold rowTop; omega⟩

theorem rowShown (hf : f.model = .table t) (hheight : 9 ≤ height) {i : Nat} {r : GroupRow}
    (hi : i < drawnRows height t) (hr : (tableRows t)[i]? = some r) :
    RowShown width (rowTop t i) r (draw width height f endpoint) := by
  have hend := rowTop_drawn hheight t
  have hstart : 6 ≤ rowTop t i := Nat.le_add_right _ _
  -- on a line of the row, inside the border, the row paints a blank
  have hcell {c : Column} (hc : c ∈ columns width) {j k : Nat} (hj : j < rowHeight r.row)
      (hk : k < c.width) : draw width height f endpoint (rowTop t i + j) (c.left + k) =
        rowCell width r.labelled j (c.left + k) .blank := by
    have hline := line_of_row hi hr hj
    obtain ⟨hleft, hright⟩ := columns_inside hc hk
    rw [draw_row endpoint hf hheight hi hr hj,
      backdrop_inside (by omega) (by omega) hleft hright]
  constructor
  case cluster =>
    intro hplace j hj k hk
    rw [hcell (by simp [columns_eq]) hj hk, rowCell_cluster j hk, GroupRow.labelled, if_pos hplace]
    rfl
  case unnamed =>
    intro hplace j hj k hk
    rw [hcell (by simp [columns_eq]) hj hk, rowCell_cluster j hk, GroupRow.labelled, if_neg hplace]
    rfl
  case vm =>
    intro j hj k hk
    rw [hcell (by simp [columns_eq]) hj hk, rowCell_vm j hk]
    rfl
  case status =>
    intro j hj k hk
    rw [hcell (by simp [columns_eq]) hj hk, rowCell_status j hk]
    rfl

theorem background_onStatus (hf : f.model = .table t) (hheight : 9 ≤ height) {y x : Nat}
    {indicator : Indicator} (h : OnStatus width t (drawnRows height t) y x indicator) :
    (draw width height f endpoint y x).style.background = indicatorColour indicator := by
  obtain ⟨i, hi, cluster, place, cell, status, j, hj, hr, rfl, hx, rfl⟩ := h
  rw [draw_row endpoint hf hheight hi hr hj,
    background_rowCell (noBackground_backdrop width height f endpoint _ _)]
  exact if_pos (hidden_status.mpr hx)

theorem onStatus_of_background (hf : f.model = .table t) (hheight : 9 ≤ height) {y x : Nat}
    (h : (draw width height f endpoint y x).style.background ≠ .reset) :
    ∃ indicator, OnStatus width t (drawnRows height t) y x indicator := by
  rcases line_cases t (drawnRows height t) y with hy | ⟨i, hi, r, j, hr, hj, rfl⟩
  · rw [draw_around endpoint hf hy] at h
    exact absurd ((noBackground_backdrop width height f endpoint).drawFooter width height y x) h
  · rw [draw_row endpoint hf hheight hi hr hj,
      background_rowCell (noBackground_backdrop width height f endpoint _ _)] at h
    split at h
    · rename_i hstatus
      obtain ⟨cluster, place, row⟩ := r
      cases row with
      | clusterOnly => exact absurd rfl h
      | vm cell status =>
        exact ⟨_, i, hi, cluster, place, cell, status, j, hj, hr, rfl, hidden_status.mp hstatus,
          rfl⟩
    · exact absurd rfl h

end Drawn

theorem indicatorColour_ne_reset (indicator : Indicator) : indicatorColour indicator ≠ .reset := by
  cases indicator <;> decide

theorem tableShown {width height : Nat} {f : Frame} {t : Table} (hf : f.model = .table t)
    (hheight : 9 ≤ height) (endpoint : String) :
    TableShown width height t (draw width height f endpoint) (drawnRows height t) := by
  constructor
  case present => simpa [drawnRows] using fitting_le_length (height - 8) ((tableRows t).map (·.row))
  case longest =>
    intro m hm
    rw [List.map_take]
    exact linesOf_take_le_iff (by simpa using hm) _
  case row => exact fun i hi r hr => rowShown endpoint hf hheight hi hr
  case below =>
    intro y x hy hbottom hleft hright
    have hstart : 6 ≤ rowTop t (drawnRows height t) := Nat.le_add_right _ _
    rw [draw_around endpoint hf (.inr hy), drawFooter_outside (by omega),
      backdrop_inside (by omega) hbottom hleft hright]
  case coloured =>
    intro y x
    constructor
    · exact onStatus_of_background endpoint hf hheight
    · rintro ⟨indicator, h⟩
      rw [background_onStatus endpoint hf hheight h]
      exact indicatorColour_ne_reset indicator
  case colour => exact fun y x indicator h => background_onStatus endpoint hf hheight h

/-- A vacant cluster and a busy one. -/
def vacantAndBusy : Table where
  groups := [⟨⟨"B", "c2", 0⟩, 1, [.clusterOnly]⟩,
    ⟨⟨"A", "c1", 5⟩, 1, [.vm ⟨"vm1", "512", "2", "small"⟩ ⟨"Running", .green⟩]⟩]

end PoolWatch.Screen
