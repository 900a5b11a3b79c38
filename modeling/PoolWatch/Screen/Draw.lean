import PoolWatch.Frame
import PoolWatch.Number.Integer
import PoolWatch.Plain.View
import PoolWatch.Screen.Basic
import PoolWatch.Text.Lines

/-!
# The full-screen view

A header of three lines, a bordered body, and a footer of one line. The body holds a message or the
table. Rows of the table are drawn as long as they fit as a whole.
-/

namespace PoolWatch.Screen

/-! ## Layout -/

def headerArea (width : Nat) : Area := ⟨0, 0, 3, width⟩

/-- What is left between the header and the last line. -/
def bodyArea (width height : Nat) : Area := ⟨3, 0, height - 4, width⟩

/-- The first line of the rows. A border, the table's heading and a blank line are above it. -/
def rowsTop : Nat := 6

/-- The room for rows, below the heading and inside the border. -/
def rowsHeight (height : Nat) : Nat := height - 8

/-- The place of a column on each line. -/
structure Column where
  left : Nat
  width : Nat
deriving DecidableEq

/-- The whole number nearest to a fifth. -/
def roundFifth (n : Nat) : Nat := (2 * n + 5) / 10

/-- The three columns take two, two and one fifths of the inside, with a blank between them. -/
def columns (width : Nat) : List Column :=
  let inside := width - 2
  let firstEnd := roundFifth (2 * inside - 5)
  let second := roundFifth (2 * inside)
  let secondEnd := roundFifth (4 * inside - 5)
  let third := roundFifth (4 * inside)
  [⟨1, firstEnd⟩, ⟨1 + second, secondEnd - second⟩, ⟨1 + third, inside - third⟩]

def statusColumn (width : Nat) : Column := (columns width).getLast (by simp [columns])

/-! ## Rows -/

/-- A row with the cluster that is named on it, if it is the first row of its group. -/
def labelledRows (t : Table) : List (Option ClusterCell × TableRow) :=
  t.groups.flatMap fun g =>
    match g.rows with
    | [] => []
    | row :: rest => (some g.cluster, row) :: rest.map (none, ·)

/-- A machine takes a line more than a cluster on its own. -/
def rowHeight : TableRow → Nat
  | .clusterOnly => 3
  | .vm _ _ => 4

/-- The rows that fit into so many lines, each with its first line. -/
def placedRows (top room : Nat) :
    List (Option ClusterCell × TableRow) → List (Nat × Option ClusterCell × TableRow)
  | [] => []
  | r :: rest =>
    if rowHeight r.2 ≤ room then
      (top, r) :: placedRows (top + rowHeight r.2) (room - rowHeight r.2) rest
    else []

def clusterTexts (c : ClusterCell) : List (List Char) :=
  ["Name:  ".toList ++ c.name.toList, "Type:  ".toList ++ c.cloudType.toList,
    "Available VM Slots:  ".toList ++ (Integer.text c.vmSlots.toInt).toList]

def vmTexts (vm : VmCell) : List (List Char) :=
  [vm.name.toList, "mem: ".toList ++ vm.memory.toList, "cpus: ".toList ++ vm.cpucores.toList,
    "type: ".toList ++ vm.vmtype.toList]

def indicatorColour : Indicator → Colour
  | .green => .green
  | .yellow => .yellow
  | .red => .red

/-- Writes texts below each other, as far as there is room. -/
def writeTexts (top : Nat) (c : Column) (room : Nat) (texts : List (List Char)) (s : Screen) :
    Screen :=
  match room, texts with
  | room + 1, t :: rest =>
    writeTexts (top + 1) c room rest (s.mark top c.left (tableMarks c.width (tableClusters t)))
  | _, _ => s

/-- Draws a row, with its cluster if it is the first of the group. -/
def drawRow (width : Nat) (r : Nat × Option ClusterCell × TableRow) (s : Screen) : Screen :=
  let (top, cluster, row) := r
  let height := rowHeight row
  match columns width with
  | [first, second, third] =>
    let texts := match cluster with
      | some c => clusterTexts c
      | none => []
    let s := writeTexts top first height texts s
    match row with
    | .clusterOnly => s
    | .vm cell status =>
      let s := writeTexts top second height (vmTexts cell) s
      let style := { foreground := .black, background := indicatorColour status.indicator }
      let s := s.restyle ⟨top, third.left, height, third.width⟩ style
      writeTexts top third height (Text.lines status.text.toList) s
  | _ => s

/-! ## Parts -/

def endpointStyle : CellStyle := { foreground := .cyan }

def stateStyle : PollState → CellStyle
  | .idle => { foreground := .lightGreen }
  | .polling => { foreground := .lightYellow }

def headerText (f : Frame) (endpoint : String) : List (List Char × CellStyle) :=
  styledClusters endpointStyle endpoint.toList ++ styledClusters {} "  |  ".toList ++
    styledClusters (stateStyle f.state) f.state.name.toList ++
    styledClusters {} ("  |  cycle ".toList ++ (Integer.text f.cycle).toList ++
      "  |  updated ".toList ++ (Plain.updated f).toList)

def title : List Char := "Cloud Resource Pool".toList

def centred (width : Nat) (marks : List Mark) : Nat := width / 2 - marks.length / 2

/-- The endpoint, the state and the cycle, in a border with a title. -/
def drawHeader (width : Nat) (f : Frame) (endpoint : String) (s : Screen) : Screen :=
  let s := s.border (headerArea width) { foreground := .lightBlue }
  let s := s.mark 0 1 (tableMarks (width - 2) (tableClusters title))
  s.mark 1 1 (lineMarks (width - 2) (width - 2) (headerText f endpoint))

def drawFooter (width height : Nat) (s : Screen) : Screen :=
  let hint := styledClusters { foreground := .lightYellow } "Q/Esc: Quit".toList
  let marks := lineMarks width width hint
  s.mark (height - 1) (centred width marks) marks

/-- A message in the middle of the body's first line. -/
def drawMessage (width : Nat) (style : CellStyle) (message : List Char) (s : Screen) : Screen :=
  let marks := lineMarks (width - 2) (width - 2) (styledClusters style message)
  s.mark 4 (1 + centred (width - 2) marks) marks

def headings : List (List Char) :=
  ["Cluster".toList, "Virtual Machines".toList, "Status".toList]

def drawHeading (width : Nat) (s : Screen) : Screen :=
  let s := s.restyle ⟨4, 1, 1, width - 2⟩ { foreground := .lightBlue, bold := true }
  (List.zip (columns width) headings).foldl (fun s (c, t) => writeTexts 4 c 1 [t] s) s

/-- Draws rows from the top. Those that do not fit are left out. -/
def drawTable (width height : Nat) (t : Table) (s : Screen) : Screen :=
  (placedRows rowsTop (rowsHeight height) (labelledRows t)).foldl (fun s r => drawRow width r s)
    (drawHeading width s)

def drawModel (width height : Nat) (m : DisplayModel) (s : Screen) : Screen :=
  let s := s.border (bodyArea width height) {}
  match m with
  | .table t => drawTable width height t s
  | .error message => drawMessage width { foreground := .red, bold := true } message.toList s
  | .pending =>
    drawMessage width { foreground := .gray } "Waiting for the first refresh...".toList s
  | .stopped => drawMessage width { foreground := .gray } "Monitor stopped".toList s

/-- The whole view of a frame. -/
def draw (width height : Nat) (f : Frame) (endpoint : String) : Screen :=
  drawFooter width height (drawModel width height f.model (drawHeader width f endpoint blank))

/-! ## Reading a screen back -/

def lineText (cells : List Cell) : String := String.ofList (cells.flatMap (·.symbol))

/-- Cells of one line that look alike. -/
structure StyleRun where
  line : Nat
  column : Nat
  length : Nat
  style : CellStyle
deriving DecidableEq

/-- The longest stretches of one style, from a column on. -/
def runsFrom (line column : Nat) : List Cell → List StyleRun
  | [] => []
  | c :: rest =>
    match runsFrom line (column + 1) rest with
    | r :: runs =>
      if r.style = c.style then ⟨line, column, r.length + 1, c.style⟩ :: runs
      else ⟨line, column, 1, c.style⟩ :: r :: runs
    | [] => [⟨line, column, 1, c.style⟩]

/-- The stretches of all styles but the plain one, in reading order. -/
def styleRuns (rows : List (List Cell)) : List StyleRun :=
  (rows.zipIdx.flatMap fun (cells, y) => runsFrom y 0 cells).filter (·.style ≠ {})

end PoolWatch.Screen
