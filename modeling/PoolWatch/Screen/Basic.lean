import PoolWatch.Text.Width

/-!
# Screens

A screen gives each place, by line and column, a cell: a symbol in a style. To paint is to change
some of the cells. Each operation says which.
-/

namespace PoolWatch

inductive Colour
  | reset
  | black
  | red
  | green
  | yellow
  | cyan
  | gray
  | lightGreen
  | lightYellow
  | lightBlue
deriving DecidableEq

def Colour.name : Colour → String
  | reset => "Reset"
  | black => "Black"
  | red => "Red"
  | green => "Green"
  | yellow => "Yellow"
  | cyan => "Cyan"
  | gray => "Gray"
  | lightGreen => "LightGreen"
  | lightYellow => "LightYellow"
  | lightBlue => "LightBlue"

structure CellStyle where
  foreground : Colour := .reset
  background : Colour := .reset
  bold : Bool := false
deriving DecidableEq

/-- One place of the screen. -/
structure Cell where
  symbol : List Char
  style : CellStyle
deriving DecidableEq

def Cell.blank : Cell := ⟨[' '], {}⟩

/-- A screen by its lines and columns. Where it ends is told to those who draw. -/
abbrev Screen := Nat → Nat → Cell

/-- Lines from `top` on, columns from `left` on. -/
structure Area where
  top : Nat
  left : Nat
  height : Nat
  width : Nat
deriving DecidableEq

def Area.contains (a : Area) (y x : Nat) : Bool :=
  a.top ≤ y && y < a.top + a.height && a.left ≤ x && x < a.left + a.width

/-! ## Marks -/

/-- What painting does to one cell. -/
inductive Mark
  /-- Sets the symbol and, if there is one, the style. -/
  | symbol (s : List Char) (style : Option CellStyle)
  | skip
  /-- The cell is hidden behind a wide symbol, and blank. -/
  | hidden
deriving DecidableEq

def Mark.apply : Mark → Cell → Cell
  | symbol s style, c => ⟨s, style.getD c.style⟩
  | skip, c => c
  | hidden, _ => .blank

namespace Screen

def blank : Screen := fun _ _ => .blank

/-- Changes the look of an area and none of its symbols. -/
def restyle (a : Area) (style : CellStyle) (s : Screen) : Screen := fun y x =>
  if a.contains y x then { s y x with style } else s y x

/-- Paints marks on one line, from a column on. -/
def mark (top left : Nat) (marks : List Mark) (s : Screen) : Screen := fun y x =>
  if y = top ∧ left ≤ x then
    match marks[x - left]? with
    | some m => m.apply (s y x)
    | none => s y x
  else s y x

/-- The symbol of a border at a place of the area, when it is on the border. -/
def borderSymbol? (a : Area) (y x : Nat) : Option Char :=
  let first := y == a.top
  let final := y + 1 == a.top + a.height
  let left := x == a.left
  let right := x + 1 == a.left + a.width
  if final && right then some '┘'
  else if first && right then some '┐'
  else if final && left then some '└'
  else if first && left then some '┌'
  else if first || final then some '─'
  else if left || right then some '│'
  else none

def border (a : Area) (style : CellStyle) (s : Screen) : Screen := fun y x =>
  if a.contains y x then
    match borderSymbol? a y x with
    | some c => ⟨[c], style⟩
    | none => s y x
  else s y x

/-- The cells of the first lines and columns. -/
def cells (width height : Nat) (s : Screen) : List (List Cell) :=
  (List.range height).map fun y => (List.range width).map fun x => s y x

end Screen

/-! ## Text -/

/-- The clusters of a text in one style. Line feeds are left out. -/
def styledClusters (style : CellStyle) (text : List Char) : List (List Char × CellStyle) :=
  ((Text.clusters text).filter (· != ['\n'])).map (·, style)

/-- Marks for a line of its own. What takes no column is left out, and so is what is wider than the
line. -/
def lineMarks (width : Nat) : Nat → List (List Char × CellStyle) → List Mark
  | _, [] => []
  | room, (g, style) :: rest =>
    let w := Text.clusterWidth g
    if w > width then lineMarks width room rest
    else if w > room then []
    else if w = 0 then lineMarks width room rest
    else .symbol g (some style) :: (List.replicate (w - 1) .skip ++ lineMarks width (room - w) rest)

/-- Marks inside a table. What takes no column is painted where the next cluster will be. -/
def tableMarks : Nat → List (List Char) → List Mark
  | _, [] => []
  | room, g :: rest =>
    let w := Text.clusterWidth g
    if w > room then []
    else if w = 0 then
      match tableMarks room rest with
      | [] => [.symbol g none]
      | marks => marks
    else .symbol g none :: (List.replicate (w - 1) .hidden ++ tableMarks (room - w) rest)

/-- A text as a table cell takes it: its line breaks are lost. -/
def tableClusters (text : List Char) : List (List Char) :=
  (Text.clusters text).filter (· != ['\n'])

end PoolWatch
