import PoolWatch.Text.Search

/-!
# Painted text

A terminal takes escape sequences that set the look of the text behind them. Painted text begins
with one and ends with a reset. A reset inside it is followed by the style again.
-/

namespace PoolWatch

inductive Ink
  | black
  | red
  | green
  | yellow
  | white
deriving DecidableEq

def Ink.digit : Ink → Char
  | black => '0'
  | red => '1'
  | green => '2'
  | yellow => '3'
  | white => '7'

/-- How a text looks. By default it looks like any other. -/
structure TextStyle where
  bold : Bool := false
  dimmed : Bool := false
  background : Option Ink := none
  foreground : Option Ink := none
deriving DecidableEq

namespace TextStyle

def escape : Char := '\x1b'

/-- The codes of a style: the weight first, then the background, then the foreground. -/
def codes (s : TextStyle) : List (List Char) :=
  (if s.bold then [['1']] else []) ++ (if s.dimmed then [['2']] else []) ++
    (s.background.toList.map fun i => ['4', i.digit]) ++
    (s.foreground.toList.map fun i => ['3', i.digit])

/-- Codes as a terminal takes them. -/
def sequence (codes : List (List Char)) : List Char :=
  escape :: '[' :: (List.intercalate [';'] codes ++ ['m'])

def opening (s : TextStyle) : List Char := sequence s.codes

def reset : List Char := sequence [['0']]

/-- The text with the style set again after each reset. `skip` counts the characters of a reset that
are still to come. -/
def renewed (style : List Char) : Nat → List Char → List Char
  | _, [] => []
  | 0, c :: cs =>
    if reset.isPrefixOf (c :: cs) then c :: renewed style (reset.length - 1) cs
    else c :: renewed style 0 cs
  | 1, c :: cs => c :: (style ++ renewed style 0 cs)
  | skip + 2, c :: cs => c :: renewed style (skip + 1) cs

/-- The text in a style, or as it is when there are no colours. -/
def paint (color : Bool) (s : TextStyle) (text : List Char) : List Char :=
  if color then s.opening ++ renewed s.opening 0 text ++ reset else text

end TextStyle

end PoolWatch
