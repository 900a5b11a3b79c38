/-!
# Lines of a text
-/

namespace PoolWatch.Text

/-- A line without the carriage return that may end it. -/
def withoutReturn (line : List Char) : List Char :=
  match line.reverse with
  | '\r' :: rest => rest.reverse
  | _ => line

/-- The line that has begun, its characters in reverse, and those behind it. Every line but an
unfinished last one ends in a line feed. -/
def linesFrom (begun : List Char) : List Char → List (List Char)
  | [] => if begun.isEmpty then [] else [begun.reverse]
  | '\n' :: cs => withoutReturn begun.reverse :: linesFrom [] cs
  | c :: cs => linesFrom (c :: begun) cs

/-- The lines of a text, without what ends them. -/
def lines (cs : List Char) : List (List Char) := linesFrom [] cs

end PoolWatch.Text
