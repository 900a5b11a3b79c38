/-!
# Cutting a text into pieces
-/

namespace PoolWatch.Text

/-- The pieces between separators. The piece that has begun is given in reverse. -/
def splitFrom {α : Type} (isSeparator : α → Bool) (begun : List α) : List α → List (List α)
  | [] => [begun.reverse]
  | c :: cs =>
    if isSeparator c then begun.reverse :: splitFrom isSeparator [] cs
    else splitFrom isSeparator (c :: begun) cs

/-- Pieces between separators. There is one more of them than separators. -/
def split {α : Type} (isSeparator : α → Bool) (cs : List α) : List (List α) :=
  splitFrom isSeparator [] cs

/-- What is before the first separator, and what is behind it, if there is one. -/
def cut {α : Type} (isSeparator : α → Bool) (cs : List α) : List α × Option (List α) :=
  match cs.dropWhile (!isSeparator ·) with
  | [] => (cs, none)
  | _ :: rest => (cs.takeWhile (!isSeparator ·), some rest)

end PoolWatch.Text
