import PoolWatch.Json.Writer
import PoolWatch.Number.Integer
import PoolWatch.Pool.Basic
import PoolWatch.Text.Blank

/-!
# Lenient fields

The server is loose about types. Any JSON value will do for a field that is shown, and a slot count
may be a number or a text that holds one.
-/

namespace PoolWatch

/-- A label: a text is kept, null is empty, and anything else is kept as compact JSON. -/
def labelOfJson : Json → String
  | .text s => s
  | .null => ""
  | v => v.compact

/-- Numbers and texts are kept apart. Null is the empty text. -/
def Shown.ofJson : Json → Shown
  | .number n => .number n
  | .text s => .text s
  | .null => .text ""
  | v => .text v.compact

/-- The whole part of a number, within a signed 64-bit word. -/
def slotsOfNumber : Number → Int64
  | .whole n _ => Integer.clamp n
  | .real x => Integer.clamp (x.signed x.truncated)

/-- A slot count. What holds no count is zero. -/
def slotsOfJson : Json → Int64
  | .number n => slotsOfNumber n
  | .text s => (Integer.int64OfChars? (Text.trimChars s.toList)).getD 0
  | _ => 0

end PoolWatch
