/-!
# Looking for a marker in a text
-/

namespace PoolWatch.Text

/-- The text from the first occurrence of `marker` on, the marker included. -/
def fromMarker? (marker : List Char) : List Char → Option (List Char)
  | [] => if marker.isEmpty then some [] else none
  | c :: cs => if marker.isPrefixOf (c :: cs) then some (c :: cs) else fromMarker? marker cs

def hasMarker (marker : List Char) (cs : List Char) : Bool := (fromMarker? marker cs).isSome

theorem marker_isPrefix_of_fromMarker? {marker cs rest : List Char}
    (h : fromMarker? marker cs = some rest) : marker <+: rest := by
  induction cs with
  | nil =>
    simp only [fromMarker?] at h
    split at h <;> simp_all
  | cons c cs ih =>
    simp only [fromMarker?] at h
    split at h
    · next hp =>
      obtain rfl := Option.some.inj h
      exact List.isPrefixOf_iff_prefix.mp hp
    · exact ih h

end PoolWatch.Text
