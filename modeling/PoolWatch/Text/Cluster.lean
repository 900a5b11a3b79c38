import PoolWatch.Text.Shown

/-!
# Clusters

A reader sees a letter and the marks on it as one thing. This module cuts a text into such clusters,
after the rules for extended grapheme clusters. Each table lists the first and the last code point
of a range, in order.
-/

namespace PoolWatch.Text

def controlRanges : List Nat := [
  0x0, 0x1F, 0x7F, 0x9F, 0xAD, 0xAD, 0x61C, 0x61C, 0x180E, 0x180E, 0x200B, 0x200B, 0x200E, 0x200F,
  0x2028, 0x202E, 0x2060, 0x206F, 0xFEFF, 0xFEFF, 0xFFF0, 0xFFFB, 0x13430, 0x1343F, 0x1BCA0,
  0x1BCA3, 0x1D173, 0x1D17A, 0xE0000, 0xE001F, 0xE0080, 0xE00FF, 0xE01F0, 0xE0FFF]

/-- Marks with a width of their own that follow a letter. -/
def spacingRanges : List Nat := [
  0x903, 0x903, 0x93B, 0x93B, 0x93E, 0x940, 0x949, 0x94C, 0x94E, 0x94F, 0x982, 0x983, 0x9BF,
  0x9C0, 0x9C7, 0x9C8, 0x9CB, 0x9CC, 0xA03, 0xA03, 0xA3E, 0xA40, 0xA83, 0xA83, 0xABE, 0xAC0,
  0xAC9, 0xAC9, 0xACB, 0xACC, 0xB02, 0xB03, 0xB40, 0xB40, 0xB47, 0xB48, 0xB4B, 0xB4C, 0xBBF,
  0xBBF, 0xBC1, 0xBC2, 0xBC6, 0xBC8, 0xBCA, 0xBCC, 0xC01, 0xC03, 0xC41, 0xC44, 0xC82, 0xC83,
  0xCBE, 0xCBE, 0xCC0, 0xCC1, 0xCC3, 0xCC4, 0xCC7, 0xCC8, 0xCCA, 0xCCB, 0xCF3, 0xCF3, 0xD02,
  0xD03, 0xD3F, 0xD40, 0xD46, 0xD48, 0xD4A, 0xD4C, 0xD82, 0xD83, 0xDD0, 0xDD1, 0xDD8, 0xDDE,
  0xDF2, 0xDF3, 0xE33, 0xE33, 0xEB3, 0xEB3, 0xF3E, 0xF3F, 0xF7F, 0xF7F, 0x1031, 0x1031, 0x103B,
  0x103C, 0x1056, 0x1057, 0x1084, 0x1084, 0x1715, 0x1715, 0x1734, 0x1734, 0x17B6, 0x17B6, 0x17BE,
  0x17C5, 0x17C7, 0x17C8, 0x1923, 0x1926, 0x1929, 0x192B, 0x1930, 0x1931, 0x1933, 0x1938, 0x1A19,
  0x1A1A, 0x1A55, 0x1A55, 0x1A57, 0x1A57, 0x1A6D, 0x1A72, 0x1B04, 0x1B04, 0x1B3B, 0x1B3B, 0x1B3D,
  0x1B41, 0x1B43, 0x1B44, 0x1B82, 0x1B82, 0x1BA1, 0x1BA1, 0x1BA6, 0x1BA7, 0x1BAA, 0x1BAA, 0x1BE7,
  0x1BE7, 0x1BEA, 0x1BEC, 0x1BEE, 0x1BEE, 0x1BF2, 0x1BF3, 0x1C24, 0x1C2B, 0x1C34, 0x1C35, 0x1CE1,
  0x1CE1, 0x1CF7, 0x1CF7, 0xA823, 0xA824, 0xA827, 0xA827, 0xA880, 0xA881, 0xA8B4, 0xA8C3, 0xA952,
  0xA953, 0xA983, 0xA983, 0xA9B4, 0xA9B5, 0xA9BA, 0xA9BB, 0xA9BE, 0xA9C0, 0xAA2F, 0xAA30, 0xAA33,
  0xAA34, 0xAA4D, 0xAA4D, 0xAAEB, 0xAAEB, 0xAAEE, 0xAAEF, 0xAAF5, 0xAAF5, 0xABE3, 0xABE4, 0xABE6,
  0xABE7, 0xABE9, 0xABEA, 0xABEC, 0xABEC, 0x11000, 0x11000, 0x11002, 0x11002, 0x11082, 0x11082,
  0x110B0, 0x110B2, 0x110B7, 0x110B8, 0x1112C, 0x1112C, 0x11145, 0x11146, 0x11182, 0x11182,
  0x111B3, 0x111B5, 0x111BF, 0x111C0, 0x111CE, 0x111CE, 0x1122C, 0x1122E, 0x11232, 0x11233,
  0x11235, 0x11235, 0x112E0, 0x112E2, 0x11302, 0x11303, 0x1133F, 0x1133F, 0x11341, 0x11344,
  0x11347, 0x11348, 0x1134B, 0x1134D, 0x11362, 0x11363, 0x11435, 0x11437, 0x11440, 0x11441,
  0x11445, 0x11445, 0x114B1, 0x114B2, 0x114B9, 0x114B9, 0x114BB, 0x114BC, 0x114BE, 0x114BE,
  0x114C1, 0x114C1, 0x115B0, 0x115B1, 0x115B8, 0x115BB, 0x115BE, 0x115BE, 0x11630, 0x11632,
  0x1163B, 0x1163C, 0x1163E, 0x1163E, 0x116AC, 0x116AC, 0x116AE, 0x116AF, 0x116B6, 0x116B6,
  0x11726, 0x11726, 0x1182C, 0x1182E, 0x11838, 0x11838, 0x11931, 0x11935, 0x11937, 0x11938,
  0x1193D, 0x1193D, 0x11940, 0x11940, 0x11942, 0x11942, 0x119D1, 0x119D3, 0x119DC, 0x119DF,
  0x119E4, 0x119E4, 0x11A39, 0x11A39, 0x11A57, 0x11A58, 0x11A97, 0x11A97, 0x11C2F, 0x11C2F,
  0x11C3E, 0x11C3E, 0x11CA9, 0x11CA9, 0x11CB1, 0x11CB1, 0x11CB4, 0x11CB4, 0x11D8A, 0x11D8E,
  0x11D93, 0x11D94, 0x11D96, 0x11D96, 0x11EF5, 0x11EF6, 0x11F03, 0x11F03, 0x11F34, 0x11F35,
  0x11F3E, 0x11F3F, 0x11F41, 0x11F41, 0x16F51, 0x16F87, 0x16FF0, 0x16FF1, 0x1D166, 0x1D166,
  0x1D16D, 0x1D16D]

/-- Marks that belong to the character after them. -/
def leadingRanges : List Nat := [
  0x600, 0x605, 0x6DD, 0x6DD, 0x70F, 0x70F, 0x890, 0x891, 0x8E2, 0x8E2, 0xD4E, 0xD4E, 0x110BD,
  0x110BD, 0x110CD, 0x110CD, 0x111C2, 0x111C3, 0x1193F, 0x1193F, 0x11941, 0x11941, 0x11A3A,
  0x11A3A, 0x11A84, 0x11A89, 0x11D46, 0x11D46, 0x11F02, 0x11F02]

/-- Characters that a joiner ties together. -/
def pictureRanges : List Nat := [
  0xA9, 0xA9, 0xAE, 0xAE, 0x203C, 0x203C, 0x2049, 0x2049, 0x2122, 0x2122, 0x2139, 0x2139, 0x2194,
  0x2199, 0x21A9, 0x21AA, 0x231A, 0x231B, 0x2328, 0x2328, 0x2388, 0x2388, 0x23CF, 0x23CF, 0x23E9,
  0x23F3, 0x23F8, 0x23FA, 0x24C2, 0x24C2, 0x25AA, 0x25AB, 0x25B6, 0x25B6, 0x25C0, 0x25C0, 0x25FB,
  0x25FE, 0x2600, 0x2605, 0x2607, 0x2612, 0x2614, 0x2685, 0x2690, 0x2705, 0x2708, 0x2712, 0x2714,
  0x2714, 0x2716, 0x2716, 0x271D, 0x271D, 0x2721, 0x2721, 0x2728, 0x2728, 0x2733, 0x2734, 0x2744,
  0x2744, 0x2747, 0x2747, 0x274C, 0x274C, 0x274E, 0x274E, 0x2753, 0x2755, 0x2757, 0x2757, 0x2763,
  0x2767, 0x2795, 0x2797, 0x27A1, 0x27A1, 0x27B0, 0x27B0, 0x27BF, 0x27BF, 0x2934, 0x2935, 0x2B05,
  0x2B07, 0x2B1B, 0x2B1C, 0x2B50, 0x2B50, 0x2B55, 0x2B55, 0x3030, 0x3030, 0x303D, 0x303D, 0x3297,
  0x3297, 0x3299, 0x3299, 0x1F000, 0x1F0FF, 0x1F10D, 0x1F10F, 0x1F12F, 0x1F12F, 0x1F16C, 0x1F171,
  0x1F17E, 0x1F17F, 0x1F18E, 0x1F18E, 0x1F191, 0x1F19A, 0x1F1AD, 0x1F1E5, 0x1F201, 0x1F20F,
  0x1F21A, 0x1F21A, 0x1F22F, 0x1F22F, 0x1F232, 0x1F23A, 0x1F23C, 0x1F23F, 0x1F249, 0x1F3FA,
  0x1F400, 0x1F53D, 0x1F546, 0x1F64F, 0x1F680, 0x1F6FF, 0x1F774, 0x1F77F, 0x1F7D5, 0x1F7FF,
  0x1F80C, 0x1F80F, 0x1F848, 0x1F84F, 0x1F85A, 0x1F85F, 0x1F888, 0x1F88F, 0x1F8AE, 0x1F8FF,
  0x1F90C, 0x1F93A, 0x1F93C, 0x1F945, 0x1F947, 0x1FAFF, 0x1FC00, 0x1FFFD]

/-- Consonants that a linking mark joins to the next one. -/
def linkedRanges : List Nat := [
  0x915, 0x939, 0x958, 0x95F, 0x978, 0x97F, 0x995, 0x9A8, 0x9AA, 0x9B0, 0x9B2, 0x9B2, 0x9B6, 0x9B9,
  0x9DC, 0x9DD, 0x9DF, 0x9DF, 0x9F0, 0x9F1, 0xA95, 0xAA8, 0xAAA, 0xAB0, 0xAB2, 0xAB3, 0xAB5, 0xAB9,
  0xAF9, 0xAF9, 0xB15, 0xB28, 0xB2A, 0xB30, 0xB32, 0xB33, 0xB35, 0xB39, 0xB5C, 0xB5D, 0xB5F, 0xB5F,
  0xB71, 0xB71, 0xC15, 0xC28, 0xC2A, 0xC39, 0xC58, 0xC5A, 0xD15, 0xD3A]

/-- The signs that tie consonants together. -/
def linkers : List Nat := [0x94D, 0x9CD, 0xACD, 0xB4D, 0xC4D, 0xD4D]

/-! ## Classes -/

/-- What a character does to the cluster before it. -/
inductive ClusterClass
  | other
  | control
  | extending
  | joiner
  | spacing
  | leading
  | picture
  | flag
  | hangulLead
  | hangulVowel
  | hangulTail
  | hangulOpen
  | hangulClosed
deriving DecidableEq

def clusterClass (c : Char) : ClusterClass :=
  let n := c.toNat
  if 0x20 ≤ n && n < 0x7f then .other
  else if n = 0x200d then .joiner
  else if inRanges n controlRanges then .control
  else if inRanges n joiningRanges || (0x1f3fb ≤ n && n ≤ 0x1f3ff) then .extending
  else if inRanges n spacingRanges then .spacing
  else if inRanges n leadingRanges then .leading
  else if 0x1f1e6 ≤ n && n ≤ 0x1f1ff then .flag
  else if (0x1100 ≤ n && n ≤ 0x115f) || (0xa960 ≤ n && n ≤ 0xa97c) then .hangulLead
  else if (0x1160 ≤ n && n ≤ 0x11a7) || (0xd7b0 ≤ n && n ≤ 0xd7c6) then .hangulVowel
  else if (0x11a8 ≤ n && n ≤ 0x11ff) || (0xd7cb ≤ n && n ≤ 0xd7fb) then .hangulTail
  else if 0xac00 ≤ n && n ≤ 0xd7a3 then
    if (n - 0xac00) % 28 = 0 then .hangulOpen else .hangulClosed
  else if inRanges n pictureRanges then .picture
  else .other

/-! ## Cutting -/

/-- What matters of the cluster so far. -/
structure ClusterState where
  last : Char
  cls : ClusterClass
  /-- An odd number of flag letters stands at the end. -/
  halfFlag : Bool
  /-- A picture stands there, followed by extending marks only. -/
  picture : Bool
  /-- A linked consonant stands there, followed by marks only. -/
  consonant : Bool
  /-- One of those marks is a linker. -/
  linked : Bool

def ClusterState.start (c : Char) : ClusterState :=
  let cls := clusterClass c
  ⟨c, cls, cls == .flag, cls == .picture, inRanges c.toNat linkedRanges, false⟩

def ClusterState.extend (s : ClusterState) (c : Char) : ClusterState :=
  let cls := clusterClass c
  let marks := cls == .extending || cls == .joiner
  let consonant := inRanges c.toNat linkedRanges
  ⟨c, cls, cls == .flag && !s.halfFlag, cls == .picture || (s.picture && marks),
    consonant || (s.consonant && marks),
    !consonant && s.consonant && marks && (s.linked || linkers.contains c.toNat)⟩

/-- Whether a character still belongs to the cluster. -/
def ClusterState.takes (s : ClusterState) (c : Char) : Bool :=
  let next := clusterClass c
  if s.last == '\r' && c == '\n' then true
  else if s.cls == .control || next == .control then false
  else if next == .extending || next == .joiner || next == .spacing then true
  else match s.cls, next with
    | .leading, _ => true
    | .hangulLead, .hangulLead | .hangulLead, .hangulVowel | .hangulLead, .hangulOpen
    | .hangulLead, .hangulClosed => true
    | .hangulOpen, .hangulVowel | .hangulOpen, .hangulTail => true
    | .hangulVowel, .hangulVowel | .hangulVowel, .hangulTail => true
    | .hangulClosed, .hangulTail | .hangulTail, .hangulTail => true
    | .joiner, .picture => s.picture
    | .flag, .flag => s.halfFlag
    | _, _ => s.linked && inRanges c.toNat linkedRanges

/-- The cluster that has begun, its characters in reverse, and those of the rest of the text. -/
def clustersFrom (begun : List Char) (s : ClusterState) : List Char → List (List Char)
  | [] => [begun.reverse]
  | c :: cs =>
    if s.takes c then clustersFrom (c :: begun) (s.extend c) cs
    else begun.reverse :: clustersFrom [c] (.start c) cs

/-- The clusters of a text, in which a reader sees one character each. -/
def clusters : List Char → List (List Char)
  | [] => []
  | c :: cs => clustersFrom [c] (.start c) cs

end PoolWatch.Text
