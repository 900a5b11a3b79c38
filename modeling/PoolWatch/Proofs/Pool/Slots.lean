import Mathlib.Tactic.IntervalCases
import PoolWatch.Proofs.Json.Gaps
import PoolWatch.Proofs.Json.Order
import PoolWatch.Proofs.Number.Numerals
import PoolWatch.Proofs.Pool.Edits
import PoolWatch.Proofs.Pool.RoundTrip

/-!
# Slot counts

A slot count is read alike from a number and from a text. What holds no count stands for none, and
whatever is kept in its place, the rest of the pool is what it was.
-/

namespace PoolWatch

namespace Text

/-! ## Blanks at the ends -/

theorem exists_trimChars (cs : List Char) : ∃ front back, cs = front ++ (trimChars cs ++ back) ∧
    (∀ c ∈ front, isBlank c = true) ∧ ∀ c ∈ back, isBlank c = true := by
  have hends : ∀ ds : List Char, ∀ c ∈ ds.takeWhile isBlank, isBlank c = true :=
    fun ds => List.all_eq_true.mp List.all_takeWhile
  generalize hbody : cs.dropWhile isBlank = body
  refine ⟨cs.takeWhile isBlank, (body.reverse.takeWhile isBlank).reverse, ?_, hends cs, ?_⟩
  · rw [trimChars, hbody, ← List.reverse_append, List.takeWhile_append_dropWhile,
      List.reverse_reverse, ← hbody, List.takeWhile_append_dropWhile]
  · intro c hc
    exact hends _ c (List.mem_reverse.mp hc)

theorem dropWhile_blanks {front body : List Char} (hfront : ∀ c ∈ front, isBlank c = true)
    (hbody : ∀ c ∈ body.head?, isBlank c = false) :
    (front ++ body).dropWhile isBlank = body := by
  rw [List.dropWhile_append_of_pos hfront]
  cases body with
  | nil => rfl
  | cons c body => rw [List.dropWhile_cons_of_neg (by simp [hbody c rfl])]

theorem trimChars_append {front body back : List Char} (hfront : ∀ c ∈ front, isBlank c = true)
    (hback : ∀ c ∈ back, isBlank c = true) (hne : body ≠ [])
    (hbody : ∀ c ∈ body, isBlank c = false) : trimChars (front ++ (body ++ back)) = body := by
  obtain ⟨c, cs, rfl⟩ := List.exists_cons_of_ne_nil hne
  have hahead : (front ++ (c :: cs ++ back)).dropWhile isBlank = c :: cs ++ back :=
    dropWhile_blanks hfront (by simp [hbody c List.mem_cons_self])
  have hbehind : (back.reverse ++ (c :: cs).reverse).dropWhile isBlank = (c :: cs).reverse := by
    refine dropWhile_blanks (fun d hd => hback d (List.mem_reverse.mp hd)) fun d hd => ?_
    exact hbody d (List.mem_reverse.mp (List.mem_of_mem_head? hd))
  rw [trimChars, hahead, List.reverse_append, hbehind, List.reverse_reverse]

end Text

theorem Text.isBlank_of_isDigit {c : Char} (h : c.isDigit = true) : isBlank c = false := by
  simp only [Char.isDigit, Bool.and_eq_true, decide_eq_true_eq, UInt32.le_iff_toNat_le] at h
  obtain ⟨hlow, hhigh⟩ : 48 ≤ c.toNat ∧ c.toNat ≤ 57 := h
  rw [← Char.ofNat_toNat c]
  interval_cases c.toNat <;> decide

theorem IsWhole.plain {cs : List Char} {n : Int} (h : IsWhole cs n) :
    cs ≠ [] ∧ ∀ c ∈ cs, Text.isBlank c = false := by
  obtain ⟨sign, digits, hsign, hdigits, rfl, -⟩ := h
  obtain ⟨hne, hall⟩ := (Integer.isDecimal_iff digits).mp hdigits
  refine ⟨by simp [hne], fun c hc => ?_⟩
  rcases List.mem_append.mp hc with hc | hc
  · rcases hsign with rfl | rfl | rfl
    · simp at hc
    all_goals
      obtain rfl := List.mem_singleton.mp hc
      decide
  · exact Text.isBlank_of_isDigit (hall c hc)

/-! ## What holds a count -/

open Json

/-- A tree holds a count: a whole number, one that is read as the binary64 number of its value, or a
text that says one between blanks. -/
inductive Counts : Tree → Int → Prop
  | whole {m : Numeral} {n : Int} : m.chars = Decimal.signedChars n → Counts (.number m) n
  | rounded {m : Numeral} {x : Binary64} {k : Nat} : m.number? = some (.real x) →
    x.units = k <<< 1074 → Counts (.number m) (x.signed k)
  | text {parts : List Part} {s : String} {front body back : List Char} {n : Int} :
    partsText? parts = some s → s.toList = front ++ (body ++ back) →
    (∀ c ∈ front, Text.isBlank c = true) → (∀ c ∈ back, Text.isBlank c = true) → IsWhole body n →
    Counts (.text parts) n

theorem Counts.kept {t : Tree} {n : Int64} (h : Counts t n.toInt) (depth : Nat) :
    ∃ v, kept? depth t = some v ∧ slotsOfJson v = n := by
  generalize hn : n.toInt = i at h
  cases h with
  | @whole m _ hchars =>
    subst hn
    have hsame : m.chars ++ [] = (Numeral.ofInt n.toInt).chars ++ [] := by
      rw [hchars, Numeral.ofInt_chars]
    have hends : NumberEnds [] := by simp [NumberEnds]
    obtain ⟨rfl, -⟩ := numeral_unique hsame hends hends
    have fits := Number.fits_toInt n
    exact ⟨.number (.whole n.toInt fits), kept?_whole depth n.toInt fits,
      slotsOfNumber_toInt n fits⟩
  | @rounded m x k hx hunits =>
    refine ⟨.number (.real x), (KeptAs.number hx).kept?_eq, ?_⟩
    have htruncated : x.truncated = k := by
      rw [Binary64.truncated, hunits, Nat.shiftLeft_shiftRight]
    rw [slotsOfJson, slotsOfNumber, htruncated, ← hn, Integer.clamp_toInt]
  | @text parts s front body back _ hs hsplit hfront hback hbody =>
    subst hn
    refine ⟨.text s, (KeptAs.text hs).kept?_eq, ?_⟩
    have htrim : Text.trimChars s.toList = body := by
      rw [hsplit]
      exact Text.trimChars_append hfront hback hbody.plain.1 hbody.plain.2
    rw [slotsOfJson, htrim, (Integer.int64OfChars?_eq_some body n).mpr hbody, Option.getD_some]

theorem slotsOfJson_eq_zero {depth : Nat} {t : Tree} {v : Json} (hv : kept? depth t = some v)
    (hnumber : ∀ m, t ≠ .number m) (h : ∀ n : Int64, ¬ Counts t n.toInt) : slotsOfJson v = 0 := by
  cases keptAs_of_eq hv with
  | null | bool | list | object => rfl
  | number => exact absurd rfl (hnumber _)
  | @text _ parts s hs =>
    rw [slotsOfJson]
    cases hread : Integer.int64OfChars? (Text.trimChars s.toList) with
    | none => rfl
    | some n =>
      obtain ⟨front, back, hsplit, hfront, hback⟩ := Text.exists_trimChars s.toList
      have hwhole := (Integer.int64OfChars?_eq_some _ n).mp hread
      exact absurd (.text hs hsplit hfront hback hwhole) (h n)

/-! ## In the place of a count -/

/-- The pool with another count for one cluster, and all else as it was. -/
def Pool.withSlots (index : Nat) (n : Int64) (p : Pool) : Pool :=
  ⟨p.clusters.modify index fun c => { c with vmSlots := n }⟩

theorem Pool.withSlots_eq {p : Pool} {index : Nat} {c : Cluster} (h : p.clusters[index]? = some c)
    (n : Int64) : p.withSlots index n = ⟨p.clusters.set index { c with vmSlots := n }⟩ := by
  rw [withSlots, Pool.mk.injEq]
  refine List.ext_getElem? fun i => ?_
  rw [List.getElem?_modify, List.getElem?_set]
  by_cases hi : index = i
  · subst hi
    obtain ⟨hlt, rfl⟩ := List.getElem?_eq_some_iff.mp h
    simp [hlt]
  · simp [hi]

namespace Decode

theorem cluster?_fill {depth : Nat} {gap : RecordGap "vm_slots" 2} {t u : Tree} {c : Cluster}
    {v : Json} (ht : cluster? depth (gap.fill t) = some c) (hu : kept? (depth + 2) u = some v) :
    cluster? depth (gap.fill u) = some { c with vmSlots := slotsOfJson v } := by
  have hslots : (clusterTaken depth)[2]? = some (scalar (depth + 2) "vm_slots" (·.vmSlots.isSome)
    fun s v => { s with vmSlots := some v }) := rfl
  obtain ⟨rest, hrest⟩ := (editable_clusterTaken depth).record?_fill gap hslots rfl {}
  rw [cluster?, hrest] at ht ⊢
  obtain ⟨state, hstate, rfl⟩ := Option.map_eq_some_iff.mp ht
  obtain ⟨htake, hcomplete⟩ := Option.filter_eq_some_iff.mp hstate
  obtain ⟨before, rfl, hkept⟩ := Option.bind_eq_some_iff.mp htake
  obtain ⟨w, -, rfl⟩ := Option.map_eq_some_iff.mp hkept
  have hsame : complete (clusterTaken depth) { before with vmSlots := some v } = true := hcomplete
  simp [scalar, KnownField.storing, hu, hsame, ClusterFields.toCluster]

theorem pool?_fill {depth : Nat} {pool : RecordGap "resources" 0} {clusters : ListGap} {t : Tree}
    {p : Pool} (h : pool? depth (pool.fill (clusters.fill t)) = some p) :
    ∃ c, cluster? depth t = some c ∧ p.clusters[clusters.index]? = some c ∧
      ∀ u c', cluster? depth u = some c' →
        pool? depth (pool.fill (clusters.fill u)) = some ⟨p.clusters.set clusters.index c'⟩ := by
  obtain ⟨rest, hrest⟩ := (editable_poolTaken depth).record?_fill pool rfl rfl {}
  rw [pool?, hrest] at h
  obtain ⟨state, hstate, rfl⟩ := Option.map_eq_some_iff.mp h
  obtain ⟨htake, -⟩ := Option.filter_eq_some_iff.mp hstate
  obtain ⟨before, rfl, hclusters⟩ := Option.bind_eq_some_iff.mp htake
  obtain ⟨cs, hcs, rfl⟩ := Option.map_eq_some_iff.mp hclusters
  obtain ⟨c, ht, hc, hothers⟩ := ListGap.sequence?_fill hcs
  refine ⟨c, ht, hc, fun u c' hu => ?_⟩
  rw [pool?, hrest]
  simp [poolTaken, KnownField.storing, hothers u c' hu, complete, PoolFields.toPool]

/-- A payload without the slot count of one cluster. -/
structure SlotGap where
  before : Blanks
  pool : RecordGap "resources" 0
  clusters : ListGap
  cluster : RecordGap "vm_slots" 2
  after : Blanks

namespace SlotGap

/-- Which cluster it is. -/
def index (gap : SlotGap) : Nat := gap.clusters.index

def fill (gap : SlotGap) (t : Tree) : Padded Tree :=
  ⟨gap.before, gap.pool.fill (gap.clusters.fill (gap.cluster.fill t)), gap.after⟩

def payload (gap : SlotGap) (t : Tree) : String := (gap.fill t).text

theorem payload_eq_ok {gap : SlotGap} {t : Tree} {p : Pool} :
    Pool.decode (gap.payload t) = .ok p ↔ pool? (depthLimit - 5) (gap.fill t).value = some p := by
  refine ⟨fun h => ?_, fun h => (decode_eq_ok _ _).mpr ⟨gap.fill t, rfl, h⟩⟩
  obtain ⟨d, htext, hd⟩ := (decode_eq_ok _ _).mp h
  rw [← pool?_unspaced, ← text_unique htext, pool?_unspaced, hd]

theorem decode_payload {gap : SlotGap} {t : Tree} {p : Pool}
    (h : Pool.decode (gap.payload t) = .ok p) : gap.index < p.clusters.length ∧
      ∀ u v, kept? (depthLimit - 3) u = some v →
        Pool.decode (gap.payload u) = .ok (p.withSlots gap.index (slotsOfJson v)) := by
  obtain ⟨c, hc, hindex, hothers⟩ := pool?_fill (payload_eq_ok.mp h)
  obtain ⟨hlt, -⟩ := List.getElem?_eq_some_iff.mp hindex
  refine ⟨hlt, fun u v hu => payload_eq_ok.mpr ?_⟩
  rw [index, Pool.withSlots_eq hindex]
  exact hothers _ _ (cluster?_fill hc hu)

/-- In a payload that is decoded with some value in the gap, a value that holds a count is decoded
to this count. Any other one that is kept and is no number is decoded to zero. -/
theorem counts_decoded {gap : SlotGap} {t : Tree} {p : Pool}
    (h : Pool.decode (gap.payload t) = .ok p) : gap.index < p.clusters.length ∧
      (∀ u (n : Int64), Counts u n.toInt →
        Pool.decode (gap.payload u) = .ok (p.withSlots gap.index n)) ∧
      ∀ u, Keepable (depthLimit - 3) u → (∀ m, u ≠ .number m) →
        (∀ n : Int64, ¬ Counts u n.toInt) →
          Pool.decode (gap.payload u) = .ok (p.withSlots gap.index 0) := by
  obtain ⟨hindex, hkept⟩ := decode_payload h
  refine ⟨hindex, fun u n hu => ?_, fun u hu hnumber hnone => ?_⟩
  · obtain ⟨v, hv, hslots⟩ := hu.kept (depthLimit - 3)
    rw [hkept u v hv, hslots]
  · obtain ⟨v, hv⟩ := Option.isSome_iff_exists.mp ((keepable_iff u _).mpr hu)
    rw [hkept u v hv, slotsOfJson_eq_zero hv hnumber hnone]

/-- A pool of one cluster without virtual machines. -/
def oneCluster : SlotGap where
  before := .none
  pool := .object .none [] ⟨.none, written "resources", .none, ⟨.none, (), .none⟩⟩ []
    (partsText?_written "resources")
  clusters := ⟨.none, [], ⟨.none, (), .none⟩, []⟩
  cluster := .object .none [] ⟨.none, written "vm_slots", .none, ⟨.none, (), .none⟩⟩
    [writtenMember "vms" (.list .none [])] (partsText?_written "vm_slots")
  after := .none

/-- The least word as a number, a text with a sign, zeros and blanks, and a list. -/
theorem oneCluster_counts_decoded :
    let least : Tree := .number (.ofInt Int64.minValue.toInt)
    let padded : Tree := .text (written "\u00a0+007\n")
    let nested : Tree := .list .none [bare (.list .none [])]
    let p : Pool := ⟨[⟨"", "", 0, []⟩]⟩
    Pool.decode (oneCluster.payload .null) = .ok p ∧
      Counts least Int64.minValue.toInt ∧
      Pool.decode (oneCluster.payload least) = .ok ⟨[⟨"", "", Int64.minValue, []⟩]⟩ ∧
      Counts padded (7 : Int64).toInt ∧
      Pool.decode (oneCluster.payload padded) = .ok ⟨[⟨"", "", 7, []⟩]⟩ ∧
      Keepable (depthLimit - 3) nested ∧ (∀ m, nested ≠ .number m) ∧
      (∀ n : Int64, ¬ Counts nested n.toInt) ∧
      Pool.decode (oneCluster.payload nested) = .ok p := by
  intro least padded nested p
  have hnull : Pool.decode (oneCluster.payload .null) = .ok p := payload_eq_ok.mpr rfl
  have hleast : Counts least Int64.minValue.toInt := .whole (Numeral.ofInt_chars _)
  have hwhole : IsWhole ['+', '0', '0', '7'] (7 : Int64).toInt :=
    ⟨['+'], ['0', '0', '7'], .inr (.inl rfl), by decide, rfl, by decide⟩
  have hfront : ∀ c ∈ ['\u00a0'], Text.isBlank c = true := List.forall_mem_singleton.mpr rfl
  have hback : ∀ c ∈ ['\n'], Text.isBlank c = true := List.forall_mem_singleton.mpr rfl
  have hpadded : Counts padded (7 : Int64).toInt :=
    .text (partsText?_written _) rfl hfront hback hwhole
  have hkeepable : Keepable (depthLimit - 3) nested :=
    (keepable_iff nested _).mp rfl
  have hnumber : ∀ m, nested ≠ .number m := by simp [nested]
  have hnone : ∀ n : Int64, ¬ Counts nested n.toInt := by
    intro n hn
    change Counts (.list .none [bare (.list .none [])]) n.toInt at hn
    generalize n.toInt = i at hn
    cases hn
  obtain ⟨-, hcounts, hothers⟩ := counts_decoded hnull
  exact ⟨hnull, hleast, hcounts least _ hleast, hpadded, hcounts padded _ hpadded, hkeepable,
    hnumber, hnone, hothers nested hkeepable hnumber hnone⟩

/-- A string with a lone surrogate holds no count, but it is not decoded to zero: nothing is decoded
where it stands. -/
theorem unpaired_count_undecoded :
    let lone : Tree := .text [.word ⟨'d', '8', '0', '0', by decide⟩]
    oneCluster.payload lone =
        "\x7b\"resources\":[\x7b\"vm_slots\":\"\\ud800\",\"vms\":[]\x7d]\x7d" ∧
      Pool.decode (oneCluster.payload .null) = .ok ⟨[⟨"", "", 0, []⟩]⟩ ∧
      (∀ n : Int64, ¬ Counts lone n.toInt) ∧
        ∀ p, Pool.decode (oneCluster.payload lone) ≠ .ok p := by
  intro lone
  refine ⟨by decide, payload_eq_ok.mpr rfl, fun n hn => ?_, fun p hp => ?_⟩
  · obtain ⟨v, hv, -⟩ := hn.kept 0
    exact Option.some_ne_none v hv.symm
  · have hnone : pool? (depthLimit - 5) (oneCluster.fill lone).value = none := rfl
    rw [payload_eq_ok, hnone] at hp
    exact Option.some_ne_none p hp.symm

end SlotGap

end Decode

end PoolWatch
