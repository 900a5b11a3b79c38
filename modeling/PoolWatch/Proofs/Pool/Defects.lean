import PoolWatch.Proofs.Json.RecordBeginnings
import PoolWatch.Proofs.Json.Written
import PoolWatch.Proofs.Pool.Language

/-!
# What is wrong with a text that is no pool

The first defect in reading order decides. A text is told to describe no pool exactly if a beginning
of it, well-formed as far as it goes, reveals a misfit. Any other text that is not decoded is told
to be malformed, and it is, unless it passes a limit of the decoder.
-/

namespace PoolWatch.Decode

open Json

/-! ## The records of a pool -/

def VmReveals (depth : Nat) : Reveals :=
  RecordReveals (.record "Vm" 5) (vmTaken depth) {} fun _ => .never

def WithinVm (depth : Nat) : Tree → Prop :=
  WithinRecord ["name", "memory", "cpucores", "vmtype", "status"] fun _ => Keepable depth

def ClusterReveals (depth : Nat) : Reveals :=
  RecordReveals (.record "Resource" 4) (clusterTaken depth) {} fun name =>
    if name = "vms" then SequenceReveals (vm? depth) (VmReveals depth) else .never

def WithinCluster (depth : Nat) : Tree → Prop :=
  WithinRecord ["name", "cloud_type", "vm_slots", "vms"] fun name =>
    if name = "vms" then WithinSequence (WithinVm depth) else Keepable (depth + 2)

/-- What reveals that a text is no pool. The values of the other fields have no shape to miss. -/
def PoolReveals (depth : Nat) : Reveals :=
  RecordReveals (.record "ResourcePool" 1) (poolTaken depth) {} fun _ =>
    SequenceReveals (cluster? depth) (ClusterReveals depth)

/-- What is kept is nested no deeper than the decoder goes, and its numbers and texts are sound. -/
def WithinPool (depth : Nat) : Tree → Prop :=
  WithinRecord ["resources"] fun _ => WithinSequence (WithinCluster depth)

theorem sorts_vm (depth : Nat) :
    Sorts (readVm (depth + 1)) (vm? depth) (VmReveals depth) (WithinVm depth) := by
  have hfields : FieldsSort (vmTaken depth) (fun _ => .never) fun _ => Keepable depth := by
    intro f hf state
    simp only [vmTaken, List.mem_cons, List.not_mem_nil, or_false] at hf
    rcases hf with rfl | rfl | rfl | rfl | rfl <;> exact (sorts_kept depth).map _
  exact (sorts_record hfields).map VmFields.toVm

theorem sorts_cluster (depth : Nat) :
    Sorts (readCluster (depth + 3)) (cluster? depth) (ClusterReveals depth)
      (WithinCluster depth) := by
  have hfields : FieldsSort (clusterTaken depth)
      (fun name => if name = "vms" then SequenceReveals (vm? depth) (VmReveals depth) else .never)
      fun name =>
        if name = "vms" then WithinSequence (WithinVm depth) else Keepable (depth + 2) := by
    intro f hf state
    simp only [clusterTaken, List.mem_cons, List.not_mem_nil, or_false] at hf
    rcases hf with rfl | rfl | rfl | rfl
    · exact (sorts_kept (depth + 2)).map _
    · exact (sorts_kept (depth + 2)).map _
    · exact (sorts_kept (depth + 2)).map _
    · exact (sorts_sequence (sorts_vm depth)).map _
  exact (sorts_record hfields).map ClusterFields.toCluster

theorem sorts_pool (depth : Nat) :
    Sorts (readPool (depth + 5)) (pool? depth) (PoolReveals depth) (WithinPool depth) := by
  have hfields : FieldsSort (poolTaken depth)
      (fun _ => SequenceReveals (cluster? depth) (ClusterReveals depth))
      fun _ => WithinSequence (WithinCluster depth) := by
    intro f hf state
    obtain rfl := List.mem_singleton.mp hf
    exact (sorts_sequence (sorts_cluster depth)).map _
  exact (sorts_record hfields).map PoolFields.toPool

/-! ## Texts -/

/-- The text begins, perhaps behind blanks, with characters that reveal a misfit. -/
def Betrays (text : List Char) (m : Misfit) : Prop :=
  ∃ (ahead : Blanks) (u rest : List Char), text = ahead.chars ++ (u ++ rest) ∧
    PoolReveals (depthLimit - 5) u rest m

theorem endText_misfits {α : Type} {result : Except Failure (α × List Char)} {m : Misfit} :
    Misfits (endText result) m ↔ Misfits result m := by
  cases result with
  | error f => simp [endText, misfits_error]
  | ok p =>
    obtain ⟨v, rest⟩ := p
    refine iff_of_false ?_ not_misfits_ok
    unfold endText
    dsimp only
    split
    · exact not_misfits_ok
    · simp [failPeek, misfits_error]

theorem ofFailure_eq_notPool (text : String) (f : Failure) (m : Misfit) :
    (∃ p, DecodeError.ofFailure text f = .notPool m p) ↔ f.fault = .misfit m := by
  unfold DecodeError.ofFailure
  split
  next m' hm => simp [hm]
  next hm => simpa using fun h => hm m h

theorem notPool_iff (text : String) (m : Misfit) :
    (∃ p, Pool.decode text = .error (.notPool m p)) ↔
      Misfits (readPool depthLimit text.toList) m := by
  rw [← endText_misfits]
  change (∃ p, decodeWith readPool text = _) ↔ Misfits (readAll (readPool depthLimit) text) m
  unfold decodeWith
  cases readAll (readPool depthLimit) text with
  | ok pool => simp [not_misfits_ok]
  | error f =>
    rw [misfits_error, ← ofFailure_eq_notPool text]
    simp

/-- What a text is told to be that is not decoded. -/
structure Classified (text : String) : Prop where
  /-- A misfit is told exactly if a beginning reveals it. -/
  notPool : ∀ m, (∃ p, Pool.decode text = .error (.notPool m p)) ↔ Betrays text.toList m
  /-- Malformed is what else is said of a text that is not decoded. -/
  notJson : (∃ fault p, Pool.decode text = .error (.notJson fault p)) ↔
    (∀ m, ¬ Betrays text.toList m) ∧
      ¬ ∃ d : Padded Tree, d.text = text ∧ IsPool (depthLimit - 5) d.value
  /-- What reveals a misfit is a beginning of some well-formed text, and reveals it there too. -/
  wellFormed : ∀ (ahead : Blanks) (u rest : List Char) (m : Misfit),
    text.toList = ahead.chars ++ (u ++ rest) → PoolReveals (depthLimit - 5) u rest m →
    ∃ (d : Padded Tree) (rest' : List Char), d.text.toList = ahead.chars ++ (u ++ rest') ∧
      PoolReveals (depthLimit - 5) u rest' m
  /-- A well-formed text is told to be malformed only past a limit. -/
  within : ∀ d : Padded Tree, d.text = text → WithinPool (depthLimit - 5) d.value →
    ∀ fault p, Pool.decode text ≠ .error (.notJson fault p)

theorem sorts_depthLimit : Sorts (readPool depthLimit) (pool? (depthLimit - 5))
    (PoolReveals (depthLimit - 5)) (WithinPool (depthLimit - 5)) := sorts_pool (depthLimit - 5)

theorem betrays_iff (text : String) (m : Misfit) :
    (∃ p, Pool.decode text = .error (.notPool m p)) ↔ Betrays text.toList m := by
  rw [notPool_iff]
  constructor
  · exact sorts_depthLimit.revealed
  · rintro ⟨ahead, u, rest, htext, hu⟩
    rw [htext]
    exact sorts_depthLimit.refused ahead hu

theorem within_betrays {d : Padded Tree} (hwithin : WithinPool (depthLimit - 5) d.value)
    (hnone : pool? (depthLimit - 5) d.value = none) : ∃ m, Betrays d.text.toList m := by
  obtain ⟨u, m, -, v, hchars, hu⟩ := sorts_depthLimit.decided hwithin hnone
  refine ⟨m, d.before, u, v ++ d.after.chars, ?_, hu _ ?_⟩
  · rw [Padded.text, String.toList_ofList, hchars, List.append_assoc]
  · exact d.after.numberEnds

theorem classified (text : String) : Classified text where
  notPool := betrays_iff text
  notJson := by
    rw [← decodes_iff]
    simp only [← betrays_iff]
    cases Pool.decode text with
    | ok pool => simp
    | error e => cases e <;> simp
  wellFormed := by
    intro ahead u rest m _ hu
    obtain ⟨t, -, v, hchars, hv⟩ := sorts_depthLimit.begun hu
    refine ⟨⟨ahead, t, .none⟩, v ++ [], ?_, hv [] (by simp [NumberEnds])⟩
    simp [Padded.text, hchars, Blanks.none]
  within := by
    rintro d rfl hwithin fault p herror
    have hnone : pool? (depthLimit - 5) d.value = none := by
      rw [Option.eq_none_iff_forall_ne_some]
      intro pool hpool
      have hok := (decode_eq_ok d.text pool).mpr ⟨d, rfl, hpool⟩
      simp [hok] at herror
    obtain ⟨m, hm⟩ := within_betrays hwithin hnone
    obtain ⟨q, hq⟩ := (betrays_iff d.text m).mpr hm
    simp [hq] at herror

/-- A text without an end is told to describe no pool, and a well-formed one to be malformed. -/
theorem defects_misjudged :
    ((∃ m p, Pool.decode "[0" = .error (.notPool m p)) ∧ ¬ ∃ d : Padded Tree, d.text = "[0") ∧
      (∃ fault p, Pool.decode "[[],0]" = .error (.notJson fault p)) ∧
        ∃ d : Padded Tree, d.text = "[[],0]" := by
  refine ⟨⟨⟨_, _, rfl⟩, ?_⟩, ⟨_, _, rfl⟩, ?_⟩
  · rintro ⟨d, htext⟩
    have hskip := skipValue_text d
    have hopen : skipValue "[0".toList = failPeek .endInList [] := rfl
    rw [htext, hopen] at hskip
    cases hskip
  · exact ⟨bare (.list .none [bare (.list .none []), bare (.number (.ofInt 0))]), by decide +kernel⟩

end PoolWatch.Decode
