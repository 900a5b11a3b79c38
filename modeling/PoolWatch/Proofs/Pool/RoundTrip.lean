import PoolWatch.Pool.Encode
import PoolWatch.Proofs.Envelope
import PoolWatch.Proofs.Json.Written
import PoolWatch.Proofs.Pool.Language

/-!
# An encoded pool comes back

A pool whose shown numbers are whole is found in a response that carries it, and decoded as it was.
-/

namespace PoolWatch

open Json

def Shown.Whole : Shown → Prop
  | number (.real _) => False
  | _ => True

def Vm.Whole (vm : Vm) : Prop := vm.memory.Whole ∧ vm.cpucores.Whole

def Cluster.Whole (c : Cluster) : Prop := ∀ vm ∈ c.vms, vm.Whole

/-- All numbers that are shown are whole. -/
def Pool.Whole (p : Pool) : Prop := ∀ c ∈ p.clusters, c.Whole

/-! ## Scalars -/

theorem Shown.ofJson_toJson (s : Shown) : Shown.ofJson s.toJson = s := by
  cases s <;> rfl

theorem Shown.kept_tree {s : Shown} (h : s.Whole) (depth : Nat) :
    kept? depth s.toJson.tree = some s.toJson :=
  match s, h with
  | number (.whole n fits), _ => kept?_whole depth n fits
  | text t, _ => kept?_text depth t

theorem Integer.clamp_toInt (n : Int64) : Integer.clamp n.toInt = n := by
  have h₁ := n.le_toInt
  have h₂ := n.toInt_lt
  have hclamp : max (-((1 <<< 63 : Nat) : Int)) (min n.toInt ((1 <<< 63 : Nat) - 1)) = n.toInt := by
    omega
  rw [Integer.clamp, hclamp, Int64.ofInt_toInt]

theorem slotsOfNumber_toInt (n : Int64) (fits : Number.Fits n.toInt) :
    slotsOfNumber (.whole n.toInt fits) = n := Integer.clamp_toInt n

namespace Decode

/-! ## Records -/

theorem vm?_tree {vm : Vm} (h : vm.Whole) (depth : Nat) : vm? depth vm.toJson.tree = some vm := by
  have hmemory := Shown.kept_tree h.1 depth
  have hcores := Shown.kept_tree h.2 depth
  rw [vm?, Vm.toJson, tree, record?]
  simp [memberTrees, takeMembers?, writtenMember, bare, partsText?_written, vmTaken, scalar,
    KnownField.storing, kept?_text, hmemory, hcores, complete, VmFields.toVm, labelOfJson,
    Shown.ofJson_toJson]

theorem cluster?_tree {c : Cluster} (h : c.Whole) (depth : Nat) :
    cluster? depth c.toJson.tree = some c := by
  have hvms : sequence? (vm? depth) (Json.list (c.vms.map Vm.toJson)).tree = some c.vms :=
    sequence?_tree fun vm hvm => vm?_tree (h vm hvm) depth
  rw [cluster?, Cluster.toJson, tree, record?]
  simp [memberTrees, takeMembers?, writtenMember, bare, partsText?_written, clusterTaken, scalar,
    KnownField.storing, kept?_text, kept?_whole, hvms, complete, ClusterFields.toCluster,
    labelOfJson, slotsOfJson, slotsOfNumber_toInt]

theorem pool?_tree {p : Pool} (h : p.Whole) (depth : Nat) :
    pool? depth p.toJson.tree = some p := by
  have hclusters : sequence? (cluster? depth) (Json.list (p.clusters.map Cluster.toJson)).tree =
      some p.clusters := sequence?_tree fun c hc => cluster?_tree (h c hc) depth
  rw [pool?, Pool.toJson, tree, record?]
  simp [memberTrees, takeMembers?, writtenMember, bare, partsText?_written, poolTaken,
    KnownField.storing, hclusters, complete, PoolFields.toPool]

end Decode

/-! ## The whole text -/

theorem Shown.whole_toJson {s : Shown} (h : s.Whole) : s.toJson.Whole :=
  match s, h with
  | number (.whole _ _), _ => trivial
  | text _, _ => trivial

theorem Vm.whole_toJson {vm : Vm} (h : vm.Whole) : vm.toJson.Whole :=
  ⟨trivial, Shown.whole_toJson h.1, Shown.whole_toJson h.2, trivial, trivial, trivial⟩

theorem Cluster.whole_toJson {c : Cluster} (h : c.Whole) : c.toJson.Whole := by
  refine ⟨trivial, trivial, trivial, itemsWhole_iff.mpr (List.forall_mem_map.mpr ?_), trivial⟩
  exact fun vm hvm => Vm.whole_toJson (h vm hvm)

theorem Pool.whole_toJson {p : Pool} (h : p.Whole) : p.toJson.Whole := by
  refine ⟨itemsWhole_iff.mpr (List.forall_mem_map.mpr ?_), trivial⟩
  exact fun c hc => Cluster.whole_toJson (h c hc)

theorem Pool.decode_encode {p : Pool} (h : p.Whole) : Pool.decode p.encode = .ok p := by
  rw [Decode.decode_eq_ok]
  refine ⟨bare p.toJson.tree, ?_, Decode.pool?_tree h _⟩
  simp [Padded.text, bare, Blanks.none, tree_chars _ (Pool.whole_toJson h), Pool.encode, compact]

theorem Pool.encode_braces (p : Pool) : ∃ inner, p.encode.toList = '{' :: (inner ++ ['}']) :=
  ⟨_, by rw [Pool.encode, compact, String.toList_ofList, Pool.toJson, chars, objectChars]⟩

/-- Whatever stands around an encoded pool, if it has no opening brace before and no closing one
behind, exactly the encoded pool is found, and it is decoded to the pool it was. -/
theorem Pool.found_and_decoded {p : Pool} (h : p.Whole) {pre post : String}
    (hpre : '{' ∉ pre.toList) (hpost : '}' ∉ post.toList) :
    Envelope.payload? (pre ++ p.encode ++ post) = some p.encode ∧
      Pool.decode p.encode = .ok p := by
  obtain ⟨inner, hinner⟩ := p.encode_braces
  exact ⟨Envelope.payload?_append hpre hpost hinner, decode_encode h⟩

/-- Braces, quotes and control characters in names, and a number at the limit of its word. -/
def awkwardPool : Pool :=
  ⟨[⟨"\x7d\x7b\"\\", "", -9223372036854775808,
    [⟨"\x00\n", .number (.whole 18446744073709551615 (by decide)), .text "7", "\x7b", ""⟩]⟩]⟩

theorem awkwardPool_found_and_decoded : awkwardPool.Whole ∧
    '{' ∉ "<string>\x7d".toList ∧ '}' ∉ "\x7b</string>".toList ∧
    Envelope.payload? ("<string>\x7d" ++ awkwardPool.encode ++ "\x7b</string>") =
      some awkwardPool.encode ∧ Pool.decode awkwardPool.encode = .ok awkwardPool := by
  have hwhole : awkwardPool.Whole := by
    simp [awkwardPool, Pool.Whole, Cluster.Whole, Vm.Whole, Shown.Whole]
  have hpre : '{' ∉ "<string>\x7d".toList := by decide
  have hpost : '}' ∉ "\x7b</string>".toList := by decide
  exact ⟨hwhole, hpre, hpost, Pool.found_and_decoded hwhole hpre hpost⟩

end PoolWatch
