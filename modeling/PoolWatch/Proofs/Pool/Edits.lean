import Mathlib.Logic.Relation
import PoolWatch.Proofs.Json.Edits
import PoolWatch.Proofs.Json.Uniqueness
import PoolWatch.Proofs.Json.Written
import PoolWatch.Proofs.Pool.Language

/-!
# What decoding ignores

A payload may be spaced otherwise, and edited in any of its records where no record looks. It is
still decoded, and to the same pool.
-/

namespace PoolWatch.Decode

open Json

/-! ## Edits of each record -/

def VmEdit : Tree → Tree → Prop := Edit ["name", "memory", "cpucores", "vmtype", "status"] none

def ClusterEdit : Tree → Tree → Prop :=
  Edit ["name", "cloud_type", "vm_slots"] (some ⟨"vms", VmEdit⟩)

def PoolEdit : Tree → Tree → Prop := Edit [] (some ⟨"resources", ClusterEdit⟩)

/-- One rewriting of a whole payload. -/
inductive Rewriting : Padded Tree → Padded Tree → Prop
  | spacing {d e : Padded Tree} : d.value.unspaced = e.value.unspaced → Rewriting d e
  | edit {d e : Padded Tree} : PoolEdit d.value e.value → Rewriting d e

variable {σ α β : Type}

/-- Fields that keep what they read in different places. -/
theorem storing_exchangeable {name name' : String} {required required' : Bool}
    {given given' : σ → Bool} {store : σ → α → σ} {store' : σ → β → σ} {reader : Reader α}
    {reader' : Reader β}
    {meaning : Tree → Option α} {meaning' : Tree → Option β} {allows allows' : Tree → Prop}
    {reads : Reads reader meaning} {reads' : Reads reader' meaning'}
    {takes : ∀ t, (meaning t).isSome = true ↔ allows t}
    {takes' : ∀ t, (meaning' t).isSome = true ↔ allows' t}
    (h : ∀ state v w, store' (store state v) w = store (store' state w) v) :
    Exchangeable (.storing name required given store reads takes)
      (.storing name' required' given' store' reads' takes') := by
  intro state t u
  simp only [KnownField.storing]
  cases meaning t <;> cases meaning' u <;> simp [h]

theorem scalar_null {depth : Nat} {name : String} {given : σ → Bool} {store : σ → Json → σ}
    {finish : σ → α} (h : ∀ state, given state = false → finish (store state .null) = finish state)
    (state : σ) (hgiven : (scalar depth name given store).given state = false) :
    ∃ state', (scalar depth name given store).take state .null = some state' ∧
      finish state' = finish state := by
  have hkept : kept? depth .null = some .null := by cases depth <;> rfl
  exact ⟨store state .null, by simp [scalar, KnownField.storing, hkept], h state hgiven⟩

theorem storing_inside {name : String} {required : Bool} {given : σ → Bool}
    {store : σ → List α → σ} {reader : Reader (List α)} {inner? : Tree → Option α}
    {allows : Tree → Prop} {reads : Reads reader (sequence? inner?)}
    {takes : ∀ t, (sequence? inner? t).isSome = true ↔ allows t} {edit : Tree → Tree → Prop}
    (h : ∀ t u v, edit t u → inner? t = some v → inner? u = some v) {t u : Tree}
    (hedit : ListEdit edit t u) {state state' : σ}
    (ht : (KnownField.storing name required given store reads takes).take state t = some state') :
    (KnownField.storing name required given store reads takes).take state u = some state' := by
  obtain ⟨vs, hvs, rfl⟩ := Option.map_eq_some_iff.mp ht
  exact Option.map_eq_some_iff.mpr ⟨vs, sequence?_edit h hedit hvs, rfl⟩

/-! ## Virtual machines -/

theorem unspaced_vmTaken (depth : Nat) : Unspaced (vmTaken depth) := by
  simp [Unspaced, vmTaken, scalar, KnownField.storing, kept?_unspaced]

theorem vm?_unspaced (depth : Nat) (t : Tree) : vm? depth t.unspaced = vm? depth t := by
  rw [vm?, vm?, record?_unspaced (unspaced_vmTaken depth)]

theorem editable_vmTaken (depth : Nat) : Editable (vmTaken depth) VmFields.toVm
    ["name", "memory", "cpucores", "vmtype", "status"] none where
  toLawful := lawful_vmTaken depth
  names := rfl
  exchangeable := by
    simp only [vmTaken, List.pairwise_cons, List.forall_mem_cons, List.not_mem_nil,
      IsEmpty.forall_iff, implies_true, List.Pairwise.nil, and_true]
    refine ⟨⟨?_, ?_, ?_, ?_⟩, ⟨?_, ?_, ?_⟩, ⟨?_, ?_⟩, ?_⟩ <;>
      exact storing_exchangeable fun _ _ _ => rfl
  null := by
    simp only [vmTaken, List.forall_mem_cons, List.not_mem_nil, IsEmpty.forall_iff, implies_true,
      and_true]
    refine ⟨?_, ?_, ?_, ?_, ?_⟩ <;> intro _ <;> refine scalar_null fun state hgiven => ?_ <;>
      simp_all [VmFields.toVm]
  inside := by simp

theorem vm?_edit (depth : Nat) (t u : Tree) (vm : Vm) (hedit : VmEdit t u)
    (ht : vm? depth t = some vm) : vm? depth u = some vm := by
  obtain ⟨state, hstate, rfl⟩ := Option.map_eq_some_iff.mp ht
  obtain ⟨state', hstate', hfinish⟩ := (editable_vmTaken depth).record?_edit
    (by simp [vmTaken, scalar, KnownField.storing]) hedit hstate
  rw [vm?, hstate', Option.map_some, hfinish]

/-! ## Clusters -/

theorem unspaced_clusterTaken (depth : Nat) : Unspaced (clusterTaken depth) := by
  simp [Unspaced, clusterTaken, scalar, KnownField.storing, kept?_unspaced,
    sequence?_unspaced (vm?_unspaced depth)]

theorem cluster?_unspaced (depth : Nat) (t : Tree) :
    cluster? depth t.unspaced = cluster? depth t := by
  rw [cluster?, cluster?, record?_unspaced (unspaced_clusterTaken depth)]

theorem editable_clusterTaken (depth : Nat) : Editable (clusterTaken depth)
    ClusterFields.toCluster ["name", "cloud_type", "vm_slots"] (some ⟨"vms", VmEdit⟩) where
  toLawful := lawful_clusterTaken depth
  names := rfl
  exchangeable := by
    simp only [clusterTaken, List.pairwise_cons, List.forall_mem_cons, List.not_mem_nil,
      IsEmpty.forall_iff, implies_true, List.Pairwise.nil, and_true]
    refine ⟨⟨?_, ?_, ?_⟩, ⟨?_, ?_⟩, ?_⟩ <;> exact storing_exchangeable fun _ _ _ => rfl
  null := by
    simp only [clusterTaken, List.forall_mem_cons, List.not_mem_nil, IsEmpty.forall_iff,
      implies_true, and_true]
    refine ⟨?_, ?_, ?_, by simp [KnownField.storing]⟩ <;> intro _ <;>
      refine scalar_null fun state hgiven => ?_ <;> simp_all [ClusterFields.toCluster]
  inside := by
    intro i hi f hf hname t u hlist state state' htake
    obtain rfl := Option.mem_some_iff.mp hi
    simp only [clusterTaken, List.mem_cons, List.not_mem_nil, or_false] at hf
    rcases hf with rfl | rfl | rfl | rfl
    · simp [scalar, KnownField.storing] at hname
    · simp [scalar, KnownField.storing] at hname
    · simp [scalar, KnownField.storing] at hname
    · exact storing_inside (vm?_edit depth) hlist htake

theorem cluster?_edit (depth : Nat) (t u : Tree) (c : Cluster) (hedit : ClusterEdit t u)
    (ht : cluster? depth t = some c) : cluster? depth u = some c := by
  obtain ⟨state, hstate, rfl⟩ := Option.map_eq_some_iff.mp ht
  obtain ⟨state', hstate', hfinish⟩ := (editable_clusterTaken depth).record?_edit
    (by simp [clusterTaken, scalar, KnownField.storing]) hedit hstate
  rw [cluster?, hstate', Option.map_some, hfinish]

/-! ## Pools -/

theorem unspaced_poolTaken (depth : Nat) : Unspaced (poolTaken depth) := by
  simp [Unspaced, poolTaken, KnownField.storing, sequence?_unspaced (cluster?_unspaced depth)]

theorem pool?_unspaced (depth : Nat) (t : Tree) : pool? depth t.unspaced = pool? depth t := by
  rw [pool?, pool?, record?_unspaced (unspaced_poolTaken depth)]

theorem editable_poolTaken (depth : Nat) : Editable (poolTaken depth) PoolFields.toPool []
    (some ⟨"resources", ClusterEdit⟩) where
  toLawful := lawful_poolTaken depth
  names := rfl
  exchangeable := List.pairwise_singleton _ _
  null := by simp
  inside := by
    intro i hi f hf hname t u hlist state state' htake
    obtain rfl := Option.mem_some_iff.mp hi
    obtain rfl := List.mem_singleton.mp hf
    exact storing_inside (cluster?_edit depth) hlist htake

theorem pool?_edit (depth : Nat) (t u : Tree) (p : Pool) (hedit : PoolEdit t u)
    (ht : pool? depth t = some p) : pool? depth u = some p := by
  obtain ⟨state, hstate, rfl⟩ := Option.map_eq_some_iff.mp ht
  obtain ⟨state', hstate', hfinish⟩ := (editable_poolTaken depth).record?_edit
    (by simp [poolTaken, KnownField.storing]) hedit hstate
  rw [pool?, hstate', Option.map_some, hfinish]

/-! ## Payloads -/

theorem pool?_rewriting (depth : Nat) {d e : Padded Tree} (h : Rewriting d e) {p : Pool}
    (hd : pool? depth d.value = some p) : pool? depth e.value = some p := by
  cases h with
  | spacing hspacing => rw [← pool?_unspaced, ← hspacing, pool?_unspaced, hd]
  | edit hedit => exact pool?_edit depth _ _ p hedit hd

/-- A payload that is decoded may be rewritten any number of times. -/
theorem decode_rewritten {payload : String} {p : Pool} (h : Pool.decode payload = .ok p) :
    (∃ d : Padded Tree, d.text = payload) ∧
      ∀ d e : Padded Tree, d.text = payload → Relation.ReflTransGen Rewriting d e →
        Pool.decode e.text = .ok p := by
  obtain ⟨d', htext, hd'⟩ := (decode_eq_ok payload p).mp h
  refine ⟨⟨d', htext⟩, fun d e hd hrewritten => ?_⟩
  refine (decode_eq_ok e.text p).mpr ⟨e, rfl, ?_⟩
  induction hrewritten with
  | refl =>
    have hsame : d'.value.unspaced = d.value.unspaced := text_unique (htext.trans hd.symm)
    rw [← pool?_unspaced, ← hsame, pool?_unspaced, hd']
  | tail _ hstep ih => exact pool?_rewriting _ hstep ih

/-- A pool of one cluster with one virtual machine. -/
def oneMachine (members : List (Member Tree)) : Padded Tree :=
  bare (.object .none [writtenMember "resources" (.list .none
    [bare (.object .none [writtenMember "vms" (.list .none [bare (.object .none members)])])])])

theorem oneMachine_edit {members members' : List (Member Tree)}
    (h : VmEdit (.object .none members) (.object .none members')) :
    Rewriting (oneMachine members) (oneMachine members') := by
  have hcluster : ClusterEdit
      (.object .none [writtenMember "vms" (.list .none [bare (.object .none members)])])
      (.object .none [writtenMember "vms" (.list .none [bare (.object .none members')])]) :=
    @Edit.inside _ _ _ [] [] _ _ _ rfl (partsText?_written "vms") rfl
      (@ListEdit.item _ _ [] [] _ _ h)
  exact .edit (@Edit.inside _ _ _ [] [] _ _ _ rfl (partsText?_written "resources") rfl
    (@ListEdit.item _ _ [] [] _ _ hcluster))

/-- A nested list under an unknown name goes ahead of the known one, the memory is given as null,
and a line is broken. -/
theorem oneMachine_rewritten :
    let name := writtenMember "name" (.text (written "a"))
    let deep := writtenMember "x" (.list .none [bare (.list .none [])])
    let memory := writtenMember "memory" .null
    let p : Pool := ⟨[⟨"", "", 0, [⟨"a", .text "", .text "", "", ""⟩]⟩]⟩
    let spaced : Padded Tree :=
      ⟨⟨['\n'], by simp [isJsonBlank]⟩, (oneMachine [memory, deep, name]).value, .none⟩
    Pool.decode (oneMachine [name]).text = .ok p ∧
      Relation.ReflTransGen Rewriting (oneMachine [name]) spaced ∧
        Pool.decode spaced.text = .ok p := by
  intro name deep memory p spaced
  have hdecode : Pool.decode (oneMachine [name]).text = .ok p :=
    (decode_eq_ok _ _).mpr ⟨_, rfl, rfl⟩
  have hinsert : Rewriting (oneMachine [name]) (oneMachine [name, deep]) :=
    oneMachine_edit (@Edit.insert _ _ _ [name] [] deep "x" (partsText?_written "x") (by simp)
      (by simp))
  have hnull : Rewriting (oneMachine [name, deep]) (oneMachine [name, deep, memory]) :=
    oneMachine_edit (@Edit.null _ _ _ [name, deep] [] memory "memory" (partsText?_written "memory")
      (by simp) rfl (by decide))
  have hreorder : Rewriting (oneMachine [name, deep, memory]) (oneMachine [memory, deep, name]) :=
    oneMachine_edit (.reorder (List.reverse_perm [memory, deep, name]))
  have hrewritten : Relation.ReflTransGen Rewriting (oneMachine [name]) spaced :=
    .tail (.tail (.tail (.single hinsert) hnull) hreorder) (.spacing rfl)
  exact ⟨hdecode, hrewritten, (decode_rewritten hdecode).2 _ _ rfl hrewritten⟩

/-- A name that is no text is no field's name. Yet where its member is inserted, nothing is
decoded. -/
theorem unpaired_undecoded :
    let resources := writtenMember "resources" (.list .none [])
    let d : Padded Tree := bare (.object .none [resources])
    let lone : Member Tree := ⟨.none, [.word ⟨'d', '8', '0', '0', by decide⟩], .none, bare .null⟩
    let e : Padded Tree := bare (.object .none [resources, lone])
    d.text = "\x7b\"resources\":[]\x7d" ∧ e.text = "\x7b\"resources\":[],\"\\ud800\":null\x7d" ∧
      Pool.decode d.text = .ok ⟨[]⟩ ∧ partsText? lone.name ≠ some "resources" ∧
        ∀ p, Pool.decode e.text ≠ .ok p := by
  intro resources d lone e
  refine ⟨by decide, by decide, ?_, by decide, ?_⟩
  · exact (decode_eq_ok _ _).mpr ⟨d, rfl, rfl⟩
  · intro p hp
    obtain ⟨d', htext, hd'⟩ := (decode_eq_ok _ _).mp hp
    have hnone : pool? (depthLimit - 5) e.value = none := rfl
    rw [← pool?_unspaced, text_unique htext, pool?_unspaced, hnone] at hd'
    exact Option.some_ne_none p hd'.symm

end PoolWatch.Decode
