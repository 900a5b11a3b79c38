import PoolWatch.Pool.Decode
import PoolWatch.Proofs.Json.Rules

/-!
# What a pool makes of a tree

The records of a pool, from the inside out. `depth` is how deep the values of a virtual machine may
be nested. Those of a cluster stand two brackets further out.
-/

namespace PoolWatch.Decode

open Json

variable {σ : Type}

/-- An optional field that keeps any value of limited depth. -/
def scalar (depth : Nat) (name : String) (given : σ → Bool) (store : σ → Json → σ) : KnownField σ :=
  .storing name false given store (reads_kept depth) (keepable_iff · depth)

/-! ## Virtual machines -/

def vmTaken (depth : Nat) : List (KnownField VmFields) :=
  [scalar depth "name" (·.name.isSome) fun s v => { s with name := some v },
   scalar depth "memory" (·.memory.isSome) fun s v => { s with memory := some v },
   scalar depth "cpucores" (·.cpucores.isSome) fun s v => { s with cpucores := some v },
   scalar depth "vmtype" (·.vmtype.isSome) fun s v => { s with vmtype := some v },
   scalar depth "status" (·.status.isSome) fun s v => { s with status := some v }]

def vm? (depth : Nat) (t : Tree) : Option Vm := (record? (vmTaken depth) {} t).map VmFields.toVm

def IsVm (depth : Nat) : Tree → Prop :=
  IsRecord [⟨"name", false, Keepable depth⟩, ⟨"memory", false, Keepable depth⟩,
    ⟨"cpucores", false, Keepable depth⟩, ⟨"vmtype", false, Keepable depth⟩,
    ⟨"status", false, Keepable depth⟩]

theorem reads_vm (depth : Nat) : Reads (readVm (depth + 1)) (vm? depth) :=
  (reads_record (.record "Vm" 5) (vmTaken depth) {}).map VmFields.toVm

theorem lawful_vmTaken (depth : Nat) : Lawful (vmTaken depth) where
  distinct := by simp [vmTaken, scalar, KnownField.storing]
  noted := by
    simp only [vmTaken, List.forall_mem_cons]
    simp [scalar, KnownField.storing]

theorem vm?_isSome (depth : Nat) (t : Tree) : (vm? depth t).isSome = true ↔ IsVm depth t := by
  have hblank : ∀ f ∈ vmTaken depth, f.given {} = false := by
    simp [vmTaken, scalar, KnownField.storing]
  rw [vm?, Option.isSome_map, record?_isSome (lawful_vmTaken depth) hblank]
  rfl

/-! ## Clusters -/

def clusterTaken (depth : Nat) : List (KnownField ClusterFields) :=
  [scalar (depth + 2) "name" (·.name.isSome) fun s v => { s with name := some v },
   scalar (depth + 2) "cloud_type" (·.cloudType.isSome) fun s v => { s with cloudType := some v },
   scalar (depth + 2) "vm_slots" (·.vmSlots.isSome) fun s v => { s with vmSlots := some v },
   .storing "vms" true (·.vms.isSome) (fun s v => { s with vms := some v })
     (reads_sequence (reads_vm depth)) (sequence?_isSome (vm?_isSome depth))]

def cluster? (depth : Nat) (t : Tree) : Option Cluster :=
  (record? (clusterTaken depth) {} t).map ClusterFields.toCluster

def IsCluster (depth : Nat) : Tree → Prop :=
  IsRecord [⟨"name", false, Keepable (depth + 2)⟩, ⟨"cloud_type", false, Keepable (depth + 2)⟩,
    ⟨"vm_slots", false, Keepable (depth + 2)⟩, ⟨"vms", true, IsSequence (IsVm depth)⟩]

theorem reads_cluster (depth : Nat) : Reads (readCluster (depth + 3)) (cluster? depth) :=
  (reads_record (.record "Resource" 4) (clusterTaken depth) {}).map ClusterFields.toCluster

theorem lawful_clusterTaken (depth : Nat) : Lawful (clusterTaken depth) where
  distinct := by simp [clusterTaken, scalar, KnownField.storing]
  noted := by
    simp only [clusterTaken, List.forall_mem_cons]
    simp [scalar, KnownField.storing]

theorem cluster?_isSome (depth : Nat) (t : Tree) :
    (cluster? depth t).isSome = true ↔ IsCluster depth t := by
  have hblank : ∀ f ∈ clusterTaken depth, f.given {} = false := by
    simp [clusterTaken, scalar, KnownField.storing]
  rw [cluster?, Option.isSome_map, record?_isSome (lawful_clusterTaken depth) hblank]
  rfl

/-! ## Pools -/

def poolTaken (depth : Nat) : List (KnownField PoolFields) :=
  [.storing "resources" true (·.resources.isSome) (fun s v => { s with resources := some v })
     (reads_sequence (reads_cluster depth)) (sequence?_isSome (cluster?_isSome depth))]

def pool? (depth : Nat) (t : Tree) : Option Pool :=
  (record? (poolTaken depth) {} t).map PoolFields.toPool

def IsPool (depth : Nat) : Tree → Prop :=
  IsRecord [⟨"resources", true, IsSequence (IsCluster depth)⟩]

theorem reads_pool (depth : Nat) : Reads (readPool (depth + 5)) (pool? depth) :=
  (reads_record (.record "ResourcePool" 1) (poolTaken depth) {}).map PoolFields.toPool

theorem lawful_poolTaken (depth : Nat) : Lawful (poolTaken depth) where
  distinct := by simp [poolTaken]
  noted := by simp [poolTaken, KnownField.storing]

theorem pool?_isSome (depth : Nat) (t : Tree) : (pool? depth t).isSome = true ↔ IsPool depth t := by
  have hblank : ∀ f ∈ poolTaken depth, f.given {} = false := by simp [poolTaken, KnownField.storing]
  rw [pool?, Option.isSome_map, record?_isSome (lawful_poolTaken depth) hblank]
  rfl

end PoolWatch.Decode
