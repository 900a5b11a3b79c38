import PoolWatch.Json.Writer
import PoolWatch.Pool.Basic

/-!
# Writing a pool

Compact JSON with the members in a fixed order.
-/

namespace PoolWatch

def Shown.toJson : Shown → Json
  | number n => .number n
  | text s => .text s

def Vm.toJson (vm : Vm) : Json :=
  .object [("name", .text vm.name), ("memory", vm.memory.toJson), ("cpucores", vm.cpucores.toJson),
    ("vmtype", .text vm.vmtype), ("status", .text vm.status)]

theorem Number.fits_toInt (n : Int64) : Number.Fits n.toInt := by
  have h₁ := n.le_toInt
  have h₂ := n.toInt_lt
  unfold Number.Fits
  omega

def Cluster.toJson (c : Cluster) : Json :=
  .object [("name", .text c.name), ("cloud_type", .text c.cloudType),
    ("vm_slots", .number (.whole c.vmSlots.toInt (Number.fits_toInt c.vmSlots))),
    ("vms", .list (c.vms.map Vm.toJson))]

def Pool.toJson (p : Pool) : Json := .object [("resources", .list (p.clusters.map Cluster.toJson))]

/-- A pool as a server would describe it, on one line. -/
def Pool.encode (p : Pool) : String := p.toJson.compact

end PoolWatch
