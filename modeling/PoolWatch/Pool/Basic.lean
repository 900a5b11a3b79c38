import PoolWatch.Json.Basic

/-!
# Pools

A pool is what the information server reports: clusters in display order, and the virtual machines
of each.
-/

namespace PoolWatch

/-- A scalar that is shown the way the server sent it. Its unit is the server's. -/
inductive Shown
  | number (n : Number)
  | text (s : String)
deriving DecidableEq

/-- What is shown may not tell a number from a text. -/
def Shown.toText : Shown → String
  | number n => n.toText
  | text s => s

inductive Indicator
  | green
  | yellow
  | red
deriving DecidableEq

/-- Only two statuses are known. Everything else counts as an error. -/
def Indicator.ofStatus (status : String) : Indicator :=
  if status = "Running" then green
  else if status = "Starting" then yellow
  else red

def Indicator.name : Indicator → String
  | green => "Green"
  | yellow => "Yellow"
  | red => "Red"

/-- A virtual machine as the server describes it. -/
structure Vm where
  name : String
  memory : Shown
  cpucores : Shown
  vmtype : String
  status : String
deriving DecidableEq

def Vm.indicator (vm : Vm) : Indicator := .ofStatus vm.status

/-- A cluster with its machines. The slots may be negative. -/
structure Cluster where
  name : String
  cloudType : String
  vmSlots : Int64
  vms : List Vm
deriving DecidableEq

structure Pool where
  clusters : List Cluster
deriving DecidableEq

def Pool.vmCount (p : Pool) : Nat := (p.clusters.flatMap (·.vms)).length

end PoolWatch
