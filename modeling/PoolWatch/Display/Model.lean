import PoolWatch.Pool.Basic

/-!
# What is displayed

A display model is built from one pool and shown by every front end. A pool becomes a table with a
group for each cluster.
-/

namespace PoolWatch

/-- What is shown of a cluster itself. Its cell spans all rows of the cluster. -/
structure ClusterCell where
  name : String
  cloudType : String
  vmSlots : Int64
deriving DecidableEq

structure VmCell where
  name : String
  memory : String
  cpucores : String
  vmtype : String
deriving DecidableEq

/-- A status in the words of the server, and the colour behind it. -/
structure StatusCell where
  text : String
  indicator : Indicator
deriving DecidableEq

/-- A row stands for a virtual machine, or for a cluster that has none. -/
inductive TableRow
  | clusterOnly
  | vm (cell : VmCell) (status : StatusCell)
deriving DecidableEq

/-- The rows of one cluster. The cluster's cell spans `rowSpan` of them. -/
structure ClusterGroup where
  cluster : ClusterCell
  rowSpan : Nat
  rows : List TableRow
deriving DecidableEq

structure Table where
  groups : List ClusterGroup
deriving DecidableEq

def Table.rowCount (t : Table) : Nat := (t.groups.flatMap (·.rows)).length

/-- What there is to show: nothing yet, a table, a failure, or the end. -/
inductive DisplayModel
  | pending
  | table (t : Table)
  | error (message : String)
  | stopped
deriving DecidableEq

/-- The one error view, whatever went wrong. -/
def DisplayModel.failed : DisplayModel := .error "Error Reading from RPC Server"

/-! ## From a pool to a table -/

def Vm.toRow (vm : Vm) : TableRow :=
  .vm ⟨vm.name, vm.memory.toText, vm.cpucores.toText, vm.vmtype⟩ ⟨vm.status, vm.indicator⟩

/-- A cluster without machines still has a row. -/
def Cluster.rows (c : Cluster) : List TableRow :=
  if c.vms.isEmpty then [.clusterOnly] else c.vms.map Vm.toRow

def Cluster.toGroup (c : Cluster) : ClusterGroup :=
  ⟨⟨c.name, c.cloudType, c.vmSlots⟩, c.rows.length, c.rows⟩

/-- The table of a pool, in the order of its clusters. -/
def Pool.render (p : Pool) : Table := ⟨p.clusters.map Cluster.toGroup⟩

end PoolWatch
