import PoolWatch.Display.Model
import PoolWatch.Pool.Encode

/-!
# Display models as JSON
-/

namespace PoolWatch

def ClusterCell.toJson (c : ClusterCell) : Json :=
  .object [("name", .text c.name), ("cloud_type", .text c.cloudType),
    ("vm_slots", .number (.whole c.vmSlots.toInt (Number.fits_toInt c.vmSlots)))]

def VmCell.toJson (c : VmCell) : Json :=
  .object [("name", .text c.name), ("memory", .text c.memory), ("cpucores", .text c.cpucores),
    ("vmtype", .text c.vmtype)]

def StatusCell.toJson (c : StatusCell) : Json :=
  .object [("text", .text c.text), ("indicator", .text c.indicator.name)]

def TableRow.toJson : TableRow → Json
  | clusterOnly => .text "ClusterOnly"
  | vm cell status => .object [("Vm", .object [("vm", cell.toJson), ("status", status.toJson)])]

def ClusterGroup.toJson (g : ClusterGroup) : Json :=
  .object [("cluster", g.cluster.toJson), ("row_span", .number (.ofUInt64 (.ofNat g.rowSpan))),
    ("rows", .list (g.rows.map TableRow.toJson))]

def Table.toJson (t : Table) : Json :=
  .object [("groups", .list (t.groups.map ClusterGroup.toJson))]

/-- What carries no data is a name. Anything else is an object with one member. -/
def DisplayModel.toJson : DisplayModel → Json
  | pending => .text "Pending"
  | table t => .object [("Table", t.toJson)]
  | error message => .object [("Error", .object [("message", .text message)])]
  | stopped => .text "Stopped"

end PoolWatch
