import PoolWatch.Frame
import PoolWatch.Number.Integer
import PoolWatch.Plain.Style

/-!
# The plain view

A display model as lines of text, for terminals that are only written to.
-/

namespace PoolWatch.Plain

/-! ## Styles -/

def nameStyle : TextStyle := { bold := true }

def absentStyle : TextStyle := { dimmed := true }

def failureStyle : TextStyle := { bold := true, foreground := some .red }

def successStyle : TextStyle := { foreground := some .green }

/-- The colour of a status is behind it. -/
def statusStyle : Indicator → TextStyle
  | .green => { background := some .green, foreground := some .black }
  | .yellow => { background := some .yellow, foreground := some .black }
  | .red => { background := some .red, foreground := some .white }

/-! ## Lines -/

def clusterLine (color : Bool) (c : ClusterCell) : List Char :=
  nameStyle.paint color c.name.toList ++ "  type: ".toList ++ c.cloudType.toList ++
    "  available VM slots: ".toList ++ (Integer.text c.vmSlots.toInt).toList ++ ['\n']

/-- A machine with its status in brackets, indented below its cluster. -/
def vmLine (color : Bool) (vm : VmCell) (status : StatusCell) : List Char :=
  "    ".toList ++ vm.name.toList ++ "  mem: ".toList ++ vm.memory.toList ++ "  cpus: ".toList ++
    vm.cpucores.toList ++ "  type: ".toList ++ vm.vmtype.toList ++ "  [".toList ++
    (statusStyle status.indicator).paint color status.text.toList ++ "]\n".toList

def rowLine (color : Bool) : TableRow → List Char
  | .clusterOnly => "    ".toList ++ absentStyle.paint color "(no VMs)".toList ++ ['\n']
  | .vm cell status => vmLine color cell status

def groupLines (color : Bool) (g : ClusterGroup) : List (List Char) :=
  clusterLine color g.cluster :: g.rows.map (rowLine color)

/-- The lines of a table, each with its break. -/
def tableLines (color : Bool) (t : Table) : List (List Char) :=
  if t.groups.isEmpty then ["No clusters reported\n".toList]
  else t.groups.flatMap (groupLines color)

def modelChars (color : Bool) : DisplayModel → List Char
  | .table t => (tableLines color t).flatten
  | .error message => failureStyle.paint color message.toList ++ ['\n']
  | .pending => "Waiting for the first refresh...\n".toList
  | .stopped => "Monitor stopped\n".toList

/-- When a frame was published, as a reader sees it. -/
def updated (f : Frame) : String :=
  match f.publishedAt with
  | some t => t.display
  | none => "never"

/-- A frame: a heading with its cycle, and its model. -/
def frameChars (color : Bool) (f : Frame) : List Char :=
  nameStyle.paint color "==>".toList ++ " cycle ".toList ++ (Integer.text f.cycle).toList ++
    " (updated ".toList ++ (updated f).toList ++ ")\n".toList ++ modelChars color f.model

def model (color : Bool) (m : DisplayModel) : String := String.ofList (modelChars color m)

def frame (color : Bool) (f : Frame) : String := String.ofList (frameChars color f)

end PoolWatch.Plain
