import PoolWatch.Json.Record
import PoolWatch.Pool.Lenient

/-!
# Decoding a pool

Only the skeleton is required: a `resources` list whose entries each have a `vms` list. Everything
else has a default.
-/

namespace PoolWatch

/-! ## Records -/

/-- The members of a machine as they were found. -/
structure VmFields where
  name : Option Json := none
  memory : Option Json := none
  cpucores : Option Json := none
  vmtype : Option Json := none
  status : Option Json := none

/-- A missing member counts as null. -/
def VmFields.toVm (f : VmFields) : Vm where
  name := labelOfJson (f.name.getD .null)
  memory := Shown.ofJson (f.memory.getD .null)
  cpucores := Shown.ofJson (f.cpucores.getD .null)
  vmtype := labelOfJson (f.vmtype.getD .null)
  status := labelOfJson (f.status.getD .null)

structure ClusterFields where
  name : Option Json := none
  cloudType : Option Json := none
  vmSlots : Option Json := none
  vms : Option (List Vm) := none

/-- A missing member counts as null, and missing machines as none. -/
def ClusterFields.toCluster (f : ClusterFields) : Cluster where
  name := labelOfJson (f.name.getD .null)
  cloudType := labelOfJson (f.cloudType.getD .null)
  vmSlots := slotsOfJson (f.vmSlots.getD .null)
  vms := f.vms.getD []

structure PoolFields where
  resources : Option (List Cluster) := none

def PoolFields.toPool (f : PoolFields) : Pool := ⟨f.resources.getD []⟩

namespace Decode

open Json (Reader RecordField)

/-- Reads a value and puts it where its field is kept. -/
def storing {α σ : Type} (reader : Reader α) (store : σ → α → σ) (state : σ) : Reader σ :=
  Reader.map (store state) reader

/-- A reader for what a record holds, if something may be nested there. -/
def inside {α : Type} (reader : Nat → α) : Nat → Option α
  | 0 => none
  | depth + 1 => some (reader depth)

/-- The fields of a machine. Any value will do for each. -/
def vmFields (depth : Nat) : List (RecordField VmFields) :=
  let value := Json.readValue depth
  [⟨"name", false, (·.name.isSome), storing value fun s v => { s with name := some v }⟩,
   ⟨"memory", false, (·.memory.isSome), storing value fun s v => { s with memory := some v }⟩,
   ⟨"cpucores", false, (·.cpucores.isSome), storing value fun s v => { s with cpucores := some v }⟩,
   ⟨"vmtype", false, (·.vmtype.isSome), storing value fun s v => { s with vmtype := some v }⟩,
   ⟨"status", false, (·.status.isSome), storing value fun s v => { s with status := some v }⟩]

def readVm (depth : Nat) : Reader Vm :=
  Reader.map VmFields.toVm (Json.readRecord (.record "Vm" 5) {} (inside vmFields depth))

def clusterFields (depth : Nat) : List (RecordField ClusterFields) :=
  let value := Json.readValue depth
  let vms := Json.readSequence (inside readVm depth)
  [⟨"name", false, (·.name.isSome), storing value fun s v => { s with name := some v }⟩,
   ⟨"cloud_type", false, (·.cloudType.isSome),
     storing value fun s v => { s with cloudType := some v }⟩,
   ⟨"vm_slots", false, (·.vmSlots.isSome), storing value fun s v => { s with vmSlots := some v }⟩,
   ⟨"vms", true, (·.vms.isSome), storing vms fun s v => { s with vms := some v }⟩]

def readCluster (depth : Nat) : Reader Cluster :=
  Reader.map ClusterFields.toCluster
    (Json.readRecord (.record "Resource" 4) {} (inside clusterFields depth))

/-- The clusters of a pool are its only field, and it must not be missing. -/
def poolFields (depth : Nat) : List (RecordField PoolFields) :=
  let clusters := Json.readSequence (inside readCluster depth)
  [⟨"resources", true, (·.resources.isSome),
     storing clusters fun s v => { s with resources := some v }⟩]

def readPool (depth : Nat) : Reader Pool :=
  Reader.map PoolFields.toPool
    (Json.readRecord (.record "ResourcePool" 1) {} (inside poolFields depth))

/-- A value on its own, as a virtual machine would keep it. -/
def readShown (depth : Nat) : Reader Shown := Reader.map Shown.ofJson (Json.readValue depth)

end Decode

/-! ## Errors -/

/-- A payload is malformed, or well-formed up to a part that does not describe a pool. -/
inductive DecodeError
  | notJson (fault : Json.Fault) (place : Json.Place)
  | notPool (misfit : Json.Misfit) (place : Json.Place)

namespace DecodeError

/-- What is no JSON is told from JSON that is no pool. -/
def ofFailure (text : String) (f : Json.Failure) : DecodeError :=
  match f.fault with
  | .misfit m => .notPool m (f.place text.toList)
  | fault => .notJson fault (f.place text.toList)

def detail : DecodeError → String
  | notJson fault p => fault.messageAt p
  | notPool m p => (Json.Fault.misfit m).messageAt p

def message : DecodeError → String
  | notJson fault p =>
    "Payload is not valid JSON (line " ++ Integer.text p.line ++ ", column " ++
      Integer.text p.column ++ "): " ++ fault.messageAt p
  | notPool m p =>
    "Payload does not describe a resource pool: " ++ (Json.Fault.misfit m).messageAt p

end DecodeError

/-! ## Whole texts -/

/-- Reads a whole payload, down to the depth that is allowed. -/
def decodeWith {α : Type} (reader : Nat → Json.Reader α) (payload : String) :
    Except DecodeError α :=
  match Json.readAll (reader Json.depthLimit) payload with
  | .ok v => .ok v
  | .error f => .error (.ofFailure payload f)

/-- The pool that a payload describes. -/
def Pool.decode (payload : String) : Except DecodeError Pool := decodeWith Decode.readPool payload

end PoolWatch
