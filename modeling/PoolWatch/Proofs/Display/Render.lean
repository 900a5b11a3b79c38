import Mathlib.Data.List.Forall2
import PoolWatch.Display.Model
import PoolWatch.Json.Writer

/-!
# What a table shows of its pool

A table has a group for each cluster and a row for each virtual machine. Two pools have the same
table exactly if a reader cannot tell them apart.
-/

namespace PoolWatch

/-! ## Indicators -/

namespace Indicator

theorem ofStatus_green (status : String) : ofStatus status = green ↔ status = "Running" := by
  unfold ofStatus
  split
  · simp_all
  · split <;> simp_all

theorem ofStatus_yellow (status : String) : ofStatus status = yellow ↔ status = "Starting" := by
  unfold ofStatus
  split
  · rename_i h
    simp [h]
  · split <;> simp_all

theorem ofStatus_red (status : String) :
    ofStatus status = red ↔ status ≠ "Running" ∧ status ≠ "Starting" := by
  unfold ofStatus
  split
  · simp_all
  · split <;> simp_all

end Indicator

/-! ## Scalars -/

/-- How a scalar is shown: a text as it is, and a number as it stands in a document. -/
inductive Shown.ReadsAs : Shown → String → Prop
  | number (n : Number) : Shown.ReadsAs (.number n) (Json.number n).compact
  | text (s : String) : Shown.ReadsAs (.text s) s

theorem compact_number (n : Number) : (Json.number n).compact = n.toText := by
  rw [Json.compact, Json.chars, Number.toText]

theorem Shown.readsAs_iff (s : Shown) (text : String) : s.ReadsAs text ↔ text = s.toText := by
  constructor
  · rintro (n | s)
    · exact compact_number n
    · rfl
  · rintro rfl
    cases s with
    | number n =>
      rw [toText, ← compact_number]
      exact .number n
    | text s => exact .text s

/-! ## Rows and groups -/

/-- A row of a virtual machine: its texts as they are, and its status in the colour for it. -/
inductive Vm.Fills (vm : Vm) : TableRow → Prop
  | row {indicator : Indicator} : (indicator = .green ↔ vm.status = "Running") →
    (indicator = .yellow ↔ vm.status = "Starting") →
    (indicator = .red ↔ vm.status ≠ "Running" ∧ vm.status ≠ "Starting") →
    vm.Fills (.vm ⟨vm.name, vm.memory.toText, vm.cpucores.toText, vm.vmtype⟩ ⟨vm.status, indicator⟩)

theorem Vm.fills_toRow (vm : Vm) : vm.Fills vm.toRow :=
  .row (Indicator.ofStatus_green _) (Indicator.ofStatus_yellow _) (Indicator.ofStatus_red _)

/-- The group of a cluster. A cluster without machines has one row all the same. -/
structure Cluster.Fills (c : Cluster) (g : ClusterGroup) : Prop where
  cell : g.cluster = ⟨c.name, c.cloudType, c.vmSlots⟩
  span : g.rowSpan = g.rows.length
  size : g.rows.length = max 1 c.vms.length
  vacant : g.rows = [.clusterOnly] ↔ c.vms = []
  occupied : c.vms ≠ [] → List.Forall₂ Vm.Fills c.vms g.rows

namespace Cluster

variable {c : Cluster}

theorem rows_vacant (h : c.vms = []) : c.rows = [.clusterOnly] := by
  simp [rows, h]

theorem rows_occupied (h : c.vms ≠ []) : c.rows = c.vms.map Vm.toRow := by
  simp [rows, h]

theorem length_rows (c : Cluster) : c.rows.length = max 1 c.vms.length := by
  by_cases h : c.vms = []
  · simp [rows_vacant h, h]
  · have hpos := List.length_pos_of_ne_nil h
    rw [rows_occupied h, List.length_map]
    omega

theorem clusterOnly_notMem (h : c.vms ≠ []) : TableRow.clusterOnly ∉ c.rows := by
  simp [rows_occupied h, Vm.toRow]

theorem fills_toGroup (c : Cluster) : c.Fills c.toGroup where
  cell := rfl
  span := rfl
  size := c.length_rows
  vacant := by
    refine ⟨fun h => ?_, rows_vacant⟩
    by_contra hvms
    refine clusterOnly_notMem hvms ?_
    rw [show c.rows = [.clusterOnly] from h]
    exact List.mem_singleton_self _
  occupied := by
    intro h
    rw [show c.toGroup.rows = c.vms.map Vm.toRow from rows_occupied h, List.forall₂_map_right_iff,
      List.forall₂_same]
    exact fun vm _ => vm.fills_toRow

end Cluster

theorem Pool.rowCount_render (p : Pool) :
    p.render.rowCount = p.vmCount + p.clusters.countP (·.vms.isEmpty) := by
  unfold Table.rowCount vmCount render
  induction p.clusters with
  | nil => rfl
  | cons c cs ih =>
    have hrows : c.toGroup.rows.length = c.vms.length + if c.vms.isEmpty then 1 else 0 := by
      rw [show c.toGroup.rows = c.rows from rfl, c.length_rows]
      cases c.vms <;> simp
    simp only [List.map_cons, List.flatMap_cons, List.length_append, List.countP_cons] at ih ⊢
    rw [ih, hrows]
    omega

/-! ## Pools that look alike -/

structure Vm.LooksLike (a b : Vm) : Prop where
  name : a.name = b.name
  memory : a.memory.toText = b.memory.toText
  cpucores : a.cpucores.toText = b.cpucores.toText
  vmtype : a.vmtype = b.vmtype
  status : a.status = b.status

structure Cluster.LooksLike (a b : Cluster) : Prop where
  name : a.name = b.name
  cloudType : a.cloudType = b.cloudType
  vmSlots : a.vmSlots = b.vmSlots
  vms : List.Forall₂ Vm.LooksLike a.vms b.vms

/-- The same clusters with the same machines, in the same order, as far as texts show it. -/
def Pool.LooksLike (p q : Pool) : Prop := List.Forall₂ Cluster.LooksLike p.clusters q.clusters

theorem map_eq_map_iff_forall₂ {α β : Type} (f : α → β) (as bs : List α) :
    as.map f = bs.map f ↔ List.Forall₂ (fun a b => f a = f b) as bs := by
  rw [← List.forall₂_eq_eq_eq, List.forall₂_map_left_iff, List.forall₂_map_right_iff]

theorem Vm.toRow_eq_iff (a b : Vm) : a.toRow = b.toRow ↔ a.LooksLike b := by
  unfold toRow indicator
  constructor
  · intro h
    simp only [TableRow.vm.injEq, VmCell.mk.injEq, StatusCell.mk.injEq] at h
    obtain ⟨⟨hname, hmemory, hcpucores, hvmtype⟩, hstatus, -⟩ := h
    exact ⟨hname, hmemory, hcpucores, hvmtype, hstatus⟩
  · rintro ⟨hname, hmemory, hcpucores, hvmtype, hstatus⟩
    rw [hname, hmemory, hcpucores, hvmtype, hstatus]

theorem Cluster.rows_eq_iff (a b : Cluster) :
    a.rows = b.rows ↔ List.Forall₂ Vm.LooksLike a.vms b.vms := by
  by_cases ha : a.vms = [] <;> by_cases hb : b.vms = []
  · simp [rows_vacant ha, rows_vacant hb, ha, hb]
  · have hne := clusterOnly_notMem hb
    rw [rows_vacant ha, ha, List.forall₂_nil_left_iff]
    refine ⟨fun h => absurd (h ▸ List.mem_singleton_self _) hne, fun h => absurd h hb⟩
  · have hne := clusterOnly_notMem ha
    rw [rows_vacant hb, hb, List.forall₂_nil_right_iff]
    refine ⟨fun h => absurd (h ▸ List.mem_singleton_self _) hne, fun h => absurd h ha⟩
  · rw [rows_occupied ha, rows_occupied hb, map_eq_map_iff_forall₂]
    simp only [Vm.toRow_eq_iff]

theorem Cluster.toGroup_eq_iff (a b : Cluster) : a.toGroup = b.toGroup ↔ a.LooksLike b := by
  unfold toGroup
  constructor
  · intro h
    simp only [ClusterGroup.mk.injEq, ClusterCell.mk.injEq] at h
    obtain ⟨⟨hname, htype, hslots⟩, -, hrows⟩ := h
    exact ⟨hname, htype, hslots, (rows_eq_iff a b).mp hrows⟩
  · rintro ⟨hname, htype, hslots, hvms⟩
    rw [hname, htype, hslots, (rows_eq_iff a b).mpr hvms]

theorem Pool.render_eq_iff (p q : Pool) : p.render = q.render ↔ p.LooksLike q := by
  unfold render LooksLike
  rw [Table.mk.injEq, map_eq_map_iff_forall₂]
  simp only [Cluster.toGroup_eq_iff]

/-! ## The table of a pool -/

/-- A table shows each cluster of its pool in a group of its own, in order, with each of its
machines. It has a row more for each cluster without machines, and it is the table of those pools
only that look like this one. Scalars are shown the way the server sent them. -/
theorem Pool.render_shows (p : Pool) :
    List.Forall₂ Cluster.Fills p.clusters p.render.groups ∧
      p.render.rowCount = p.vmCount + p.clusters.countP (·.vms.isEmpty) ∧
        (∀ q : Pool, p.render = q.render ↔ p.LooksLike q) ∧
          ∀ (s : Shown) (text : String), s.ReadsAs text ↔ text = s.toText := by
  refine ⟨?_, p.rowCount_render, p.render_eq_iff, Shown.readsAs_iff⟩
  rw [show p.render.groups = p.clusters.map Cluster.toGroup from rfl, List.forall₂_map_right_iff,
    List.forall₂_same]
  exact fun c _ => c.fills_toGroup

end PoolWatch
