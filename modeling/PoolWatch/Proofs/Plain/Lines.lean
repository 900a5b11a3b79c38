import PoolWatch.Proofs.Display.Render
import PoolWatch.Proofs.Plain.Colours

/-!
# The lines of a table

A table is written in one line for each cluster and, below it, one for each of its rows. As long as
no text breaks a line, these are all the lines there are.
-/

namespace PoolWatch.Plain

/-! ## One line -/

def clusterText (c : ClusterCell) : String :=
  c.name ++ "  type: " ++ c.cloudType ++ "  available VM slots: " ++ Integer.text c.vmSlots.toInt

def vmText (vm : VmCell) (status : StatusCell) : String :=
  "    " ++ vm.name ++ "  mem: " ++ vm.memory ++ "  cpus: " ++ vm.cpucores ++
    "  type: " ++ vm.vmtype ++ "  [" ++ status.text ++ "]"

/-- What the line about a topic says. -/
def Topic.text : Topic → String
  | .cluster c => clusterText c
  | .row .clusterOnly => "    (no VMs)"
  | .row (.vm vm status) => vmText vm status

theorem clusterLine_plain (c : ClusterCell) :
    clusterLine false c = (clusterText c).toList ++ ['\n'] := by
  unfold clusterLine clusterText
  simp only [TextStyle.paint, Bool.false_eq_true, if_false, String.toList_append]

theorem vmText_toList (vm : VmCell) (status : StatusCell) :
    (vmText vm status).toList = vmFront vm ++ status.text.toList ++ "]".toList := by
  unfold vmText vmFront
  simp only [String.toList_append]

theorem line_plain (topic : Topic) : line false topic = topic.text.toList ++ ['\n'] := by
  match topic with
  | .cluster c => exact clusterLine_plain c
  | .row .clusterOnly => rfl
  | .row (.vm vm status) =>
    rw [line, rowLine_vm, Topic.text, vmText_toList, List.append_assoc _ "]".toList]
    rfl

theorem cluster_unbroken {c : ClusterCell} (hname : '\n' ∉ c.name.toList)
    (htype : '\n' ∉ c.cloudType.toList) : '\n' ∉ (Topic.cluster c).text.toList := by
  have hslots := notMem_integer (c := '\n') rfl (by decide) c.vmSlots.toInt
  simp [Topic.text, clusterText, hname, htype, hslots]

theorem row_unbroken {r : TableRow} (h : ∀ text ∈ r.texts, '\n' ∉ text.toList) :
    '\n' ∉ (Topic.row r).text.toList := by
  cases r with
  | clusterOnly => decide
  | vm vm status =>
    simp only [TableRow.texts, List.forall_mem_cons] at h
    rw [Topic.text, vmText_toList]
    unfold vmFront
    simp [h]

/-! ## All lines -/

/-- The lines of a table, without their ends. -/
def shownLines (t : Table) : List String :=
  if t.groups = [] then ["No clusters reported"] else (topics t).map Topic.text

variable {t : Table}

theorem topic_unbroken (h : (DisplayModel.table t).Without '\n') {topic : Topic}
    (htopic : topic ∈ topics t) : '\n' ∉ topic.text.toList := by
  obtain ⟨g, hg, htopic⟩ := List.mem_flatMap.mp htopic
  have hgroup : ∀ text ∈ g.texts, '\n' ∉ text.toList := fun text htext =>
    h text (List.mem_flatMap.mpr ⟨g, hg, htext⟩)
  simp only [ClusterGroup.texts, List.forall_mem_cons] at hgroup
  obtain ⟨hname, htype, hrows⟩ := hgroup
  rcases List.mem_cons.mp htopic with rfl | hrow
  · exact cluster_unbroken hname htype
  · obtain ⟨r, hr, rfl⟩ := List.mem_map.mp hrow
    exact row_unbroken fun text htext =>
      hrows text (List.mem_flatMap.mpr ⟨r, hr, htext⟩)

theorem shownLines_unbroken (h : (DisplayModel.table t).Without '\n') :
    ∀ l ∈ shownLines t, '\n' ∉ l.toList := by
  unfold shownLines
  split
  · decide
  · exact List.forall_mem_map.mpr fun topic => topic_unbroken h

theorem tableChars_plain (t : Table) :
    modelChars false (.table t) = (shownLines t).flatMap fun l => l.toList ++ ['\n'] := by
  unfold shownLines
  split
  · next hnone =>
    have hchars : modelChars false (.table t) = (tableLines false t).flatten := rfl
    unfold tableLines at hchars
    rw [hchars, if_pos (by simp [hnone])]
    decide
  · next hsome => rw [tableChars_eq hsome, List.flatMap_map, funext line_plain]

theorem split_lines {lines : List String} (h : ∀ l ∈ lines, '\n' ∉ l.toList) :
    Text.split (· == '\n') (lines.flatMap fun l => l.toList ++ ['\n']) =
      lines.map String.toList ++ [[]] := by
  induction lines with
  | nil => rfl
  | cons l lines ih =>
    obtain ⟨hl, hlines⟩ := List.forall_mem_cons.mp h
    have hplain : ∀ c ∈ l.toList, (c == '\n') = false := fun c hc =>
      beq_eq_false_iff_ne.mpr fun heq => hl (heq ▸ hc)
    rw [List.flatMap_cons, List.append_assoc, List.singleton_append,
      Text.split_cons hplain rfl, ih hlines, List.map_cons, List.cons_append]

theorem length_topics (t : Table) : (topics t).length = t.groups.length + t.rowCount := by
  unfold topics Table.rowCount
  induction t.groups with
  | nil => rfl
  | cons g groups ih =>
    simp only [List.flatMap_cons, List.length_append, List.length_cons, List.length_map, ih]
    omega

theorem length_shownLines (t : Table) : (shownLines t).length =
    if t.groups = [] then 1 else t.groups.length + t.rowCount := by
  unfold shownLines
  split
  · rfl
  · rw [List.length_map, length_topics]

theorem length_shownLines_render (p : Pool) : (shownLines p.render).length =
    if p.clusters = [] then 1
    else p.clusters.length + p.vmCount + p.clusters.countP (·.vms.isEmpty) := by
  have hgroups : p.render.groups = p.clusters.map Cluster.toGroup := rfl
  rw [length_shownLines, p.rowCount_render, hgroups, List.length_map, Nat.add_assoc]
  simp only [List.map_eq_nil_iff]

/-- Between its line breaks, a written table holds its lines in their order, and nothing behind the
last break. There is one for each cluster and one for each row, unless there is no cluster. -/
theorem table_lines (h : (DisplayModel.table t).Without '\n') :
    Text.split (· == '\n') (model false (.table t)).toList =
        (shownLines t).map String.toList ++ [[]] ∧
      (shownLines t).length = (if t.groups = [] then 1 else t.groups.length + t.rowCount) ∧
      ∀ p : Pool, t = p.render → (shownLines t).length =
        if p.clusters = [] then 1
        else p.clusters.length + p.vmCount + p.clusters.countP (·.vms.isEmpty) := by
  refine ⟨?_, length_shownLines t, ?_⟩
  · rw [model, String.toList_ofList, tableChars_plain, split_lines (shownLines_unbroken h)]
  · rintro p rfl
    exact length_shownLines_render p

/-- One cluster with two machines, and one with none. -/
def mixedPool : Pool :=
  ⟨[⟨"A", "c1", -5, [⟨"vm1", .text "512", .text "2", "small", "Stopped"⟩,
      ⟨"", .text "", .text "]", "", ""⟩]⟩, ⟨"B", "", 0, []⟩]⟩

theorem mixedPool_lines : (DisplayModel.table mixedPool.render).Without '\n' ∧
    Text.split (· == '\n') (model false (.table mixedPool.render)).toList =
      ["A  type: c1  available VM slots: -5".toList,
       "    vm1  mem: 512  cpus: 2  type: small  [Stopped]".toList,
       "      mem:   cpus: ]  type:   []".toList, "B  type:   available VM slots: 0".toList,
       "    (no VMs)".toList, []] ∧
    5 = 2 + mixedPool.vmCount + 1 := by
  have hplain : (DisplayModel.table mixedPool.render).Without '\n' := by decide
  obtain ⟨hsplit, -, hcount⟩ := table_lines hplain
  exact ⟨hplain, hsplit.trans (by decide), (hcount mixedPool rfl)⟩

end PoolWatch.Plain
