import PoolWatch.Plain.View
import PoolWatch.Proofs.Plain.Terminal

/-!
# Colours change nothing but colour

The plain view with colours is, for a reader who does not see them, the plain view without. No style
is left over at the end of a line, and each status stands in the colour of its indicator.
-/

namespace PoolWatch

open Terminal

/-! ## Texts of a model -/

def TableRow.texts : TableRow → List String
  | clusterOnly => []
  | vm cell status => [cell.name, cell.memory, cell.cpucores, cell.vmtype, status.text]

def ClusterGroup.texts (g : ClusterGroup) : List String :=
  g.cluster.name :: g.cluster.cloudType :: g.rows.flatMap TableRow.texts

def DisplayModel.texts : DisplayModel → List String
  | table t => t.groups.flatMap ClusterGroup.texts
  | error message => [message]
  | pending | stopped => []

/-- No text of the model holds the character. -/
def DisplayModel.Without (m : DisplayModel) (c : Char) : Prop := ∀ text ∈ m.texts, c ∉ text.toList

instance (m : DisplayModel) (c : Char) : Decidable (m.Without c) :=
  inferInstanceAs (Decidable (∀ text ∈ m.texts, c ∉ text.toList))

/-! ## What is written between the texts -/

theorem escape_notMem_digits {cs : List Char} (h : ∀ c ∈ cs, c.isDigit = true) :
    TextStyle.escape ∉ cs :=
  fun hescape => absurd (h _ hescape) (by decide)

theorem notMem_integer {c : Char} (hdigit : c.isDigit = false) (hsign : c ≠ '-') (n : Int) :
    c ∉ (Integer.text n).toList := by
  have hdigits : c ∉ Nat.toDigits 10 n.natAbs := fun hc =>
    absurd (Nat.isDigit_of_mem_toDigits (by decide) (by decide) hc) (by simp [hdigit])
  unfold Integer.text
  split <;> simp [hdigits, hsign]

theorem escape_notMem_integer (n : Int) : TextStyle.escape ∉ (Integer.text n).toList :=
  notMem_integer (by decide) (by decide) n

namespace Timestamp

theorem escape_notMem_padded (width n : Nat) : TextStyle.escape ∉ padded width n := by
  refine escape_notMem_digits fun c hc => ?_
  rw [padded, List.mem_append] at hc
  rcases hc with hc | hc
  · rw [(List.mem_replicate.mp hc).2]
    rfl
  · exact Nat.isDigit_of_mem_toDigits (by decide) (by decide) hc

theorem escape_notMem_display (t : Timestamp) : TextStyle.escape ∉ t.display.toList := by
  have hmarks : ∀ c ∈ ['-', '+', ':', ' ', 'U', 'T', 'C'], TextStyle.escape ≠ c := by
    simp [TextStyle.escape]
  have hyear : ∀ year, TextStyle.escape ∉ yearChars year := by
    intro year
    unfold yearChars
    split
    · exact escape_notMem_padded _ _
    · split <;> simp [escape_notMem_padded, hmarks]
  simp [display, dateChars, timeChars, hyear, escape_notMem_padded, hmarks]

end Timestamp

namespace Plain

theorem escape_notMem_updated (f : Frame) : TextStyle.escape ∉ (updated f).toList := by
  unfold updated
  split
  · exact Timestamp.escape_notMem_display _
  · decide

/-! ## Lines -/

/-- What a line of a table is about. -/
inductive Topic
  | cluster (c : ClusterCell)
  | row (r : TableRow)

def topics (t : Table) : List Topic :=
  t.groups.flatMap fun g => .cluster g.cluster :: g.rows.map .row

def line (color : Bool) : Topic → List Char
  | .cluster c => clusterLine color c
  | .row r => rowLine color r

theorem tableLines_eq {t : Table} (h : t.groups ≠ []) (color : Bool) :
    tableLines color t = (topics t).map (line color) := by
  have hgroup : ∀ g : ClusterGroup, groupLines color g =
      (Topic.cluster g.cluster :: g.rows.map Topic.row).map (line color) := by
    intro g
    rw [List.map_cons, List.map_map]
    rfl
  unfold tableLines topics
  rw [if_neg (by simpa using h), List.map_flatMap, funext hgroup]

theorem groups_ne_nil {t : Table} {topic : Topic} (h : topic ∈ topics t) : t.groups ≠ [] := by
  obtain ⟨g, hg, -⟩ := List.mem_flatMap.mp h
  exact List.ne_nil_of_mem hg

theorem tableChars_eq {t : Table} (h : t.groups ≠ []) (color : Bool) :
    modelChars color (.table t) = (topics t).flatMap (line color) := by
  have hchars : modelChars color (.table t) = (tableLines color t).flatten := rfl
  rw [hchars, tableLines_eq h, List.flatMap_def]

/-! ## Lines with and without colours -/

section

variable {unbroken : Prop}

theorem codes_statusStyle (i : Indicator) : (statusStyle i).codes ≠ [] := by
  cases i <;> decide

theorem clusterLine_dresses {c : ClusterCell} (hname : TextStyle.escape ∉ c.name.toList)
    (htype : TextStyle.escape ∉ c.cloudType.toList) (hbreak : unbroken → '\n' ∉ c.name.toList) :
    Dresses unbroken (clusterLine true c) (clusterLine false c) := by
  have hpainted : Dresses unbroken (nameStyle.paint true c.name.toList)
      (nameStyle.paint false c.name.toList) := .paint (by decide) hname hbreak
  have hslots := escape_notMem_integer c.vmSlots.toInt
  exact ((((hpainted.append (.text (by decide))).append (.text htype)).append
    (.text (by decide))).append (.text hslots)).append (.text (by decide))

/-- The line of a machine in front of its status. -/
def vmFront (vm : VmCell) : List Char :=
  "    ".toList ++ vm.name.toList ++ "  mem: ".toList ++ vm.memory.toList ++ "  cpus: ".toList ++
    vm.cpucores.toList ++ "  type: ".toList ++ vm.vmtype.toList ++ "  [".toList

theorem rowLine_vm (color : Bool) (vm : VmCell) (status : StatusCell) :
    rowLine color (.vm vm status) = vmFront vm ++
      (statusStyle status.indicator).paint color status.text.toList ++ "]\n".toList :=
  rfl

theorem escape_notMem_vmFront {vm : VmCell} {status : StatusCell}
    (h : ∀ text ∈ (TableRow.vm vm status).texts, TextStyle.escape ∉ text.toList) :
    TextStyle.escape ∉ vmFront vm := by
  simp only [TableRow.texts, List.forall_mem_cons] at h
  obtain ⟨hname, hmemory, hcpucores, hvmtype, -⟩ := h
  have hmarks : ∀ mark ∈ ["    ", "  mem: ", "  cpus: ", "  type: ", "  ["],
      TextStyle.escape ∉ mark.toList := by decide
  obtain ⟨h₁, h₂, h₃, h₄, h₅, -⟩ := by simpa only [List.forall_mem_cons] using hmarks
  unfold vmFront
  exact List.not_mem_append (List.not_mem_append (List.not_mem_append (List.not_mem_append
    (List.not_mem_append (List.not_mem_append (List.not_mem_append (List.not_mem_append
      h₁ hname) h₂) hmemory) h₃) hcpucores) h₄) hvmtype) h₅

theorem rowLine_dresses {r : TableRow} (h : ∀ text ∈ r.texts, TextStyle.escape ∉ text.toList)
    (hbreak : unbroken → ∀ text ∈ r.texts, '\n' ∉ text.toList) :
    Dresses unbroken (rowLine true r) (rowLine false r) := by
  cases r with
  | clusterOnly =>
    have hpainted : Dresses unbroken (absentStyle.paint true "(no VMs)".toList)
        (absentStyle.paint false "(no VMs)".toList) :=
      .paint (by decide) (by decide) fun _ => by decide
    exact ((Dresses.text (by decide)).append hpainted).append (.text (by decide))
  | vm vm status =>
    have hstatus : status.text ∈ (TableRow.vm vm status).texts := by simp [TableRow.texts]
    have hpainted : Dresses unbroken ((statusStyle status.indicator).paint true status.text.toList)
        ((statusStyle status.indicator).paint false status.text.toList) :=
      .paint (codes_statusStyle _) (h _ hstatus) fun hunbroken => hbreak hunbroken _ hstatus
    rw [rowLine_vm, rowLine_vm]
    exact ((Dresses.text (escape_notMem_vmFront h)).append hpainted).append (.text (by decide))

theorem groupLines_dresses {g : ClusterGroup} (h : ∀ text ∈ g.texts, TextStyle.escape ∉ text.toList)
    (hbreak : unbroken → ∀ text ∈ g.texts, '\n' ∉ text.toList) :
    Dresses unbroken (groupLines true g).flatten (groupLines false g).flatten := by
  simp only [ClusterGroup.texts, List.forall_mem_cons] at h hbreak
  obtain ⟨hname, htype, hrows⟩ := h
  unfold groupLines
  rw [List.flatten_cons, List.flatten_cons, ← List.flatMap_def, ← List.flatMap_def]
  refine .append (clusterLine_dresses hname htype fun hunbroken => (hbreak hunbroken).1) ?_
  exact .flatMap fun r hr => rowLine_dresses
    (fun text htext => hrows text (List.mem_flatMap.mpr ⟨r, hr, htext⟩))
    fun hunbroken text htext => (hbreak hunbroken).2.2 text (List.mem_flatMap.mpr ⟨r, hr, htext⟩)

theorem modelChars_dresses {m : DisplayModel} (h : m.Without TextStyle.escape) :
    Dresses (m.Without '\n') (modelChars true m) (modelChars false m) := by
  cases m with
  | table t =>
    have hchars : ∀ color, modelChars color (.table t) = (tableLines color t).flatten :=
      fun _ => rfl
    rw [hchars, hchars]
    unfold tableLines
    split
    · exact .text (by decide)
    · rw [List.flatMap_def, List.flatMap_def, List.flatten_flatten, List.flatten_flatten,
        List.map_map, List.map_map, ← List.flatMap_def, ← List.flatMap_def]
      exact .flatMap fun g hg => groupLines_dresses
        (fun text htext => h text (List.mem_flatMap.mpr ⟨g, hg, htext⟩))
        fun hunbroken text htext => hunbroken text (List.mem_flatMap.mpr ⟨g, hg, htext⟩)
  | error message =>
    have hmessage : message ∈ (DisplayModel.error message).texts := List.mem_singleton_self _
    exact .append (.paint (by decide) (h _ hmessage) fun hunbroken => hunbroken _ hmessage)
      (.text (by decide))
  | pending => exact .text (by decide)
  | stopped => exact .text (by decide)

theorem frameChars_dresses {f : Frame} (h : f.model.Without TextStyle.escape) :
    Dresses (f.model.Without '\n') (frameChars true f) (frameChars false f) := by
  have hmark : Dresses (f.model.Without '\n') (nameStyle.paint true "==>".toList)
      (nameStyle.paint false "==>".toList) := .paint (by decide) (by decide) fun _ => by decide
  have hcycle := escape_notMem_integer f.cycle
  have hupdated := escape_notMem_updated f
  exact (((((hmark.append (.text (by decide))).append (.text hcycle)).append
    (.text (by decide))).append (.text hupdated)).append (.text (by decide))).append
      (modelChars_dresses h)

end

/-! ## Status texts -/

/-- What sets the background of a status. -/
def backgroundCode : Indicator → Code
  | .green => "42".toList
  | .yellow => "43".toList
  | .red => "41".toList

theorem backgroundCode_mem_iff (i j : Indicator) :
    backgroundCode i ∈ (statusStyle j).codes ↔ i = j := by
  cases i <;> cases j <;> decide

/-- Coloured output that is the plain output but for styles. They are all taken back at the end of a
line, unless a text of the model holds a line break. -/
structure OnlyColoured (m : DisplayModel) (coloured plain : String) : Prop where
  same : unstyled coloured.toList = plain.toList
  closed : m.Without '\n' → ∀ p ∈ shown [] coloured.toList, p.1 = '\n' → p.2 = []

theorem onlyColoured {m : DisplayModel} {coloured plain : List Char}
    (h : Dresses (m.Without '\n') coloured plain) :
    OnlyColoured m (String.ofList coloured) (String.ofList plain) where
  same := by simpa using h.unstyled_eq
  closed := by simpa using h.closed

/-- Colours change nothing but colour, of a model as of a frame. The status of each machine is
written between a style with the background of its indicator, and no other, and a reset. -/
theorem colours_only {m : DisplayModel} (h : m.Without TextStyle.escape) :
    OnlyColoured m (model true m) (model false m) ∧
      (∀ f : Frame, f.model = m → OnlyColoured m (frame true f) (frame false f)) ∧
        ∀ t, m = .table t → ∀ before vm status after,
          topics t = before ++ .row (.vm vm status) :: after → ∃ front codes back,
            line false (.row (.vm vm status)) = front ++ status.text.toList ++ back ∧
              (∀ i, backgroundCode i ∈ codes ↔ i = status.indicator) ∧
                (model true m).toList = before.flatMap (line true) ++
                  (front ++ (TextStyle.sequence codes ++ status.text.toList ++ TextStyle.reset) ++
                    back) ++ after.flatMap (line true) := by
  refine ⟨onlyColoured (modelChars_dresses h), ?_, ?_⟩
  · rintro f rfl
    exact onlyColoured (frameChars_dresses h)
  · rintro t rfl before vm status after htopics
    have hmem : Topic.row (.vm vm status) ∈ topics t := by simp [htopics]
    have hstatus : TextStyle.escape ∉ status.text.toList := by
      obtain ⟨g, hg, hrow⟩ := List.mem_flatMap.mp hmem
      refine h _ (List.mem_flatMap.mpr ⟨g, hg, ?_⟩)
      have hvm : TableRow.vm vm status ∈ g.rows := by simpa using hrow
      simp only [ClusterGroup.texts, List.mem_cons, List.mem_flatMap]
      exact .inr (.inr ⟨_, hvm, by simp [TableRow.texts]⟩)
    refine ⟨vmFront vm, (statusStyle status.indicator).codes, "]\n".toList,
      rowLine_vm false vm status, fun i => backgroundCode_mem_iff i _, ?_⟩
    rw [model, String.toList_ofList, tableChars_eq (groups_ne_nil hmem), htopics,
      List.flatMap_append, List.flatMap_cons]
    simp [line, rowLine_vm, paint_plain _ hstatus, TextStyle.opening]

/-- A table with a status that looks like a reset. -/
def lookalike : Table :=
  ⟨[⟨⟨"A", "c1", 5⟩, 1, [.vm ⟨"vm1", "512", "2", "small"⟩ ⟨"[0m", .red⟩]⟩,
    ⟨⟨"", "", 0⟩, 1, [.clusterOnly]⟩]⟩

theorem lookalike_coloured :
    (DisplayModel.table lookalike).Without TextStyle.escape ∧
      OnlyColoured (.table lookalike) (model true (.table lookalike))
        (model false (.table lookalike)) ∧
      OnlyColoured (.table lookalike) (frame true ⟨2, .idle, .table lookalike, none⟩)
        (frame false ⟨2, .idle, .table lookalike, none⟩) ∧
      topics lookalike = [.cluster ⟨"A", "c1", 5⟩] ++
        .row (.vm ⟨"vm1", "512", "2", "small"⟩ ⟨"[0m", .red⟩) ::
          [.cluster ⟨"", "", 0⟩, .row .clusterOnly] ∧
      ∃ front codes back,
        line false (.row (.vm ⟨"vm1", "512", "2", "small"⟩ ⟨"[0m", .red⟩)) =
          front ++ "[0m".toList ++ back ∧ (∀ i, backgroundCode i ∈ codes ↔ i = .red) ∧
        (model true (.table lookalike)).toList = [.cluster ⟨"A", "c1", 5⟩].flatMap (line true) ++
          (front ++ (TextStyle.sequence codes ++ "[0m".toList ++ TextStyle.reset) ++ back) ++
            [.cluster ⟨"", "", 0⟩, .row .clusterOnly].flatMap (line true) := by
  have hplain : (DisplayModel.table lookalike).Without TextStyle.escape := by decide
  obtain ⟨hmodel, hframe, hstatus⟩ := colours_only hplain
  exact ⟨hplain, hmodel, hframe _ rfl, rfl, hstatus lookalike rfl _ _ _ _ rfl⟩

end Plain

end PoolWatch
