import Mathlib.Data.List.Nodup
import PoolWatch.Config.Source

/-!
# Layers of a configuration

A setting stands under a name in a section. Of layers over each other the upper one is heard,
setting by setting.
-/

namespace PoolWatch.Config

theorem lookup_cons {β : Type} (n m : String) (v : β) (ms : List (String × β)) :
    ((m, v) :: ms).lookup n = if n = m then some v else ms.lookup n := by
  rw [List.lookup_cons]
  by_cases h : n = m
  · simp [h]
  · simp [h, beq_false_of_ne h]

theorem lookup_eq_none {β : Type} {n : String} {ms : List (String × β)}
    (h : n ∉ ms.map (·.1)) : ms.lookup n = none := by
  rw [List.lookup_eq_none_iff]
  intro m hm
  rw [bne_iff_ne]
  rintro rfl
  exact h (List.mem_map_of_mem hm)

theorem mem_of_lookup {β : Type} {n : String} {v : β} {ms : List (String × β)}
    (h : ms.lookup n = some v) : (n, v) ∈ ms := by
  obtain ⟨front, back, rfl, -⟩ := List.lookup_eq_some_iff.mp h
  simp

/-- What a layer says under a name of a section. -/
def Layer.setting? (layer : Layer) (root name : String) : Option Tree :=
  (layer.lookup root).bind fun t => t.members.lookup name

namespace Tree

/-- What is heard of a lower and an upper layer. -/
def overlaid (below : Option Tree) : Option Tree → Option Tree
  | none => below
  | some t => some (laidOver (below.getD null) t)

/-! ## Members -/

theorem lookup_alter (name n : String) (f : Tree → Tree) (ms : List (String × Tree)) :
    (alter name f ms).lookup n =
      if n = name then some (f ((ms.lookup name).getD null)) else ms.lookup n := by
  induction ms with
  | nil => rw [alter, lookup_cons]; rfl
  | cons m ms ih =>
    obtain ⟨m, t⟩ := m
    unfold alter
    by_cases hm : m = name
    · subst hm
      by_cases h : n = m <;> simp [lookup_cons, h]
    · by_cases h : n = m
      · subst h
        simp [hm]
      · simp [lookup_cons, hm, h, ih, Ne.symm hm]

theorem forall_alter {P : Tree → Prop} {f : Tree → Tree} (hnull : P (f null))
    (hf : ∀ t, P t → P (f t)) (name : String) {ms : List (String × Tree)} (h : ∀ m ∈ ms, P m.2) :
    ∀ m ∈ alter name f ms, P m.2 := by
  induction ms with
  | nil =>
    rw [alter, List.forall_mem_singleton]
    exact hnull
  | cons m ms ih =>
    obtain ⟨hm, hms⟩ := List.forall_mem_cons.mp h
    unfold alter
    split
    · exact List.forall_mem_cons.mpr ⟨hf _ hm, hms⟩
    · exact List.forall_mem_cons.mpr ⟨hm, ih hms⟩

@[simp]
theorem members_alterMember (name : String) (f : Tree → Tree) (t : Tree) :
    (alterMember name f t).members = alter name f t.members := by
  cases t <;> rfl

@[simp]
theorem isTable_alterMember (name : String) (f : Tree → Tree) (t : Tree) :
    (alterMember name f t).isTable = true := by
  cases t <;> rfl

@[simp]
theorem isTable_laidOver (below t : Tree) : (laidOver below t).isTable = t.isTable := by
  cases t with
  | table => cases below <;> simp [laidOver, isTable]
  | _ => simp [laidOver]

theorem members_laidOver {below t : Tree} (h : t.isTable = true) :
    (laidOver below t).members = overMembers below.members t.members := by
  cases t with
  | table => cases below <;> simp [laidOver, members]
  | _ => simp [isTable] at h

theorem lookup_overMembers {ms : List (String × Tree)} (hnames : (ms.map (·.1)).Nodup)
    (below : List (String × Tree)) (n : String) :
    (overMembers below ms).lookup n = overlaid (below.lookup n) (ms.lookup n) := by
  induction ms generalizing below with
  | nil => simp [overMembers, overlaid]
  | cons m ms ih =>
    obtain ⟨name, t⟩ := m
    rw [List.map_cons, List.nodup_cons] at hnames
    rw [overMembers, ih hnames.2, lookup_alter]
    by_cases h : n = name
    · subst h
      simp [lookup_eq_none hnames.1, overlaid]
    · simp [h, lookup_cons]

/-! ## Names -/

theorem map_alter (name : String) (f : Tree → Tree) (ms : List (String × Tree)) :
    (alter name f ms).map (·.1) =
      if name ∈ ms.map (·.1) then ms.map (·.1) else ms.map (·.1) ++ [name] := by
  induction ms with
  | nil => simp [alter]
  | cons m ms ih =>
    unfold alter
    by_cases h : m.1 = name
    · rw [if_pos h, List.map_cons, List.map_cons, if_pos (h ▸ List.mem_cons_self)]
    · rw [if_neg h, List.map_cons, List.map_cons, ih]
      simp only [List.mem_cons, Ne.symm h, false_or]
      split <;> rfl

theorem names_alter (name : String) (f : Tree → Tree) {ms : List (String × Tree)}
    (h : (ms.map (·.1)).Nodup) : ((alter name f ms).map (·.1)).Nodup := by
  rw [map_alter]
  split
  · exact h
  next hnew =>
    refine List.nodup_append.mpr ⟨h, List.nodup_singleton name, ?_⟩
    rintro n hn _ hlast rfl
    rw [List.mem_singleton.mp hlast] at hn
    exact hnew hn

theorem names_laidOver {below : Tree} (h : (below.members.map (·.1)).Nodup) (t : Tree) :
    ((laidOver below t).members.map (·.1)).Nodup := by
  cases htable : t.isTable with
  | false => cases t <;> simp_all [laidOver, isTable, members]
  | true =>
    rw [members_laidOver htable]
    generalize below.members = done at h
    induction t.members generalizing done with
    | nil => exact h
    | cons m ms ih => exact ih _ (names_alter m.1 _ h)

theorem names_alterAt {below : Tree} (h : (below.members.map (·.1)).Nodup) (t : Tree)
    (steps : List KeyStep) :
    ((alterAt (fun b => laidOver b t) steps below).members.map (·.1)).Nodup := by
  cases steps with
  | nil => exact names_laidOver h t
  | cons step steps =>
    cases step with
    | member name =>
      rw [alterAt, members_alterMember]
      exact names_alter name _ h
    | item i =>
      -- What is altered in a place becomes a list, and a list has no members.
      obtain ⟨origin, items, hlist⟩ : ∃ origin items, alterAt (fun b => laidOver b t)
          (.item i :: steps) below = .list origin items := by
        unfold alterAt alterItem
        dsimp only
        split_ifs <;> exact ⟨_, _, rfl⟩
      rw [hlist]
      exact List.nodup_nil

/-- No name stands twice, neither among the members nor within one of them. -/
structure Distinct (t : Tree) : Prop where
  names : (t.members.map (·.1)).Nodup
  inner : ∀ m ∈ t.members, (m.2.members.map (·.1)).Nodup

theorem put_eq (t : Tree) (key : String) (v : Tree) : t.put key v =
    alterMember (Key.ofText key).root
      (alterAt (fun b => laidOver b v) (Key.ofText key).steps) t := rfl

theorem Distinct.put {t : Tree} (h : Distinct t) (key : String) (v : Tree) :
    Distinct (t.put key v) := by
  rw [put_eq]
  constructor
  · rw [members_alterMember]
    exact names_alter _ _ h.names
  · have hnull : (null.members.map (·.1)).Nodup := List.nodup_nil
    rw [members_alterMember]
    exact forall_alter (P := fun u => (u.members.map (·.1)).Nodup) (names_alterAt hnull v _)
      (fun u hu => names_alterAt hu v _) _ h.inner

theorem isTable_put (t : Tree) (key : String) (v : Tree) : (t.put key v).isTable = true :=
  isTable_alterMember _ _ t

theorem Distinct.putAll {t : Tree} (h : Distinct t) (htable : t.isTable = true) (layer : Layer) :
    Distinct (t.putAll layer) ∧ (t.putAll layer).isTable = true := by
  unfold Tree.putAll
  induction layer generalizing t with
  | nil => exact ⟨h, htable⟩
  | cons m layer ih => exact ih (h.put m.1 m.2) (isTable_put t m.1 m.2)

theorem distinct_layered (layers : List Layer) :
    Distinct (layered layers) ∧ (layered layers).isTable = true := by
  have hempty : Distinct .empty := ⟨List.nodup_nil, by simp [empty, members]⟩
  have htable : isTable .empty = true := rfl
  unfold layered
  generalize Tree.empty = t at hempty htable
  induction layers generalizing t with
  | nil => exact ⟨hempty, htable⟩
  | cons layer layers ih =>
    obtain ⟨hdistinct, htable⟩ := hempty.putAll htable layer
    exact ih _ hdistinct htable

/-! ## Settings -/

theorem setting?_alter (root : String) (f : Tree → Tree) (ms : List (String × Tree))
    (r n : String) : Layer.setting? (alter root f ms) r n =
      if r = root then (f ((ms.lookup root).getD null)).members.lookup n
      else Layer.setting? ms r n := by
  unfold Layer.setting?
  rw [lookup_alter]
  split <;> rfl

theorem setting?_getD (t : Tree) (root name : String) :
    ((t.members.lookup root).getD null).members.lookup name =
      Layer.setting? t.members root name := by
  unfold Layer.setting?
  cases t.members.lookup root <;> rfl

/-! ## Origins -/

theorem saidMembers_eq (origin : String) (ms : List (String × Tree)) :
    saidMembers origin ms = ms.map fun m => (m.1, said origin m.2) := by
  induction ms with
  | nil => rfl
  | cons m ms ih => rw [saidMembers, List.map_cons, ih]

theorem lookup_said (origin : String) (ms : List (String × Tree)) (n : String) :
    (saidMembers origin ms).lookup n = (ms.lookup n).map (said origin) := by
  induction ms with
  | nil => rfl
  | cons m ms ih =>
    obtain ⟨name, t⟩ := m
    rw [saidMembers, lookup_cons, lookup_cons, ih]
    split <;> rfl

theorem members_said (origin : String) (t : Tree) :
    (said origin t).members = saidMembers origin t.members := by
  cases t <;> rfl

theorem setting?_said (origin : String) (layer : Layer) (r n : String) :
    Layer.setting? (saidMembers origin layer) r n =
      (Layer.setting? layer r n).map (said origin) := by
  unfold Layer.setting?
  rw [lookup_said]
  cases layer.lookup r with
  | none => rfl
  | some t => simp [members_said, lookup_said]

/-! ## Sections -/

/-- A table under a name that is no path, with a value for each name. -/
structure IsSection (m : String × Tree) : Prop where
  table : m.2.isTable = true
  names : (m.2.members.map (·.1)).Nodup
  plain : Key.ofText m.1 = ⟨m.1, []⟩

theorem isSection_said {layer : Layer} (origin : String) (h : ∀ m ∈ layer, IsSection m) :
    ∀ m ∈ saidMembers origin layer, IsSection m := by
  rw [saidMembers_eq, List.forall_mem_map]
  intro m hm
  obtain ⟨htable, hnames, hplain⟩ := h m hm
  refine ⟨?_, ?_, hplain⟩
  · cases hm : m.2 <;> simp_all [said, isTable]
  · rw [members_said, saidMembers_eq, List.map_map]
    exact hnames

theorem saidMembers_names (origin : String) (ms : List (String × Tree)) :
    (saidMembers origin ms).map (·.1) = ms.map (·.1) := by
  rw [saidMembers_eq, List.map_map]
  rfl

theorem setting?_put_section {root : String} {section' : Tree} (h : IsSection (root, section'))
    (t : Tree) (r n : String) : Layer.setting? (t.put root section').members r n =
      if r = root then overlaid (Layer.setting? t.members r n) (section'.members.lookup n)
      else Layer.setting? t.members r n := by
  unfold put
  rw [h.plain]
  simp only [alterAt, members_alterMember, setting?_alter]
  split
  · rename_i hr
    rw [members_laidOver h.table, lookup_overMembers h.names, setting?_getD, hr]
  · rfl

theorem setting?_put_pair {key root name : String} (hkey : Key.ofText key = ⟨root, [.member name]⟩)
    (v t : Tree) (r n : String) : Layer.setting? (t.put key v).members r n =
      if r = root ∧ n = name then overlaid (Layer.setting? t.members r n) (some v)
      else Layer.setting? t.members r n := by
  unfold put
  rw [hkey]
  simp only [alterAt, members_alterMember, setting?_alter, lookup_alter]
  by_cases hr : r = root
  · subst hr
    by_cases hn : n = name
    · subst hn
      simp [setting?_getD, overlaid]
    · simp [hn, setting?_getD]
  · simp [hr]

theorem setting?_putAll_sections {layer : Layer} (hnames : (layer.map (·.1)).Nodup)
    (h : ∀ m ∈ layer, IsSection m) (t : Tree) (r n : String) :
    Layer.setting? (t.putAll layer).members r n =
      overlaid (Layer.setting? t.members r n) (layer.setting? r n) := by
  unfold putAll
  induction layer generalizing t with
  | nil => rfl
  | cons m layer ih =>
    obtain ⟨root, s⟩ := m
    rw [List.map_cons, List.nodup_cons] at hnames
    obtain ⟨hm, hlayer⟩ := List.forall_mem_cons.mp h
    rw [List.foldl_cons, ih hnames.2 hlayer, setting?_put_section hm]
    by_cases hr : r = root
    · subst hr
      simp [Layer.setting?, lookup_eq_none hnames.1, overlaid]
    · simp [Layer.setting?, hr, lookup_cons]

end Tree

/-- What a layer of whole keys says under a name of a section. -/
def Layer.keyed? (layer : Layer) (root name : String) : Option Tree :=
  (layer.find? fun m => Key.ofText m.1 = ⟨root, [.member name]⟩).map (·.2)

namespace Tree

theorem setting?_putAll_pairs {layer : Layer} (hkeys : (layer.map (Key.ofText ·.1)).Nodup)
    (h : ∀ m ∈ layer, ∃ root name, Key.ofText m.1 = ⟨root, [.member name]⟩) (t : Tree)
    (r n : String) : Layer.setting? (t.putAll layer).members r n =
      overlaid (Layer.setting? t.members r n) (layer.keyed? r n) := by
  unfold putAll
  induction layer generalizing t with
  | nil => rfl
  | cons m layer ih =>
    rw [List.map_cons, List.nodup_cons] at hkeys
    obtain ⟨⟨root, name, hkey⟩, hlayer⟩ := List.forall_mem_cons.mp h
    rw [List.foldl_cons, ih hkeys.2 hlayer, setting?_put_pair hkey]
    by_cases hsame : r = root ∧ n = name
    · obtain ⟨rfl, rfl⟩ := hsame
      have habsent : layer.find? (fun m => Key.ofText m.1 = ⟨r, [.member n]⟩) = none := by
        rw [List.find?_eq_none]
        intro m' hm' hkey'
        refine hkeys.1 (List.mem_map.mpr ⟨m', hm', ?_⟩)
        rw [hkey, of_decide_eq_true hkey']
      simp [Layer.keyed?, habsent, hkey, overlaid]
    · have hother : Key.ofText m.1 ≠ ⟨r, [.member n]⟩ := by
        rw [hkey]
        simpa [eq_comm] using hsame
      simp [Layer.keyed?, hsame, hother]

/-! ## Sections stay tables -/

/-- Every member is a table. -/
def Sectioned (t : Tree) : Prop := ∀ m ∈ t.members, m.2.isTable = true

theorem sectioned_alterMember {t : Tree} (h : Sectioned t) {f : Tree → Tree}
    (hf : ∀ u, (f u).isTable = true) (name : String) : Sectioned (alterMember name f t) := by
  unfold Sectioned
  rw [members_alterMember]
  exact forall_alter (P := (·.isTable = true)) (hf _) (fun u _ => hf u) name h

/-- A member of a layer that leaves sections what they are. -/
def IsPlain (m : String × Tree) : Prop :=
  IsSection m ∨ ∃ root name, Key.ofText m.1 = ⟨root, [.member name]⟩

theorem sectioned_put {t : Tree} (ht : Sectioned t) {m : String × Tree} (hm : IsPlain m) :
    Sectioned (t.put m.1 m.2) := by
  unfold put
  rcases hm with hm | ⟨root, name, hkey⟩
  · rw [hm.plain]
    exact sectioned_alterMember ht (fun u => by rw [alterAt, isTable_laidOver, hm.table]) _
  · rw [hkey]
    exact sectioned_alterMember ht (fun u => isTable_alterMember name _ u) _

theorem sectioned_putAll {layer : Layer} {t : Tree} (ht : Sectioned t)
    (h : ∀ m ∈ layer, IsPlain m) : Sectioned (t.putAll layer) := by
  unfold putAll
  induction layer generalizing t with
  | nil => exact ht
  | cons m layer ih =>
    obtain ⟨hm, hlayer⟩ := List.forall_mem_cons.mp h
    exact ih (sectioned_put ht hm) hlayer

end Tree

/-! ## Trees over each other -/

namespace Tree

theorem sectioned_laidOver {below t : Tree} (hbelow : Sectioned below) (ht : Sectioned t)
    (htable : t.isTable = true) : Sectioned (laidOver below t) := by
  unfold Sectioned at *
  rw [members_laidOver htable]
  generalize below.members = done at hbelow
  generalize t.members = ms at ht
  induction ms generalizing done with
  | nil => exact hbelow
  | cons m ms ih =>
    obtain ⟨hm, hms⟩ := List.forall_mem_cons.mp ht
    have hover : ∀ u, (laidOver u m.2).isTable = true := fun u => by rw [isTable_laidOver, hm]
    exact ih _ (forall_alter (P := (·.isTable = true)) (hover _) (fun u _ => hover u) m.1 hbelow)
      hms

theorem setting?_laidOver {below t : Tree} (htable : t.isTable = true) (hnames : Distinct t)
    (hsections : Sectioned t) (r n : String) :
    Layer.setting? (laidOver below t).members r n =
      overlaid (Layer.setting? below.members r n) (Layer.setting? t.members r n) := by
  unfold Layer.setting?
  rw [members_laidOver htable, lookup_overMembers hnames.names]
  cases hroot : t.members.lookup r with
  | none => rfl
  | some s =>
    have hs : (r, s) ∈ t.members := mem_of_lookup hroot
    simp only [overlaid, Option.bind_some]
    rw [members_laidOver (hsections _ hs), lookup_overMembers (hnames.inner _ hs), setting?_getD]
    rfl

end Tree

/-! ## What stays said -/

/-- A key that leads past a setting: into another section, or to another member of its own. -/
def Key.Misses (key : Key) (root name : String) : Prop :=
  key.root ≠ root ∨ ∃ other rest, key.steps = .member other :: rest ∧ other ≠ name

namespace Tree

/-- A section is a table and says this of a setting. -/
structure Holds (root name : String) (v t : Tree) : Prop where
  table : ∃ s, t.members.lookup root = some s ∧ s.isTable = true
  said : Layer.setting? t.members root name = some v

variable {root name : String} {v t : Tree}

theorem Holds.put_missed {m : String × Tree} (h : Holds root name v t)
    (hm : (Key.ofText m.1).Misses root name) : Holds root name v (t.put m.1 m.2) := by
  obtain ⟨⟨s, hs, htable⟩, hsaid⟩ := h
  unfold Tree.put
  generalize Key.ofText m.1 = key at hm
  obtain ⟨first, steps⟩ := key
  simp only [alterAt]
  by_cases hfirst : root = first
  · obtain hother | ⟨other, rest, hsteps, hother⟩ := hm
    · exact absurd hfirst.symm hother
    · obtain rfl : steps = .member other :: rest := hsteps
      constructor
      · refine ⟨alterMember other (alterAt (fun below => laidOver below m.2) rest) s, ?_,
          isTable_alterMember _ _ _⟩
        rw [members_alterMember, lookup_alter, if_pos hfirst, ← hfirst, hs]
        rfl
      · rw [members_alterMember, setting?_alter, if_pos hfirst, alterAt, members_alterMember,
          lookup_alter, if_neg hother.symm, setting?_getD, ← hfirst, hsaid]
  · constructor
    · exact ⟨s, by rw [members_alterMember, lookup_alter, if_neg hfirst, hs], htable⟩
    · rw [members_alterMember, setting?_alter, if_neg hfirst, hsaid]

theorem Holds.putAll_missed {layer : Layer} (h : Holds root name v t)
    (hlayer : ∀ m ∈ layer, (Key.ofText m.1).Misses root name) :
    Holds root name v (t.putAll layer) := by
  unfold Tree.putAll
  induction layer generalizing t with
  | nil => exact h
  | cons m layer ih =>
    obtain ⟨hm, hrest⟩ := List.forall_mem_cons.mp hlayer
    exact ih (h.put_missed hm) hrest

/-- A layer says of a setting what one of its members does, if those behind it lead past it. -/
theorem holds_putAll {front back : Layer} {key : String} {value : Tree}
    (hvalue : ∀ t : Tree, Holds root name v (t.put key value))
    (hback : ∀ m ∈ back, (Key.ofText m.1).Misses root name) (t : Tree) :
    Holds root name v (t.putAll (front ++ (key, value) :: back)) := by
  have hsplit : t.putAll (front ++ (key, value) :: back) =
      (((t.putAll front).put key value).putAll back) := by
    unfold Tree.putAll
    rw [List.foldl_append, List.foldl_cons]
  rw [hsplit]
  exact (hvalue _).putAll_missed hback

theorem holds_put_pair {key : String} (hkey : Key.ofText key = ⟨root, [.member name]⟩)
    (origin : Option String) (s : Scalar) (t : Tree) :
    Holds root name (.scalar origin s) (t.put key (.scalar origin s)) where
  table := by
    unfold Tree.put
    rw [hkey]
    simp only [alterAt, members_alterMember, lookup_alter, if_true]
    exact ⟨_, rfl, isTable_alterMember _ _ _⟩
  said := by
    rw [setting?_put_pair hkey, if_pos ⟨rfl, rfl⟩]
    rfl

theorem holds_put_section {section' : Tree} (h : IsSection (root, section'))
    {origin : Option String} {s : Scalar}
    (hname : section'.members.lookup name = some (.scalar origin s)) (t : Tree) :
    Holds root name (.scalar origin s) (t.put root section') where
  table := by
    unfold Tree.put
    rw [h.plain]
    simp only [alterAt, members_alterMember, lookup_alter, if_true]
    exact ⟨_, rfl, (isTable_laidOver _ _).trans h.table⟩
  said := by
    rw [setting?_put_section h, if_pos rfl, hname]
    rfl

/-- What a tree says of a setting it says over another. -/
theorem Holds.laidOver {origin : Option String} {s : Scalar}
    (h : Holds root name (.scalar origin s) t) (htable : t.isTable = true) (hnames : Distinct t)
    (below : Tree) : Holds root name (.scalar origin s) (laidOver below t) := by
  obtain ⟨⟨section', hsection, hsectiontable⟩, hsaid⟩ := h
  have hmem : (root, section') ∈ t.members := mem_of_lookup hsection
  have hname : section'.members.lookup name = some (.scalar origin s) := by
    rw [Layer.setting?, hsection] at hsaid
    exact hsaid
  have hover : (Tree.laidOver below t).members.lookup root =
      some (Tree.laidOver ((below.members.lookup root).getD null) section') := by
    rw [members_laidOver htable, lookup_overMembers hnames.names, hsection]
    rfl
  constructor
  · exact ⟨_, hover, (isTable_laidOver _ _).trans hsectiontable⟩
  · rw [Layer.setting?, hover, Option.bind_some, members_laidOver hsectiontable,
      lookup_overMembers (hnames.inner _ hmem), hname]
    rfl

theorem holds_putAll_sections {layer : Layer} (hnames : (layer.map (·.1)).Nodup)
    (h : ∀ m ∈ layer, IsSection m) {origin : Option String} {s : Scalar}
    (hsaid : layer.setting? root name = some (.scalar origin s)) (t : Tree) :
    Holds root name (.scalar origin s) (t.putAll layer) := by
  obtain ⟨section', hroot, hname⟩ := Option.bind_eq_some_iff.mp hsaid
  obtain ⟨front, back, rfl, -⟩ := List.lookup_eq_some_iff.mp hroot
  have hsection : IsSection (root, section') := h _ (by simp)
  refine holds_putAll (holds_put_section hsection hname) (fun m hm => .inl ?_) t
  rw [(h m (by simp [hm])).plain]
  rintro rfl
  simp only [List.map_append, List.map_cons, List.nodup_append, List.nodup_cons] at hnames
  exact hnames.2.1.1 (List.mem_map_of_mem hm)

end Tree

end PoolWatch.Config
