import Mathlib.Data.List.Nodup
import PoolWatch.Toml.Reader

/-!
# Names are given once

A table of a document has one member for each name, and so has each table in it.
-/

namespace PoolWatch.Toml

open Config

inductive Node.Distinct : Node → Prop
  | value {v : Tree} : (v.members.map (·.1)).Nodup → Node.Distinct (.value v)
  | table {making : Making} {members : Members} : (members.map (·.1)).Nodup →
    (∀ m ∈ members, Node.Distinct m.2) → Node.Distinct (.table making members)
  | tables {last : Members} {earlier : List Node} : (last.map (·.1)).Nodup →
    (∀ m ∈ last, Node.Distinct m.2) → Node.Distinct (.tables last earlier)

def Distinct (members : Members) : Prop :=
  (members.map (·.1)).Nodup ∧ ∀ m ∈ members, m.2.Distinct

/-- A change of a table that keeps it so. -/
def Keeps (change : Members → Option Members) : Prop :=
  ∀ members members', Distinct members → change members = some members' → Distinct members'

/-! ## Trees -/

theorem membersToTrees_names (members : Members) :
    (membersToTrees members).map (·.1) = members.map (·.1) := by
  induction members with
  | nil => rfl
  | cons m members ih => rw [membersToTrees, List.map_cons, List.map_cons, ih]

theorem mem_membersToTrees {members : Members} {t : String × Tree}
    (h : t ∈ membersToTrees members) : ∃ m ∈ members, t = (m.1, m.2.toTree) := by
  induction members with
  | nil => simp [membersToTrees] at h
  | cons m members ih =>
    rw [membersToTrees, List.mem_cons] at h
    rcases h with rfl | h
    · exact ⟨m, List.mem_cons_self, rfl⟩
    · obtain ⟨m', hm', ht⟩ := ih h
      exact ⟨m', List.mem_cons_of_mem _ hm', ht⟩

theorem Node.Distinct.toTree {node : Node} (h : node.Distinct) :
    (node.toTree.members.map (·.1)).Nodup := by
  cases h with
  | value hv => exact hv
  | table hnames _ =>
    rw [Node.toTree, Tree.members, membersToTrees_names]
    exact hnames
  | tables _ _ => simp [Node.toTree, Tree.members]

/-! ## Members -/

theorem mem_of_lookup {members : Members} {name : String} {node : Node}
    (h : members.lookup name = some node) : (name, node) ∈ members := by
  obtain ⟨front, back, hsplit, -⟩ := List.lookup_eq_some_iff.mp h
  rw [hsplit]
  exact List.mem_append_right _ List.mem_cons_self

theorem setMember_names (name : String) (node : Node) (members : Members) :
    (setMember name node members).map (·.1) =
      if name ∈ members.map (·.1) then members.map (·.1) else members.map (·.1) ++ [name] := by
  induction members with
  | nil => simp [setMember]
  | cons m members ih =>
    unfold setMember
    by_cases hm : m.1 = name
    · simp [hm]
    · simp only [hm, if_false, List.map_cons, List.mem_cons, Ne.symm hm, false_or, ih]
      split <;> simp

theorem mem_setMember {name : String} {node : Node} {members : Members} {m : String × Node}
    (h : m ∈ setMember name node members) : m ∈ members ∨ m.2 = node := by
  induction members with
  | nil =>
    rw [setMember, List.mem_singleton] at h
    exact .inr (by rw [h])
  | cons m' members ih =>
    unfold setMember at h
    split at h
    · rcases List.mem_cons.mp h with rfl | h
      · exact .inr rfl
      · exact .inl (List.mem_cons_of_mem _ h)
    · rcases List.mem_cons.mp h with rfl | h
      · exact .inl List.mem_cons_self
      · exact (ih h).imp_left (List.mem_cons_of_mem _)

theorem distinct_setMember {members : Members} (h : Distinct members) {node : Node}
    (hnode : node.Distinct) (name : String) : Distinct (setMember name node members) := by
  constructor
  · rw [setMember_names]
    split
    · exact h.1
    · rename_i hnew
      exact List.Nodup.append h.1 (List.nodup_singleton name) (by simpa using hnew)
  · intro m hm
    rcases mem_setMember hm with hm | hm
    · exact h.2 m hm
    · rw [hm]
      exact hnode

theorem distinct_nil : Distinct [] := ⟨List.nodup_nil, by simp⟩

theorem Distinct.table {members : Members} (h : Distinct members) (making : Making) :
    (Node.table making members).Distinct := .table h.1 h.2

theorem Distinct.tables {last : Members} (h : Distinct last) (earlier : List Node) :
    (Node.tables last earlier).Distinct := .tables h.1 h.2

/-! ## Changes -/

theorem keeps_alterAt {made : Making} {admits : Node → Bool} {change : Members → Option Members}
    (hchange : Keeps change) (path : List String) : Keeps (alterAt made admits change path) := by
  induction path with
  | nil => exact hchange
  | cons name path ih =>
    intro members members' h hmembers
    unfold alterAt at hmembers
    split at hmembers
    · obtain ⟨inner, hinner, rfl⟩ := Option.map_eq_some_iff.mp hmembers
      exact distinct_setMember h ((ih _ _ distinct_nil hinner).table made) name
    rename_i node hlookup
    have hnode := h.2 _ (mem_of_lookup hlookup)
    split at hmembers
    · cases hnode with
      | value _ => simp at hmembers
      | table hnames hnodes =>
        obtain ⟨inner, hinner, rfl⟩ := Option.map_eq_some_iff.mp hmembers
        exact distinct_setMember h ((ih _ _ ⟨hnames, hnodes⟩ hinner).table _) name
      | tables hnames hnodes =>
        obtain ⟨inner, hinner, rfl⟩ := Option.map_eq_some_iff.mp hmembers
        exact distinct_setMember h ((ih _ _ ⟨hnames, hnodes⟩ hinner).tables _) name
    · simp at hmembers

theorem keeps_openTable (name : String) : Keeps (openTable name) := by
  intro members members' h hopen
  unfold openTable at hopen
  split at hopen
  · obtain rfl := Option.some.inj hopen
    exact distinct_setMember h (distinct_nil.table _) name
  · rename_i inner hlookup
    obtain rfl := Option.some.inj hopen
    have hnode := h.2 _ (mem_of_lookup hlookup)
    cases hnode with
    | table hnames hnodes => exact distinct_setMember h (.table hnames hnodes) name
  · simp at hopen

theorem keeps_openAnother (name : String) : Keeps (openAnother name) := by
  intro members members' h hopen
  unfold openAnother at hopen
  split at hopen
  · obtain rfl := Option.some.inj hopen
    exact distinct_setMember h (distinct_nil.tables _) name
  · obtain rfl := Option.some.inj hopen
    exact distinct_setMember h (distinct_nil.tables _) name
  · simp at hopen

theorem keeps_addValue {v : Tree} (hv : (v.members.map (·.1)).Nodup) (name : String) :
    Keeps (addValue name v) := by
  intro members members' h hadd
  unfold addValue at hadd
  split at hadd
  · obtain rfl := Option.some.inj hadd
    exact distinct_setMember h (.value hv) name
  · simp at hadd

theorem keeps_atLast {way : List String → (Members → Option Members) → Members → Option Members}
    {act : String → Members → Option Members}
    (hway : ∀ path change, Keeps change → Keeps (way path change)) (hact : ∀ name, Keeps (act name))
    (path : List String) : Keeps (atLast way act path) := by
  intro members members' h hlast
  unfold atLast at hlast
  split at hlast
  · exact hway _ _ (hact _) members members' h hlast
  · simp at hlast

theorem keeps_assign {v : Tree} (hv : (v.members.map (·.1)).Nodup) (key : List String) :
    Keeps (assign key v) :=
  keeps_atLast (fun path _ hchange => keeps_alterAt hchange path) (keeps_addValue hv) key

/-! ## Values -/

theorem distinct_names {members : Members} (h : Distinct members) :
    ((Tree.table none (membersToTrees members)).members.map (·.1)).Nodup := by
  rw [Tree.members, membersToTrees_names]
  exact h.1

theorem readItems_members {fuel : Nat} {before : List Tree} {cs rest : List Char} {v : Tree}
    (h : readItems fuel before cs = some (v, rest)) : v.members = [] := by
  induction fuel generalizing before cs with
  | zero => simp [readItems] at h
  | succ fuel ih =>
    unfold readItems at h
    split at h
    · obtain ⟨rfl, -⟩ := Prod.mk.inj (Option.some.inj h)
      rfl
    · split at h
      · simp at h
      split at h
      · obtain ⟨rfl, -⟩ := Prod.mk.inj (Option.some.inj h)
        rfl
      · exact ih h
      · simp at h
    · simp at h

theorem readValue_distinct (fuel : Nat) :
    (∀ cs v rest, readValue fuel cs = some (v, rest) → (v.members.map (·.1)).Nodup) ∧
    (∀ before cs v rest, Distinct before → readFields fuel before cs = some (v, rest) →
      (v.members.map (·.1)).Nodup) := by
  induction fuel with
  | zero => simp [readValue, readFields]
  | succ fuel ih =>
    obtain ⟨ihvalue, ihfields⟩ := ih
    refine ⟨?_, ?_⟩
    · intro cs v rest h
      unfold readValue at h
      split at h
      · rw [readItems_members h]
        exact List.nodup_nil
      · exact ihfields _ _ _ _ distinct_nil h
      · split at h
        all_goals
          obtain ⟨_, -, hv⟩ := Option.map_eq_some_iff.mp h
          obtain ⟨rfl, -⟩ := Prod.mk.inj hv
          exact List.nodup_nil
      · simp at h
    · intro before cs v rest hbefore h
      unfold readFields at h
      split at h
      · obtain ⟨rfl, -⟩ := Prod.mk.inj (Option.some.inj h)
        exact distinct_names hbefore
      · split at h
        · split at h
          · simp at h
          rename_i hvalue
          have hkeeps := keeps_assign (ihvalue _ _ _ hvalue)
          split at h
          · rename_i hassign _
            obtain ⟨rfl, -⟩ := Prod.mk.inj (Option.some.inj h)
            exact distinct_names (hkeeps _ _ _ hbefore hassign)
          · rename_i hassign _
            exact ihfields _ _ _ _ (hkeeps _ _ _ hbefore hassign) h
          · simp at h
        · simp at h
      · simp at h

/-! ## Lines -/

theorem keeps_byHeader (path : List String) (change : Members → Option Members)
    (hchange : Keeps change) : Keeps (byHeader path change) :=
  keeps_alterAt hchange path

theorem Keeps.draft {change : Members → Option Members} (hchange : Keeps change) {d d' : Draft}
    (hd : Distinct d.members) {path : List String} {rest rest' : List Char}
    (h : ((change d.members).map fun members => (⟨path, members⟩, rest)) = some (d', rest')) :
    Distinct d'.members := by
  obtain ⟨members, hmembers, hdraft⟩ := Option.map_eq_some_iff.mp h
  obtain ⟨rfl, -⟩ := Prod.mk.inj hdraft
  exact hchange _ _ hd hmembers

theorem readLine_distinct {cs rest : List Char} {d d' : Draft} (hd : Distinct d.members)
    (h : readLine cs d = some (d', rest)) : Distinct d'.members := by
  unfold readLine at h
  split at h
  case h_5 =>
    unfold readListHeader at h
    split at h
    · exact (keeps_atLast keeps_byHeader keeps_openAnother _).draft hd h
    · simp at h
  case h_6 =>
    unfold readHeader at h
    split at h
    · exact (keeps_atLast keeps_byHeader keeps_openTable _).draft hd h
    · simp at h
  case h_7 =>
    unfold readAssignment at h
    split at h
    · split at h
      · rename_i hvalue
        have hv := (readValue_distinct _).1 _ _ _ hvalue
        exact (keeps_byHeader _ _ (keeps_assign hv _)).draft hd h
      · simp at h
    · simp at h
  -- a line without a key leaves the draft as it is
  all_goals
    obtain ⟨rfl, -⟩ := Prod.mk.inj (Option.some.inj h)
    exact hd

theorem readLines_distinct {fuel : Nat} {cs : List Char} {d : Draft} {members : Members}
    (hd : Distinct d.members) (h : readLines fuel cs d = some members) : Distinct members := by
  induction fuel generalizing cs d with
  | zero =>
    cases cs with
    | nil =>
      rw [← Option.some.inj h]
      exact hd
    | cons => simp [readLines] at h
  | succ fuel ih =>
    cases cs with
    | nil =>
      rw [← Option.some.inj h]
      exact hd
    | cons =>
      unfold readLines at h
      split at h
      · simp at h
      rename_i d' rest hline
      split at h
      · exact ih (readLine_distinct hd hline) h
      · simp at h

theorem read_distinct {cs : List Char} {layer : List (String × Tree)} (h : read cs = some layer) :
    (layer.map (·.1)).Nodup ∧ ∀ m ∈ layer, (m.2.members.map (·.1)).Nodup := by
  obtain ⟨members, hlines, rfl⟩ := Option.map_eq_some_iff.mp h
  obtain ⟨hnames, hnodes⟩ := readLines_distinct distinct_nil hlines
  refine ⟨by rw [membersToTrees_names]; exact hnames, ?_⟩
  intro m hm
  obtain ⟨node, hnode, rfl⟩ := mem_membersToTrees hm
  exact (hnodes node hnode).toTree

end PoolWatch.Toml
