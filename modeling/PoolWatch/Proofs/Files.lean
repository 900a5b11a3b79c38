import PoolWatch.Config.Source
import PoolWatch.Proofs.Config.Layers
import PoolWatch.Proofs.Form

/-!
# The files of a folder

However a folder is written, its files are told apart by their names. To write one of them changes
no other file, and does not stand in the way of writing it again.
-/

namespace PoolWatch

namespace Text

variable {α : Type} {isSeparator : α → Bool}

theorem splitFrom_concat {mark : α} (hmark : isSeparator mark = true) (cs rest begun : List α) :
    splitFrom isSeparator begun (cs ++ mark :: rest) =
      splitFrom isSeparator begun cs ++ split isSeparator rest := by
  induction cs generalizing begun with
  | nil => simp [splitFrom, hmark, split]
  | cons c cs ih =>
    rw [List.cons_append, splitFrom, splitFrom]
    split
    · rw [ih, List.cons_append]
    · rw [ih]

end Text

namespace Path

/-- What a file of a folder may be named. -/
def IsName (name : String) : Prop := '/' ∉ name.toList ∧ name ∉ ["", ".", ".."]

instance (name : String) : Decidable (IsName name) := inferInstanceAs (Decidable (_ ∧ _))

theorem IsName.ne {name : String} (h : IsName name) : name ≠ "" ∧ name ≠ "." ∧ name ≠ ".." := by
  simpa using h.2

theorem names_name {name : String} (h : IsName name) : names name = [name] := by
  have hplain : ∀ c ∈ name.toList, (c == '/') = false := by
    intro c hc
    rw [beq_eq_false_iff_ne]
    rintro rfl
    exact h.1 hc
  unfold names
  rw [Text.split_last hplain]
  simp [h.ne.1, h.ne.2.1]

theorem names_append (dir rest : List Char) :
    names (String.ofList (dir ++ '/' :: rest)) =
      names (String.ofList dir) ++ names (String.ofList rest) := by
  unfold names
  rw [String.toList_ofList, String.toList_ofList, String.toList_ofList, Text.split,
    Text.splitFrom_concat rfl, List.map_append, List.filter_append, Text.split, Text.split]

theorem resolveFrom_concat {name : String} (h : name ≠ "..") (done ns : List String) :
    resolveFrom done (ns ++ [name]) = resolveFrom done ns ++ [name] := by
  induction ns generalizing done with
  | nil => simp [resolveFrom, h]
  | cons n ns ih =>
    rw [List.cons_append, resolveFrom, resolveFrom]
    split
    · exact ih _
    · exact ih _

theorem intercalate_concat (ns : List (List Char)) (name : List Char) :
    ['/'].intercalate (ns ++ [name]) = ns.flatMap (· ++ ['/']) ++ name := by
  induction ns with
  | nil => simp [List.intercalate]
  | cons n ns ih =>
    obtain ⟨next, more, hmore⟩ := List.exists_cons_of_ne_nil (List.concat_ne_nil name ns)
    rw [List.cons_append, hmore, List.intercalate_cons_cons, ← hmore, ih]
    simp

theorem ofNames_concat (rooted : Bool) (ns : List String) (name : String) :
    ofNames rooted (ns ++ [name]) =
      (if rooted then "/" else "") ++ String.ofList ((ns.map String.toList).flatMap (· ++ ['/'])) ++
        name := by
  have hslash : "/".toList = ['/'] := rfl
  unfold ofNames
  rw [String.append_assoc]
  congr 1
  rw [← String.toList_inj, String.toList_intercalate, List.map_append, hslash, List.map_singleton,
    intercalate_concat, String.toList_append, String.toList_ofList]

theorem names_join (folder : String) {name : String} (h : IsName name) :
    names (join folder name) = names folder ++ [name] := by
  rw [← names_name h]
  unfold join
  split
  case isTrue hempty =>
    obtain rfl := String.isEmpty_iff.mp hempty
    rfl
  case isFalse =>
    split
    case isTrue hslash =>
      obtain ⟨dir, hdir⟩ := List.getLast?_eq_some_iff.mp hslash
      have hfolder : names folder = names (String.ofList dir) := by
        rw [← folder.ofList_toList, hdir, names_append]
        exact List.append_nil _
      have hjoined : folder ++ name = String.ofList (dir ++ '/' :: name.toList) := by
        rw [← String.toList_inj, String.toList_append, hdir]
        simp
      rw [hjoined, names_append, hfolder, String.ofList_toList]
    case isFalse =>
      have hjoined : folder ++ "/" ++ name =
          String.ofList (folder.toList ++ '/' :: name.toList) := by
        rw [← String.toList_inj]
        simp [String.toList_append]
      rw [hjoined, names_append, String.ofList_toList, String.ofList_toList]

theorem isRooted_join (folder : String) {name : String} (h : IsName name) :
    isRooted (join folder name) = isRooted folder := by
  have hmore : ∀ rest : String, folder.isEmpty = false →
      isRooted (folder ++ rest) = isRooted folder := by
    intro rest hfolder
    unfold isRooted
    rw [String.toList_append, List.head?_append]
    cases hcs : folder.toList with
    | nil => simp [String.toList_eq_nil_iff.mp hcs] at hfolder
    | cons c cs => rfl
  unfold join
  split
  case isTrue hempty =>
    obtain rfl := String.isEmpty_iff.mp hempty
    have hslash : name.toList.head? ≠ some '/' := fun hhead => h.1 (List.mem_of_head? hhead)
    simp [isRooted, hslash]
  case isFalse hfull =>
    rw [Bool.not_eq_true] at hfull
    split
    · exact hmore name hfull
    · rw [String.append_assoc]
      exact hmore _ hfull

theorem resolved_join (folder : String) {name : String} (h : IsName name) :
    resolved (join folder name) =
      ofNames (isRooted folder) (resolveFrom [] (names folder) ++ [name]) := by
  rw [resolved, names_join folder h, isRooted_join folder h, resolveFrom_concat h.ne.2.2]

theorem exists_path (folder : String) :
    ∃ dir : String, ∀ name, IsName name → resolved (join folder name) = dir ++ name :=
  ⟨_, fun name h => by rw [resolved_join folder h, ofNames_concat]⟩

theorem length_intercalate_le (ns : List (List Char)) :
    (['/'].intercalate ns).length ≤ (ns.flatMap (· ++ ['/'])).length := by
  rcases ns.eq_nil_or_concat with rfl | ⟨before, last, rfl⟩
  · simp [List.intercalate]
  · rw [List.concat_eq_append, intercalate_concat]
    simp

theorem length_resolved_lt (folder : String) {name : String} (h : IsName name) :
    (resolved folder).toList.length < (resolved (join folder name)).toList.length := by
  have hname : 0 < name.toList.length := by
    rw [List.length_pos_iff, ne_eq, String.toList_eq_nil_iff]
    exact h.ne.1
  have hslash : "/".toList = ['/'] := rfl
  have hbefore := length_intercalate_le ((resolveFrom [] (names folder)).map String.toList)
  rw [resolved_join folder h, ofNames_concat, resolved, ofNames]
  simp only [String.toList_append, List.length_append, String.toList_ofList,
    String.toList_intercalate, hslash]
  omega

theorem join_append (folder name ending : String) :
    join folder name ++ ending = join folder (name ++ ending) := by
  unfold join
  split
  · rfl
  split
  · rw [String.append_assoc]
  · rw [String.append_assoc]

end Path

/-! ## Texts -/

namespace Files

/-- A folder with files of these names and nothing else. -/
def inFolder (folder : String) (named : List (String × String)) : Files :=
  ofTexts (named.map fun (name, text) => (Path.join folder name, text))

theorem text?_inFolder (folder : String) {named : List (String × String)}
    (hnamed : ∀ m ∈ named, Path.IsName m.1) {name : String} (h : Path.IsName name) :
    (inFolder folder named).text? (Path.join folder name) = named.lookup name := by
  obtain ⟨dir, hdir⟩ := Path.exists_path folder
  unfold text? inFolder ofTexts
  induction named with
  | nil => rfl
  | cons m named ih =>
    obtain ⟨other, text⟩ := m
    obtain ⟨hm, hrest⟩ := List.forall_mem_cons.mp hnamed
    have hsame : (dir ++ name == dir ++ other) = (name == other) := by
      rw [Bool.eq_iff_iff, beq_iff_eq, beq_iff_eq]
      exact String.append_right_inj dir
    simp only [List.map_cons, List.lookup_cons, hdir name h, hdir other hm, hsame]
    rw [← hdir name h, ih hrest]

/-! ## Writing -/

theorem lookup_put (path text : String) (texts : List (String × String)) (other : String) :
    (put path text texts).lookup other =
      if other = path then some text else texts.lookup other := by
  induction texts with
  | nil => exact Config.lookup_cons other path text []
  | cons m texts ih =>
    obtain ⟨p, old⟩ := m
    unfold put
    by_cases hp : p = path
    · subst hp
      by_cases hother : other = p <;> simp [Config.lookup_cons, hother]
    · rw [if_neg hp, Config.lookup_cons, Config.lookup_cons, ih]
      by_cases hother : other = p
      · subst hother
        simp [hp]
      · simp [hother]

theorem mem_put {path text : String} {texts : List (String × String)} {m : String × String}
    (h : m ∈ put path text texts) : m.1 = path ∨ m ∈ texts := by
  induction texts with
  | nil => exact .inl (congrArg Prod.fst (List.mem_singleton.mp h))
  | cons head texts ih =>
    obtain ⟨p, old⟩ := head
    unfold put at h
    split at h
    case isTrue hp =>
      rcases List.mem_cons.mp h with rfl | h
      · exact .inl hp
      · exact .inr (List.mem_cons_of_mem _ h)
    case isFalse =>
      rcases List.mem_cons.mp h with rfl | h
      · exact .inr List.mem_cons_self
      · exact (ih h).imp_right (List.mem_cons_of_mem _)

theorem put_self {path text : String} {texts : List (String × String)}
    (h : texts.lookup path = some text) : put path text texts = texts := by
  induction texts with
  | nil => cases h
  | cons m texts ih =>
    obtain ⟨p, old⟩ := m
    rw [Config.lookup_cons] at h
    unfold put
    by_cases hp : path = p
    · rw [if_pos hp] at h
      rw [if_pos hp.symm, Option.some.inj h]
    · rw [if_neg hp] at h
      rw [if_neg (Ne.symm hp), ih h]

variable {files files' : Files} {path text : String}

theorem makeFolder_eq_ok : files.makeFolder path = .ok files' ↔
    files.isFile path = false ∧ files.isBlocked path = false ∧ files = files' := by
  unfold makeFolder
  cases files.isFile path <;> cases files.isBlocked path <;> simp

theorem write_eq_ok : files.write path text = .ok files' ↔
    files.isFolder path = false ∧ ⟨put (Path.resolved path) text files.texts⟩ = files' := by
  unfold write
  cases files.isFolder path <;> simp

theorem text?_write (h : files.write path text = .ok files') (other : String) :
    files'.text? other = if Path.resolved other = Path.resolved path then some text
      else files.text? other := by
  obtain ⟨-, rfl⟩ := write_eq_ok.mp h
  exact lookup_put _ _ _ _

theorem not_beyond {p q : String} (h : q.toList.length ≤ p.toList.length) :
    (p ++ "/").toList.isPrefixOf q.toList = false := by
  rw [Bool.eq_false_iff]
  intro hbeyond
  have hlength := (List.isPrefixOf_iff_prefix.mp hbeyond).length_le
  rw [String.toList_append, List.length_append] at hlength
  have hslash : "/".toList.length = 1 := rfl
  omega

/-- To write the same once more changes nothing. -/
theorem write_again (h : files.write path text = .ok files') :
    files'.write path text = .ok files' := by
  obtain ⟨hfolder, hfiles⟩ := write_eq_ok.mp h
  have hsame : put (Path.resolved path) text files'.texts = files'.texts :=
    put_self ((text?_write h path).trans (if_pos rfl))
  refine write_eq_ok.mpr ⟨?_, by rw [hsame]⟩
  rw [isFolder, List.any_eq_false] at hfolder ⊢
  intro m hm
  rw [← hfiles] at hm
  rcases mem_put hm with hnew | hold
  · simp only [hnew, not_beyond (Nat.le_refl _), Bool.false_eq_true, not_false_iff]
  · exact hfolder m hold

theorem makeFolder_again {folder name : String} (hname : Path.IsName name)
    (hfolder : files.makeFolder folder = .ok files)
    (h : files.write (Path.join folder name) text = .ok files') :
    files'.makeFolder folder = .ok files' := by
  obtain ⟨hfile, hblocked, -⟩ := makeFolder_eq_ok.mp hfolder
  have hlonger := Path.length_resolved_lt folder hname
  refine makeFolder_eq_ok.mpr ⟨?_, ?_, rfl⟩
  · have hother : Path.resolved folder ≠ Path.resolved (Path.join folder name) :=
      fun hsame => Nat.lt_irrefl _ (hsame ▸ hlonger)
    rwa [isFile, text?_write h, if_neg hother]
  · obtain ⟨-, rfl⟩ := write_eq_ok.mp h
    rw [isBlocked, List.any_eq_false] at hblocked ⊢
    intro m hm
    rcases mem_put hm with hnew | hold
    · simp only [hnew, not_beyond (Nat.le_of_lt hlonger), Bool.false_eq_true, not_false_iff]
    · exact hblocked m hold

end Files

namespace Config

/-! ## Layers -/

section

variable {files : Files} {path : String}

theorem fileLayer?_none (h : findFile files path = none) : fileLayer? files path = some [] := by
  unfold fileLayer?
  rw [h]

theorem fileLayer?_found {found : String} {format : Format} {text : String}
    (h : findFile files path = some (found, format)) (htext : files.text? found = some text) :
    fileLayer? files path =
      (format.read (withoutMark text)).map (Tree.saidMembers (Path.plain found)) := by
  unfold fileLayer?
  rw [h]
  simp only [htext]

theorem findFile_bare (h : files.isFile path = true) : findFile files path = none := if_pos h

theorem findFile_absent (h : ∀ e ∈ endings, files.isFile (path ++ "." ++ e.1) = false) :
    findFile files path = none := by
  unfold findFile
  split
  · rfl
  · rw [List.find?_eq_none, List.forall_mem_map]
    intro e he
    simp [h e he]

/-- Where there is but one file for a path, the order of the endings does not matter. -/
theorem findFile_only (hbare : files.isFile path = false) {ending : String} {format : Format}
    (hending : (ending, format) ∈ endings) (hfile : files.isFile (path ++ "." ++ ending) = true)
    (honly : ∀ e ∈ endings, e.1 ≠ ending → files.isFile (path ++ "." ++ e.1) = false) :
    findFile files path = some (path ++ "." ++ ending, format) := by
  have hdistinct : ∀ e ∈ endings, ∀ e' ∈ endings, e.1 = e'.1 → e = e' := by decide
  unfold findFile
  rw [if_neg (by simp [hbare]), List.find?_map]
  cases hfind : endings.find? ((fun m : String × Format => files.isFile m.1) ∘
      fun e => (path ++ "." ++ e.1, e.2)) with
  | none =>
    have hnot := List.find?_eq_none.mp hfind _ hending
    simp only [Function.comp_apply] at hnot
    exact absurd hfile hnot
  | some e =>
    have hfound := List.find?_some hfind
    simp only [Function.comp_apply] at hfound
    have hmem := List.mem_of_find?_eq_some hfind
    have hsame : e.1 = ending := by
      by_contra hother
      simp [honly e hmem hother] at hfound
    rw [hdistinct e hmem _ hending hsame]
    rfl

end

variable {named : List (String × String)} {name : String}

theorem fileLayer?_absent (folder : String) (hnamed : ∀ m ∈ named, Path.IsName m.1)
    (hendings : ∀ e ∈ endings, Path.IsName (name ++ "." ++ e.1) ∧
      named.lookup (name ++ "." ++ e.1) = none) :
    fileLayer? (.inFolder folder named) (Path.join folder name) = some [] := by
  refine fileLayer?_none (findFile_absent fun e he => ?_)
  obtain ⟨hplain, hlookup⟩ := hendings e he
  rw [Path.join_append, Path.join_append, Files.isFile, Files.text?_inFolder folder hnamed hplain,
    hlookup]
  rfl

theorem fileLayer?_toml (folder : String) (hnamed : ∀ m ∈ named, Path.IsName m.1)
    (hname : Path.IsName name) (hnone : named.lookup name = none)
    (htoml : Path.IsName (name ++ ".toml")) {text : String}
    (hlookup : named.lookup (name ++ ".toml") = some text) :
    fileLayer? (.inFolder folder named) (Path.join folder name) =
      (Toml.read (withoutMark text).toList).map
        (Tree.saidMembers (Path.plain (Path.join folder (name ++ ".toml")))) := by
  have htext : (Files.inFolder folder named).text? (Path.join folder (name ++ ".toml")) =
      some text := by
    rw [Files.text?_inFolder folder hnamed htoml, hlookup]
  have hpath : Path.join folder name ++ "." ++ "toml" = Path.join folder (name ++ ".toml") := by
    rw [String.append_assoc, Path.join_append]
    rfl
  have hfind : findFile (.inFolder folder named) (Path.join folder name) =
      some (Path.join folder (name ++ ".toml"), .toml) := by
    unfold findFile Files.isFile
    rw [Files.text?_inFolder folder hnamed hname, hnone]
    simp [endings, hpath, htext]
  exact fileLayer?_found hfind htext

end Config

end PoolWatch
