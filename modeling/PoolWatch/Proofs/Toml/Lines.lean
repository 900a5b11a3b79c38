import PoolWatch.Proofs.Config.Layers
import PoolWatch.Proofs.Json.Written
import PoolWatch.Proofs.Toml.Strings
import PoolWatch.Toml.Reader

/-!
# Written tables are read

A document that is written as tables, each with a header and one line for each of its values, is
read as these values in their order.
-/

namespace PoolWatch.Toml

open Config

/-! ## Whole numbers -/

theorem plainDigits?_digits {isDigit : Char → Bool} (hmark : isDigit '_' = false) {cs : List Char}
    (hcs : cs ≠ []) (h : ∀ c ∈ cs, isDigit c = true) : plainDigits? isDigit cs = some cs := by
  induction cs with
  | nil => exact absurd rfl hcs
  | cons c cs ih =>
    obtain ⟨hc, hrest⟩ := List.forall_mem_cons.mp h
    cases cs with
    | nil => simp [plainDigits?, hc]
    | cons d cs =>
      have hd : d ≠ '_' := by
        rintro rfl
        have hdigit := hrest '_' List.mem_cons_self
        rw [hmark] at hdigit
        exact Bool.false_ne_true hdigit
      rw [plainDigits?]
      · rw [ih (List.cons_ne_nil d cs) hrest]
        simp [hc]
      · exact List.cons_ne_nil d cs
      · intro rest hrest
        exact hd (List.cons.inj hrest).1

theorem digits_cases (n : Nat) : ∃ c cs, Nat.toDigits 10 n = c :: cs ∧ c.isDigit = true ∧
    (c = '0' → cs = []) := by
  obtain ⟨c, cs, hdigits⟩ := List.exists_cons_of_ne_nil (@Nat.toDigits_ne_nil n 10)
  refine ⟨c, cs, hdigits, ?_, ?_⟩
  · exact Nat.isDigit_of_mem_toDigits (by decide) (by decide) (hdigits ▸ List.mem_cons_self)
  · rintro rfl
    have hplain := Json.toDigits_plain n (by rw [hdigits]; rfl)
    rw [hdigits] at hplain
    exact (List.cons.inj hplain).2

theorem isDigit_of_mem {n : Nat} {c : Char} (h : c ∈ Nat.toDigits 10 n) : c.isDigit = true :=
  Nat.isDigit_of_mem_toDigits (by decide) (by decide) h

theorem signed?_digit {c : Char} (h : c.isDigit = true) (cs : List Char) :
    signed? (c :: cs) = (false, c :: cs) := by
  rw [signed?]
  · intro rest hsame
    rw [(List.cons.inj hsame).1] at h
    exact absurd h (by decide)
  · intro rest hsame
    rw [(List.cons.inj hsame).1] at h
    exact absurd h (by decide)

theorem wholeOfWord?_digits {n : Nat} (h : n < 1 <<< 63) :
    wholeOfWord? (Nat.toDigits 10 n) = some (n : Int) := by
  have hplain : plainDigits? Char.isDigit (Nat.toDigits 10 n) = some (Nat.toDigits 10 n) :=
    plainDigits?_digits (by decide) Nat.toDigits_ne_nil fun _ => isDigit_of_mem
  have hvalue : Integer.ofDigits (Nat.toDigits 10 n) = n := Nat.ofDigitChars_ten_toDigits
  have hfits : Integer.fitsInt64 n = true := by
    simp only [Integer.fitsInt64, Bool.and_eq_true, decide_eq_true_eq]
    omega
  obtain ⟨c, cs, hdigits, hc, hzero⟩ := digits_cases n
  have hnotTwo : ∀ d ds, c :: cs ≠ '0' :: d :: ds := by
    intro d ds hsame
    obtain ⟨rfl, hrest⟩ := List.cons.inj hsame
    rw [hzero rfl] at hrest
    exact List.cons_ne_nil d ds hrest.symm
  rw [hdigits] at hplain hvalue ⊢
  have hwhole : wholeDigits? (c :: cs) = some (c :: cs) := by
    unfold wholeDigits?
    rw [hplain]
    split
    · rename_i hsame
      exact absurd (Option.some.inj hsame) (hnotTwo _ _)
    · rfl
  unfold wholeOfWord?
  rw [signed?_digit hc]
  split
  · rename_i hsame
    exact absurd hsame (hnotTwo _ _)
  · simp [hwhole, hvalue, hfits]

theorem isWordChar_digit {c : Char} (h : c.isDigit = true) : isWordChar c = true := by
  simp [isWordChar, Char.isAlphanum, h]

theorem readScalar_digits {n : Nat} (h : n < 1 <<< 63) (rest : List Char) :
    readScalar (Nat.toDigits 10 n ++ '\n' :: rest) = some (.whole n, '\n' :: rest) := by
  have hword : ∀ c ∈ Nat.toDigits 10 n, isWordChar c = true :=
    fun _ hc => isWordChar_digit (isDigit_of_mem hc)
  have hsplit : splitWord (Nat.toDigits 10 n ++ '\n' :: rest) =
      (Nat.toDigits 10 n, '\n' :: rest) := by
    have hbreak : isWordChar '\n' = false := by decide
    unfold splitWord
    simp only [List.takeWhile_append_of_pos hword, List.dropWhile_append_of_pos hword,
      List.takeWhile_cons, List.dropWhile_cons, hbreak]
    simp
  have hscalar : scalarOfWord? (Nat.toDigits 10 n) = some (.whole n) := by
    obtain ⟨c, cs, hdigits, hc, -⟩ := digits_cases n
    have hwhole := wholeOfWord?_digits h
    have htrue : c :: cs ≠ "true".toList := by
      intro hsame
      rw [(List.cons.inj hsame).1] at hc
      exact absurd hc (by decide)
    have hfalse : c :: cs ≠ "false".toList := by
      intro hsame
      rw [(List.cons.inj hsame).1] at hc
      exact absurd hc (by decide)
    unfold scalarOfWord?
    rw [hwhole, hdigits, if_neg htrue, if_neg hfalse]
  unfold readScalar
  rw [hsplit]
  simp only [hscalar]

/-! ## Keys -/

def IsBare (name : String) : Prop := name.toList ≠ [] ∧ name.toList.all isKeyChar = true

instance (name : String) : Decidable (IsBare name) := inferInstanceAs (Decidable (_ ∧ _))

theorem IsBare.keyChars {name : String} (h : IsBare name) :
    ∀ c ∈ name.toList, isKeyChar c = true := List.all_eq_true.mp h.2

theorem IsBare.exists_cons {name : String} (h : IsBare name) :
    ∃ c cs, name.toList = c :: cs ∧ isKeyChar c = true := by
  obtain ⟨c, cs, hname⟩ := List.exists_cons_of_ne_nil h.1
  exact ⟨c, cs, hname, h.keyChars c (hname ▸ List.mem_cons_self)⟩

theorem isKeyChar_ne {c d : Char} (hc : isKeyChar c = true) (hd : isKeyChar d = false) : c ≠ d := by
  rintro rfl
  rw [hc] at hd
  exact Bool.false_ne_true hd.symm

theorem skipBlanks_name {name : String} (h : IsBare name) (s : List Char) :
    skipBlanks (name.toList ++ s) = name.toList ++ s := by
  obtain ⟨c, cs, hname, hc⟩ := h.exists_cons
  have hblank : isBlank c = false := by
    have hspace : c ≠ ' ' := isKeyChar_ne hc (by decide)
    have htab : c ≠ '\t' := isKeyChar_ne hc (by decide)
    simp [isBlank, hspace, htab]
  rw [hname, List.cons_append, skipBlanks, List.dropWhile_cons_of_neg (by simp [hblank])]

theorem readName_bare {name : String} (h : IsBare name) {d : Char} (hd : isKeyChar d = false)
    (s : List Char) : readName (name.toList ++ d :: s) = some (name, d :: s) := by
  obtain ⟨c, cs, hname, hc⟩ := h.exists_cons
  have htake : (name.toList ++ d :: s).takeWhile isKeyChar = name.toList := by
    rw [List.takeWhile_append_of_pos h.keyChars, List.takeWhile_cons_of_neg (by simp [hd]),
      List.append_nil]
  have hdrop : (name.toList ++ d :: s).dropWhile isKeyChar = d :: s := by
    rw [List.dropWhile_append_of_pos h.keyChars, List.dropWhile_cons_of_neg (by simp [hd])]
  rw [readName]
  · rw [htake, hdrop, String.ofList_toList]
    simp [hname]
  · intro rest hsame
    rw [hname] at hsame
    exact isKeyChar_ne hc (by decide) (List.cons.inj hsame).1
  · intro rest hsame
    rw [hname] at hsame
    exact isKeyChar_ne hc (by decide) (List.cons.inj hsame).1

theorem readKey_bare {name : String} (h : IsBare name) {d e : Char} (hd : isKeyChar d = false)
    {s s' : List Char} (hs : skipBlanks (d :: s) = e :: s') (he : e ≠ '.') :
    readKey (name.toList ++ d :: s) = some ([name], e :: s') := by
  unfold readKey
  rw [readKeyFrom, skipBlanks_name h, readName_bare h hd]
  simp only [hs]
  split
  · rename_i hsame
    exact absurd (List.cons.inj hsame).1 he
  · rfl

/-! ## Values -/

theorem writeString_head (cs : List Char) :
    ∃ c more, writeString cs = c :: more ∧ (c = '"' ∨ c = '\'') := by
  unfold writeString
  split
  · exact ⟨_, _, rfl, .inl rfl⟩
  · exact ⟨_, _, rfl, .inr rfl⟩
  · exact ⟨_, _, rfl, .inl rfl⟩
  · exact ⟨_, _, rfl, .inr rfl⟩

theorem readValue_text (cs rest : List Char) (fuel : Nat) :
    readValue (fuel + 1) (writeString cs ++ '\n' :: rest) =
      some (.text (String.ofList cs), '\n' :: rest) := by
  have hread := readString_writeString cs rest
  obtain ⟨c, more, hwritten, hc⟩ := writeString_head cs
  rw [hwritten, List.cons_append] at hread ⊢
  rcases hc with rfl | rfl
  · simp [readValue, hread]
  · simp [readValue, hread]

theorem readValue_whole {n : Nat} (h : n < 1 <<< 63) (rest : List Char) (fuel : Nat) :
    readValue (fuel + 1) (Nat.toDigits 10 n ++ '\n' :: rest) = some (.whole n, '\n' :: rest) := by
  have hread := readScalar_digits h rest
  obtain ⟨c, cs, hdigits, hc, -⟩ := digits_cases n
  have hne : ∀ d : Char, d.isDigit = false → c ≠ d := by
    rintro d hd rfl
    rw [hc] at hd
    exact Bool.false_ne_true hd.symm
  rw [hdigits, List.cons_append] at hread ⊢
  rw [readValue]
  · simp [hne '"' (by decide), hne '\'' (by decide), hread, Tree.whole]
  · exact hne '[' (by decide)
  · exact hne '\x7b' (by decide)

/-! ## Members -/

theorem setMember_new {name : String} {members : Members} (h : name ∉ members.map (·.1))
    (node : Node) : setMember name node members = members ++ [(name, node)] := by
  induction members with
  | nil => rfl
  | cons m members ih =>
    rw [List.map_cons, List.mem_cons, not_or] at h
    rw [setMember, if_neg (Ne.symm h.1), ih h.2]
    rfl

theorem setMember_last {name : String} {members : Members} (h : name ∉ members.map (·.1))
    (old node : Node) :
    setMember name node (members ++ [(name, old)]) = members ++ [(name, node)] := by
  induction members with
  | nil => simp [setMember]
  | cons m members ih =>
    rw [List.map_cons, List.mem_cons, not_or] at h
    rw [List.cons_append, setMember, if_neg (Ne.symm h.1), ih h.2]
    rfl

theorem lookup_last {name : String} {members : Members} (h : name ∉ members.map (·.1))
    (node : Node) : (members ++ [(name, node)]).lookup name = some node := by
  rw [List.lookup_append, lookup_eq_none h]
  simp

theorem openTable_new {name : String} {members : Members} (h : name ∉ members.map (·.1)) :
    openTable name members = some (members ++ [(name, .table .opened [])]) := by
  unfold openTable
  rw [lookup_eq_none h]
  simp only [setMember_new h]

theorem assign_last {key name : String} {done given : Members} (hkey : key ∉ done.map (·.1))
    (hname : name ∉ given.map (·.1)) (v : Tree) :
    byHeader [key] (assign [name] v) (done ++ [(key, .table .opened given)]) =
      some (done ++ [(key, .table .opened (given ++ [(name, .value v)]))]) := by
  have hadd : assign [name] v given = some (given ++ [(name, .value v)]) := by
    simp [assign, atLast, byKey, alterAt, addValue, lookup_eq_none hname, setMember_new hname]
  simp only [byHeader, alterAt, lookup_last hkey, if_true, hadd, Option.map_some,
    setMember_last hkey]

/-! ## Lines -/

/-- The rest of a document, as the members of the whole document. -/
def ReadsTo (cs : List Char) (d : Draft) (members : Members) : Prop :=
  ∀ fuel, cs.length ≤ fuel → readLines fuel cs d = some members

theorem ReadsTo.line {cs rest : List Char} {d d' : Draft} {members : Members}
    (hline : readLine cs d = some (d', '\n' :: rest)) (hlength : rest.length < cs.length)
    (h : ReadsTo rest d' members) : ReadsTo cs d members := by
  intro fuel hfuel
  obtain ⟨fuel, rfl⟩ : ∃ n, fuel = n + 1 := ⟨fuel - 1, by omega⟩
  have hcs : cs ≠ [] := by
    rintro rfl
    simp at hlength
  obtain ⟨c, cs, rfl⟩ := List.exists_cons_of_ne_nil hcs
  have hend : endLine ('\n' :: rest) = some rest := rfl
  rw [List.length_cons] at hfuel hlength
  rw [readLines, hline]
  · simp only [hend]
    exact h fuel (by omega)
  · exact hcs

theorem ReadsTo.end (d : Draft) : ReadsTo [] d d.members := by
  intro fuel _
  cases fuel <;> rfl

theorem ReadsTo.blank {rest : List Char} {d : Draft} {members : Members}
    (h : ReadsTo rest d members) : ReadsTo ('\n' :: rest) d members :=
  ReadsTo.line rfl (by simp) h

/-- A name with the text of its value, which is read from it up to the end of its line. -/
structure Entry where
  name : String
  written : List Char
  value : Tree
  bare : IsBare name
  begins : ∀ s, skipBlanks (written ++ s) = written ++ s
  reads : ∀ rest fuel, readValue (fuel + 1) (written ++ '\n' :: rest) = some (value, '\n' :: rest)

def Entry.line (e : Entry) : List Char := e.name.toList ++ [' ', '=', ' '] ++ e.written ++ ['\n']

def Entry.node (e : Entry) : String × Node := (e.name, .value e.value)

def Entry.text (name : String) (s : String) (bare : IsBare name) : Entry where
  name := name
  written := writeString s.toList
  value := .text s
  bare := bare
  begins := by
    intro rest
    obtain ⟨c, more, hwritten, rfl | rfl⟩ := writeString_head s.toList <;> rw [hwritten] <;> rfl
  reads := fun rest fuel => by rw [readValue_text, String.ofList_toList]

def Entry.whole (name : String) (n : Nat) (h : n < 1 <<< 63) (bare : IsBare name) : Entry where
  name := name
  written := Nat.toDigits 10 n
  value := .whole n
  bare := bare
  begins := by
    intro rest
    obtain ⟨c, cs, hdigits, hc, -⟩ := digits_cases n
    have hblank : isBlank c = false := by
      cases hblank : isBlank c with
      | false => rfl
      | true =>
        have hcases : c = ' ' ∨ c = '\t' := by simpa [isBlank] using hblank
        rcases hcases with rfl | rfl <;> exact absurd hc (by decide)
    rw [hdigits, List.cons_append, skipBlanks, List.dropWhile_cons_of_neg (by simp [hblank])]
  reads := readValue_whole h

theorem readLine_name {name : String} (h : IsBare name) (s : List Char) (d : Draft) :
    readLine (name.toList ++ s) d = readAssignment (name.toList ++ s) d := by
  unfold readLine
  rw [skipBlanks_name h]
  obtain ⟨c, cs, hname, hc⟩ := h.exists_cons
  have hne : ∀ d more, isKeyChar d = false → name.toList ++ s ≠ d :: more := by
    intro d more hd hsame
    rw [hname] at hsame
    exact isKeyChar_ne hc hd (List.cons.inj hsame).1
  split
  case h_1 hnil =>
    rw [hname] at hnil
    exact absurd hnil (List.cons_ne_nil _ _)
  case h_7 => rfl
  all_goals exact absurd (by assumption) (hne _ _ (by decide))

theorem readLine_entry (e : Entry) (rest : List Char) (d : Draft) :
    readLine (e.line ++ rest) d =
      (byHeader d.path (assign [e.name] e.value) d.members).map fun members =>
        (⟨d.path, members⟩, '\n' :: rest) := by
  have hline : e.line ++ rest =
      e.name.toList ++ ' ' :: '=' :: ' ' :: (e.written ++ '\n' :: rest) := by
    simp [Entry.line]
  have hkey : readKey (e.name.toList ++ ' ' :: '=' :: ' ' :: (e.written ++ '\n' :: rest)) =
      some ([e.name], '=' :: ' ' :: (e.written ++ '\n' :: rest)) :=
    readKey_bare e.bare (by decide) rfl (by decide)
  have hvalue : skipBlanks (' ' :: (e.written ++ '\n' :: rest)) = e.written ++ '\n' :: rest := by
    rw [skipBlanks, List.dropWhile_cons_of_pos (by decide)]
    exact e.begins _
  rw [hline, readLine_name e.bare, readAssignment, hkey]
  simp only [hvalue, e.reads]

theorem readLine_header {key : String} (h : IsBare key) (rest : List Char) (d : Draft) :
    readLine ('[' :: (key.toList ++ ']' :: '\n' :: rest)) d =
      (openTable key d.members).map fun members => (⟨[key], members⟩, '\n' :: rest) := by
  have hkey : readKey (key.toList ++ ']' :: '\n' :: rest) = some ([key], ']' :: '\n' :: rest) :=
    readKey_bare h (by decide) rfl (by decide)
  have hheader : readLine ('[' :: (key.toList ++ ']' :: '\n' :: rest)) d =
      readHeader (key.toList ++ ']' :: '\n' :: rest) d := by
    obtain ⟨c, cs, hname, hc⟩ := h.exists_cons
    have hbracket : c ≠ '[' := isKeyChar_ne hc (by decide)
    have hskip : ∀ s, skipBlanks ('[' :: s) = '[' :: s := fun _ => rfl
    unfold readLine
    rw [hskip, hname]
    split <;> simp_all
  rw [hheader, readHeader, hkey]
  rfl

/-! ## Tables -/

/-- The key of a table with its values, which have different names. -/
structure Section where
  key : String
  entries : List Entry
  bare : IsBare key
  names : (entries.map Entry.name).Nodup

namespace Section

def chars (t : Section) : List Char :=
  '[' :: (t.key.toList ++ ']' :: '\n' :: t.entries.flatMap Entry.line)

def node (t : Section) : String × Node := (t.key, .table .opened (t.entries.map Entry.node))

def value (t : Section) : String × Tree :=
  (t.key, .table none (t.entries.map fun e => (e.name, e.value)))

end Section

theorem readsTo_entries {key : String} {done members : Members} (hkey : key ∉ done.map (·.1))
    {entries : List Entry} {given : Members}
    (hnames : (given.map (·.1) ++ entries.map Entry.name).Nodup) {rest : List Char}
    (h : ReadsTo rest ⟨[key], done ++ [(key, .table .opened (given ++ entries.map Entry.node))]⟩
      members) :
    ReadsTo (entries.flatMap Entry.line ++ rest) ⟨[key], done ++ [(key, .table .opened given)]⟩
      members := by
  induction entries generalizing given with
  | nil => simpa using h
  | cons e entries ih =>
    -- one line moves an entry from those that are left to those that are given
    have hnew : e.name ∉ given.map (·.1) := by
      intro hmem
      exact (List.nodup_append.mp hnames).2.2 e.name hmem e.name (by simp) rfl
    have hrest : ReadsTo (entries.flatMap Entry.line ++ rest)
        ⟨[key], done ++ [(key, .table .opened (given ++ [e.node]))]⟩ members := by
      refine ih ?_ ?_
      · simpa [Entry.node] using hnames
      · simpa using h
    rw [List.flatMap_cons, List.append_assoc]
    refine ReadsTo.line ?_ ?_ hrest
    · rw [readLine_entry, assign_last hkey hnew]
      rfl
    · simp only [Entry.line, List.length_append, List.length_cons]
      omega

theorem readsTo_section (t : Section) {done members : Members} (hkey : t.key ∉ done.map (·.1))
    {rest : List Char} (path : List String)
    (h : ReadsTo rest ⟨[t.key], done ++ [t.node]⟩ members) :
    ReadsTo (t.chars ++ rest) ⟨path, done⟩ members := by
  have hentries : ReadsTo (t.entries.flatMap Entry.line ++ rest)
      ⟨[t.key], done ++ [(t.key, .table .opened [])]⟩ members :=
    readsTo_entries hkey (by simpa using t.names) (by simpa [Section.node] using h)
  have hchars : t.chars ++ rest =
      '[' :: (t.key.toList ++ ']' :: '\n' :: (t.entries.flatMap Entry.line ++ rest)) := by
    simp [Section.chars]
  rw [hchars]
  refine ReadsTo.line ?_ ?_ hentries
  · rw [readLine_header t.bare, openTable_new hkey]
    rfl
  · simp only [List.length_append, List.length_cons]
    omega

/-! ## Documents -/

def documentChars (sections : List Section) : List Char :=
  ['\n'].intercalate (sections.map Section.chars)

theorem readsTo_sections (sections : List Section) {done : Members}
    (hkeys : (done.map (·.1) ++ sections.map Section.key).Nodup) (path : List String) :
    ReadsTo (documentChars sections) ⟨path, done⟩ (done ++ sections.map Section.node) := by
  induction sections generalizing done path with
  | nil => simpa [documentChars] using ReadsTo.end ⟨path, done⟩
  | cons t sections ih =>
    have hnew : t.key ∉ done.map (·.1) := by
      intro hmem
      exact (List.nodup_append.mp hkeys).2.2 t.key hmem t.key (by simp) rfl
    have hrest : ReadsTo (documentChars sections) ⟨[t.key], done ++ [t.node]⟩
        (done ++ [t.node] ++ sections.map Section.node) :=
      ih (by simpa [Section.node] using hkeys) _
    rw [List.append_assoc] at hrest
    cases sections with
    | nil =>
      have hlast := readsTo_section t hnew path hrest
      simpa [documentChars] using hlast
    | cons u sections =>
      have hline := readsTo_section t hnew path hrest.blank
      simpa [documentChars] using hline

theorem membersToTrees_entries (entries : List Entry) :
    membersToTrees (entries.map Entry.node) = entries.map fun e => (e.name, e.value) := by
  induction entries with
  | nil => rfl
  | cons e entries ih =>
    rw [List.map_cons, Entry.node, membersToTrees, ih]
    rfl

theorem membersToTrees_sections (sections : List Section) :
    membersToTrees (sections.map Section.node) = sections.map Section.value := by
  induction sections with
  | nil => rfl
  | cons t sections ih =>
    rw [List.map_cons, Section.node, membersToTrees, ih, Node.toTree, membersToTrees_entries]
    rfl

/-- What is written section by section is read as the sections. -/
theorem read_documentChars {sections : List Section} (hkeys : (sections.map Section.key).Nodup) :
    read (documentChars sections) = some (sections.map Section.value) := by
  have hread : ReadsTo (documentChars sections) ⟨[], []⟩ ([] ++ sections.map Section.node) :=
    readsTo_sections sections (by simpa using hkeys) []
  rw [read, hread _ (Nat.le_refl _), List.nil_append]
  simp only [Option.map_some, membersToTrees_sections]

end PoolWatch.Toml
