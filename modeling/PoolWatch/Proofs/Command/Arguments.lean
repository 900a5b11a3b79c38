import PoolWatch.Command.Arguments
import PoolWatch.Proofs.Form
import PoolWatch.Proofs.Number.Numerals

/-!
# What arguments can ask for

Every command can be asked for with every option of its own, and a folder that is named behind the
command wins over one before it. The one thing that no arguments ask for is a folder without a name.
-/

namespace PoolWatch

namespace Arguments

/-! ## Written arguments -/

/-- An option with its value behind an equals sign. -/
def valueWord (name value : List Char) : String :=
  String.ofList ('-' :: '-' :: (name ++ '=' :: value))

def folderWords (folder : Option String) : List String :=
  folder.toList.map fun name => valueWord "config".toList name.toList

def portWord (port : UInt16) : String := valueWord "port".toList (Nat.toDigits 10 port.toNat)

end Arguments

open Arguments

namespace Command

def name : Command → String
  | watch _ => "watch"
  | status => "status"
  | relay _ => "relay"
  | init _ => "init"

def scope : Command → Scope
  | watch _ => .watch
  | status => .status
  | relay _ => .relay
  | init _ => .init

/-- The options that a command has to itself. -/
def options : Command → List String
  | watch plain => if plain then ["--plain"] else []
  | status => []
  | relay port => port.toList.map portWord
  | init force => if force then ["--force"] else []

/-- What is read of these options. -/
def draft : Command → Draft
  | watch plain => { plain }
  | status => {}
  | relay port => { port }
  | init force => { force }

end Command

/-- A command with its options, and folders on both sides of it. -/
def Command.words (c : Command) (before behind : Option String) : List String :=
  folderWords before ++ c.name :: (c.options ++ folderWords behind)

namespace Arguments

/-! ## Values -/

theorem portOf?_digits (port : UInt16) :
    Draft.portOf? (String.ofList (Nat.toDigits 10 port.toNat)) = some port := by
  have hdecimal : Integer.isDecimal (Nat.toDigits 10 port.toNat) = true :=
    (Integer.isDecimal_iff _).mpr ⟨Nat.toDigits_ne_nil,
      fun c hc => Nat.isDigit_of_mem_toDigits (by decide) (by decide) hc⟩
  have hvalue : Integer.ofDigits (Nat.toDigits 10 port.toNat) = port.toNat :=
    Nat.ofDigitChars_ten_toDigits
  have hwhole : IsWhole (Nat.toDigits 10 port.toNat) port.toNat :=
    ⟨[], _, .inl rfl, hdecimal, rfl, by rw [hvalue]; rfl⟩
  have hlt := port.toNat_lt
  unfold Draft.portOf?
  rw [String.toList_ofList, (Integer.ofChars?_eq_some _ _).mpr hwhole]
  dsimp only
  rw [if_pos (by omega), Int.toNat_natCast, UInt16.ofNat_toNat]

theorem readName_value {scope : Scope} {name : List Char} {switch : Switch}
    (hname : ∀ c ∈ name, (c == '=') = false) (hswitch : named? scope name = some switch)
    (htakes : switch.takesValue = true) (d : Draft) (value : List Char) :
    readName scope d (name ++ '=' :: value) = d.attach switch value := by
  unfold readName
  rw [Text.cut_append hname rfl]
  simp only [hswitch, htakes]

theorem named?_config (scope : Scope) : named? scope "config".toList = some .config := by
  cases scope <;> rfl

/-! ## One argument after the other -/

variable {scope : Scope} {d : Draft}

theorem dashed_ne {name : String} (hname : name.toList.head? ≠ some '-') (cs : List Char) :
    String.ofList ('-' :: cs) ≠ name := by
  rintro rfl
  rw [String.toList_ofList] at hname
  exact hname rfl

theorem ofName?_dashed (cs : List Char) : Scope.ofName? (String.ofList ('-' :: cs)) = none := by
  unfold Scope.ofName?
  rw [if_neg (dashed_ne (by decide) _), if_neg (dashed_ne (by decide) _),
    if_neg (dashed_ne (by decide) _), if_neg (dashed_ne (by decide) _)]

theorem readPart_dashed (scope : Scope) (d : Draft) (c : Char) (cs : List Char)
    (args : List String) :
    readPart scope d (String.ofList ('-' :: '-' :: c :: cs) :: args) =
      match readName scope d (c :: cs) with
      | .error e => .error e
      | .ok d => readPart scope d args := by
  have hhelp : String.ofList ('-' :: '-' :: c :: cs) ≠ "help" := dashed_ne (by decide) _
  conv =>
    lhs
    unfold readPart
  cases hread : readName scope d (c :: cs) <;>
    simp only [ofName?_dashed, hhelp, hread, and_false, if_false, ite_self, String.toList_ofList]

theorem readPart_value {name value : List Char} {switch : Switch} (hfilled : name ≠ [])
    (hname : ∀ c ∈ name, (c == '=') = false) (hswitch : named? scope name = some switch)
    (htakes : switch.takesValue = true) {d' : Draft} (hgiven : d.attach switch value = .ok d')
    (args : List String) :
    readPart scope d (valueWord name value :: args) = readPart scope d' args := by
  have hread := readName_value hname hswitch htakes d value
  obtain ⟨c, cs, rfl⟩ := List.exists_cons_of_ne_nil hfilled
  rw [List.cons_append] at hread
  rw [valueWord, List.cons_append, readPart_dashed, hread, hgiven]

theorem readPart_folder (scope : Scope) (hpending : d.pending = none) (hconfig : d.config = none)
    {folder : Option String} (h : folder ≠ some "") (args : List String) :
    readPart scope d (folderWords folder ++ args) =
      readPart scope { d with config := folder } args := by
  obtain ⟨pending, config, port, plain, force⟩ := d
  subst hpending hconfig
  cases folder with
  | none => rfl
  | some name =>
    have hfilled : name.isEmpty = false := by
      rw [← Bool.not_eq_true, String.isEmpty_iff]
      rintro rfl
      exact h rfl
    have hgiven : Draft.attach ⟨none, none, port, plain, force⟩ .config name.toList =
        .ok ⟨none, some name, port, plain, force⟩ := by
      simp [Draft.attach, Draft.settle, Draft.give, hfilled]
    exact readPart_value (by decide) (by simp) (named?_config scope) rfl hgiven args

theorem readPart_options (c : Command) (args : List String) :
    readPart c.scope {} (c.options ++ args) = readPart c.scope c.draft args := by
  cases c with
  | watch plain =>
    cases plain with
    | false => rfl
    | true =>
      have hword : "--plain" = String.ofList ['-', '-', 'p', 'l', 'a', 'i', 'n'] := rfl
      rw [Command.options, if_pos rfl, hword]
      exact readPart_dashed .watch {} 'p' ['l', 'a', 'i', 'n'] args
  | status => rfl
  | relay port =>
    cases port with
    | none => rfl
    | some port =>
      have hgiven : Draft.attach {} .port (Nat.toDigits 10 port.toNat) =
          .ok { port := some port } := by
        simp [Draft.attach, Draft.settle, Draft.give, portOf?_digits]
      exact readPart_value (by decide) (by simp) rfl rfl hgiven args
  | init force =>
    cases force with
    | false => rfl
    | true =>
      have hword : "--force" = String.ofList ['-', '-', 'f', 'o', 'r', 'c', 'e'] := rfl
      rw [Command.options, if_pos rfl, hword]
      exact readPart_dashed .init {} 'f' ['o', 'r', 'c', 'e'] args

/-! ## Folders have names -/

/-- No folder without a name has been read. -/
def Draft.Filled (d : Draft) : Prop := d.config ≠ some ""

namespace Draft.Filled

variable {d' : Draft} {switch : Switch}

theorem give (h : d.Filled) {value : String} (hd : d.give switch value = .ok d') : d'.Filled := by
  cases switch with
  | config =>
    unfold Draft.give at hd
    dsimp only at hd
    split at hd
    · cases hd
    split at hd
    · cases hd
    next hfilled =>
      obtain rfl := Except.ok.inj hd
      rintro ⟨⟩
      exact hfilled rfl
  | port =>
    unfold Draft.give at hd
    dsimp only at hd
    split at hd
    · cases hd
    split at hd
    · obtain rfl := Except.ok.inj hd
      exact h
    · cases hd
  | _ =>
    obtain rfl := Except.ok.inj hd
    exact h

theorem settle (h : d.Filled) (hd : d.settle = .ok d') : d'.Filled := by
  unfold Draft.settle at hd
  split at hd
  · obtain rfl := Except.ok.inj hd
    exact h
  · cases hd
  · exact give (d := { d with pending := none }) h hd

theorem attach (h : d.Filled) {value : List Char} (hd : d.attach switch value = .ok d') :
    d'.Filled := by
  unfold Draft.attach at hd
  split at hd
  · cases hd
  next hsettle => exact (h.settle hsettle).give hd

theorem await (h : d.Filled) (hd : d.await switch = .ok d') : d'.Filled := by
  unfold Draft.await at hd
  split at hd
  · cases hd
  next hsettle =>
    have hsettled := h.settle hsettle
    obtain rfl := Except.ok.inj hd
    exact hsettled

theorem turn (h : d.Filled) (hd : d.turn switch = .ok d') : d'.Filled := by
  unfold Draft.turn at hd
  split at hd
  · cases hd
  next hsettle =>
    have hsettled := h.settle hsettle
    cases switch with
    | help => cases hd
    | version => cases hd
    | plain =>
      dsimp only at hd
      split at hd
      · cases hd
      · obtain rfl := Except.ok.inj hd
        exact hsettled
    | force =>
      dsimp only at hd
      split at hd
      · cases hd
      · obtain rfl := Except.ok.inj hd
        exact hsettled
    | _ =>
      obtain rfl := Except.ok.inj hd
      exact hsettled

theorem readName (h : d.Filled) {cs : List Char} (hd : readName scope d cs = .ok d') :
    d'.Filled := by
  unfold Arguments.readName at hd
  split at hd
  split at hd
  · cases hd
  split at hd
  · exact h.attach hd
  · exact h.await hd
  · cases hd
  · exact h.turn hd

theorem readLetters (h : d.Filled) {cs : List Char} (hd : readLetters scope d cs = .ok d') :
    d'.Filled := by
  induction cs generalizing d with
  | nil =>
    obtain rfl := Except.ok.inj hd
    exact h
  | cons c cs ih =>
    unfold Arguments.readLetters at hd
    split at hd
    · cases hd
    split at hd
    · split at hd
      · exact h.await hd
      · exact h.attach hd
      · exact h.attach hd
    · split at hd
      · cases hd
      next hturn => exact ih (h.turn hturn) hd

theorem readPart (h : d.Filled) {args : List String} {command : Option (Scope × List String)}
    (hd : readPart scope d args = .ok (d', command)) : d'.Filled := by
  induction args generalizing d with
  | nil =>
    obtain ⟨rfl, -⟩ := Prod.mk.inj (Except.ok.inj hd)
    exact h
  | cons arg args ih =>
    unfold Arguments.readPart at hd
    dsimp only at hd
    split at hd
    · obtain ⟨rfl, -⟩ := Prod.mk.inj (Except.ok.inj hd)
      exact h
    split at hd
    · cases hd
    split at hd
    · split at hd
      · obtain ⟨rfl, -⟩ := Prod.mk.inj (Except.ok.inj hd)
        exact h
      · cases hd
    · split at hd
      · cases hd
      next hname => exact ih (h.readName hname) hd
    · split at hd
      · cases hd
      next hletters => exact ih (h.readLetters hletters) hd
    · split at hd
      · refine ih ?_ hd
        exact h
      · cases hd

theorem readAll {args : List String} (hd : readAll scope args = .ok d') : d'.Filled := by
  have hblank : Filled {} := by simp [Filled]
  unfold Arguments.readAll at hd
  split at hd
  · cases hd
  next hpart => exact (hblank.readPart hpart).settle hd

end Draft.Filled

end Arguments

/-! ## What is asked for -/

theorem Command.readAll_options (c : Command) {folder : Option String} (h : folder ≠ some "") :
    readAll c.scope (c.options ++ folderWords folder) =
      .ok { c.draft with config := folder } := by
  have hpending : c.draft.pending = none := by cases c <;> rfl
  have hconfig : c.draft.config = none := by cases c <;> rfl
  have hfolder := readPart_folder c.scope hpending hconfig h []
  unfold readAll
  rw [readPart_options, ← List.append_nil (folderWords folder), hfolder]
  simp [readPart, Draft.settle, hpending]

theorem Invocation.ofArguments_folder {folder : Option String} (h : folder ≠ some "") :
    ofArguments (folderWords folder) = .ok ⟨none, folder⟩ := by
  have hfolder := readPart_folder .root (d := {}) rfl rfl h []
  unfold ofArguments
  rw [← List.append_nil (folderWords folder), hfolder]
  rfl

/-- A command and its options are asked for as they are written, and the folder behind it is the one
that counts. -/
theorem Invocation.ofArguments_words (c : Command) {before behind : Option String}
    (hbefore : before ≠ some "") (hbehind : behind ≠ some "") :
    ofArguments (c.words before behind) = .ok ⟨some c, behind.or before⟩ := by
  have hfolder := readPart_folder .root (d := {}) rfl rfl hbefore
    (c.name :: (c.options ++ folderWords behind))
  have hcommand : readPart .root { config := before }
      (c.name :: (c.options ++ folderWords behind)) =
      .ok ({ config := before }, some (c.scope, c.options ++ folderWords behind)) := by
    cases c <;> rfl
  unfold ofArguments Command.words
  rw [hfolder, hcommand]
  simp only [c.readAll_options hbehind]
  cases c <;> cases behind <;> rfl

theorem Invocation.config_filled {args : List String} {i : Invocation}
    (h : ofArguments args = .ok i) : i.config ≠ some "" := by
  have hblank : Draft.Filled {} := by simp [Draft.Filled]
  unfold ofArguments at h
  split at h
  · cases h
  next hpart =>
    split at h
    · cases h
    next hsettle =>
      obtain rfl := Except.ok.inj h
      exact (hblank.readPart hpart).settle hsettle
  next hpart =>
    split at h
    · cases h
    next inner hinner =>
      split at h
      · cases h
      next d hsettle =>
        obtain rfl := Except.ok.inj h
        have houter : d.config ≠ some "" := (hblank.readPart hpart).settle hsettle
        have hown : inner.config ≠ some "" := Draft.Filled.readAll hinner
        cases hconfig : inner.config with
        | none => simpa [hconfig] using houter
        | some folder => simpa [hconfig] using hown

/-- What can be asked for. -/
theorem Invocation.exists_arguments_iff (i : Invocation) :
    (∃ args, ofArguments args = .ok i) ↔ i.config ≠ some "" := by
  constructor
  · rintro ⟨args, h⟩
    exact config_filled h
  · intro h
    obtain ⟨command, config⟩ := i
    cases command with
    | none => exact ⟨_, ofArguments_folder h⟩
    | some c =>
      have hnone : (none : Option String) ≠ some "" := by simp
      exact ⟨_, (ofArguments_words c hnone h).trans (by rw [Option.or_none])⟩

end PoolWatch
