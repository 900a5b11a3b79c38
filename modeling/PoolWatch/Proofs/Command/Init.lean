import PoolWatch.Command.Run
import PoolWatch.Proofs.Settings.Written

/-!
# Writing the defaults from the command line

The command that writes the defaults touches the default file of its folder and no other file. It
overwrites that file by force only, and it leaves all files alone when it fails. What it has written
is loaded as the defaults, and stays what it is however often the command runs again.
-/

namespace PoolWatch

open Config

namespace Surroundings

variable (w : Surroundings) (config : Option String)

/-- The folder that the command line names, or the one where settings are without it. -/
def folder : String := config.getD (Settings.defaultFolder w.environment)

def target : String := Path.join (w.folder config) "default.toml"

/-- The same surroundings with other files. -/
def on (files : Files) : Surroundings := { w with files := files }

/-- The files after runs of the command, each by force or not, on what the run before has left. -/
def after (w : Surroundings) (config : Option String) : List Bool → Files
  | [] => w.files
  | force :: forces =>
    (w.on (w.run ⟨some (.init force), config⟩ []).1.files).after config forces

/-- The operations of the file system succeed: the folder can be made, and then the file can be
written. -/
def CanWrite (written : Files) : Prop :=
  ∃ made, w.files.makeFolder (w.folder config) = .ok made ∧
    made.write (w.target config) defaultFile = .ok written

variable {w : Surroundings} {config : Option String} {written : Files}

theorem run_init (w : Surroundings) (config : Option String) (force : Bool)
    (asked : List Relay.Incoming) : w.run ⟨some (.init force), config⟩ asked =
      (w.writeDefaults (w.folder config) force, []) := rfl

/-! ## One run -/

theorem writeDefaults_refused (h : w.files.isThere (w.target config) = true) :
    w.writeDefaults (w.folder config) false = w.fails (.alreadyThere (w.target config)) := by
  unfold target at h
  simp [writeDefaults, h, target]

theorem writeDefaults_written (h : w.CanWrite config written) {force : Bool}
    (hgo : force = true ∨ w.files.isThere (w.target config) = false) :
    w.writeDefaults (w.folder config) force =
      ⟨written, generatedLine w.color (w.target config), [], none⟩ := by
  obtain ⟨made, hmade, hwrite⟩ := h
  have hopen : (w.files.isThere (w.target config) && !force) = false := by
    rcases hgo with rfl | hfree
    · exact Bool.and_false _
    · rw [hfree, Bool.false_and]
  unfold target at hopen hwrite
  simp [writeDefaults, hopen, hmade, hwrite, target]

theorem writeDefaults_kept (w : Surroundings) (folder : String) (force : Bool) :
    (w.writeDefaults folder force).failure = none ∨
      (w.writeDefaults folder force).files = w.files := by
  unfold writeDefaults
  dsimp only
  split
  case isTrue => exact .inr rfl
  case isFalse =>
    split
    case h_1 => exact .inr rfl
    case h_2 =>
      split
      case h_1 => exact .inr rfl
      case h_2 => exact .inl rfl

/-! ## Run after run -/

theorem CanWrite.again (h : w.CanWrite config written) :
    (w.on written).CanWrite config written := by
  obtain ⟨made, hmade, hwrite⟩ := h
  obtain ⟨-, -, rfl⟩ := Files.makeFolder_eq_ok.mp hmade
  exact ⟨written, Files.makeFolder_again (by decide) hmade hwrite, Files.write_again hwrite⟩

theorem CanWrite.text (h : w.CanWrite config written) (path : String) : written.text? path =
    if Path.resolved path = Path.resolved (w.target config) then some defaultFile
      else w.files.text? path := by
  obtain ⟨made, hmade, hwrite⟩ := h
  obtain ⟨-, -, rfl⟩ := Files.makeFolder_eq_ok.mp hmade
  exact Files.text?_write hwrite path

theorem CanWrite.step (h : w.CanWrite config written) (force : Bool) :
    ((w.on written).writeDefaults (w.folder config) force).files = written := by
  cases force with
  | true => exact congrArg Outcome.files (writeDefaults_written h.again (.inl rfl))
  | false =>
    have hthere : written.isThere (w.target config) = true := by
      rw [Files.isThere, Files.isFile, h.text, if_pos rfl]
      rfl
    exact congrArg Outcome.files (writeDefaults_refused (w := w.on written) hthere)

theorem CanWrite.after (h : w.CanWrite config written) (forces : List Bool) :
    (w.on written).after config forces = written := by
  induction forces with
  | nil => rfl
  | cons force forces ih =>
    have hstep : ((w.on written).run ⟨some (.init force), config⟩ []).1.files = written :=
      h.step force
    rw [Surroundings.after, hstep]
    exact ih

/-- However the command runs, by force or not, the files are written by the first run that may. -/
theorem CanWrite.course (h : w.CanWrite config written) (forces : List Bool) :
    w.after config forces =
      if ∃ force ∈ forces, force = true ∨ w.files.isThere (w.target config) = false then written
      else w.files := by
  induction forces with
  | nil => simp [Surroundings.after]
  | cons force forces ih =>
    rw [Surroundings.after, run_init]
    by_cases hgo : force = true ∨ w.files.isThere (w.target config) = false
    · rw [writeDefaults_written h hgo, if_pos ⟨force, List.mem_cons_self, hgo⟩]
      exact h.after forces
    · obtain ⟨hforce, hthere⟩ := not_or.mp hgo
      rw [Bool.not_eq_true] at hforce
      rw [Bool.not_eq_false] at hthere
      subst hforce
      rw [writeDefaults_refused hthere]
      refine ih.trans ?_
      simp [hthere]

/-! ## What the command does -/

/-- The command has written the defaults, and nothing else. -/
structure Writes (w : Surroundings) (config : Option String) (o : Outcome) : Prop where
  succeeds : o.failure = none
  holds : ∃ text, Settings.default.toml? = some text ∧
    o.files.text? (w.target config) = some text
  others : ∀ path, Path.resolved path ≠ Path.resolved (w.target config) →
    o.files.text? path = w.files.text? path
  again : ∀ asked, ∃ o', (w.on o.files).run ⟨some (.init true), config⟩ asked = (o', []) ∧
    o'.failure = none ∧ o'.files = o.files
  kept : ∀ forces, (w.on o.files).after config forces = o.files
  course : ∀ forces, w.after config forces =
    if ∃ force ∈ forces, force = true ∨ w.files.isThere (w.target config) = false then o.files
    else w.files
  loaded : ∀ environment, (∀ v ∈ environment, variableKey? v.1 = none) →
    o.files.OnlyDefault (w.folder config) →
      Settings.load o.files environment (w.folder config) = .ok Settings.default

theorem CanWrite.loaded (h : w.CanWrite config written) {environment : List (String × String)}
    (hvariables : ∀ v ∈ environment, variableKey? v.1 = none)
    (honly : written.OnlyDefault (w.folder config)) :
    Settings.load written environment (w.folder config) = .ok Settings.default := by
  cases hbare : written.isFile (Path.join (w.folder config) "default") with
  | true => exact Settings.load_hidden hbare honly hvariables
  | false =>
    have htext : written.text? (w.target config) = some defaultFile :=
      (h.text _).trans (if_pos rfl)
    exact Settings.load_written (by decide) (by decide) htext hbare honly hvariables

theorem CanWrite.writes (h : w.CanWrite config written) (printed : String) :
    w.Writes config ⟨written, printed, [], none⟩ where
  succeeds := rfl
  holds := ⟨defaultFile, if_pos (by decide), (h.text _).trans (if_pos rfl)⟩
  others path hother := (h.text path).trans (if_neg hother)
  again _ := ⟨_, rfl, congrArg Outcome.failure (writeDefaults_written h.again (.inl rfl)),
    h.step true⟩
  kept := h.after
  course := h.course
  loaded _ hvariables honly := h.loaded hvariables honly

/-- A folder with an older default file and a file of notes. -/
def noted : Surroundings where
  files := ⟨[("config/default.toml", "x"), ("config/notes.txt", "y")]⟩
  environment := [("HOME", "/root")]
  network := Http.Peer.unreachable
  color := false
  clock _ := ⟨0, 0⟩

end Surroundings

end PoolWatch
