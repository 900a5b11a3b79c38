import PoolWatch.Command.Basic
import PoolWatch.Text.Split

/-!
# Reading the command line

Options come before the command and behind it, and each once on either side. An option waits for its
value, and it is looked at only when the next option comes or the arguments end. Behind two dashes
nothing is an option.
-/

namespace PoolWatch

/-- Why arguments name no command to run. Help and the version are asked for in this way too. -/
inductive ArgumentError
  | help
  | version
  | unknownArgument
  | unknownCommand
  /-- An option without a value, or with an empty one where that means nothing. -/
  | emptyValue
  | badValue
  | repeated
  | needlessValue
deriving DecidableEq

namespace ArgumentError

def kind : ArgumentError → String
  | help => "DisplayHelp"
  | version => "DisplayVersion"
  | unknownArgument => "UnknownArgument"
  | unknownCommand => "InvalidSubcommand"
  | emptyValue => "InvalidValue"
  | badValue => "ValueValidation"
  | repeated => "ArgumentConflict"
  | needlessValue => "TooManyValues"

/-- Help and the version are answers, and the rest are failures. -/
def exitCode : ArgumentError → Nat
  | help | version => 0
  | _ => 2

end ArgumentError

namespace Arguments

/-! ## What may stand where -/

/-- Before the command, or behind one. -/
inductive Scope
  | root
  | watch
  | status
  | relay
  | init
deriving DecidableEq

inductive Switch
  | config
  | port
  | plain
  | force
  | help
  | version
deriving DecidableEq

def Scope.ofName? (name : String) : Option Scope :=
  if name = "watch" then some .watch
  else if name = "status" then some .status
  else if name = "relay" then some .relay
  else if name = "init" then some .init
  else none

def Switch.takesValue : Switch → Bool
  | config | port => true
  | _ => false

/-- Each command has switches of its own besides the two that all have. -/
def Switch.isKnown (scope : Scope) : Switch → Bool
  | config | help => true
  | port => scope == .relay
  | plain => scope == .watch
  | force => scope == .init
  | version => scope == .root

def named? (scope : Scope) (name : List Char) : Option Switch :=
  ([("config", .config), ("port", .port), ("plain", .plain), ("force", .force), ("help", .help),
    ("version", .version)].lookup (String.ofList name)).filter (·.isKnown scope)

def lettered? (scope : Scope) (letter : Char) : Option Switch :=
  ([('c', .config), ('p', .port), ('f', .force), ('h', .help), ('V', .version)].lookup
    letter).filter (·.isKnown scope)

/-! ## What has been read -/

/-- An option whose value is still to come, or has come and is still to be looked at. -/
structure Pending where
  switch : Switch
  value : Option String

/-- What the arguments so far have asked for. -/
structure Draft where
  pending : Option Pending := none
  config : Option String := none
  port : Option UInt16 := none
  plain : Bool := false
  force : Bool := false

namespace Draft

/-- A port may be written with a sign and with leading zeros. -/
def portOf? (value : String) : Option UInt16 :=
  match Integer.ofChars? value.toList with
  | some n => if 0 ≤ n ∧ n < 65536 then some (.ofNat n.toNat) else none
  | none => none

def give (d : Draft) (switch : Switch) (value : String) : Except ArgumentError Draft :=
  match switch with
  | .port =>
    if d.port.isSome then .error .repeated
    else match portOf? value with
      | some n => .ok { d with port := some n }
      | none => .error .badValue
  | .config =>
    if d.config.isSome then .error .repeated
    else if value.isEmpty then .error .emptyValue
    else .ok { d with config := some value }
  | _ => .ok d

/-- Ends the switch that is still open, if there is one. -/
def settle (d : Draft) : Except ArgumentError Draft :=
  match d.pending with
  | none => .ok d
  | some ⟨_, none⟩ => .error .emptyValue
  | some ⟨switch, some value⟩ => { d with pending := none }.give switch value

/-- An option with its value in the same argument. -/
def attach (d : Draft) (switch : Switch) (value : List Char) : Except ArgumentError Draft :=
  match d.settle with
  | .error e => .error e
  | .ok d => d.give switch (String.ofList value)

/-- An option whose value is the next argument. -/
def await (d : Draft) (switch : Switch) : Except ArgumentError Draft :=
  match d.settle with
  | .error e => .error e
  | .ok d => .ok { d with pending := some ⟨switch, none⟩ }

def turn (d : Draft) (switch : Switch) : Except ArgumentError Draft :=
  match d.settle with
  | .error e => .error e
  | .ok d =>
    match switch with
    | .help => .error .help
    | .version => .error .version
    | .plain => if d.plain then .error .repeated else .ok { d with plain := true }
    | .force => if d.force then .error .repeated else .ok { d with force := true }
    | _ => .ok d

end Draft

/-! ## One argument -/

/-- The letters behind a dash. The value of an option is what follows its letter. -/
def readLetters (scope : Scope) (d : Draft) : List Char → Except ArgumentError Draft
  | [] => .ok d
  | letter :: rest =>
    match lettered? scope letter with
    | none => .error .unknownArgument
    | some switch =>
      if switch.takesValue then
        match rest with
        | [] => d.await switch
        | '=' :: value => d.attach switch value
        | value => d.attach switch value
      else match d.turn switch with
        | .error e => .error e
        | .ok d => readLetters scope d rest

/-- The name behind two dashes, perhaps with a value behind an equals sign. -/
def readName (scope : Scope) (d : Draft) (cs : List Char) : Except ArgumentError Draft :=
  match Text.cut (· == '=') cs with
  | (name, value) =>
    match named? scope name with
    | none => .error .unknownArgument
    | some switch =>
      match switch.takesValue, value with
      | true, some value => d.attach switch value
      | true, none => d.await switch
      | false, some _ => .error .needlessValue
      | false, none => d.turn switch

/-- What a word is that is no option and no value. -/
def strayWord (scope : Scope) (escaped : Bool) (word : String) : ArgumentError :=
  if scope ≠ .root then .unknownArgument
  else if escaped && ((Scope.ofName? word).isSome || word == "help") then .unknownArgument
  else .unknownCommand

/-! ## All arguments -/

/-- The arguments of one scope, and the command that ends them with the arguments behind it. -/
abbrev Part := Draft × Option (Scope × List String)

/-- What help is asked for: one command at most. -/
def helpOn : List String → ArgumentError
  | [] => .help
  | [name] => if (Scope.ofName? name).isSome || name == "help" then .help else .unknownCommand
  | _ => .unknownCommand

def isWaiting (d : Draft) : Bool := d.pending.any (·.value.isNone)

/-- Reads arguments up to the name of a command, which is handed back with those behind it. -/
def readPart (scope : Scope) (d : Draft) : List String → Except ArgumentError Part
  | [] => .ok (d, none)
  | arg :: rest =>
    let command := if scope = .root ∧ !isWaiting d then Scope.ofName? arg else none
    match command with
    | some name => .ok (d, some (name, rest))
    | none =>
      if scope = .root ∧ !isWaiting d ∧ arg = "help" then .error (helpOn rest)
      else match arg.toList with
        | ['-', '-'] =>
          match rest with
          | [] => .ok (d, none)
          | word :: _ => .error (strayWord scope true word)
        | '-' :: '-' :: cs =>
          match readName scope d cs with
          | .error e => .error e
          | .ok d => readPart scope d rest
        | '-' :: c :: cs =>
          match readLetters scope d (c :: cs) with
          | .error e => .error e
          | .ok d => readPart scope d rest
        | _ =>
          match d.pending with
          | some ⟨switch, none⟩ =>
            readPart scope { d with pending := some ⟨switch, some arg⟩ } rest
          | _ => .error (strayWord scope false arg)

def Draft.command? (d : Draft) : Scope → Option Command
  | .root => none
  | .watch => some (.watch d.plain)
  | .status => some .status
  | .relay => some (.relay d.port)
  | .init => some (.init d.force)

def readAll (scope : Scope) (args : List String) : Except ArgumentError Draft :=
  match readPart scope {} args with
  | .error e => .error e
  | .ok (d, _) => d.settle

end Arguments

open Arguments in
/-- What the arguments ask for. An option behind the command wins over the one before it. -/
def Invocation.ofArguments (args : List String) : Except ArgumentError Invocation :=
  match readPart .root {} args with
  | .error e => .error e
  | .ok (d, none) =>
    match d.settle with
    | .error e => .error e
    | .ok d => .ok ⟨none, d.config⟩
  | .ok (d, some (scope, rest)) =>
    match readAll scope rest with
    | .error e => .error e
    | .ok inner =>
      match d.settle with
      | .error e => .error e
      | .ok d => .ok ⟨inner.command? scope, inner.config.orElse fun _ => d.config⟩

end PoolWatch
