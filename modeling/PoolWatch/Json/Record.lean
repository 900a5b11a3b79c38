import PoolWatch.Json.Reader
import PoolWatch.Json.Skip

/-!
# Reading records

A record has named fields. It is written as an object, whose members may come in any order and may
include others, or as a list of the fields in order. A field that is left out keeps its default,
unless it is required.
-/

namespace PoolWatch.Json

/-- One field of a record whose fields so far are a `σ`. -/
structure RecordField (σ : Type) where
  name : String
  required : Bool
  given : σ → Bool
  read : σ → Reader σ

/-- Describes the value at the start of the text where something else was expected. -/
def failType {α : Type} (expected : Expected) (s : List Char) : Except Failure α :=
  let wrong := fun (found : Found) (rest : List Char) =>
    failHere (.misfit (.wrongType found expected)) rest
  match skipBlanks s with
  | [] => failPeek .endInValue []
  | c :: rest =>
    if c = '[' then wrong .list (c :: rest)
    else if c = '{' then wrong .object (c :: rest)
    else match readValueWith none (c :: rest) with
      | .error f => .error f
      | .ok (.null, rest) => wrong .null rest
      | .ok (.bool b, rest) => wrong (.bool b) rest
      | .ok (.number n, rest) => wrong (.number n) rest
      | .ok (.text t, rest) => wrong (.text t) rest
      | .ok (.list _, rest) => wrong .list rest
      | .ok (.object _, rest) => wrong .object rest

def readSequence {α : Type} (inner : Option (Reader α)) : Reader (List α) := fun s =>
  match skipBlanks s with
  | [] => failPeek .endInValue []
  | c :: rest =>
    if c = '[' then
      match inner with
      | none => failPeek .tooDeep (c :: rest)
      | some item => readItems item rest
    else failType .sequence (c :: rest)

/-! ## As an object -/

/-- After the name of a field that was given before. The object's end is looked for first. -/
def failRepeated {α : Type} (name : String) (s : List Char) : Except Failure α :=
  match skipBlanks s with
  | [] => failHere (.misfit (.repeatedField name)) []
  | c :: rest => failHere (.misfit (.repeatedField name)) (if c = '}' then rest else c :: rest)

def findField {σ : Type} (name : String) (fields : List (RecordField σ)) : Option (RecordField σ) :=
  fields.find? (fun f => f.name == name)

/-- Reads members up to the closing brace. Unknown ones are passed over. -/
def readFieldsFrom {σ : Type} (fields : List (RecordField σ)) : Nat → Bool → σ → List Char →
    Except Failure (σ × List Char)
  | 0, _, _, _ => failPeek .endInObject []
  | fuel + 1, first, state, s =>
    match nextName first s with
    | .error f => .error f
    | .ok (none, rest) => .ok (state, rest.drop 1)
    | .ok (some name, rest) =>
      match findField name fields with
      | none =>
        match readColon rest with
        | .error f => .error f
        | .ok rest =>
          match skipValue rest with
          | .error f => .error f
          | .ok rest => readFieldsFrom fields fuel false state rest
      | some field =>
        if field.given state then failRepeated name rest
        else match readColon rest with
          | .error f => .error f
          | .ok rest =>
            match field.read state rest with
            | .error f => .error f
            | .ok (state, rest) => readFieldsFrom fields fuel false state rest

/-- The first required field that was not given, with its position. -/
def missing? {σ : Type} (state : σ) : Nat → List (RecordField σ) → Option (Nat × String)
  | _, [] => none
  | i, f :: rest =>
    if f.required && !f.given state then some (i, f.name) else missing? state (i + 1) rest

/-! ## As a list -/

/-- Reads items for the fields in their order. -/
def readPositions {σ : Type} : List (RecordField σ) → Bool → σ → List Char →
    Except Failure (σ × List Char)
  | [], _, state, s => .ok (state, s)
  | f :: fields, first, state, s =>
    match nextItem first s with
    | .error e => .error e
    | .ok (none, rest) => .ok (state, rest)
    | .ok (some start, _) =>
      match f.read state start with
      | .error e => .error e
      | .ok (state, rest) => readPositions fields false state rest

/-! ## Both -/

/-- Reads a record. `inner` gives the fields, when something may still be nested here. -/
def readRecord {σ : Type} (expected : Expected) (blank : σ)
    (inner : Option (List (RecordField σ))) : Reader σ := fun s =>
  match skipBlanks s with
  | [] => failPeek .endInValue []
  | c :: rest =>
    if c = '{' then
      match inner with
      | none => failPeek .tooDeep (c :: rest)
      | some fields =>
        match readFieldsFrom fields (rest.length + 1) true blank rest with
        | .error f => .error f
        | .ok (state, rest) =>
          match missing? state 0 fields with
          | some (_, name) => failHere (.misfit (.missingField name)) rest
          | none => .ok (state, rest)
    else if c = '[' then
      match inner with
      | none => failPeek .tooDeep (c :: rest)
      | some fields =>
        match readPositions fields true blank rest with
        | .error f => .error f
        | .ok (state, rest) =>
          match endList rest with
          | .error f => .error f
          | .ok rest =>
            match missing? state 0 fields with
            | some (i, _) => failHere (.misfit (.tooFew i expected)) rest
            | none => .ok (state, rest)
    else failType expected (c :: rest)

end PoolWatch.Json
