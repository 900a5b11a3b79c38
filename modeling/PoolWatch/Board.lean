import PoolWatch.Frame

/-!
# The board

One publisher replaces the newest frame, and any number of readers look at it. A reader is told of a
change once. Changes that it has not seen by then come to it as the newest frame only.
-/

namespace PoolWatch

/-- What is shown at the moment, and how far each reader has come. -/
structure Board where
  frame : Frame
  /-- How many times the frame has been replaced. -/
  version : Nat
  published : Bool
  /-- What each reader has seen. Readers that are gone have no entry. -/
  readers : List (Option Nat)

namespace Board

/-- A publisher and one reader, who has seen the first frame. -/
def new : Board := ⟨.initial, 0, true, [some 0]⟩

/-- The version that a reader has seen last, unless the reader has left. -/
def seen? (b : Board) (reader : Nat) : Option Nat := (b.readers[reader]?).join

/-! ## Publishing -/

def replace (f : Frame) (b : Board) : Board := { b with frame := f, version := b.version + 1 }

def close (b : Board) : Board := { b with published := false }

/-! ## Reading -/

def join (seen : Nat) (b : Board) : Board := { b with readers := b.readers ++ [some seen] }

/-- A reader that leaves keeps its number, which nobody gets again. -/
def leave (reader : Nat) (b : Board) : Board := { b with readers := b.readers.set reader none }

/-- What a reader finds who asks for a change. -/
inductive Change
  | frame (f : Frame)
  | waiting
  | closed

/-- What is told to a reader that asks. News come first, even when the publisher is gone. -/
def change (seen : Nat) (b : Board) : Change :=
  if seen < b.version then .frame b.frame else if b.published then .waiting else .closed

def markSeen (reader : Nat) (b : Board) : Board :=
  { b with readers := b.readers.set reader (some b.version) }

/-! ## Steps -/

/-- What the publisher or one of the readers does. -/
inductive Step
  | subscribe
  | clone (reader : Nat)
  | beginCycle (cycle : Nat)
  | publish (model : DisplayModel) (time : Timestamp)
  /-- Publishes the stopped frame and closes the board. -/
  | shutdown (time : Timestamp)
  | dropPublisher
  | dropReader (reader : Nat)
  | current (reader : Nat)
  | changed (reader : Nat)

inductive Answer
  | done
  | reader (index : Nat)
  | frame (f : Frame)
  | waiting
  | closed
  | noPublisher
  | noReader

def ofChange : Change → Answer
  | .frame f => .frame f
  | .waiting => .waiting
  | .closed => .closed

/-- A step of the publisher. After the end there is none. -/
def publisherStep (b : Board) (answer : Answer) (next : Board) : Answer × Board :=
  if b.published then (answer, next) else (.noPublisher, b)

def readerStep (b : Board) (reader : Nat) (next : Nat → Answer × Board) : Answer × Board :=
  match b.seen? reader with
  | some seen => next seen
  | none => (.noReader, b)

def step (b : Board) : Step → Answer × Board
  | .subscribe => b.publisherStep (.reader b.readers.length) (b.join b.version)
  | .beginCycle n => b.publisherStep .done (b.replace (b.frame.beginCycle n))
  | .publish model time => b.publisherStep .done (b.replace (b.frame.publish model time))
  | .shutdown time => b.publisherStep .done (b.replace (b.frame.publish .stopped time)).close
  | .dropPublisher => b.publisherStep .done b.close
  | .clone r => b.readerStep r fun seen => (.reader b.readers.length, b.join seen)
  | .dropReader r => b.readerStep r fun _ => (.done, b.leave r)
  | .current r => b.readerStep r fun _ => (.frame b.frame, b)
  | .changed r => b.readerStep r fun seen => (ofChange (b.change seen), b.markSeen r)

def after (b : Board) (steps : List Step) : Board := steps.foldl (fun b s => (b.step s).2) b

def answers (b : Board) : List Step → List Answer
  | [] => []
  | s :: rest => (b.step s).1 :: answers (b.step s).2 rest

end Board

end PoolWatch
