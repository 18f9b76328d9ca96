import Lineage.Json.Document
import Lineage.Json.Skip

/-!
# Reading a text for what it should hold

A `Shape` says what is asked of a text: fields that it does not know are skipped, and a choice must begin like
one.  `Document.read` reads a text for a shape; of a text that breaks it keeps all that comes before the fault.
-/

namespace Lineage

namespace Json

/-- What is asked of a value. -/
inductive Shape where
  /-- The value with all that is in it. -/
  | any
  /-- Nothing. -/
  | nothing
  /-- A name, or an object with a name for its only field. -/
  | choice
  | list (items : Shape)
  /-- An object, of which only these fields are looked at. -/
  | fields (known : List (String × Shape))

namespace Shape

/-- What is asked of an entry of a container. -/
def entry (s : Shape) : Frame → Shape
  | .items _ =>
    match s with
    | .list items => items
    | _ => .any
  | .field _ name =>
    match s with
    | .fields known => (Fields.find? name known).getD .nothing
    | _ => .any

/-- What is asked of a value inside containers. -/
def within (s : Shape) : List Frame → Shape
  | [] => s
  | frame :: outer => (s.within outer).entry frame

/-- The state of a reading: in a value that is asked for, or in one that is not. -/
inductive State where
  | reading (state : Json.State)
  | skipping (skip : Skip) (outer : List Frame)

namespace State

def start : State :=
  .reading .start

def ofAnswer (answer : Except Refusal Json.State) : Except Cause State :=
  match answer with
  | .ok state => .ok (.reading state)
  | .error why => .error why.cause

/-- The state after a skipped value, which counts as null. -/
def skipped (outer : List Frame) : Json.State :=
  .deliver .null outer

def ofStep (outer : List Frame) (b : UInt8) (step : Except Cause Skip.Step) : Except Cause State :=
  match step with
  | .ok (.more skip) => .ok (.skipping skip outer)
  | .ok .done => .ok (.reading (skipped outer))
  | .ok .ended => ofAnswer ((skipped outer).structural b)
  | .error cause => .error cause

/-- The first byte of a value of a shape. -/
def begin (asked : Shape) (outer : List Frame) (b : UInt8) : Except Cause State :=
  match asked with
  | .nothing => ofStep outer b (Skip.begin [] b)
  | .choice => if b = 0x22 ∨ b = 0x7B then ofAnswer (Json.State.begin outer b) else .error .expectedValue
  | _ => ofAnswer (Json.State.begin outer b)

/-- The state after one more byte of a text that is read for a shape. -/
def feed (shape : Shape) (s : State) (b : UInt8) : Except Cause State :=
  match s with
  | .skipping skip outer => ofStep outer b (skip.feed b)
  | .reading (.reading .value outer) =>
    if isSpace b then .ok s else begin (shape.within outer) outer b
  | .reading state => ofAnswer (state.feed b)

/-- The value when no byte follows. -/
def finish : State → Except Cause Json
  | .reading state => state.finish
  | .skipping skip outer =>
    match skip.endCause? with
    | some cause => .error cause
    | none => (skipped outer).finish

/-! ### What was read up to a fault -/

/-- Whether a number is complete before a byte, or at the end of the text. -/
def isComplete (n : Numeral) : Option UInt8 → Bool
  | some b => n.part.next b = .ended
  | none => n.part.mayEnd

/-- The state before a byte, or at the end of the text, with a number that is complete there. -/
def settle (s : Json.State) (next : Option UInt8) : Json.State :=
  match s with
  | .reading (.number n) outer =>
    if isComplete n next then
      match n.value with
      | .ok j => .deliver j outer
      | .error _ => s
    else s
  | s => s

/-- What stands at a place where a text breaks. -/
def document (cause : Cause) : Place → Document
  | .items before _ => .array (Document.ofItems before.reverse) (some cause)
  | .fields before _ | .text (.name before) _ _ => .object (Document.ofFields before.reverse) (some cause)
  | .colon before name => .object (Document.ofFields before.reverse ++ [(name, .broken cause)]) none
  | .value | .word _ _ | .number _ | .text .value _ _ => .broken cause

/-- A document inside the containers around it. -/
def enclose (d : Document) : List Frame → Document
  | [] => d
  | .items before :: outer => enclose (.array (Document.ofItems before.reverse ++ [d]) none) outer
  | .field before name :: outer => enclose (.object (Document.ofFields before.reverse ++ [(name, d)]) none) outer

/-- What was read of a text that breaks at a byte or at its end. -/
def brokenOff (s : State) (cause : Cause) (next : Option UInt8) : Document :=
  match s with
  | .skipping _ outer => enclose (.broken cause) outer
  | .reading state =>
    match settle state next with
    | .done j => .ofJson j
    | .reading place outer => enclose (document cause place) outer

end State

/-- A reading under way, or what was read before it broke off. -/
inductive Reader where
  | going (state : State)
  | broken (cause : Cause) (read : Document)

namespace Reader

def feed (shape : Shape) (r : Reader) (b : UInt8) : Reader :=
  match r with
  | .broken cause read => .broken cause read
  | .going state =>
    match state.feed shape b with
    | .ok state => .going state
    | .error cause => .broken cause (state.brokenOff cause (some b))

/-- What was read, when no byte follows, and why that is not all. -/
def finish : Reader → Document × Option Cause
  | .broken cause read => (read, some cause)
  | .going state =>
    match state.finish with
    | .ok j => (.ofJson j, none)
    | .error cause => (state.brokenOff cause none, some cause)

end Reader

end Shape

end Json

/-- What a text holds up to its first fault, and the cause of that. -/
def Document.read (shape : Json.Shape) (text : Bytes) : Document × Option Json.Cause :=
  (text.foldl (Json.Shape.Reader.feed shape) (.going .start)).finish

end Lineage
