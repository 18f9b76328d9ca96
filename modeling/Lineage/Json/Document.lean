import Lineage.Json.Basic
import Lineage.Json.Fault

/-!
# What was read of a text

A `Document` is a JSON tree that may stop short: where the text stops being JSON, it holds the cause instead
of the rest.  Whoever reads a document from the front meets what is well-formed before the fault.
-/

namespace Lineage

inductive Document where
  | null
  | bool (value : Bool)
  | integer (value : Int)
  | float (value : Float)
  | string (value : String)
  /-- An array, and why it does not end. -/
  | array (items : List Document) (ending : Option Json.Cause)
  /-- An object, and why it does not end. -/
  | object (fields : List (String × Document)) (ending : Option Json.Cause)
  | broken (cause : Json.Cause)

namespace Document

mutual

def ofJson : Json → Document
  | .null => .null
  | .bool b => .bool b
  | .integer n => .integer n
  | .float f => .float f
  | .string s => .string s
  | .array items => .array (ofItems items) none
  | .object fields => .object (ofFields fields) none

def ofItems : List Json → List Document
  | [] => []
  | j :: js => ofJson j :: ofItems js

def ofFields : List (String × Json) → List (String × Document)
  | [] => []
  | (n, j) :: fs => (n, ofJson j) :: ofFields fs

end

/-- An answer, unless there is a fault. -/
def complete {α : Type} (ending : Option Json.Cause) (answer : α) : Except Json.Cause α :=
  match ending with
  | none => .ok answer
  | some f => .error f

mutual

/-- The tree of a document, or its first fault. -/
def json : Document → Except Json.Cause Json
  | .null => .ok .null
  | .bool b => .ok (.bool b)
  | .integer n => .ok (.integer n)
  | .float f => .ok (.float f)
  | .string s => .ok (.string s)
  | .array items ending => do complete ending (.array (← jsonItems items))
  | .object fields ending => do complete ending (.object (← jsonFields fields))
  | .broken f => .error f

def jsonItems : List Document → Except Json.Cause (List Json)
  | [] => .ok []
  | d :: ds => do return (← d.json) :: (← jsonItems ds)

def jsonFields : List (String × Document) → Except Json.Cause (List (String × Json))
  | [] => .ok []
  | (n, d) :: fs => do return (n, ← d.json) :: (← jsonFields fs)

end

end Document

end Lineage
