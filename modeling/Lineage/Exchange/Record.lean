import Lineage.Json.Typed
import Lineage.Record

/-!
# The exchange form of records

Programs exchange a record as an object of `id`, `parent` (null for a root) and `payload`, which is left out
when it is empty.  A list of the three is read as well.
-/

namespace Lineage

open Document (Parts)

/-- A text, or null for none. -/
def Json.ofText? : Option String → Json
  | none => .null
  | some s => .string s

namespace Record

def toJson (r : Record) : Json :=
  .object ([("id", .string r.id), ("parent", Json.ofText? r.parent)] ++
    if r.payload.isEmpty then [] else [("payload", .object r.payload.fields)])

/-- The fields that are looked at. -/
def shape : Json.Shape :=
  .fields [("id", .any), ("parent", .any), ("payload", .any)]

/-- What a list of too few parts is no form of. -/
def form : String := "struct MutationRecord with 3 elements"

def ofDocument (source : Source) (d : Document) : Typed Record := do
  let parts ← d.parts "struct MutationRecord"
  parts.check [
    ("id", fun d => discard d.text),
    ("parent", fun d => discard (d.optional Document.text)),
    ("payload", fun d => discard d.map)]
  let id ← parts.get 0 "id" form Document.text
  let parent ← parts.getOptional 1 "parent" form Document.text
  let payload ← parts.getD 2 "payload" Document.map .empty
  parts.endStructure source 3
  return ⟨id, parent, payload⟩

end Record

namespace History

def toJson (h : History) : Json :=
  .array (h.map Record.toJson)

def shape : Json.Shape :=
  .list Record.shape

def ofDocument (source : Source) (d : Document) : Typed History :=
  d.list (Record.ofDocument source)

end History

end Lineage
