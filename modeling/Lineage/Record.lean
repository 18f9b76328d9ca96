import Lineage.Json.Basic

/-!
# Records

A record is one step of a recorded derivation: an id, the id of the record it was derived from, and a payload
that is carried along and never looked into.  A history is the list of records in the order in which they were
recorded.
-/

namespace Lineage

structure Record where
  id : String
  parent : Option String
  payload : Json.Object

abbrev History := List Record

namespace Record

/-- A record that derives from no other. -/
def root (id : String) : Record :=
  ⟨id, none, .empty⟩

def child (id parent : String) : Record :=
  ⟨id, some parent, .empty⟩

def isRoot (r : Record) : Bool :=
  r.parent.isNone

def isSelfReferencing (r : Record) : Bool :=
  r.parent == some r.id

/-- Equal records; their payloads compare as values. -/
def same (a b : Record) : Bool :=
  a.id == b.id && a.parent == b.parent && a.payload.same b.payload

instance : BEq Record := ⟨same⟩

end Record

end Lineage
