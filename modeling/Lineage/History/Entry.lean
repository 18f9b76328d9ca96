import Lineage.Record

/-!
# Entries of a history file

An entry is an object with an `id` and a `parent`, which may also be called `parentId`; every other field is
payload.  Both are strings or integers, and an integer counts as its decimal text.  An empty parent marks the
root; a parent that is missing or null is a mistake, not a root.
-/

namespace Lineage

namespace Entry

def idKey : String := "id"

def parentKey : String := "parent"

def parentAlias : String := "parentId"

/-- The parent that is written for a root. -/
def noParent : String := ""

end Entry

/-- The first rule that an entry breaks. -/
inductive Malformed where
  | notAnObject (found : Json.Kind)
  | noId
  | idKind (found : Json.Kind)
  | emptyId
  | bothParents (id : String)
  | noParent
  | parentKind (id : String) (found : Json.Kind)
  deriving DecidableEq, Repr

open Entry in
def Malformed.reason : Malformed → String
  | .notAnObject found => s!"expected an object, found {found.phrase}"
  | .noId => s!"missing required field `{idKey}`"
  | .idKind found => s!"field `{idKey}` must be a string or integer, found {found.phrase}"
  | .emptyId => s!"field `{idKey}` is empty"
  | .bothParents id => s!"record {id} sets both `{parentKey}` and `{parentAlias}`"
  | .noParent => s!"missing required field `{parentKey}`"
  | .parentKind id found => s!"parent of record {id} must be a string or integer, found {found.phrase}"

namespace Entry

/-- The text that a value gives as an id. -/
def idText? : Json → Option String
  | .string s => some s
  | .integer n => some (toString n)
  | _ => none

def readId (fields : Json.Object) : Except Malformed String :=
  match fields.find? idKey with
  | none => .error .noId
  | some j =>
    match idText? j with
    | none => .error (.idKind j.kind)
    | some id => if id = "" then .error .emptyId else .ok id

/-- The value that stands for the parent, under either name but not under both. -/
def rawParent (fields : Json.Object) (id : String) : Except Malformed (Option Json) :=
  match fields.find? parentKey, fields.find? parentAlias with
  | some _, some _ => .error (.bothParents id)
  | parent, other => .ok (parent.or other)

def readParent (fields : Json.Object) (id : String) : Except Malformed (Option String) := do
  match ← rawParent fields id with
  | none | some .null => .error .noParent
  | some j =>
    match idText? j with
    | none => .error (.parentKind id j.kind)
    | some parent => .ok (if parent = noParent then none else some parent)

def payload (fields : Json.Object) : Json.Object :=
  ((fields.erase idKey).erase parentKey).erase parentAlias

end Entry

open Entry

/-- The record that an entry stands for, or the first rule it breaks. -/
def Record.ofEntry (v : Json.Value) : Except Malformed Record :=
  match v.object? with
  | none => .error (.notAnObject v.kind)
  | some fields => do
    let id ← readId fields
    let parent ← readParent fields id
    return ⟨id, parent, Entry.payload fields⟩

/-- The entry of a record.  A payload that has fields of the names `id` or `parent` replaces them. -/
def Record.toEntry (r : Record) : Json.Value :=
  let named := Json.Object.empty.insert idKey (.string r.id)
  .object ((named.insert parentKey (.string (r.parent.getD noParent))).overlay r.payload)

end Lineage
