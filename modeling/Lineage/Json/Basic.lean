import Lineage.Json.Fields

/-!
# JSON values

`Json` is the tree of a text, with the fields of an object in the order in which they were written.
`Json.Ordered` says that all objects of a tree list their fields by name, each name once; `sorted` makes a
tree so, and a `Json.Value` is a tree that is so.
-/

namespace Lineage

inductive Json where
  | null
  | bool (value : Bool)
  | integer (value : Int)
  | float (value : Float)
  | string (value : String)
  | array (items : List Json)
  | object (fields : List (String × Json))

namespace Json

inductive Kind where
  | null | boolean | number | string | array | object
  deriving DecidableEq, Repr

/-- The kind with its article, as sentences name it. -/
def Kind.phrase : Kind → String
  | .null => "null"
  | .boolean => "a boolean"
  | .number => "a number"
  | .string => "a string"
  | .array => "an array"
  | .object => "an object"

def kind : Json → Kind
  | .null => .null
  | .bool _ => .boolean
  | .integer _ => .number
  | .float _ => .number
  | .string _ => .string
  | .array _ => .array
  | .object _ => .object

/-! ### Equality of values -/

mutual

/-- Equal trees, where floating point numbers compare by value. -/
def same : Json → Json → Bool
  | .null, .null => true
  | .bool a, .bool b => a == b
  | .integer a, .integer b => a == b
  | .float a, .float b => a == b
  | .string a, .string b => a == b
  | .array as, .array bs => sameItems as bs
  | .object as, .object bs => sameFields as bs
  | _, _ => false

def sameItems : List Json → List Json → Bool
  | [], [] => true
  | a :: as, b :: bs => a.same b && sameItems as bs
  | _, _ => false

def sameFields : List (String × Json) → List (String × Json) → Bool
  | [], [] => true
  | (m, a) :: as, (n, b) :: bs => m == n && a.same b && sameFields as bs
  | _, _ => false

end

instance : BEq Json := ⟨same⟩

/-! ### Order of fields -/

/-- The fields of every object in the tree ascend by name. -/
inductive Ordered : Json → Prop where
  | null : Ordered .null
  | bool (b : Bool) : Ordered (.bool b)
  | integer (n : Int) : Ordered (.integer n)
  | float (f : Float) : Ordered (.float f)
  | string (s : String) : Ordered (.string s)
  | array {items : List Json} (each : ∀ j ∈ items, Ordered j) : Ordered (.array items)
  | object {fields : Fields Json} (each : ∀ f ∈ fields, Ordered f.2) (sorted : fields.Sorted) :
    Ordered (.object fields)

mutual

/-- The tree with the fields of every object by name, the last of each name. -/
def sorted : Json → Json
  | .array items => .array (sortedItems items)
  | .object fields => .object (Fields.collect (sortedFields fields))
  | .null => .null
  | .bool b => .bool b
  | .integer n => .integer n
  | .float f => .float f
  | .string s => .string s

def sortedItems : List Json → List Json
  | [] => []
  | j :: js => j.sorted :: sortedItems js

def sortedFields : List (String × Json) → List (String × Json)
  | [] => []
  | (n, j) :: fs => (n, j.sorted) :: sortedFields fs

end

mutual

theorem ordered_sorted : ∀ j : Json, j.sorted.Ordered
  | .null => .null
  | .bool b => .bool b
  | .integer n => .integer n
  | .float f => .float f
  | .string s => .string s
  | .array items => .array (ordered_sortedItems items)
  | .object fields =>
    .object (fun f hf => ordered_sortedFields fields f (Fields.mem_collect hf)) (Fields.sorted_collect _)

theorem ordered_sortedItems : ∀ items : List Json, ∀ j ∈ sortedItems items, j.Ordered
  | [], _, h => nomatch h
  | x :: xs, j, h => by
    rcases List.mem_cons.1 h with rfl | h
    · exact ordered_sorted x
    · exact ordered_sortedItems xs j h

theorem ordered_sortedFields : ∀ fields : List (String × Json), ∀ f ∈ sortedFields fields, f.2.Ordered
  | [], _, h => nomatch h
  | (n, x) :: xs, f, h => by
    rcases List.mem_cons.1 h with rfl | h
    · exact ordered_sorted x
    · exact ordered_sortedFields xs f h

end

theorem Ordered.items {items : List Json} (h : (Json.array items).Ordered) : ∀ j ∈ items, j.Ordered := by
  cases h; assumption

theorem Ordered.fields {fields : Fields Json} (h : (Json.object fields).Ordered) :
    (∀ f ∈ fields, f.2.Ordered) ∧ fields.Sorted := by
  cases h; exact ⟨‹_›, ‹_›⟩

/-- A value whose objects list their fields by name. -/
structure Value where
  json : Json
  ordered : json.Ordered

/-- The named values of an object, by name. -/
structure Object where
  fields : Fields Json
  ordered : (Json.object fields).Ordered

namespace Value

def ofJson (j : Json) : Value :=
  ⟨j.sorted, j.ordered_sorted⟩

def kind (v : Value) : Kind :=
  v.json.kind

/-- The items of an array. -/
def items? : Value → Option (List Value)
  | ⟨.array items, h⟩ => some (items.attach.map fun j => ⟨j.1, h.items j.1 j.2⟩)
  | _ => none

def object? : Value → Option Object
  | ⟨.object fields, h⟩ => some ⟨fields, h⟩
  | _ => none

def array (items : List Value) : Value :=
  ⟨.array (items.map json), .array fun _ h => by
    obtain ⟨v, -, rfl⟩ := List.mem_map.1 h
    exact v.ordered⟩

def object (o : Object) : Value :=
  ⟨.object o.fields, o.ordered⟩

def string (s : String) : Value :=
  ⟨.string s, .string s⟩

def integer (n : Int) : Value :=
  ⟨.integer n, .integer n⟩

end Value

namespace Object

def empty : Object :=
  ⟨[], .object (fun _ h => nomatch h) List.Pairwise.nil⟩

/-- The fields by name, the last of each name. -/
def ofFields (fields : Fields Json) : Object :=
  ⟨Fields.collect (sortedFields fields), (Json.object fields).ordered_sorted⟩

def isEmpty (o : Object) : Bool :=
  o.fields.isEmpty

def find? (o : Object) (name : String) : Option Json :=
  o.fields.find? name

def erase (o : Object) (name : String) : Object :=
  ⟨o.fields.erase name, .object (fun f hf => o.ordered.fields.1 f (Fields.mem_of_mem_erase hf))
    (Fields.sorted_erase name o.ordered.fields.2)⟩

def insert (o : Object) (name : String) (v : Value) : Object :=
  ⟨o.fields.insert name v.json, .object
    (fun f hf => by
      rcases Fields.mem_insert hf with rfl | hf
      · exact v.ordered
      · exact o.ordered.fields.1 f hf)
    (Fields.sorted_insert name v.json o.ordered.fields.2)⟩

/-- The fields of both, those of the second where both have a name. -/
def overlay (o new : Object) : Object :=
  ⟨Fields.insertAll new.fields o.fields, .object
    (fun f hf => (Fields.mem_insertAll hf).elim (new.ordered.fields.1 f) (o.ordered.fields.1 f))
    (Fields.sorted_insertAll new.fields o.ordered.fields.2)⟩

def same (a b : Object) : Bool :=
  sameFields a.fields b.fields

end Object

end Json

end Lineage
