import Lineage.Json.Shape
import Lineage.Json.Writer
import Lineage.Text.Quoted

/-!
# Reading typed values

What a document must be to stand for a value of a type.  Parts are read in the order of the document and the
first mismatch is the answer, so a mismatch before the place where the text breaks is found first; parts that
are missing are noticed at the end, in the order of the type.
-/

namespace Lineage

/-- Why a document does not stand for a value. -/
inductive Mismatch where
  /-- The text itself breaks. -/
  | broken (cause : Json.Cause)
  | wrongType (found wanted : String)
  | wrongValue (found wanted : String)
  | wrongLength (length : Nat) (wanted : String)
  | missingField (name : String)
  | duplicateField (name : String)
  | unknownVariant (name : String) (variants : List String)
  deriving DecidableEq, Repr

namespace Mismatch

def choices (names : List String) : String :=
  match names.map fun n => s!"`{n}`" with
  | [] => "there are no variants"
  | [a] => s!"expected {a}"
  | [a, b] => s!"expected {a} or {b}"
  | all => "expected one of " ++ ", ".intercalate all

def message : Mismatch → String
  | .broken cause => cause.message
  | .wrongType found wanted => s!"invalid type: {found}, expected {wanted}"
  | .wrongValue found wanted => s!"invalid value: {found}, expected {wanted}"
  | .wrongLength length wanted => s!"invalid length {length}, expected {wanted}"
  | .missingField name => s!"missing field `{name}`"
  | .duplicateField name => s!"duplicate field `{name}`"
  | .unknownVariant name variants => s!"unknown variant `{name}`, {choices variants}"

end Mismatch

/-- Where a document comes from.  A text ends an array where its last part ends; a value has all its items. -/
inductive Source where
  | text
  | value
  deriving DecidableEq, Repr

abbrev Typed (α : Type) := Except Mismatch α

namespace Document

/-- What a document is, as messages name it. -/
def described : Document → String
  | .null => "null"
  | .bool b => s!"boolean `{b}`"
  | .integer n => s!"integer `{n}`"
  | .float f => s!"floating point `{String.ofList (Json.floatText f)}`"
  | .string s => "string " ++ Quoted.quoted s
  | .array _ _ => "sequence"
  | .object _ _ => "map"
  | .broken cause => cause.message

/-- The mismatch of a document that is something else than wanted. -/
def not {α : Type} (wanted : String) : Document → Typed α
  | .broken cause => .error (.broken cause)
  | d => .error (.wrongType d.described wanted)

/-- The answer, unless the document breaks before its end. -/
def ending {α : Type} (fault : Option Json.Cause) (answer : α) : Typed α :=
  match fault with
  | none => .ok answer
  | some cause => .error (.broken cause)

/-- A document that is well-formed to its end. -/
def whole (d : Document) : Typed Json :=
  d.json.mapError .broken

def text : Document → Typed String
  | .string s => .ok s
  | d => d.not "a string"

/-- A natural number, called by the name of its width. -/
def count (wanted : String) : Document → Typed Nat
  | .integer n =>
    if n < 0 then .error (.wrongValue (described (.integer n)) wanted) else .ok n.toNat
  | d => d.not wanted

def optional {α : Type} (read : Document → Typed α) : Document → Typed (Option α)
  | .null => .ok none
  | d => (read d).map some

def list {α : Type} (read : Document → Typed α) : Document → Typed (List α)
  | .array items fault => do ending fault (← items.mapM read)
  | d => d.not "a sequence"

/-- An object of any fields. -/
def map (d : Document) : Typed Json.Object :=
  match d with
  | .object fields fault => do
    let fields ← (jsonFields fields).mapError Mismatch.broken
    ending fault (.ofFields fields)
  | d => d.not "a map"

/-! ### Parts -/

/-- The parts of a structured value, by name or one after the other. -/
inductive Parts where
  | named (fields : Fields Document) (fault : Option Json.Cause)
  | listed (items : List Document) (fault : Option Json.Cause)

def parts (wanted : String) : Document → Typed Parts
  | .object fields fault => .ok (.named fields fault)
  | .array items fault => .ok (.listed items fault)
  | d => d.not wanted

namespace Parts

/-- Goes through named parts in their order.  A known name may stand only once and must hold what is known of
it; parts of other names need only be well-formed. -/
def walk (known : Fields (Document → Typed Unit)) (seen : List String) : Fields Document → Typed Unit
  | [] => .ok ()
  | (name, d) :: rest =>
    match known.find? name with
    | none => do
      discard d.whole
      walk known seen rest
    | some read =>
      if name ∈ seen then .error (.duplicateField name)
      else do
        read d
        walk known (name :: seen) rest

def check (p : Parts) (known : Fields (Document → Typed Unit)) : Typed Unit :=
  match p with
  | .named fields fault => do
    walk known [] fields
    ending fault ()
  | .listed _ _ => .ok ()

/-- The part of a name and a place, if it is there. -/
def part? (p : Parts) (place : Nat) (name : String) : Typed (Option Document) :=
  match p with
  | .named fields _ => .ok (fields.find? name)
  | .listed items fault =>
    match items[place]? with
    | some d => .ok (some d)
    | none => ending fault none

/-- The mismatch of a part that is not there, where `type` describes the type. -/
def absent {α : Type} (p : Parts) (place : Nat) (name type : String) : Typed α :=
  match p with
  | .named _ _ => .error (.missingField name)
  | .listed _ _ => .error (.wrongLength place type)

/-- The part of a name and a place. -/
def get {α : Type} (p : Parts) (place : Nat) (name type : String) (read : Document → Typed α) : Typed α := do
  match ← p.part? place name with
  | some d => read d
  | none => p.absent place name type

/-- The part of a name that may be left out, although in a list its place may not. -/
def getOptional {α : Type} (p : Parts) (place : Nat) (name type : String) (read : Document → Typed α) :
    Typed (Option α) := do
  match ← p.part? place name, p with
  | some d, _ => optional read d
  | none, .named _ _ => return none
  | none, .listed _ _ => p.absent place name type

/-- A part that has a value even when it is left out. -/
def getD {α : Type} (p : Parts) (place : Nat) (name : String) (read : Document → Typed α) (default : α) :
    Typed α := do
  match ← p.part? place name with
  | some d => read d
  | none => return default

/-- The number of listed parts, where a list may not have more. -/
def elements (n : Nat) : String :=
  if n = 1 then "1 element" else s!"{n} elements"

/-- Listed parts of a variant end after its last one. -/
def endVariant (p : Parts) (size : Nat) : Typed Unit :=
  match p with
  | .named _ _ => .ok ()
  | .listed items _ =>
    if items.length ≤ size then .ok ()
    else .error (.wrongLength items.length (elements size ++ " in sequence"))

/-- Listed parts of a structure end after its last one. -/
def endStructure (p : Parts) (source : Source) (size : Nat) : Typed Unit :=
  match p, source with
  | .named _ _, _ => .ok ()
  | .listed items _, .value =>
    if items.length ≤ size then .ok () else .error (.wrongLength items.length "fewer elements in array")
  | .listed items fault, .text =>
    if size < items.length then .error (.broken .trailingCharacters)
    else
      match fault with
      | none => .ok ()
      | some cause =>
        if cause = .endInList ∨ cause = .trailingComma then .error (.broken cause)
        else .error (.broken .trailingCharacters)

end Parts

/-! ### Variants -/

/-- The name of one of several variants. -/
def variant (variants : List String) : Document → Typed String
  | .string s => if s ∈ variants then .ok s else .error (.unknownVariant s variants)
  | d => d.not "variant identifier"

/-- The name of one of several variants, or its place among them. -/
def variantOrPlace (variants : List String) : Document → Typed String
  | .integer (.ofNat n) =>
    match variants[n]? with
    | some name => .ok name
    | none => .error (.wrongValue s!"integer `{n}`" s!"variant index 0 <= i < {variants.length}")
  | d => d.variant variants

/-- Goes through fields in their order, and takes apart the one that tells the variant and the others. -/
def splitTag (tag : String) (read : Document → Typed String) (found : Option String) (others : Fields Document) :
    Fields Document → Typed (Option String × Fields Document)
  | [] => .ok (found, others.reverse)
  | (name, d) :: rest =>
    if name = tag then
      match found with
      | some _ => .error (.duplicateField tag)
      | none => do splitTag tag read (some (← read d)) others rest
    else do
      discard d.whole
      splitTag tag read found ((name, d) :: others) rest

/-- The variant that fields tell under `tag`, and the other fields. -/
def taggedFields (tag : String) (read : Document → Typed String) (fields : Fields Document)
    (fault : Option Json.Cause) : Typed (String × Parts) := do
  let (found, others) ← splitTag tag read none [] fields
  match ← ending fault found with
  | none => .error (.missingField tag)
  | some name => return (name, .named others none)

/-- A value of a type with variants: the name of its variant, which stands under `tag` or first in a list, and
the other parts. -/
def tagged (wanted tag : String) (variants : List String) : Document → Typed (String × Parts)
  | .object fields fault => taggedFields tag (variant variants) fields fault
  | .array [] fault => do
    ending fault ()
    .error (.missingField tag)
  | .array (d :: ds) fault => do
    let name ← d.variant variants
    discard (jsonItems ds |>.mapError Mismatch.broken)
    ending fault (name, .listed ds none)
  | d => d.not wanted

end Document

/-- Reads a value from a text of a shape. -/
def Typed.ofText {α : Type} (shape : Json.Shape) (read : Source → Document → Typed α) (text : Bytes) :
    Typed α := do
  let (d, fault) := Document.read shape text
  let a ← read .text d
  Document.ending fault a

/-- Reads a value from a JSON value. -/
def Typed.ofValue {α : Type} (read : Source → Document → Typed α) (v : Json.Value) : Typed α :=
  read .value (.ofJson v.json)

end Lineage
