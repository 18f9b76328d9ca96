import Lineage.Json.Reader

/-!
# Skipping values

A value that nobody asks for is only read to find where it ends.  Its strings are not decoded, its numbers have
no size and its containers no depth, so it may hold what a value that is read may not: half a surrogate pair, a
number out of range, a thousand brackets.
-/

namespace Lineage.Json

/-- What is open around a place in a skipped value. -/
inductive Bracket where
  | array | object
  deriving DecidableEq, Repr

namespace Bracket

def closing : Bracket → UInt8
  | .array => 0x5D
  | .object => 0x7D

/-- Why a text may not end between the entries of a container. -/
def endCause : Bracket → Cause
  | .array => .endInList
  | .object => .endInObject

/-- Why a byte may not follow an entry. -/
def strayCause : Bracket → Cause
  | .array => .expectedListEnd
  | .object => .expectedObjectEnd

end Bracket

namespace Skip

/-- How far an escape has been read. -/
inductive Escape where
  | none
  | slash
  /-- After `\u`, with the bytes since, the latest first. -/
  | hex (read : Bytes)

inductive Place where
  | value
  /-- Before the name of a field. -/
  | name
  | colon
  /-- After an opening bracket. -/
  | first (bracket : Bracket)
  /-- After an entry. -/
  | after (bracket : Bracket)
  | word (left : Bytes)
  | number (part : Numeral.Part)
  /-- Inside a string, which is a value or the name of a field. -/
  | text (naming : Bool) (escape : Escape)

end Skip

/-- A place in a value that is being skipped, and the brackets that are open around it. -/
structure Skip where
  place : Skip.Place
  opened : List Bracket

namespace Skip

inductive Step where
  | more (s : Skip)
  /-- The byte is the last one of the value. -/
  | done
  /-- The value has ended before the byte. -/
  | ended

/-- Goes on after an entry of the innermost container. -/
def leave : List Bracket → Step
  | [] => .done
  | bracket :: opened => .more ⟨.after bracket, bracket :: opened⟩

def go (place : Place) (opened : List Bracket) : Except Cause Step :=
  .ok (.more ⟨place, opened⟩)

/-- The first byte of a value. -/
def begin (opened : List Bracket) (b : UInt8) : Except Cause Step :=
  if b = 0x22 then go (.text false .none) opened
  else if b = 0x5B then go (.first .array) (.array :: opened)
  else if b = 0x7B then go (.first .object) (.object :: opened)
  else if b = 0x6E then go (.word [0x75, 0x6C, 0x6C]) opened
  else if b = 0x74 then go (.word [0x72, 0x75, 0x65]) opened
  else if b = 0x66 then go (.word [0x61, 0x6C, 0x73, 0x65]) opened
  else if b = 0x2D then go (.number .minus) opened
  else if Numeral.Part.isDigit b then go (.number (Numeral.Part.first b)) opened
  else .error .expectedValue

/-- The quote that begins the name of a field. -/
def beginName (opened : List Bracket) (b : UInt8) : Except Cause Step :=
  if b = 0x22 then go (.text true .none) opened else .error .keyNotString

/-- The first byte of an entry. -/
def beginEntry (bracket : Bracket) (opened : List Bracket) (b : UInt8) : Except Cause Step :=
  match bracket with
  | .array => begin opened b
  | .object => beginName opened b

/-- What comes after a comma. -/
def nextPlace : Bracket → Place
  | .array => .value
  | .object => .name

/-- A byte that is not part of a string, a number or a word. -/
def structural (s : Skip) (b : UInt8) : Except Cause Step :=
  if isSpace b then .ok (.more s)
  else
    match s.place with
    | .value => begin s.opened b
    | .name => beginName s.opened b
    | .colon => if b = 0x3A then go .value s.opened else .error .expectedColon
    | .first bracket =>
      if b = bracket.closing then .ok (leave s.opened.tail) else beginEntry bracket s.opened b
    | .after bracket =>
      if b = 0x2C then go (nextPlace bracket) s.opened
      else if b = bracket.closing then .ok (leave s.opened.tail)
      else .error bracket.strayCause
    | .word _ | .number _ | .text _ _ => .ok (.more s)

/-- A byte after a number. -/
def afterNumber (opened : List Bracket) (b : UInt8) : Except Cause Step :=
  match opened with
  | [] => .ok .ended
  | bracket :: _ => structural ⟨.after bracket, opened⟩ b

/-- A byte inside a string. -/
def textByte (naming : Bool) (escape : Escape) (opened : List Bracket) (b : UInt8) : Except Cause Step :=
  match escape with
  | .none =>
    if b = 0x22 then if naming then go .colon opened else .ok (leave opened)
    else if b = 0x5C then go (.text naming .slash) opened
    else if b < 0x20 then .error .controlCharacter
    else go (.text naming .none) opened
  | .slash =>
    if b = 0x75 then go (.text naming (.hex [])) opened
    else if (State.escaped? b).isSome then go (.text naming .none) opened
    else .error .invalidEscape
  | .hex read =>
    if read.length < 3 then go (.text naming (.hex (b :: read))) opened
    else if (State.hexNumber? (b :: read)).isSome then go (.text naming .none) opened
    else .error .invalidEscape

/-- What becomes of a skipped value with one more byte. -/
def feed (s : Skip) (b : UInt8) : Except Cause Step :=
  match s.place with
  | .text naming escape => textByte naming escape s.opened b
  | .word [last] => if b = last then .ok (leave s.opened) else .error .expectedWord
  | .word (l :: left) => if b = l then go (.word left) s.opened else .error .expectedWord
  | .number part =>
    match part.next b with
    | .part next => go (.number next) s.opened
    | .ended => afterNumber s.opened b
    | .broken => .error .invalidNumber
  | _ => structural s b

/-- Why a text may not end inside a skipped value.  It may after a number with nothing open around it. -/
def endCause? (s : Skip) : Option Cause :=
  match s.place with
  | .value | .word _ => some .endInValue
  | .name | .colon => some .endInObject
  | .first bracket | .after bracket => some bracket.endCause
  | .text _ _ => some .endInString
  | .number part => if part.mayEnd then s.opened.head?.map Bracket.endCause else some .invalidNumber

end Skip

end Lineage.Json
