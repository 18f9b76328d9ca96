import Lineage.Json.Numeral
import Lineage.Text.Utf8

/-!
# Reading JSON

The reader takes a text one byte at a time.  Its state is the place in the innermost value and the open
containers around it; a value that is complete is delivered to the container that waits for it.  Since a state
knows only what has been read, a fault is met at the first byte that no continuation could mend, and the state
before it still has everything that was read.
-/

namespace Lineage.Json

/-- What may come at a place between the entries of a container. -/
inductive Turn where
  /-- The first entry, or the end. -/
  | first
  /-- An entry, since a comma stands before. -/
  | next
  /-- A comma, or the end. -/
  | after
  deriving DecidableEq, Repr

/-- Whether a string that is being read is a value or the name of a field. -/
inductive Role where
  | value
  | name (before : Fields Json)

/-- How far an escape inside a string has been read. -/
inductive Escape where
  | none
  | slash
  /-- After `\u`, with the bytes since, the latest first, and the high half of a pair that stands before. -/
  | hex (high : Option Nat) (read : Bytes)
  /-- After the high half of a pair, before the backslash or the `u` of the low one. -/
  | low (high : Nat) (slash : Bool)

inductive Place where
  | value
  | items (before : List Json) (turn : Turn)
  | fields (before : Fields Json) (turn : Turn)
  | colon (before : Fields Json) (name : String)
  | word (left : Bytes) (value : Json)
  | number (n : Numeral)
  /-- Inside a string, with its content so far, the latest byte first. -/
  | text (role : Role) (content : Bytes) (escape : Escape)

/-- A container whose next entry is being read; what stands before it is in reverse order. -/
inductive Frame where
  | items (before : List Json)
  | field (before : Fields Json) (name : String)

inductive State where
  | reading (place : Place) (outer : List Frame)
  | done (value : Json)

/-- Why a byte is refused, whether the fault counts the byte, and how many bytes it reaches back. -/
structure Refusal where
  cause : Cause
  counted : Bool
  back : Nat

def refuse (cause : Cause) : Except Refusal State :=
  .error ⟨cause, true, 0⟩

/-- The number of containers that may stand inside each other. -/
def maxDepth : Nat := 127

def isSpace (b : UInt8) : Bool :=
  b == 0x20 || b == 0x0A || b == 0x09 || b == 0x0D

namespace State

def start : State :=
  .reading .value []

/-- The state after a value that stood inside the given containers. -/
def deliver (j : Json) : List Frame → State
  | [] => .done j
  | .items before :: outer => .reading (.items (j :: before) .after) outer
  | .field before name :: outer => .reading (.fields ((name, j) :: before) .after) outer

/-- The first byte of a value. -/
def begin (outer : List Frame) (b : UInt8) : Except Refusal State :=
  let into (place : Place) : Except Refusal State := .ok (.reading place outer)
  let nest (place : Place) : Except Refusal State :=
    if outer.length < maxDepth then into place else refuse .tooDeep
  if b = 0x22 then into (.text .value [] .none)
  else if b = 0x5B then nest (.items [] .first)
  else if b = 0x7B then nest (.fields [] .first)
  else if b = 0x6E then into (.word [0x75, 0x6C, 0x6C] .null)
  else if b = 0x74 then into (.word [0x72, 0x75, 0x65] (.bool true))
  else if b = 0x66 then into (.word [0x61, 0x6C, 0x73, 0x65] (.bool false))
  else if b = 0x2D then into (.number .minus)
  else if Numeral.Part.isDigit b then into (.number (.ofDigit b))
  else refuse .expectedValue

/-- The end of an array. -/
def closeItems (before : List Json) (outer : List Frame) : Except Refusal State :=
  .ok (deliver (.array before.reverse) outer)

/-- The end of an object. -/
def closeFields (before : Fields Json) (outer : List Frame) : Except Refusal State :=
  .ok (deliver (.object before.reverse) outer)

def itemsByte (before : List Json) (turn : Turn) (outer : List Frame) (b : UInt8) : Except Refusal State :=
  match turn with
  | .first => if b = 0x5D then closeItems before outer else begin (.items before :: outer) b
  | .next => if b = 0x5D then refuse .trailingComma else begin (.items before :: outer) b
  | .after =>
    if b = 0x2C then .ok (.reading (.items before .next) outer)
    else if b = 0x5D then closeItems before outer
    else refuse .expectedListEnd

/-- The quote that begins the name of a field. -/
def beginName (before : Fields Json) (outer : List Frame) (b : UInt8) : Except Refusal State :=
  if b = 0x22 then .ok (.reading (.text (.name before) [] .none) outer) else refuse .keyNotString

def fieldsByte (before : Fields Json) (turn : Turn) (outer : List Frame) (b : UInt8) : Except Refusal State :=
  match turn with
  | .first => if b = 0x7D then closeFields before outer else beginName before outer b
  | .next => if b = 0x7D then refuse .trailingComma else beginName before outer b
  | .after =>
    if b = 0x2C then .ok (.reading (.fields before .next) outer)
    else if b = 0x7D then closeFields before outer
    else refuse .expectedObjectEnd

/-- A byte that is not part of a string, a number or a word. -/
def structural (s : State) (b : UInt8) : Except Refusal State :=
  if isSpace b then .ok s
  else
    match s with
    | .done _ => refuse .trailingCharacters
    | .reading .value outer => begin outer b
    | .reading (.items before turn) outer => itemsByte before turn outer b
    | .reading (.fields before turn) outer => fieldsByte before turn outer b
    | .reading (.colon before name) outer =>
      if b = 0x3A then .ok (.reading .value (.field before name :: outer)) else refuse .expectedColon
    | .reading _ _ => .ok s

/-- The end of a string. -/
def closeText (role : Role) (content : Bytes) (outer : List Frame) : Except Refusal State :=
  let bytes := content.reverse
  match Utf8.decode? bytes with
  | none => .error ⟨.invalidText, true, bytes.length - Utf8.validLength bytes⟩
  | some cs =>
    match role with
    | .value => .ok (deliver (.string (String.ofList cs)) outer)
    | .name before => .ok (.reading (.colon before (String.ofList cs)) outer)

/-- The byte that a backslash and a letter stand for. -/
def escaped? (b : UInt8) : Option UInt8 :=
  if b = 0x22 ∨ b = 0x5C ∨ b = 0x2F then some b
  else if b = 0x62 then some 0x08
  else if b = 0x66 then some 0x0C
  else if b = 0x6E then some 0x0A
  else if b = 0x72 then some 0x0D
  else if b = 0x74 then some 0x09
  else none

def hexValue? (b : UInt8) : Option Nat :=
  if 0x30 ≤ b ∧ b ≤ 0x39 then some (b.toNat - 0x30)
  else if 0x41 ≤ b ∧ b ≤ 0x46 then some (b.toNat - 0x37)
  else if 0x61 ≤ b ∧ b ≤ 0x66 then some (b.toNat - 0x57)
  else none

/-- The number of a sequence of hexadecimal digits. -/
def hexNumber? (digits : Bytes) : Option Nat :=
  digits.foldlM (fun n b => (hexValue? b).map (n * 16 + ·)) 0

def isHighHalf (n : Nat) : Bool :=
  0xD800 ≤ n && n < 0xDC00

def isLowHalf (n : Nat) : Bool :=
  0xDC00 ≤ n && n < 0xE000

/-- The character whose number is split into two halves. -/
def joinHalves (high low : Nat) : Char :=
  Char.ofNat (0x10000 + (high - 0xD800) * 0x400 + (low - 0xDC00))

/-- The escape `\u` with all its four digits. -/
def hexEscape (role : Role) (content : Bytes) (outer : List Frame) (high : Option Nat) (digits : Bytes) :
    Except Refusal State :=
  let push (c : Char) : Except Refusal State :=
    .ok (.reading (.text role ((Utf8.encodeChar c).reverse ++ content) .none) outer)
  match hexNumber? digits, high with
  | none, _ => refuse .invalidEscape
  | some n, some h => if isLowHalf n then push (joinHalves h n) else refuse .loneSurrogate
  | some n, none =>
    if isLowHalf n then refuse .loneSurrogate
    else if isHighHalf n then .ok (.reading (.text role content (.low n false)) outer)
    else push (Char.ofNat n)

/-- A byte inside a string. -/
def textByte (role : Role) (content : Bytes) (escape : Escape) (outer : List Frame) (b : UInt8) :
    Except Refusal State :=
  let go (content : Bytes) (escape : Escape) : Except Refusal State :=
    .ok (.reading (.text role content escape) outer)
  match escape with
  | .none =>
    if b = 0x22 then closeText role content outer
    else if b = 0x5C then go content .slash
    else if b < 0x20 then refuse .controlCharacter
    else go (b :: content) .none
  | .slash =>
    if b = 0x75 then go content (.hex none [])
    else
      match escaped? b with
      | some c => go (c :: content) .none
      | none => refuse .invalidEscape
  | .hex high read =>
    if read.length < 3 then go content (.hex high (b :: read))
    else hexEscape role content outer high (b :: read).reverse
  | .low high false => if b = 0x5C then go content (.low high true) else refuse .endOfHexEscape
  | .low high true => if b = 0x75 then go content (.hex (some high) []) else refuse .endOfHexEscape

/-- The state after one more byte. -/
def feed (s : State) (b : UInt8) : Except Refusal State :=
  match s with
  | .reading (.text role content escape) outer => textByte role content escape outer b
  | .reading (.word [] value) outer => structural (deliver value outer) b
  | .reading (.word [last] value) outer => if b = last then .ok (deliver value outer) else refuse .expectedWord
  | .reading (.word (l :: left) value) outer =>
    if b = l then .ok (.reading (.word left value) outer) else refuse .expectedWord
  | .reading (.number n) outer =>
    match n.feed b with
    | .more n => .ok (.reading (.number n) outer)
    | .broken cause => refuse cause
    | .ended =>
      match n.value with
      | .ok j => structural (deliver j outer) b
      | .error cause => .error ⟨cause, false, 0⟩
  | s => structural s b

/-- Why a text may not end at a place. -/
def endCause : Place → Cause
  | .value | .word _ _ | .number _ => .endInValue
  | .items _ .next | .fields _ .next => .endInValue
  | .items _ _ => .endInList
  | .fields _ _ | .colon _ _ => .endInObject
  | .text _ _ _ => .endInString

/-- The value when no byte follows. -/
def finish : State → Except Cause Json
  | .done j => .ok j
  | .reading (.number n) outer => do
    match deliver (← n.finish) outer with
    | .done j => .ok j
    | .reading place _ => .error (endCause place)
  | .reading place _ => .error (endCause place)

end State

/-- A reading under way, or the fault that ended it. -/
inductive Reader where
  | going (position : Position) (state : State)
  | broken (fault : Fault)

namespace Reader

def start : Reader :=
  .going .start .start

def feed (r : Reader) (b : UInt8) : Reader :=
  match r with
  | .broken fault => .broken fault
  | .going position state =>
    let next := position.next b
    match state.feed b with
    | .ok state => .going next state
    | .error why =>
      let reached := if why.counted then next else position
      .broken ⟨why.cause, reached.line, reached.column - why.back⟩

/-- The value that was read, when no byte follows. -/
def finish : Reader → Except Fault Json
  | .broken fault => .error fault
  | .going position state => state.finish.mapError fun cause => ⟨cause, position⟩

end Reader

/-- The value of a whole text, its fields in the order of the text. -/
def read (text : Bytes) : Except Fault Json :=
  (text.foldl Reader.feed Reader.start).finish

/-- The value of a whole text, its fields by name. -/
def Value.read (text : Bytes) : Except Fault Value :=
  (Json.read text).map Value.ofJson

end Lineage.Json
