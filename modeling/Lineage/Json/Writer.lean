import Lineage.Json.Basic
import Lineage.Text.Shortest

/-!
# JSON text

The text of a value, in one line or indented.  Both are the same writer with a different `Layout`: what stands
between the items of a container and after the colon of a field.
-/

namespace Lineage.Json

/-- Numbers from `0.00001` up to sixteen digits before the point are written in full. -/
def floatLayout : Shortest.Layout :=
  ⟨-5, 16, 'e', ['+']⟩

structure Layout where
  /-- What separates items at a depth from their neighbours. -/
  lineBreak : Nat → List Char
  colon : List Char

namespace Layout

/-- No space at all. -/
def compact : Layout :=
  ⟨fun _ => [], [':']⟩

/-- One item a line, two spaces for each level. -/
def pretty : Layout :=
  ⟨fun depth => '\n' :: List.replicate (2 * depth) ' ', [':', ' ']⟩

end Layout

def hexDigit (n : Nat) : Char :=
  Nat.digitChar (n % 16)

/-- A character inside quotes.  Quote, backslash and the control characters are escaped, nothing else is. -/
def escape (c : Char) : List Char :=
  if c = '"' then ['\\', '"']
  else if c = '\\' then ['\\', '\\']
  else if c = '\n' then ['\\', 'n']
  else if c = '\r' then ['\\', 'r']
  else if c = '\t' then ['\\', 't']
  else if c = '\x08' then ['\\', 'b']
  else if c = '\x0c' then ['\\', 'f']
  else if c.toNat < 0x20 then ['\\', 'u', '0', '0', hexDigit (c.toNat / 16), hexDigit c.toNat]
  else [c]

def quoted (s : String) : List Char :=
  '"' :: s.toList.flatMap escape ++ ['"']

def integerText (n : Int) : List Char :=
  (toString n).toList

/-- No JSON text stands for an infinity or for what is not a number. -/
def floatText (f : Float) : List Char :=
  if f.isFinite then floatLayout.float f else "null".toList

namespace Layout

mutual

def write (l : Layout) (depth : Nat) : Json → List Char
  | .null => "null".toList
  | .bool true => "true".toList
  | .bool false => "false".toList
  | .integer n => integerText n
  | .float f => floatText f
  | .string s => quoted s
  | .array [] => "[]".toList
  | .array (j :: js) =>
    '[' :: l.lineBreak (depth + 1) ++ l.write (depth + 1) j ++ l.writeItems (depth + 1) js ++
      l.lineBreak depth ++ [']']
  | .object [] => ['{', '}']
  | .object ((name, j) :: fs) =>
    '{' :: l.lineBreak (depth + 1) ++ quoted name ++ l.colon ++ l.write (depth + 1) j ++
      l.writeFields (depth + 1) fs ++ l.lineBreak depth ++ ['}']

/-- The items after the first. -/
def writeItems (l : Layout) (depth : Nat) : List Json → List Char
  | [] => []
  | j :: js => ',' :: l.lineBreak depth ++ l.write depth j ++ l.writeItems depth js

/-- The fields after the first. -/
def writeFields (l : Layout) (depth : Nat) : List (String × Json) → List Char
  | [] => []
  | (name, j) :: fs =>
    ',' :: l.lineBreak depth ++ quoted name ++ l.colon ++ l.write depth j ++ l.writeFields depth fs

end

def text (l : Layout) (j : Json) : String :=
  String.ofList (l.write 0 j)

end Layout

def compact (j : Json) : String :=
  Layout.compact.text j

def pretty (j : Json) : String :=
  Layout.pretty.text j

end Lineage.Json
