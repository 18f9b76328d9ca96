import Lineage.Text.Utf8

/-!
# Traces

A trace is a log that is shown as it is and never parsed.  What is not text in it is replaced, which leaves
its lines as they are.
-/

namespace Lineage.Trace

/-- The text of a log. -/
def text (content : Bytes) : List Char :=
  Utf8.lossy content

/-- A character in front of the lines that follow it. -/
def addChar (c : Char) (lines : List (List Char)) : List (List Char) :=
  if c = '\n' then [] :: lines
  else
    match lines with
    | [] => [[c]]
    | line :: rest => (c :: line) :: rest

/-- The lines of a text.  Each ends at a line break, and the last may do without if it is not empty. -/
def lines (text : List Char) : List (List Char) :=
  text.foldr addChar []

def lineCount (text : List Char) : Nat :=
  (lines text).length

end Lineage.Trace
