/-!
# Scripts

Scripts of the command language are lists of simple commands, joined by `&&` and `||` and separated by
semicolons and line breaks.  A command is made of words and redirections; a word is made of texts and
parameters, quoted or not.
-/

namespace Lineage.Script

/-- A part of a word. -/
inductive Piece where
  | text (s : List Char) (quoted : Bool)
  | parameter (name : String) (quoted : Bool)
  deriving DecidableEq, Repr

abbrev Word := List Piece

inductive Channel where
  | input
  | output
  | errors
  deriving DecidableEq, Repr

inductive Redirection.Mode where
  | read
  | replace
  | append
  /-- To where another channel leads; the word is its number. -/
  | same
  deriving DecidableEq, Repr

structure Redirection where
  channel : Channel
  mode : Redirection.Mode
  target : Word

structure Simple where
  words : List Word
  redirections : List Redirection

/-- When a command runs, given how the one before it ended. -/
inductive Condition where
  | always
  | afterSuccess
  | afterFailure
  deriving DecidableEq, Repr

structure Step where
  condition : Condition
  negated : Bool
  command : Simple
  /-- The next command runs or not by how this one ends. -/
  decides : Bool

/-! ### Tokens -/

inductive Token where
  | word (w : Word)
  | separator
  | lineBreak
  | and
  | or
  | redirect (channel : Channel) (mode : Redirection.Mode)

/-- Where the next character belongs. -/
inductive Mode where
  | bare
  | single
  | double
  | escape (quoted : Bool)
  | dollar (quoted : Bool)
  | name (quoted : Bool) (read : List Char)
  | braces (quoted : Bool) (read : List Char)
  | comment
  /-- After the first character of an operator. -/
  | operator (first : Char) (channel : Channel)

/-- The tokens so far, the latest first, the word that is being read, its latest piece first, and the mode. -/
structure Lexer where
  tokens : List Token
  word : Option Word
  mode : Mode

namespace Lexer

def start : Lexer :=
  ⟨[], none, .bare⟩

/-- Adds a character to the word that is being read. -/
def addChar (l : Lexer) (quoted : Bool) (c : Char) : Lexer :=
  let pieces := l.word.getD []
  let word := match pieces with
    | .text s q :: rest => if q = quoted then .text (s ++ [c]) q :: rest else .text [c] quoted :: pieces
    | _ => .text [c] quoted :: pieces
  { l with word := some word }

def addPiece (l : Lexer) (p : Piece) : Lexer :=
  { l with word := some (p :: l.word.getD []) }

/-- Ends the word that is being read. -/
def endWord (l : Lexer) : Lexer :=
  match l.word with
  | none => l
  | some pieces => { l with tokens := .word pieces.reverse :: l.tokens, word := none }

def push (l : Lexer) (t : Token) : Lexer :=
  { l with tokens := t :: l.tokens }

def into (l : Lexer) (m : Mode) : Lexer :=
  { l with mode := m }

/-- The mode around a quoted or a bare piece. -/
def around (quoted : Bool) : Mode :=
  if quoted then .double else .bare

/-- The channel that a redirection names by its number, which is then no word. -/
def openRedirection (l : Lexer) (first : Char) : Lexer :=
  let usual := if first = '<' then Channel.input else Channel.output
  match l.word with
  | some [.text ['2'] false] => { l with word := none, mode := .operator first .errors }
  | some [.text ['1'] false] => { l with word := none, mode := .operator first .output }
  | some [.text ['0'] false] => { l with word := none, mode := .operator first .input }
  | _ => l.endWord.into (.operator first usual)

/-- A character outside quotes.  There is no answer for a construct that scripts may not use. -/
def bareChar (l : Lexer) (c : Char) : Option Lexer :=
  if c = ' ' ∨ c = '\t' then some l.endWord
  else if c = '\n' then some (l.endWord.push .lineBreak)
  else if c = ';' then some (l.endWord.push .separator)
  else if c = '&' ∨ c = '|' then some (l.endWord.into (.operator c .output))
  else if c = '<' ∨ c = '>' then some (l.openRedirection c)
  else if c = '#' ∧ l.word.isNone then some (l.into .comment)
  else if c = '\'' then some ((l.addPiece (.text [] true)).into .single)
  else if c = '"' then some ((l.addPiece (.text [] true)).into .double)
  else if c = '\\' then some (l.into (.escape false))
  else if c = '$' then some (l.into (.dollar false))
  else if c = '(' ∨ c = ')' ∨ c = '`' then none
  else some (l.addChar false c)

def doubleChar (l : Lexer) (c : Char) : Option Lexer :=
  if c = '"' then some (l.into .bare)
  else if c = '\\' then some (l.into (.escape true))
  else if c = '$' then some (l.into (.dollar true))
  else if c = '`' then none
  else some (l.addChar true c)

/-- A character in one of the two modes that pieces of a word stand in. -/
def plainChar (l : Lexer) (quoted : Bool) (c : Char) : Option Lexer :=
  if quoted then (l.into .double).doubleChar c else (l.into .bare).bareChar c

def isNameStart (c : Char) : Bool :=
  c.isAlpha || c == '_'

def isSpecial (c : Char) : Bool :=
  c.isDigit || c == '@' || c == '*' || c == '#' || c == '?'

def parameter (l : Lexer) (quoted : Bool) (name : List Char) : Lexer :=
  (l.addPiece (.parameter (String.ofList name) quoted)).into (around quoted)

/-- The second character of an operator, or the first after it. -/
def operatorChar (l : Lexer) (first : Char) (channel : Channel) (c : Char) : Option Lexer :=
  let redirect (mode : Redirection.Mode) : Lexer := (l.push (.redirect channel mode)).into .bare
  if first = '&' then if c = '&' then some ((l.push .and).into .bare) else none
  else if first = '|' then if c = '|' then some ((l.push .or).into .bare) else none
  else if first = '<' then if c = '<' ∨ c = '&' then none else (redirect .read).bareChar c
  else if c = '>' then some (redirect .append)
  else if c = '&' then some (redirect .same)
  else (redirect .replace).bareChar c

def feed (l : Lexer) (c : Char) : Option Lexer :=
  match l.mode with
  | .bare => l.bareChar c
  | .double => l.doubleChar c
  | .single => some (if c = '\'' then l.into .bare else l.addChar true c)
  | .comment => if c = '\n' then (l.into .bare).bareChar c else some l
  | .escape false => some (if c = '\n' then l.into .bare else (l.addChar true c).into .bare)
  | .escape true =>
    let l := l.into .double
    some (if c = '\n' then l
      else if c = '"' ∨ c = '\\' ∨ c = '$' ∨ c = '`' then l.addChar true c
      else (l.addChar true '\\').addChar true c)
  | .dollar quoted =>
    if isSpecial c then some (l.parameter quoted [c])
    else if isNameStart c then some (l.into (.name quoted [c]))
    else if c = '{' then some (l.into (.braces quoted []))
    else if c = '(' then none
    else (l.addChar quoted '$').plainChar quoted c
  | .name quoted read =>
    if c.isAlphanum || c == '_' then some (l.into (.name quoted (read ++ [c])))
    else (l.parameter quoted read).plainChar quoted c
  | .braces quoted read =>
    if c = '}' then some (l.parameter quoted read)
    else if c.isAlphanum || c == '_' || isSpecial c then some (l.into (.braces quoted (read ++ [c])))
    else none
  | .operator first channel => l.operatorChar first channel c

/-- The tokens when no character follows. -/
def finish (l : Lexer) : Option (List Token) :=
  let tokens (l : Lexer) := some l.endWord.tokens.reverse
  match l.mode with
  | .bare | .comment => tokens l
  | .escape false => tokens (l.addChar true '\\')
  | .dollar false => tokens (l.addChar false '$')
  | .name false read => tokens (l.parameter false read)
  | _ => none

end Lexer

def tokens (script : List Char) : Option (List Token) := do
  (← script.foldlM Lexer.feed .start).finish

/-! ### Commands -/

/-- Steps so far, the latest first, and the one being read.  `pending` is a redirection without its word. -/
structure Reading where
  steps : List Step
  condition : Condition
  negated : Bool
  words : List Word
  redirections : List Redirection
  pending : Option (Channel × Redirection.Mode)

namespace Reading

def start : Reading :=
  ⟨[], .always, false, [], [], none⟩

def isEmpty (r : Reading) : Bool :=
  r.words.isEmpty && r.redirections.isEmpty && !r.negated && r.pending.isNone

/-- Ends the step that is being read, which must be complete. -/
def endStep (r : Reading) (next : Condition) : Option Reading :=
  if r.pending.isSome ∨ (r.words.isEmpty ∧ r.redirections.isEmpty) then none
  else
    let step : Step :=
      ⟨r.condition, r.negated, ⟨r.words.reverse, r.redirections.reverse⟩, next ≠ .always⟩
    some ⟨step :: r.steps, next, false, [], [], none⟩

def feed (r : Reading) : Token → Option Reading
  | .word w =>
    match r.pending with
    | some (channel, mode) =>
      some { r with redirections := ⟨channel, mode, w⟩ :: r.redirections, pending := none }
    | none =>
      if w = [.text ['!'] false] ∧ r.words.isEmpty then some { r with negated := !r.negated }
      else some { r with words := w :: r.words }
  | .redirect channel mode => if r.pending.isSome then none else some { r with pending := some (channel, mode) }
  | .and => r.endStep .afterSuccess
  | .or => r.endStep .afterFailure
  | .separator => r.endStep .always
  | .lineBreak => if r.isEmpty then some r else r.endStep .always

def finish (r : Reading) : Option (List Step) :=
  if r.isEmpty then if r.condition = .always then some r.steps.reverse else none
  else (r.endStep .always).map (·.steps.reverse)

end Reading

/-- The steps of a script, if it is one. -/
def parse (script : List Char) : Option (List Step) := do
  (← (← tokens script).foldlM Reading.feed .start).finish

end Lineage.Script
