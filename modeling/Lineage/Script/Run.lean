import Lineage.Script.Parse
import Lineage.Script.Tools

/-!
# Running scripts

A script runs against the files, with its name and its arguments as parameters.  `Script.launcher` starts
programs by name: tools, the shell, and scripts that say that the shell runs them.  So an atomizer can run on a
tree of files, and nothing outside of the tree takes part.
-/

namespace Lineage.Script

/-- What a script knows and has done so far. -/
structure Environment where
  name : String
  arguments : List String
  bindings : List (String × String)
  status : Nat
  output : Bytes
  files : FileTree
  /-- The script ends at the first failure that decides nothing. -/
  strict : Bool
  /-- The script has ended before its last step. -/
  ended : Bool

/-- The value of a single parameter. -/
def parameter (e : Environment) (name : String) : String :=
  if name = "#" then toString e.arguments.length
  else if name = "?" then toString e.status
  else
    match name.toNat? with
    | some 0 => e.name
    | some n => (e.arguments[n - 1]?).getD ""
    | none => (e.bindings.lookup name).getD ""

/-- Fields of a word that is being expanded: those that are complete, the latest first, and the open one. -/
structure Fields where
  complete : List (List Char)
  last : Option (List Char)

namespace Fields

def add (f : Fields) (text : List Char) : Fields :=
  { f with last := some (f.last.getD [] ++ text) }

def close (f : Fields) : Fields :=
  match f.last with
  | none => f
  | some l => ⟨l :: f.complete, none⟩

/-- Text that is not quoted ends a field at every space. -/
def addSplit (f : Fields) (text : List Char) : Fields :=
  text.foldl (fun f c => if c = ' ' ∨ c = '\t' ∨ c = '\n' then f.close else f.add [c]) f

/-- Each text in a field of its own. -/
def addEach (f : Fields) (texts : List String) : Fields :=
  match texts with
  | [] => f
  | first :: rest => rest.foldl (fun f s => f.close.add s.toList) (f.add first.toList)

end Fields

def expandPiece (e : Environment) (f : Fields) : Piece → Fields
  | .text s _ => f.add s
  | .parameter "@" true => f.addEach e.arguments
  | .parameter "@" false | .parameter "*" false =>
    e.arguments.foldl (fun f s => (f.addSplit s.toList).close) f
  | .parameter "*" true => f.add (" ".intercalate e.arguments).toList
  | .parameter name true => f.add (parameter e name).toList
  | .parameter name false => f.addSplit (parameter e name).toList

/-- A quoted word that holds nothing but the arguments stands for as many words as there are. -/
def isArguments (w : Word) : Bool :=
  w.contains (.parameter "@" true) && w.all fun
    | .text s _ => s.isEmpty
    | p => p == .parameter "@" true

def expand (e : Environment) (w : Word) : List String :=
  if isArguments w then e.arguments
  else ((w.foldl (expandPiece e) ⟨[], none⟩).close.complete.reverse).map String.ofList

/-- The text of a word where only one is wanted. -/
def expandOne (e : Environment) (w : Word) : String :=
  " ".intercalate (expand e w)

/-! ### Redirections -/

/-- Where the streams of a command lead: to files, or where those of the script lead.  What a command says about
its own errors is shown to nobody. -/
structure Streams where
  input : Option String
  output : Option String
  errors : Option String
  /-- The output goes where errors go. -/
  hidden : Bool

/-- The streams of the script. -/
def Streams.inherited : Streams :=
  ⟨none, none, none, false⟩

/-- Leads a stream to a file. -/
def Streams.direct (s : Streams) (path : String) : Channel → Streams
  | .input => { s with input := some path }
  | .output => { s with output := some path, hidden := false }
  | .errors => { s with errors := some path }

/-- Makes the file of a stream, which is empty unless what it holds is kept. -/
def openFile (e : Environment) (path : String) (keep : Bool) : Option Environment :=
  if keep ∧ e.files.canOpen path then some e
  else (e.files.write path []).toOption.map fun t => { e with files := t }

/-- Follows a redirection.  There is no answer when its file cannot be opened. -/
def openOne : Environment × Streams → Redirection → Option (Environment × Streams)
  | (e, s), r => do
    let path := expandOne e r.target
    match r.mode with
    | .read => if e.files.canOpen path then return (e, s.direct path .input) else none
    | .same => return (e, if r.channel = .output ∧ path = "2" then { s with output := s.errors, hidden := true } else s)
    | .replace => return (← openFile e path false, s.direct path r.channel)
    | .append => return (← openFile e path true, s.direct path r.channel)

/-- Sends the output of a command where it goes. -/
def deliver (e : Environment) (s : Streams) (f : Finished) : Environment :=
  match s.output with
  | none =>
    let shown := if s.hidden then [] else f.output
    { e with files := f.files, status := f.status, output := e.output ++ shown }
  | some path =>
    let before := (f.files.read path).toOption.getD []
    match f.files.write path (before ++ f.output) with
    | .ok t => { e with files := t, status := f.status }
    | .error _ => { e with files := f.files, status := 1 }

/-- The arguments of a program.  One that shows files, and is given none, shows the one its input leads to. -/
def argumentsFor (s : Streams) (program : String) (arguments : List String) : List String :=
  match s.input, arguments with
  | some path, [] => if program = "cat" then [path] else []
  | _, arguments => arguments

/-! ### Steps -/

/-- The name and the value of an assignment. -/
def assignment? (word : String) : Option (String × String) :=
  let name := word.toList.takeWhile (· ≠ '=')
  match name, word.toList.dropWhile (· ≠ '=') with
  | c :: cs, '=' :: value =>
    if Lexer.isNameStart c && cs.all fun c => c.isAlphanum || c == '_' then
      some (String.ofList name, String.ofList value)
    else none
  | _, _ => none

def statusOf (argument : Option String) (otherwise : Nat) : Nat :=
  match argument with
  | none => otherwise
  | some s => (s.toNat?.getD 2) % 256

/-- Starts a program, which is missing or cannot be executed when it does not start. -/
def start (launcher : Launcher) (e : Environment) (s : Streams) (program : String) (arguments : List String) :
    Environment :=
  match launcher e.files program (argumentsFor s program arguments) with
  | .ok f => deliver e s f
  | .error why =>
    let missing := why = .notFound ∨ why = .notDirectory ∨ why = .nameTooLong
    { e with status := if missing then 127 else 126 }

/-- Whether the script ends at the first failure that decides nothing, after the given settings. -/
def isStrict (settings : List String) (before : Bool) : Bool :=
  settings.foldl (fun strict setting =>
    match setting.toList with
    | '-' :: letters => strict || letters.contains 'e'
    | '+' :: letters => strict && !letters.contains 'e'
    | _ => strict) before

/-- Runs a command: one that is about the script itself, or a program. -/
def runNamed (launcher : Launcher) (e : Environment) (s : Streams) (name : String) (arguments : List String) :
    Environment :=
  match name with
  | ":" => { e with status := 0 }
  | "set" => { e with strict := isStrict arguments e.strict, status := 0 }
  | "exit" => { e with status := statusOf arguments.head? e.status, ended := true }
  | "cd" =>
    match e.files.enter (arguments.head?.getD "") with
    | .ok t => { e with files := t, status := 0 }
    | .error _ => { e with status := 2 }
  | "shift" =>
    let n := (arguments.head?.bind String.toNat?).getD 1
    { e with arguments := e.arguments.drop n, status := 0 }
  | "exec" =>
    match arguments with
    | [] => { e with status := 0 }
    | program :: rest => { start launcher e s program rest with ended := true }
  | _ => start launcher e s name arguments

def runCommand (launcher : Launcher) (e : Environment) (s : Streams) : List String → Environment
  | [] => { e with status := 0 }
  | [word] =>
    match assignment? word with
    | some binding => { e with bindings := binding :: e.bindings, status := 0 }
    | none => runNamed launcher e s word []
  | name :: arguments => runNamed launcher e s name arguments

def applies (e : Environment) : Condition → Bool
  | .always => true
  | .afterSuccess => e.status == 0
  | .afterFailure => e.status != 0

/-- The environment after a command, when that ends as it should not. -/
def settle (e : Environment) (step : Step) : Environment :=
  if e.ended then e
  else if step.negated then { e with status := if e.status = 0 then 1 else 0 }
  else if e.strict ∧ !step.decides ∧ e.status ≠ 0 then { e with ended := true }
  else e

def runStep (launcher : Launcher) (e : Environment) (step : Step) : Environment :=
  if e.ended ∨ !applies e step.condition then e
  else
    match step.command.redirections.foldlM openOne (e, Streams.inherited) with
    | none => settle { e with status := 2 } step
    | some (e, s) => settle (runCommand launcher e s (step.command.words.flatMap (expand e))) step

/-- Runs the text of a script. -/
def run (launcher : Launcher) (t : FileTree) (text : List Char) (name : String) (arguments : List String) :
    Finished :=
  match parse text with
  | none => ⟨2, [], t⟩
  | some steps =>
    let e := steps.foldl (runStep launcher) ⟨name, arguments, [], 0, [], t, false, false⟩
    ⟨e.status, e.output, e.files.returnTo t⟩

/-- The shell: it runs the script in a file, or the script that follows the option `-c`. -/
def shell (launcher : Launcher) (t : FileTree) (arguments : List String) : Finished :=
  match arguments with
  | "-c" :: script :: rest => run launcher t script.toList (rest.head?.getD "sh") rest.tail
  | path :: rest =>
    if Tools.isOption path then ⟨2, [], t⟩
    else
      match t.read path with
      | .ok content => run launcher t (Utf8.lossy content) path rest
      | .error _ => ⟨2, [], t⟩
  | [] => ⟨0, [], t⟩

/-- The name of a program that is always there, by itself or in one of the usual directories. -/
def standardName (program : String) : String :=
  match Path.parts program with
  | ["", "bin", name] | ["", "usr", "bin", name] => name
  | _ => program

/-- The names of the shell. -/
def isShell (name : String) : Bool :=
  name == "sh" || name == "dash" || name == "bash"

/-- The interpreter that the first line of a file asks for. -/
def interpreter? (content : Bytes) : Option (List String) :=
  match (Utf8.lossy content).takeWhile (· ≠ '\n') with
  | '#' :: '!' :: line => some (((line.splitOn ' ').filter (· ≠ [])).map String.ofList)
  | _ => none

/-- Runs a file that may be executed.  Its first line names the interpreter, which can only be the shell. -/
def execute (launcher : Launcher) (t : FileTree) (content : Bytes) (path : String) (arguments : List String) :
    Except FileError Finished :=
  let finished := run launcher t (Utf8.lossy content) path arguments
  match interpreter? content with
  | none | some [] => .error .notExecutable
  | some ("/usr/bin/env" :: name :: _) => if isShell name then .ok finished else .ok ⟨127, [], t⟩
  | some (program :: _) => if isShell (standardName program) then .ok finished else .error .notFound

/-- Starts a program; scripts may start each other up to the given depth. -/
def launcher : (depth : Nat) → Launcher
  | 0 => fun _ _ _ => .error .denied
  | depth + 1 => fun t program arguments =>
    let name := standardName program
    if isShell name then .ok (shell (launcher depth) t arguments)
    else
      match Tools.find? name with
      | some tool => .ok (tool t arguments)
      | none =>
        if '/' ∉ program.toList then
          .error (if Path.maxPart < program.utf8ByteSize then .nameTooLong else .notFound)
        else do
          match ← t.lookup program with
          | .file content _ true => execute (launcher depth) t content program arguments
          | _ => .error .denied

end Lineage.Script
