import Lineage.Files.Program

/-!
# Tools

The programs that every run can start: small ones that work on files and text.  Each takes its arguments and
leaves a status, an output and the files.
-/

namespace Lineage.Tools

abbrev Tool := FileTree → List String → Finished

def succeed (t : FileTree) (output : Bytes) : Finished :=
  ⟨0, output, t⟩

def fail (t : FileTree) (status : Nat) : Finished :=
  ⟨status, [], t⟩

/-- The files after an operation, or a failure that leaves them as they were. -/
def orFail (t : FileTree) (e : Except FileError FileTree) : Finished :=
  match e with
  | .ok t => succeed t []
  | .error _ => fail t 1

/-- The files as changes leave them, and whether all succeeded. -/
def changed (c : Changes FileError) : Finished :=
  match c.result with
  | .ok () => succeed c.files []
  | .error _ => fail c.files 1

def isOption (argument : String) : Bool :=
  match argument.toList with
  | '-' :: _ :: _ => true
  | _ => false

/-! ### Text -/

/-- The characters of a text in which a backslash and what follows it stand for one. -/
def unescape : List Char → List Char
  | '\\' :: 'n' :: rest => '\n' :: unescape rest
  | '\\' :: 't' :: rest => '\t' :: unescape rest
  | '\\' :: 'r' :: rest => '\r' :: unescape rest
  | '\\' :: '\\' :: rest => '\\' :: unescape rest
  | c :: rest => c :: unescape rest
  | [] => []

def echo : Tool := fun t arguments =>
  let (words, ending) := match arguments with
    | "-n" :: rest => (rest, [])
    | all => (all, ['\n'])
  succeed t (Utf8.encode (unescape (" ".intercalate words).toList ++ ending))

/-- One pass over a format: what it prints, and the arguments that it leaves. -/
def formatOnce : List Char → List String → List Char × List String
  | '%' :: '%' :: rest, arguments =>
    let (text, left) := formatOnce rest arguments
    ('%' :: text, left)
  | '%' :: c :: rest, arguments =>
    let (text, left) := formatOnce rest arguments.tail
    let value := (arguments.head?.getD (if c = 'd' then "0" else "")).toList
    (value ++ text, left)
  | c :: rest, arguments =>
    let (text, left) := formatOnce rest arguments
    (c :: text, left)
  | [], arguments => ([], arguments)

/-- A format is used again as long as it takes arguments and there are some left. -/
def formatAll (format : List Char) : Nat → List String → List Char
  | 0, _ => []
  | rounds + 1, arguments =>
    let (text, left) := formatOnce format arguments
    if left.isEmpty ∨ arguments.length ≤ left.length then text else text ++ formatAll format rounds left

def printf : Tool := fun t arguments =>
  match arguments with
  | [] => fail t 2
  | format :: rest => succeed t (Utf8.encode (formatAll (unescape format.toList) (rest.length + 1) rest))

/-! ### Tests -/

def isFile (t : FileTree) (path : String) : Bool :=
  match t.lookup path with
  | .ok (.file _ _ _) | .ok (.unreadable _ _ _) => true
  | _ => false

def hasContent (t : FileTree) (path : String) : Bool :=
  match t.metadata path with
  | .ok (size, _) => 0 < size
  | .error _ => false

def compareNumbers (test : Int → Int → Bool) (a b : String) : Option Bool :=
  match a.toInt?, b.toInt? with
  | some m, some n => some (test m n)
  | _, _ => none

/-- The value of a test.  There is none when it is malformed. -/
def evaluate (t : FileTree) : List String → Option Bool
  | [] => some false
  | [a] => some (!a.isEmpty)
  | ["!", a] => some a.isEmpty
  | ["-n", a] => some (!a.isEmpty)
  | ["-z", a] => some a.isEmpty
  | ["-e", a] => some (t.has a)
  | ["-r", a] | ["-w", a] => some (t.canOpen a)
  | ["-f", a] => some (isFile t a)
  | ["-d", a] => some (t.hasDirectory a)
  | ["-s", a] => some (hasContent t a)
  | [a, "=", b] => some (a == b)
  | [a, "!=", b] => some (a != b)
  | [a, "-eq", b] => compareNumbers (· == ·) a b
  | [a, "-ne", b] => compareNumbers (· != ·) a b
  | [a, "-lt", b] => compareNumbers (· < ·) a b
  | [a, "-le", b] => compareNumbers (· ≤ ·) a b
  | [a, "-gt", b] => compareNumbers (· > ·) a b
  | [a, "-ge", b] => compareNumbers (· ≥ ·) a b
  | "!" :: rest => (evaluate t rest).map (!·)
  | _ => none

def test : Tool := fun t arguments =>
  match evaluate t arguments with
  | some true => succeed t []
  | some false => fail t 1
  | none => fail t 2

def bracket : Tool := fun t arguments =>
  if arguments.getLast? = some "]" then test t arguments.dropLast else fail t 2

/-! ### Files -/

/-- The last part of a path. -/
def baseName (path : String) : String :=
  ((Path.parts (Path.withoutSlashes path)).getLast?).getD ""

/-- Where something that is copied or moved to a path ends up. -/
def target (t : FileTree) (source path : String) : String :=
  if t.hasDirectory path then Path.join path (baseName source) else path

def cp : Tool := fun t arguments =>
  match arguments with
  | [source, path] =>
    if isOption source ∨ isOption path then fail t 1
    else orFail t (do t.write (target t source path) (← t.read source))
  | _ => fail t 1

def mv : Tool := fun t arguments =>
  match arguments with
  | [source, path] =>
    if isOption source ∨ isOption path then fail t 1
    else orFail t (do (← t.write (target t source path) (← t.read source)).remove source)
  | _ => fail t 1

def catFrom (t : FileTree) (output : Bytes) (status : Nat) : List String → Finished
  | [] => ⟨status, output, t⟩
  | path :: rest =>
    match t.read path with
    | .ok content => catFrom t (output ++ content) status rest
    | .error _ => catFrom t output 1 rest

def cat : Tool := fun t arguments =>
  if arguments.any isOption then fail t 1 else catFrom t [] 0 arguments

def mkdir : Tool := fun t arguments =>
  match arguments with
  | ["-p", path] => changed (t.makeDirectories path)
  | [path] =>
    if isOption path then fail t 1
    else orFail t (t.makeDirectory path)
  | _ => fail t 1

def touch : Tool := fun t arguments =>
  match arguments with
  | [path] => if isOption path then fail t 1 else if t.has path then succeed t [] else orFail t (t.write path [])
  | _ => fail t 1

def rm : Tool := fun t arguments =>
  match arguments with
  | ["-f", path] => if isFile t path then orFail t (t.remove path) else succeed t []
  | ["-rf", path] => if t.has path then orFail t (t.removeAll path) else succeed t []
  | [path] => if isOption path then fail t 1 else orFail t (t.remove path)
  | _ => fail t 1

/-- The tool of a name. -/
def find? (name : String) : Option Tool :=
  match name with
  | "true" => some fun t _ => succeed t []
  | "false" => some fun t _ => fail t 1
  | "echo" => some echo
  | "printf" => some printf
  | "test" => some test
  | "[" => some bracket
  | "cp" => some cp
  | "mv" => some mv
  | "cat" => some cat
  | "mkdir" => some mkdir
  | "touch" => some touch
  | "rm" => some rm
  | _ => none

end Lineage.Tools
