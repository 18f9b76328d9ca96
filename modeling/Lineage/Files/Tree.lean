import Lineage.Files.Path
import Lineage.Text.Utf8

/-!
# File trees

The files that a run can see, as a value.  Every entry is kept under its full list of names; a path is looked
up part by part from the working directory or from the root.
-/

namespace Lineage

/-- Why an operation on a file is refused. -/
inductive FileError where
  | notFound | inputOutput | notExecutable | denied | alreadyExists | notDirectory | isDirectory | noSpace
  | nameTooLong
  /-- A path with a zero byte is no path. -/
  | zeroByte
  deriving DecidableEq, Repr

namespace FileError

/-- The number that the system has for an error. -/
def number? : FileError → Option Nat
  | .notFound => some 2
  | .inputOutput => some 5
  | .notExecutable => some 8
  | .denied => some 13
  | .alreadyExists => some 17
  | .notDirectory => some 20
  | .isDirectory => some 21
  | .noSpace => some 28
  | .nameTooLong => some 36
  | .zeroByte => none

def text : FileError → String
  | .notFound => "No such file or directory"
  | .inputOutput => "Input/output error"
  | .notExecutable => "Exec format error"
  | .denied => "Permission denied"
  | .alreadyExists => "File exists"
  | .notDirectory => "Not a directory"
  | .isDirectory => "Is a directory"
  | .noSpace => "No space left on device"
  | .nameTooLong => "File name too long"
  | .zeroByte => "file name contained an unexpected NUL byte"

def message (e : FileError) : String :=
  match e.number? with
  | some n => s!"{e.text} (os error {n})"
  | none => e.text

end FileError

/-- Why a path is refused whatever the files are. -/
def Path.fault? (path : String) : Option FileError :=
  if '\x00' ∈ path.toList then some .zeroByte
  else if path = "" then some .notFound
  else if maxLength < path.utf8ByteSize then some .nameTooLong
  else none

/-- What a tree can hold at a location. -/
inductive FileTree.Node where
  | directory
  /-- A directory that may not be searched: what is in it is there, and cannot be reached. -/
  | closed
  | file (content : Bytes) (modified : Int) (executable : Bool)
  /-- A file that is there and cannot be opened, and why.  What it holds is not known, only how much. -/
  | unreadable (why : FileError) (size : Nat) (modified : Int)
  /-- Takes everything and holds nothing. -/
  | sink
  /-- Takes nothing. -/
  | full

/-- The names that lead from the root to an entry. -/
abbrev Location := List String

structure FileTree where
  nodes : List (Location × FileTree.Node)
  workingDirectory : Location
  /-- The time, in seconds since 1970. -/
  now : Int

/-- What becomes of files in several steps: when one fails, what was done before it stays. -/
structure Changes (ε : Type) where
  files : FileTree
  result : Except ε Unit

namespace Changes

/-- The files, if every step succeeded. -/
def whole {ε : Type} (c : Changes ε) : Except ε FileTree :=
  c.result.map fun _ => c.files

def mapError {ε ε' : Type} (f : ε → ε') (c : Changes ε) : Changes ε' :=
  ⟨c.files, c.result.mapError f⟩

end Changes

namespace FileTree

/-- A tree that holds an empty working directory and the two devices. -/
def fresh (now : Int) : FileTree where
  nodes := [([], .directory), (["dev"], .directory), (["dev", "null"], .sink), (["dev", "full"], .full),
    (["work"], .directory)]
  workingDirectory := ["work"]
  now := now

def node? (t : FileTree) (place : Location) : Option Node :=
  t.nodes.lookup place

def isDirectory (t : FileTree) (place : Location) : Bool :=
  match t.node? place with
  | some .directory => true
  | _ => false

/-- Puts a node at a location, instead of what is there. -/
def set (t : FileTree) (place : Location) (n : Node) : FileTree :=
  { t with nodes := (place, n) :: t.nodes.filter (·.1 ≠ place) }

/-! ### Looking up paths -/

/-- Where a path begins. -/
def origin (t : FileTree) (path : String) : Location :=
  if Path.isAbsolute path then [] else t.workingDirectory

/-- The location that one part leads to. -/
def step (place : Location) (part : String) : Location :=
  if part = "" ∨ part = "." then place
  else if part = ".." then place.dropLast
  else place ++ [part]

/-- Looks up a part in a directory.  It need not lead to anything.  Nothing is looked up where a slash ends a path
or stands twice. -/
def lookupPart (t : FileTree) (place : Location) (part : String) : Except FileError Location :=
  match t.node? place with
  | some .directory => if Path.maxPart < part.utf8ByteSize then .error .nameTooLong else .ok (step place part)
  | some .closed => if part = "" then .ok place else .error .denied
  | some _ => .error .notDirectory
  | none => .error .notFound

/-- Follows parts, each of which must be looked up in a directory. -/
def follow (t : FileTree) (place : Location) (parts : List String) : Except FileError Location :=
  parts.foldlM t.lookupPart place

/-- The location of a path. -/
def locate (t : FileTree) (path : String) : Except FileError Location :=
  match Path.fault? path with
  | some e => .error e
  | none => t.follow (t.origin path) (Path.parts path)

/-- The directory that the last part of a path is looked up in, and that part.  Slashes at the end are no part. -/
def locateLast (t : FileTree) (path : String) : Except FileError (Location × String) :=
  match Path.fault? path with
  | some e => .error e
  | none => do
    let parts := Path.parts (Path.withoutSlashes path)
    let directory ← t.follow (t.origin path) parts.dropLast
    match t.node? directory with
    | some .directory => return (directory, parts.getLastD "")
    | some .closed => .error .denied
    | some _ => .error .notDirectory
    | none => .error .notFound

def lookup (t : FileTree) (path : String) : Except FileError Node := do
  match t.node? (← t.locate path) with
  | some n => .ok n
  | none => .error .notFound

/-- Whether something is found at a path.  What a closed directory holds is not found. -/
def has (t : FileTree) (path : String) : Bool :=
  (t.lookup path).toOption.isSome

def hasDirectory (t : FileTree) (path : String) : Bool :=
  match t.lookup path with
  | .ok .directory | .ok .closed => true
  | _ => false

/-- Whether something is found at a path that can be opened. -/
def canOpen (t : FileTree) (path : String) : Bool :=
  match t.lookup path with
  | .error _ | .ok .closed | .ok (.unreadable _ _ _) => false
  | .ok _ => true

/-! ### Reading and writing -/

def read (t : FileTree) (path : String) : Except FileError Bytes := do
  match ← t.lookup path with
  | .file content _ _ => .ok content
  | .unreadable why _ _ => .error why
  | .directory => .error .isDirectory
  | .closed => .error .denied
  | .sink | .full => .ok []

/-- Replaces the content of a file, or makes one in a directory that exists. -/
def write (t : FileTree) (path : String) (content : Bytes) : Except FileError FileTree := do
  let (directory, name) ← t.locateLast path
  if Path.endsInSlash path then .error .isDirectory
  else
    let place ← t.lookupPart directory name
    match t.node? place with
    | none => .ok (t.set place (.file content t.now false))
    | some (.file _ _ executable) => .ok (t.set place (.file content t.now executable))
    | some (.unreadable why _ _) => .error why
    | some .directory | some .closed => .error .isDirectory
    | some .sink => .ok t
    | some .full => if content.isEmpty then .ok t else .error .noSpace

/-- Makes a directory in one that exists. -/
def makeDirectory (t : FileTree) (path : String) : Except FileError FileTree := do
  let (directory, name) ← t.locateLast path
  let place ← t.lookupPart directory name
  if (t.node? place).isSome then .error .alreadyExists else .ok (t.set place .directory)

/-- Makes a directory unless it is there. -/
def ensureDirectory (t : FileTree) (path : String) : Except FileError FileTree :=
  match t.makeDirectory path with
  | .ok t => .ok t
  | .error e => if t.hasDirectory path then .ok t else .error e

/-- The files after one more step, which stay as they are when it fails. -/
def after {ε : Type} (t : FileTree) : Except ε FileTree → Changes ε
  | .ok t => ⟨t, .ok ()⟩
  | .error e => ⟨t, .error e⟩

/-- Makes a directory whose path is written backwards. -/
def makeReversed (t : FileTree) (path : List Char) : Changes FileError :=
  let step (t : FileTree) : Except FileError FileTree := t.ensureDirectory (String.ofList path.reverse)
  match step t with
  | .error .notFound =>
    match _h : Path.aboveReversed? path with
    | none => t.after (.error .notFound)
    | some [] => t.after (step t)
    | some above =>
      let made := makeReversed t above
      match made.result with
      | .ok () => made.files.after (step made.files)
      | .error _ => made
  | answer => t.after answer
termination_by path.length
decreasing_by exact Path.length_aboveReversed _h

/-- Makes a directory and those above it.  Directories that are there already are left alone. -/
def makeDirectories (t : FileTree) (path : String) : Changes FileError :=
  if path = "" then t.after (.ok t) else t.makeReversed path.toList.reverse

/-- Removes a file. -/
def remove (t : FileTree) (path : String) : Except FileError FileTree := do
  let (directory, name) ← t.locateLast path
  let place ← t.lookupPart directory name
  match t.node? place with
  | none => .error .notFound
  | some .directory | some .closed => .error .isDirectory
  | some _ =>
    if Path.endsInSlash path then .error .notDirectory
    else .ok { t with nodes := t.nodes.filter (·.1 ≠ place) }

def Node.isClosed : Node → Bool
  | .closed => true
  | _ => false

/-- Removes what a path leads to, a directory with all that is in it. -/
def removeAll (t : FileTree) (path : String) : Except FileError FileTree := do
  let place ← t.locate path
  let (inside, outside) := t.nodes.partition fun n => place.isPrefixOf n.1
  if (t.node? place).isNone then .error .notFound
  else if inside.any (·.2.isClosed) then .error .denied
  else .ok { t with nodes := outside }

/-! ### What is known of an entry -/

/-- The times that are kept have 34 bits, of which the first is 2 ^ 31 seconds before 1970. -/
def keptTime (seconds : Int) : Int :=
  max (-0x80000000) (min 0x37FFFFFFF seconds)

/-- The size that is given for a directory. -/
def directorySize : Nat := 4096

/-- The size of an entry and the time of its last change. -/
def metadata (t : FileTree) (path : String) : Except FileError (Nat × Int) := do
  match ← t.lookup path with
  | .file content modified _ => .ok (content.length, modified)
  | .unreadable _ size modified => .ok (size, modified)
  | .directory | .closed => .ok (directorySize, t.now)
  | .sink | .full => .ok (0, t.now)

/-- Changes what is known of a file. -/
def describe (t : FileTree) (path : String) (modified : Option Int) (executable : Bool) : FileTree :=
  match t.locate path with
  | .error _ => t
  | .ok place =>
    match t.node? place with
    | some (.file content was _) => t.set place (.file content ((modified.map keptTime).getD was) executable)
    | _ => t

end FileTree

end Lineage
