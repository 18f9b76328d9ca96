/-!
# Arguments

The options of a command, and the reading of an argument list against them.  A value follows its option or
stands behind an equals sign; no option but a repeatable one may be given twice, and there are no other
arguments.
-/

namespace Lineage

/-- What an option takes. -/
inductive OptionForm where
  | flag
  /-- A path, which is not empty and does not look like an option when it follows the option. -/
  | path
  /-- Any text, as often as wanted. -/
  | texts
  deriving DecidableEq, Repr

structure OptionSpec where
  name : String
  letter : Option Char
  form : OptionForm

/-- An option that was given, with its value unless it is a flag. -/
abbrev Given := String × Option String

namespace Arguments

/-- Whether an argument has the look of an option. -/
def looksLikeOption (argument : String) : Bool :=
  match argument.toList with
  | '-' :: _ :: _ => true
  | _ => false

def accepts (spec : OptionSpec) (value : String) : Bool :=
  match spec.form with
  | .flag => false
  | .path => !value.isEmpty
  | .texts => true

/-- Whether a value may follow its option as an argument of its own. -/
def mayFollow (spec : OptionSpec) (value : String) : Bool :=
  spec.form == .texts || !looksLikeOption value

/-- The option that an argument begins with, and the value that stands in the same argument. -/
def split? (specs : List OptionSpec) (argument : String) : Option (OptionSpec × Option String) :=
  match argument.toList with
  | '-' :: '-' :: long => do
    let name := String.ofList (long.takeWhile (· ≠ '='))
    let spec ← specs.find? (·.name == name)
    return (spec, if '=' ∈ long then some (String.ofList (long.dropWhile (· ≠ '=')).tail) else none)
  | '-' :: letter :: attached => do
    let spec ← specs.find? (·.letter == some letter)
    return (spec, match attached with
      | [] => none
      | '=' :: value => some (String.ofList value)
      | value => some (String.ofList value))
  | _ => none

/-- Reads arguments, given the option that waits for its value.  Misused arguments have no answer. -/
def readFrom (specs : List OptionSpec) (waiting : Option OptionSpec) : List String → Option (List Given)
  | [] => if waiting.isNone then some [] else none
  | argument :: rest =>
    match waiting with
    | some spec =>
      if mayFollow spec argument ∧ accepts spec argument then do
        return (spec.name, some argument) :: (← readFrom specs none rest)
      else none
    | none =>
      if argument = "--" then if rest.isEmpty then some [] else none
      else
        match split? specs argument with
        | none => none
        | some (spec, none) =>
          if spec.form = .flag then do return (spec.name, none) :: (← readFrom specs none rest)
          else readFrom specs (some spec) rest
        | some (spec, some value) =>
          if accepts spec value then do return (spec.name, some value) :: (← readFrom specs none rest)
          else none

/-- Whether an option that is not repeatable was given twice. -/
def hasRepeats (specs : List OptionSpec) (given : List Given) : Bool :=
  specs.any fun spec => spec.form ≠ .texts && 1 < (given.filter (·.1 == spec.name)).length

def read? (specs : List OptionSpec) (arguments : List String) : Option (List Given) := do
  let given ← readFrom specs none arguments
  if hasRepeats specs given then none else some given

/-- The value of an option, if it was given. -/
def value? (given : List Given) (name : String) : Option String :=
  (given.lookup name).join

/-- The values of a repeatable option. -/
def values (given : List Given) (name : String) : List String :=
  (given.filter (·.1 == name)).filterMap (·.2)

def has (given : List Given) (name : String) : Bool :=
  given.any (·.1 == name)

end Arguments

end Lineage
