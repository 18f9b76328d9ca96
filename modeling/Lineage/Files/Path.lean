/-!
# Paths

A path is a text whose parts are separated by slashes.  It is kept as it was given: nothing is normalised
until a file is looked up.
-/

namespace Lineage.Path

/-- The bytes that a path may have, and those that one of its parts may have. -/
def maxLength : Nat := 4095

def maxPart : Nat := 255

def isAbsolute (path : String) : Bool :=
  path.toList.head? == some '/'

/-- A path as seen from a directory. -/
def join (directory path : String) : String :=
  if isAbsolute path then path
  else if directory.isEmpty || directory.toList.getLast? == some '/' then directory ++ path
  else directory ++ "/" ++ path

/-- The parts between slashes. -/
def parts (path : String) : List String :=
  (path.toList.splitOn '/').map String.ofList

/-- Whether a path can lead to a directory only. -/
def endsInSlash (path : String) : Bool :=
  path.toList.getLast? == some '/'

/-- Drops the slashes at the end of a path, except one that is all of it. -/
def withoutSlashes (path : String) : String :=
  match path.toList.reverse.dropWhile (· = '/') with
  | [] => if path.isEmpty then "" else "/"
  | kept => String.ofList kept.reverse

/-! ### What a path lies in -/

/-- Drops what stands for no part of its own from the end of a path that is written backwards: slashes, except
one that begins the path, and a single dot after a slash. -/
def trimReversed : List Char → List Char
  | '/' :: c :: rest => trimReversed (c :: rest)
  | '.' :: '/' :: rest => trimReversed ('/' :: rest)
  | path => path

theorem length_trimReversed_le (path : List Char) : (trimReversed path).length ≤ path.length := by
  fun_induction trimReversed path with
  | case1 c rest ih => simp only [List.length_cons] at *; omega
  | case2 rest ih => simp only [List.length_cons] at *; omega
  | case3 path => exact Nat.le_refl _

/-- A path that is trimmed ends in a slash only when it is nothing else. -/
theorem trimReversed_eq_slash {path rest : List Char} (h : trimReversed path = '/' :: rest) : rest = [] := by
  fun_induction trimReversed path with
  | case1 c rest ih => exact ih h
  | case2 rest ih => exact ih h
  | case3 path h₁ h₂ =>
    subst h
    cases rest with
    | nil => rfl
    | cons c rest => exact absurd rfl (h₁ c rest)

/-- What a path that is written backwards lies in. -/
def aboveReversed? (path : List Char) : Option (List Char) :=
  match trimReversed path with
  | [] | ['/'] => none
  | trimmed => some (trimReversed (trimmed.dropWhile (· ≠ '/')))

theorem length_aboveReversed {path above : List Char} (h : aboveReversed? path = some above) :
    above.length < path.length := by
  unfold aboveReversed? at h
  split at h
  · exact nomatch h
  · exact nomatch h
  · rename_i trimmed hn hs
    obtain rfl := Option.some.inj h
    refine Nat.lt_of_le_of_lt (length_trimReversed_le _) (Nat.lt_of_lt_of_le ?_ (length_trimReversed_le path))
    cases ht : trimReversed path with
    | nil => exact absurd ht hn
    | cons c rest =>
      have hc : c ≠ '/' := by
        rintro rfl
        exact hs (trimReversed_eq_slash ht ▸ ht)
      have := (List.dropWhile_sublist (l := rest) (fun c : Char => decide (c ≠ '/'))).length_le
      simp only [List.dropWhile_cons, hc, ne_eq, not_false_eq_true, decide_true, ↓reduceIte, List.length_cons]
      exact Nat.lt_succ_of_le this

/-- The path without its last part.  The root and the empty path have none. -/
def parent? (path : String) : Option String :=
  (aboveReversed? path.toList.reverse).map fun above => String.ofList above.reverse

end Lineage.Path
