import Lineage.Files.Tree
import Lineage.Proofs.Answer

/-!
# What is at a path, and what is found there

A tree holds an entry at a path when every part of the path is one of a directory, whoever may search it
(`FileTree.Holds`).  It is found when nothing on the way is refused as well (`FileTree.Reaches`, `FileTree.has_iff`).
So an entry can be there and not be found; what refuses it is then not that there is nothing
(`FileTree.lookup_of_not_reaches`).
-/

namespace Lineage

/-! ### Paths -/

namespace Path

variable {path : String}

theorem fault?_eq_none_iff :
    fault? path = none ↔ '\x00' ∉ path.toList ∧ path ≠ "" ∧ path.utf8ByteSize ≤ maxLength := by
  unfold fault?
  by_cases hzero : '\x00' ∈ path.toList
  · simp [hzero]
  by_cases hempty : path = ""
  · simp [hempty]
  by_cases hlong : maxLength < path.utf8ByteSize
  · simp [hzero, hempty, hlong, Nat.not_le.2 hlong]
  · simp [hzero, hempty, hlong, Nat.not_lt.1 hlong]

theorem fault?_of_long (hzero : '\x00' ∉ path.toList) (hempty : path ≠ "")
    (hlong : maxLength < path.utf8ByteSize) : fault? path = some .nameTooLong := by
  rw [fault?, if_neg hzero, if_neg hempty, if_pos hlong]

theorem parts_ne_nil (path : String) : parts path ≠ [] := by
  rw [parts, ne_eq, List.map_eq_nil_iff]
  exact List.splitOnP_ne_nil _ _

/-- The path behind single dots. -/
def dotted (path : String) : Nat → String
  | 0 => path
  | n + 1 => "./" ++ dotted path n

theorem toList_dotted_succ (path : String) (n : Nat) :
    (dotted path (n + 1)).toList = '.' :: '/' :: (dotted path n).toList := by
  rw [dotted, String.toList_append]
  rfl

theorem dotted_append (path rest : String) (n : Nat) : dotted path n ++ rest = dotted (path ++ rest) n := by
  induction n with
  | zero => rfl
  | succ n ih => rw [dotted, dotted, String.append_assoc, ih]

theorem dotted_dot (path : String) (n : Nat) : dotted ("./" ++ path) n = dotted path (n + 1) := by
  induction n with
  | zero => rfl
  | succ n ih => exact congrArg ("./" ++ ·) ih

theorem exists_toList_dotted_eq (n : Nat) : ∃ cs, (dotted "." n).toList = cs ++ ['.'] := by
  induction n with
  | zero => exact ⟨[], rfl⟩
  | succ n ih =>
    obtain ⟨cs, hcs⟩ := ih
    refine ⟨'.' :: '/' :: cs, ?_⟩
    rw [toList_dotted_succ, hcs]
    rfl

/-- What is in a directory that is named by dots. -/
theorem join_dotted (h : isAbsolute path = false) (n : Nat) : join (dotted "." n) path = dotted path (n + 1) := by
  obtain ⟨cs, hcs⟩ := exists_toList_dotted_eq n
  have hempty : (dotted "." n).isEmpty = false := by
    rw [← Bool.not_eq_true, String.isEmpty_iff, ← String.toList_eq_nil_iff, hcs]
    simp
  -- the directory ends in a dot, so a slash is put after it
  have hjoin : join (dotted "." n) path = dotted "." n ++ "/" ++ path := by
    simp [join, h, hempty, hcs]
  rw [hjoin, String.append_assoc, dotted_append, ← String.append_assoc]
  exact dotted_dot path n

theorem utf8ByteSize_dotted (path : String) (n : Nat) :
    (dotted path n).utf8ByteSize = 2 * n + path.utf8ByteSize := by
  induction n with
  | zero => simp [dotted]
  | succ n ih =>
    have hdot : "./".utf8ByteSize = 2 := rfl
    rw [dotted, String.utf8ByteSize_append, ih, hdot]
    omega

theorem parts_dotted_succ (path : String) (n : Nat) : parts (dotted path (n + 1)) = "." :: parts (dotted path n) := by
  have hdot : '/' ∉ ['.'] := by decide
  have hsplit : ('.' :: '/' :: (dotted path n).toList).splitOn '/' = ['.'] :: (dotted path n).toList.splitOn '/' :=
    List.splitOn_append_cons_self_of_not_mem hdot _
  rw [parts, toList_dotted_succ, hsplit]
  rfl

theorem isAbsolute_dotted (h : isAbsolute path = false) (n : Nat) : isAbsolute (dotted path n) = false := by
  cases n with
  | zero => exact h
  | succ n =>
    rw [isAbsolute, toList_dotted_succ]
    rfl

end Path

namespace FileTree

variable {t : FileTree} {place target : Location} {part path : String} {rest parts : List String} {n : Node}
  {content : Bytes}

/-- What can have entries below it. -/
def HoldsEntries (t : FileTree) (place : Location) : Prop :=
  t.node? place = some .directory ∨ t.node? place = some .closed

/-- The parts lead from one location to another, and each of them from a directory. -/
inductive Leads (t : FileTree) : Location → List String → Location → Prop
  | here (place : Location) : Leads t place [] place
  | into {place target : Location} {part : String} {rest : List String} (directory : t.HoldsEntries place)
    (next : Leads t (step place part) rest target) : Leads t place (part :: rest) target

/-- No part is refused on the way: none is too long, and none is looked up in a closed directory. -/
inductive Passes (t : FileTree) : Location → List String → Prop
  | here (place : Location) : Passes t place []
  | into {place : Location} {part : String} {rest : List String} (short : part.utf8ByteSize ≤ Path.maxPart)
    (searched : t.node? place = some .closed → part = "") (next : Passes t (step place part) rest) :
    Passes t place (part :: rest)

/-- There is an entry at the path, whether it can be reached or not. -/
structure Holds (t : FileTree) (path : String) : Prop where
  named : path ≠ "" ∧ '\x00' ∉ path.toList
  entry : ∃ place n, t.Leads (t.origin path) (Path.parts path) place ∧ t.node? place = some n

/-- Neither the path nor a part of it is refused, whatever it leads to. -/
structure Reaches (t : FileTree) (path : String) : Prop where
  short : path.utf8ByteSize ≤ Path.maxLength
  passes : t.Passes (t.origin path) (Path.parts path)

/-! ### Following parts -/

theorem step_dot (place : Location) : step place "." = place :=
  if_pos (.inr rfl)

theorem step_empty (place : Location) : step place "" = place :=
  if_pos (.inl rfl)

theorem lookupPart_eq_ok_iff :
    t.lookupPart place part = .ok target ↔
      t.HoldsEntries place ∧ part.utf8ByteSize ≤ Path.maxPart ∧ (t.node? place = some .closed → part = "") ∧
        target = step place part := by
  unfold lookupPart HoldsEntries
  cases t.node? place with
  | none => simp
  | some node =>
    cases node with
    | directory =>
      by_cases hlong : Path.maxPart < part.utf8ByteSize
      · simp [hlong, Nat.not_le.2 hlong]
      · simp [hlong, Nat.not_lt.1 hlong, eq_comm]
    | closed =>
      by_cases hpart : part = ""
      · subst hpart
        simp [step_empty, eq_comm]
      · simp [hpart]
    | _ => simp

theorem follow_cons :
    t.follow place (part :: rest) = t.lookupPart place part >>= fun next => t.follow next rest :=
  rfl

theorem follow_eq_ok_iff : t.follow place parts = .ok target ↔ t.Leads place parts target ∧ t.Passes place parts := by
  induction parts generalizing place with
  | nil =>
    constructor
    · intro h
      obtain rfl : place = target := Except.ok.inj h
      exact ⟨.here place, .here place⟩
    · rintro ⟨⟨⟩, -⟩
      rfl
  | cons part rest ih =>
    rw [follow_cons, bind_eq_ok_iff]
    simp only [lookupPart_eq_ok_iff, ih]
    constructor
    · rintro ⟨next, ⟨hdirectory, hshort, hsearched, rfl⟩, hleads, hpasses⟩
      exact ⟨.into hdirectory hleads, .into hshort hsearched hpasses⟩
    · rintro ⟨hleads, hpasses⟩
      cases hleads with
      | into hdirectory hleads =>
        cases hpasses with
        | into hshort hsearched hpasses => exact ⟨_, ⟨hdirectory, hshort, hsearched, rfl⟩, hleads, hpasses⟩

/-- What a path is refused for when there is something behind it. -/
def Refusal (why : FileError) : Prop :=
  why = .denied ∨ why = .nameTooLong

theorem lookupPart_of_refused (hdirectory : t.HoldsEntries place)
    (hrefused : ¬(part.utf8ByteSize ≤ Path.maxPart ∧ (t.node? place = some .closed → part = ""))) :
    ∃ why, t.lookupPart place part = .error why ∧ Refusal why := by
  unfold lookupPart
  rcases hdirectory with hopen | hclosed
  · have hlong : Path.maxPart < part.utf8ByteSize := by simpa [hopen] using hrefused
    rw [hopen]
    exact ⟨.nameTooLong, if_pos hlong, .inr rfl⟩
  · have hpart : part ≠ "" := by
      rintro rfl
      exact hrefused ⟨Nat.zero_le _, fun _ => rfl⟩
    rw [hclosed]
    exact ⟨.denied, if_neg hpart, .inl rfl⟩

theorem follow_of_not_passes (hleads : t.Leads place parts target) (hpasses : ¬t.Passes place parts) :
    ∃ why, t.follow place parts = .error why ∧ Refusal why := by
  induction hleads with
  | here place => exact absurd (.here place) hpasses
  | @into place target part rest hdirectory hnext ih =>
    rw [follow_cons]
    by_cases hpart : part.utf8ByteSize ≤ Path.maxPart ∧ (t.node? place = some .closed → part = "")
    · obtain ⟨why, hfollow, hwhy⟩ := ih fun hrest => hpasses (.into hpart.1 hpart.2 hrest)
      rw [lookupPart_eq_ok_iff.2 ⟨hdirectory, hpart.1, hpart.2, rfl⟩]
      exact ⟨why, hfollow, hwhy⟩
    · obtain ⟨why, hlookup, hwhy⟩ := lookupPart_of_refused hdirectory hpart
      rw [hlookup]
      exact ⟨why, rfl, hwhy⟩

/-! ### Looking up paths -/

theorem locate_eq_ok_iff :
    t.locate path = .ok place ↔
      (path ≠ "" ∧ '\x00' ∉ path.toList) ∧ t.Reaches path ∧ t.Leads (t.origin path) (Path.parts path) place := by
  unfold locate
  cases hfault : Path.fault? path with
  | some e =>
    have hnot : ¬(('\x00' ∉ path.toList) ∧ path ≠ "" ∧ path.utf8ByteSize ≤ Path.maxLength) := by
      rw [← Path.fault?_eq_none_iff, hfault]
      exact Option.some_ne_none e
    constructor
    · intro h
      cases h
    · rintro ⟨⟨hempty, hzero⟩, hreaches, -⟩
      exact absurd ⟨hzero, hempty, hreaches.short⟩ hnot
  | none =>
    obtain ⟨hzero, hempty, hshort⟩ := Path.fault?_eq_none_iff.1 hfault
    rw [follow_eq_ok_iff]
    constructor
    · rintro ⟨hleads, hpasses⟩
      exact ⟨⟨hempty, hzero⟩, ⟨hshort, hpasses⟩, hleads⟩
    · rintro ⟨-, hreaches, hleads⟩
      exact ⟨hleads, hreaches.passes⟩

theorem lookup_eq_ok_iff : t.lookup path = .ok n ↔ ∃ place, t.locate path = .ok place ∧ t.node? place = some n := by
  rw [lookup, bind_eq_ok_iff]
  apply exists_congr
  intro place
  cases t.node? place with
  | none => simp
  | some node => simp

/-- What is found is what is there and can be reached. -/
theorem has_iff : t.has path = true ↔ t.Holds path ∧ t.Reaches path := by
  have hfound : t.has path = true ↔ ∃ n, t.lookup path = .ok n := by
    rw [has]
    cases t.lookup path with
    | error e => simp [Except.toOption]
    | ok n => simp [Except.toOption]
  simp only [hfound, lookup_eq_ok_iff, locate_eq_ok_iff]
  constructor
  · rintro ⟨n, place, ⟨hnamed, hreaches, hleads⟩, hnode⟩
    exact ⟨⟨hnamed, place, n, hleads, hnode⟩, hreaches⟩
  · rintro ⟨⟨hnamed, place, n, hleads, hnode⟩, hreaches⟩
    exact ⟨n, place, ⟨hnamed, hreaches, hleads⟩, hnode⟩

theorem lookup_of_fault {why : FileError} (h : Path.fault? path = some why) : t.lookup path = .error why := by
  rw [lookup, locate, h]
  rfl

/-- What is there and cannot be reached is refused, and not because nothing is there. -/
theorem lookup_of_not_reaches (h : t.Holds path) (hreaches : ¬t.Reaches path) :
    ∃ why, t.lookup path = .error why ∧ Refusal why := by
  obtain ⟨⟨hempty, hzero⟩, place, n, hleads, -⟩ := h
  by_cases hshort : path.utf8ByteSize ≤ Path.maxLength
  · have hfault : Path.fault? path = none := Path.fault?_eq_none_iff.2 ⟨hzero, hempty, hshort⟩
    obtain ⟨why, hfollow, hwhy⟩ := follow_of_not_passes hleads fun hpasses => hreaches ⟨hshort, hpasses⟩
    refine ⟨why, ?_, hwhy⟩
    rw [lookup, locate, hfault]
    simp only [hfollow]
    rfl
  · exact ⟨.nameTooLong, lookup_of_fault (Path.fault?_of_long hzero hempty (Nat.not_le.1 hshort)), .inr rfl⟩

theorem has_of_lookup_error {why : FileError} (h : t.lookup path = .error why) : t.has path = false := by
  rw [has, h]
  rfl

theorem read_of_lookup_error {why : FileError} (h : t.lookup path = .error why) : t.read path = .error why := by
  rw [read, h]
  rfl

theorem has_of_read (h : t.read path = .ok content) : t.has path = true := by
  unfold read at h
  obtain ⟨node, hnode, -⟩ := bind_eq_ok_iff.1 h
  rw [has, hnode]
  rfl

theorem exists_read_error (h : t.has path = false) : ∃ why, t.read path = .error why := by
  cases hr : t.read path with
  | error why => exact ⟨why, rfl⟩
  | ok content =>
    rw [has_of_read hr] at h
    cases h

/-! ### Paths behind dots -/

/-- Dots before a path lead nowhere else. -/
theorem Holds.dotted (h : t.Holds path) (hrelative : Path.isAbsolute path = false) (n : Nat) :
    t.Holds (Path.dotted path n) := by
  induction n with
  | zero => exact h
  | succ n ih =>
    obtain ⟨⟨-, hzero⟩, place, node, hleads, hnode⟩ := ih
    rw [origin, Path.isAbsolute_dotted hrelative] at hleads
    refine ⟨⟨?_, ?_⟩, place, node, ?_, hnode⟩
    · rw [ne_eq, ← String.toList_eq_nil_iff, Path.toList_dotted_succ]
      exact List.cons_ne_nil _ _
    · simpa [Path.toList_dotted_succ] using hzero
    · have hdirectory : t.HoldsEntries t.workingDirectory := by
        obtain ⟨part, rest, hparts⟩ := List.exists_cons_of_ne_nil (Path.parts_ne_nil (Path.dotted path n))
        rw [hparts] at hleads
        cases hleads with
        | into hdirectory _ => exact hdirectory
      rw [origin, Path.isAbsolute_dotted hrelative, Path.parts_dotted_succ]
      exact .into hdirectory (by rwa [step_dot])

end FileTree

end Lineage
