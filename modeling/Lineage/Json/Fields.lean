/-!
# Fields

The named values of an object, as a list of pairs.  `insert` and `erase` keep a list sorted by name, and
`collect` makes any list sorted, keeping the last value of each name.
-/

namespace Lineage

abbrev Fields (α : Type) := List (String × α)

namespace Fields

variable {α : Type}

/-- The first value under a name. -/
def find? (name : String) : Fields α → Option α
  | [] => none
  | (n, v) :: rest => if n = name then some v else find? name rest

/-- The fields of other names. -/
def erase (name : String) (fields : Fields α) : Fields α :=
  fields.filter (·.1 ≠ name)

/-- Puts a value under a name: instead of the value that is there, or where the order of names wants it. -/
def insert (name : String) (value : α) : Fields α → Fields α
  | [] => [(name, value)]
  | (n, v) :: rest =>
    if name < n then (name, value) :: (n, v) :: rest
    else if name = n then (name, value) :: rest
    else (n, v) :: insert name value rest

/-- Inserts fields one after the other, so that the last value of a name is kept. -/
def insertAll (new fields : Fields α) : Fields α :=
  new.foldl (fun fs kv => insert kv.1 kv.2 fs) fields

/-- The fields in the order of their names, the last of each name. -/
def collect (fields : Fields α) : Fields α :=
  insertAll fields []

/-- Names ascend. -/
def Sorted (fields : Fields α) : Prop :=
  fields.Pairwise (·.1 < ·.1)

theorem mem_insert {name : String} {value : α} {fields : Fields α} {kv : String × α}
    (h : kv ∈ insert name value fields) : kv = (name, value) ∨ kv ∈ fields := by
  induction fields with
  | nil => simpa [insert] using h
  | cons f rest ih =>
    simp only [insert] at h
    split at h
    · simpa using h
    · split at h
      · rcases List.mem_cons.1 h with h | h
        · exact .inl h
        · exact .inr (List.mem_cons_of_mem _ h)
      · rcases List.mem_cons.1 h with h | h
        · exact .inr (h ▸ List.mem_cons_self ..)
        · exact (ih h).imp id (List.mem_cons_of_mem _)

theorem sorted_insert (name : String) (value : α) {fields : Fields α} (h : Sorted fields) :
    Sorted (insert name value fields) := by
  induction fields with
  | nil => simp [insert, Sorted]
  | cons f rest ih =>
    obtain ⟨n, v⟩ := f
    obtain ⟨hn, hr⟩ := List.pairwise_cons.1 h
    simp only [insert]
    split
    · rename_i hlt
      refine List.pairwise_cons.2 ⟨fun kv hkv => ?_, h⟩
      rcases List.mem_cons.1 hkv with rfl | hkv
      · exact hlt
      · exact String.lt_trans hlt (hn kv hkv)
    · rename_i hlt
      split
      · rename_i heq
        exact List.pairwise_cons.2 ⟨fun kv hkv => heq ▸ hn kv hkv, hr⟩
      · rename_i heq
        refine List.pairwise_cons.2 ⟨fun kv hkv => ?_, ih hr⟩
        rcases mem_insert hkv with rfl | hkv
        · exact Std.lt_of_le_of_ne (String.not_lt.1 hlt) (Ne.symm heq)
        · exact hn kv hkv

theorem mem_insertAll {new fields : Fields α} {kv : String × α} (h : kv ∈ insertAll new fields) :
    kv ∈ new ∨ kv ∈ fields := by
  induction new generalizing fields with
  | nil => exact .inr h
  | cons f rest ih =>
    rcases @ih (insert f.1 f.2 fields) h with h | h
    · exact .inl (List.mem_cons_of_mem _ h)
    · rcases mem_insert h with rfl | h
      · exact .inl (List.mem_cons_self ..)
      · exact .inr h

theorem sorted_insertAll (new : Fields α) {fields : Fields α} (h : Sorted fields) :
    Sorted (insertAll new fields) := by
  induction new generalizing fields with
  | nil => exact h
  | cons f rest ih => exact ih (sorted_insert f.1 f.2 h)

theorem sorted_collect (fields : Fields α) : Sorted (collect fields) :=
  sorted_insertAll fields List.Pairwise.nil

theorem mem_collect {fields : Fields α} {kv : String × α} (h : kv ∈ collect fields) : kv ∈ fields := by
  simpa using mem_insertAll h

theorem sorted_erase (name : String) {fields : Fields α} (h : Sorted fields) : Sorted (erase name fields) :=
  List.Pairwise.filter _ h

theorem mem_of_mem_erase {name : String} {fields : Fields α} {kv : String × α} (h : kv ∈ erase name fields) :
    kv ∈ fields :=
  (List.mem_filter.1 h).1

end Fields

end Lineage
