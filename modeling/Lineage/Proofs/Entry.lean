import Lineage.History.Entry
import Lineage.Proofs.Answer
import Lineage.Proofs.Fields

/-!
# The entries that are records

`Entry.Regular` says what an entry must have to stand for a record, and which texts are its id and its parent;
`Record.ofEntry_eq_ok_iff` that reading entries succeeds on exactly these, with these texts.
-/

namespace Lineage

namespace Entry

/-- A string gives itself as an id, an integer its decimal text, and no other value gives one. -/
inductive Gives : Json → String → Prop where
  | string (s : String) : Gives (.string s) s
  | integer (n : Int) : Gives (.integer n) (toString n)

theorem idText?_eq_some_iff {j : Json} {s : String} : idText? j = some s ↔ Gives j s := by
  constructor
  · intro h
    cases j with
    | string t =>
      obtain rfl : t = s := by simpa [idText?] using h
      exact .string t
    | integer n =>
      obtain rfl : toString n = s := by simpa [idText?] using h
      exact .integer n
    | _ => simp [idText?] at h
  · rintro (_ | _) <;> rfl

/-- The value stands under one of the two names of a parent, and the other name is not used. -/
def IsParentValue (fields : Json.Object) (j : Json) : Prop :=
  (fields.find? parentKey = some j ∧ fields.find? parentAlias = none) ∨
    (fields.find? parentKey = none ∧ fields.find? parentAlias = some j)

/-- The object has an id that is not empty and exactly one parent, and both are texts or integers. -/
structure Regular (fields : Json.Object) (id parent : String) : Prop where
  idText : ∃ j, fields.find? idKey = some j ∧ Gives j id
  named : id ≠ ""
  parentText : ∃ j, IsParentValue fields j ∧ Gives j parent

theorem readId_eq_ok_iff {fields : Json.Object} {id : String} :
    readId fields = .ok id ↔ (∃ j, fields.find? idKey = some j ∧ Gives j id) ∧ id ≠ "" := by
  unfold readId
  cases hf : fields.find? idKey with
  | none => simp
  | some j =>
    simp only [Option.some.injEq, exists_eq_left', ← idText?_eq_some_iff]
    cases hj : idText? j with
    | none => simp
    | some s =>
      by_cases hs : s = ""
      · subst hs
        simp only [↓reduceIte, reduceCtorEq, Option.some.injEq, false_iff, not_and, ne_eq, Decidable.not_not]
        exact fun h => h.symm
      · simp only [hs, ↓reduceIte, Except.ok.injEq, Option.some.injEq, iff_self_and]
        rintro rfl
        exact hs

/-- The parent that a text stands for. -/
def parentOf (text : String) : Option String :=
  if text = noParent then none else some text

theorem getD_parentOf (text : String) : (parentOf text).getD noParent = text := by
  unfold parentOf
  split
  · rename_i h
    exact h.symm
  · rfl

theorem parentOf_getD_iff {parent : Option String} :
    parentOf (parent.getD noParent) = parent ↔ parent ≠ some noParent := by
  cases parent with
  | none => simp [parentOf]
  | some text =>
    by_cases h : text = noParent
    · simp [parentOf, h]
    · simp [parentOf, h]

/-- The parent is named twice, or not at all, or under one of its names. -/
theorem parent_cases (fields : Json.Object) :
    (fields.find? parentKey ≠ none ∧ fields.find? parentAlias ≠ none) ∨
      (fields.find? parentKey = none ∧ fields.find? parentAlias = none) ∨ ∃ j, IsParentValue fields j := by
  unfold IsParentValue
  cases fields.find? parentKey with
  | none => cases fields.find? parentAlias <;> simp
  | some j => cases fields.find? parentAlias <;> simp

variable {fields : Json.Object}

theorem readParent_of_both (id : String) (hp : fields.find? parentKey ≠ none)
    (ha : fields.find? parentAlias ≠ none) : readParent fields id = .error (.bothParents id) := by
  obtain ⟨j, hj⟩ := Option.ne_none_iff_exists'.1 hp
  obtain ⟨j', hj'⟩ := Option.ne_none_iff_exists'.1 ha
  rw [readParent, rawParent, hj, hj']
  rfl

theorem readParent_of_isParentValue (id : String) {j : Json} (h : IsParentValue fields j) :
    readParent fields id =
      if j.kind = .null then .error .noParent
      else
        match idText? j with
        | none => .error (.parentKind id j.kind)
        | some text => .ok (parentOf text) := by
  have hraw : rawParent fields id = .ok (some j) := by
    rcases h with ⟨hp, ha⟩ | ⟨hp, ha⟩
    · simp [rawParent, hp, ha]
    · simp [rawParent, hp, ha]
  rw [readParent, hraw]
  cases j <;> rfl

theorem readParent_of_absent (id : String)
    (h : (fields.find? parentKey = none ∧ fields.find? parentAlias = none) ∨ IsParentValue fields .null) :
    readParent fields id = .error .noParent := by
  rcases h with ⟨hp, ha⟩ | hnull
  · rw [readParent, rawParent, hp, ha]
    rfl
  · rw [readParent_of_isParentValue id hnull]
    rfl

theorem readParent_eq_ok_iff {id : String} {parent : Option String} :
    readParent fields id = .ok parent ↔
      ∃ text, (∃ j, IsParentValue fields j ∧ Gives j text) ∧ parent = parentOf text := by
  constructor
  · intro h
    rcases parent_cases fields with ⟨hp, ha⟩ | hnone | ⟨j, hj⟩
    · rw [readParent_of_both id hp ha] at h
      cases h
    · rw [readParent_of_absent id (.inl hnone)] at h
      cases h
    · rw [readParent_of_isParentValue id hj] at h
      by_cases hnull : j.kind = .null
      · rw [if_pos hnull] at h
        cases h
      · rw [if_neg hnull] at h
        cases ht : idText? j with
        | none =>
          rw [ht] at h
          cases h
        | some text =>
          rw [ht] at h
          exact ⟨text, ⟨j, hj, idText?_eq_some_iff.1 ht⟩, (Except.ok.inj h).symm⟩
  · rintro ⟨text, ⟨j, hj, ht⟩, rfl⟩
    have hnull : j.kind ≠ .null := by
      intro hnull
      cases ht <;> cases hnull
    rw [readParent_of_isParentValue id hj, if_neg hnull, idText?_eq_some_iff.2 ht]

/-- The payload has every field but the three that are read. -/
theorem find?_payload (fields : Json.Object) (name : String) :
    (payload fields).find? name =
      if name ∈ [idKey, parentKey, parentAlias] then none else fields.find? name := by
  simp only [payload, Json.Object.find?_erase, List.mem_cons, List.not_mem_nil, or_false]
  by_cases ha : name = parentAlias
  · simp [ha]
  · by_cases hp : name = parentKey
    · simp [hp]
    · simp [ha, hp]

end Entry

open Entry

theorem Record.ofEntry_eq_ok_iff {v : Json.Value} {r : Record} :
    Record.ofEntry v = .ok r ↔
      ∃ fields parent, v.object? = some fields ∧ Regular fields r.id parent ∧ r.parent = parentOf parent ∧
        r.payload = Entry.payload fields := by
  unfold ofEntry
  cases hv : v.object? with
  | none => simp
  | some fields =>
    simp only [bind_eq_ok_iff, pure_eq_ok_iff, readId_eq_ok_iff, readParent_eq_ok_iff]
    constructor
    · rintro ⟨id, ⟨hid, hne⟩, parent, ⟨text, htext, hparent⟩, rfl⟩
      exact ⟨fields, text, rfl, ⟨hid, hne, htext⟩, hparent, rfl⟩
    · rintro ⟨fields, text, hf, hreg, hparent, hpayload⟩
      obtain rfl := Option.some.inj hf
      refine ⟨r.id, ⟨hreg.idText, hreg.named⟩, r.parent, ⟨text, hreg.parentText, hparent⟩, ?_⟩
      rw [← hpayload]

theorem Record.parent_ne_of_ofEntry {v : Json.Value} {r : Record} (h : Record.ofEntry v = .ok r) :
    r.parent ≠ some noParent := by
  obtain ⟨fields, parent, -, -, hp, -⟩ := Record.ofEntry_eq_ok_iff.1 h
  rw [← parentOf_getD_iff, hp, getD_parentOf]

end Lineage
