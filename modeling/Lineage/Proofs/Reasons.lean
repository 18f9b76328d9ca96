import Lineage.History.Entry

/-!
# The reasons that complaints give

A complaint leaves the decoder as a text, which is put together from the rule in words, the keys, the id of the record
and the kind of value that was found (`Malformed.reason_eq_join`).  The text tells the complaint, whatever the ids in
it are (`Malformed.reason_inj`).
-/

namespace Lineage

open Entry

/-- Even the last letter of a phrase tells the kind. -/
theorem Json.Kind.getLast?_phrase_inj {a b : Kind} :
    a.phrase.toList.getLast? = b.phrase.toList.getLast? ↔ a = b := by
  cases a <;> cases b <;> decide

theorem Json.Kind.phrase_inj {a b : Kind} : a.phrase = b.phrase ↔ a = b := by
  constructor
  · intro h
    rw [← getLast?_phrase_inj, h]
  · rintro rfl
    rfl

namespace Malformed

variable {why other : Malformed} {id : String} {found : Json.Kind}

/-! ### Texts with an id or a kind in them -/

theorem reason_notAnObject : (notAnObject found).reason = "expected an object, found " ++ found.phrase :=
  rfl

theorem reason_idKind :
    (idKind found).reason = "field `id` must be a string or integer, found " ++ found.phrase :=
  rfl

theorem reason_bothParents : (bothParents id).reason = "record " ++ id ++ " sets both `parent` and `parentId`" := by
  have hreason : (bothParents id).reason =
      "record " ++ id ++ " sets both `" ++ parentKey ++ "` and `" ++ parentAlias ++ "`" := rfl
  simp only [hreason, String.append_assoc]
  rfl

theorem reason_parentKind : (parentKind id found).reason =
    "parent of record " ++ id ++ " must be a string or integer, found " ++ found.phrase :=
  rfl

/-! ### What a text tells -/

/-- The first letter of the reason. -/
def initial : Malformed → Char
  | .notAnObject _ => 'e'
  | .noId | .noParent => 'm'
  | .idKind _ | .emptyId => 'f'
  | .bothParents _ => 'r'
  | .parentKind _ _ => 'p'

theorem head?_reason (why : Malformed) : why.reason.toList.head? = some why.initial := by
  cases why with
  | notAnObject found =>
    rw [reason_notAnObject, String.toList_append]
    rfl
  | noId => rfl
  | idKind found =>
    rw [reason_idKind, String.toList_append]
    rfl
  | emptyId => rfl
  | bothParents id =>
    rw [reason_bothParents, String.toList_append, String.toList_append]
    rfl
  | noParent => rfl
  | parentKind id found =>
    rw [reason_parentKind, String.toList_append, String.toList_append, String.toList_append]
    rfl

theorem reason_idKind_ne_emptyId : (idKind found).reason ≠ emptyId.reason := by
  intro h
  -- both begin with the key, and differ from the letter behind it on
  have hletter := congrArg (fun text => text.toList[11]?) h
  rw [reason_idKind, String.toList_append] at hletter
  exact absurd hletter (by cases found <;> decide)

theorem getLast?_reason_parentKind (id : String) (found : Json.Kind) :
    (parentKind id found).reason.toList.getLast? = found.phrase.toList.getLast? := by
  rw [reason_parentKind, String.toList_append, List.getLast?_append]
  cases found <;> rfl

theorem reason_parentKind_inj {id' : String} {found' : Json.Kind}
    (h : (parentKind id found).reason = (parentKind id' found').reason) : id = id' ∧ found = found' := by
  -- the phrases end the texts, so they can be compared before anything is known of the ids
  obtain rfl : found = found' := by
    rw [← Json.Kind.getLast?_phrase_inj, ← getLast?_reason_parentKind id, ← getLast?_reason_parentKind id', h]
  rw [reason_parentKind, reason_parentKind, String.append_left_inj, String.append_left_inj,
    String.append_right_inj] at h
  exact ⟨h, rfl⟩

/-- The reason tells the complaint. -/
theorem reason_inj : why.reason = other.reason ↔ why = other := by
  constructor
  · intro h
    have hinitial : why.initial = other.initial := by
      rw [← Option.some.injEq, ← head?_reason, ← head?_reason, h]
    cases why with
    | notAnObject found =>
      cases other with
      | notAnObject found' =>
        rw [reason_notAnObject, reason_notAnObject, String.append_right_inj, Json.Kind.phrase_inj] at h
        rw [h]
      | _ => exact absurd hinitial (by simp [initial])
    | noId =>
      cases other with
      | noId => rfl
      | noParent => exact absurd h (by decide)
      | _ => exact absurd hinitial (by simp [initial])
    | idKind found =>
      cases other with
      | idKind found' =>
        rw [reason_idKind, reason_idKind, String.append_right_inj, Json.Kind.phrase_inj] at h
        rw [h]
      | emptyId => exact absurd h reason_idKind_ne_emptyId
      | _ => exact absurd hinitial (by simp [initial])
    | emptyId =>
      cases other with
      | idKind found' => exact absurd h.symm reason_idKind_ne_emptyId
      | emptyId => rfl
      | _ => exact absurd hinitial (by simp [initial])
    | bothParents id =>
      cases other with
      | bothParents id' =>
        rw [reason_bothParents, reason_bothParents, String.append_left_inj, String.append_right_inj] at h
        rw [h]
      | _ => exact absurd hinitial (by simp [initial])
    | noParent =>
      cases other with
      | noId => exact absurd h (by decide)
      | noParent => rfl
      | _ => exact absurd hinitial (by simp [initial])
    | parentKind id found =>
      cases other with
      | parentKind id' found' =>
        obtain ⟨rfl, rfl⟩ := reason_parentKind_inj h
        rfl
      | _ => exact absurd hinitial (by simp [initial])
  · rintro rfl
    rfl

/-! ### How a text is worded -/

/-- A key as it is named in a text. -/
def quoted (key : String) : String :=
  "`" ++ key ++ "`"

/-- What the reason is put together from: the rule in words, the keys it is about, the id of the record, and the kind
of value that was found. -/
def wording : Malformed → List String
  | .notAnObject found => ["expected an object, found ", found.phrase]
  | .noId => ["missing required field ", quoted idKey]
  | .idKind found => ["field ", quoted idKey, " must be a string or integer, found ", found.phrase]
  | .emptyId => ["field ", quoted idKey, " is empty"]
  | .bothParents id => ["record ", id, " sets both ", quoted parentKey, " and ", quoted parentAlias]
  | .noParent => ["missing required field ", quoted parentKey]
  | .parentKind id found => ["parent of record ", id, " must be a string or integer, found ", found.phrase]

theorem reason_eq_join (why : Malformed) : why.reason = String.join why.wording := by
  cases why with
  | bothParents id =>
    rw [reason_bothParents]
    simp only [wording, String.join, List.foldl_cons, List.foldl_nil, String.append_assoc]
    rfl
  | _ => rfl

end Malformed

end Lineage
