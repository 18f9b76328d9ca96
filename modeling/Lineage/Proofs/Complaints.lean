import Lineage.Proofs.Entry
import Lineage.Proofs.Reasons

/-!
# The first rule that an entry breaks

An entry can break several rules at once.  `Malformed.Applies` says of each complaint when it is true of an entry,
whatever else is wrong with it, and `Malformed.rank` in which order the rules are asked.  An entry is refused with
the first complaint that applies (`Record.ofEntry_eq_error_iff`), so it is a record when none does.  What is said is
the reason of the complaint, and no other complaint has that reason.
-/

namespace Lineage

namespace Entry

/-- The object has an id whose text this is. -/
def Names (fields : Json.Object) (id : String) : Prop :=
  ∃ j, fields.find? idKey = some j ∧ Gives j id

theorem idText?_eq_none_iff {j : Json} : idText? j = none ↔ ∀ text, ¬Gives j text := by
  simp only [← idText?_eq_some_iff, Option.eq_none_iff_forall_ne_some, ne_eq]

theorem kind_eq_null_iff {j : Json} : j.kind = .null ↔ j = .null := by
  cases j <;> simp [Json.kind]

theorem Gives.unique {j : Json} {s t : String} (hs : Gives j s) (ht : Gives j t) : s = t := by
  rw [← idText?_eq_some_iff] at hs ht
  exact Option.some.inj (hs.symm.trans ht)

end Entry

open Entry

namespace Malformed

/-- The place of the rule that is broken, in the order in which the rules are asked. -/
def rank : Malformed → Nat
  | .notAnObject _ => 0
  | .noId => 1
  | .idKind _ => 2
  | .emptyId => 3
  | .bothParents _ => 4
  | .noParent => 5
  | .parentKind _ _ => 6

/-- The complaint is true of the entry, whatever else is wrong with it. -/
inductive Applies (e : Json.Value) : Malformed → Prop
  | notAnObject (other : e.object? = none) : Applies e (.notAnObject e.kind)
  | noId {fields : Json.Object} (object : e.object? = some fields) (absent : fields.find? idKey = none) :
    Applies e .noId
  | idKind {fields : Json.Object} {j : Json} (object : e.object? = some fields)
    (present : fields.find? idKey = some j) (textless : ∀ text, ¬Gives j text) : Applies e (.idKind j.kind)
  | emptyId {fields : Json.Object} (object : e.object? = some fields) (named : Names fields "") : Applies e .emptyId
  | bothParents {fields : Json.Object} {id : String} (object : e.object? = some fields) (named : Names fields id)
    (parent : fields.find? parentKey ≠ none) (other : fields.find? parentAlias ≠ none) :
    Applies e (.bothParents id)
  | noParent {fields : Json.Object} (object : e.object? = some fields)
    (absent : (fields.find? parentKey = none ∧ fields.find? parentAlias = none) ∨ IsParentValue fields .null) :
    Applies e .noParent
  | parentKind {fields : Json.Object} {id : String} {j : Json} (object : e.object? = some fields)
    (named : Names fields id) (present : IsParentValue fields j) (textless : ∀ text, ¬Gives j text) :
    Applies e (.parentKind id j.kind)

/-- The id that the complaint names. -/
def id? : Malformed → Option String
  | .bothParents id => some id
  | .parentKind id _ => some id
  | _ => none

end Malformed

namespace Entry

variable {fields : Json.Object} {id : String} {why : Malformed} {e : Json.Value}

theorem Names.unique {id' : String} (h : Names fields id) (h' : Names fields id') : id = id' := by
  obtain ⟨j, hj, ht⟩ := h
  obtain ⟨j', hj', ht'⟩ := h'
  obtain rfl := Option.some.inj (hj.symm.trans hj')
  exact ht.unique ht'

theorem IsParentValue.unique {j j' : Json} (h : IsParentValue fields j) (h' : IsParentValue fields j') :
    j = j' := by
  unfold IsParentValue at h h'
  rcases h with ⟨hp, ha⟩ | ⟨hp, ha⟩
  · rcases h' with ⟨hp', -⟩ | ⟨hp', -⟩
    · exact Option.some.inj (hp.symm.trans hp')
    · cases hp.symm.trans hp'
  · rcases h' with ⟨-, ha'⟩ | ⟨-, ha'⟩
    · cases ha.symm.trans ha'
    · exact Option.some.inj (ha.symm.trans ha')

/-! ### Reading the id -/

theorem readId_of_names (h : Names fields id) :
    readId fields = if id = "" then .error .emptyId else .ok id := by
  obtain ⟨j, hj, ht⟩ := h
  rw [← idText?_eq_some_iff] at ht
  simp only [readId, hj, ht]

theorem names_of_readId (h : readId fields = .ok id) : Names fields id :=
  (readId_eq_ok_iff.1 h).1

/-- When the id cannot be read, one of the complaints about ids applies. -/
theorem applies_of_readId (he : e.object? = some fields) (h : readId fields = .error why) :
    why.Applies e ∧ why.rank ≤ Malformed.emptyId.rank := by
  cases hj : fields.find? idKey with
  | none =>
    simp only [readId, hj] at h
    obtain rfl := Except.error.inj h
    exact ⟨.noId he hj, by decide⟩
  | some j =>
    cases ht : idText? j with
    | none =>
      simp only [readId, hj, ht] at h
      obtain rfl := Except.error.inj h
      exact ⟨.idKind he hj (idText?_eq_none_iff.1 ht), by simp [Malformed.rank]⟩
    | some text =>
      have hnames : Names fields text := ⟨j, hj, idText?_eq_some_iff.1 ht⟩
      rw [readId_of_names hnames] at h
      by_cases hempty : text = ""
      · subst hempty
        obtain rfl := Except.error.inj h
        exact ⟨.emptyId he hnames, Nat.le_refl _⟩
      · rw [if_neg hempty] at h
        cases h

/-! ### Reading the parent -/

/-- When the parent of a named record cannot be read, one of the complaints about parents applies. -/
theorem applies_of_readParent (he : e.object? = some fields) (hid : Names fields id)
    (h : readParent fields id = .error why) : why.Applies e := by
  rcases parent_cases fields with ⟨hp, ha⟩ | hnone | ⟨j, hj⟩
  · rw [readParent_of_both id hp ha] at h
    obtain rfl := Except.error.inj h
    exact .bothParents he hid hp ha
  · rw [readParent_of_absent id (.inl hnone)] at h
    obtain rfl := Except.error.inj h
    exact .noParent he (.inl hnone)
  · rw [readParent_of_isParentValue id hj] at h
    by_cases hnull : j.kind = .null
    · rw [if_pos hnull] at h
      obtain rfl := Except.error.inj h
      obtain rfl := kind_eq_null_iff.1 hnull
      exact .noParent he (.inr hj)
    · rw [if_neg hnull] at h
      cases ht : idText? j with
      | none =>
        rw [ht] at h
        obtain rfl := Except.error.inj h
        exact .parentKind he hid hj (idText?_eq_none_iff.1 ht)
      | some text =>
        rw [ht] at h
        cases h

end Entry

/-! ### Entries that are refused -/

namespace Record

variable {e : Json.Value} {fields : Json.Object} {why other : Malformed}

theorem ofEntry_of_object (he : e.object? = some fields) :
    ofEntry e = readId fields >>= fun id =>
      readParent fields id >>= fun parent => .ok ⟨id, parent, Entry.payload fields⟩ := by
  simp only [ofEntry, he]
  rfl

/-- The complaint with which an entry is refused applies to it. -/
theorem applies_of_ofEntry (h : ofEntry e = .error why) : why.Applies e := by
  cases he : e.object? with
  | none =>
    simp only [ofEntry, he] at h
    obtain rfl := Except.error.inj h
    exact .notAnObject he
  | some fields =>
    rw [ofEntry_of_object he] at h
    rcases bind_eq_error_iff.1 h with hid | ⟨id, hid, h⟩
    · exact (applies_of_readId he hid).1
    · rcases bind_eq_error_iff.1 h with hparent | ⟨parent, -, h⟩
      · exact applies_of_readParent he (names_of_readId hid) hparent
      · cases h

/-- An object whose parent cannot be read is refused for that, or for something that is asked before. -/
private theorem exists_error_of_readParent (he : e.object? = some fields) {n : Nat}
    (hn : Malformed.emptyId.rank ≤ n)
    (h : ∀ id, Names fields id → ∃ why, readParent fields id = .error why ∧ why.rank ≤ n) :
    ∃ why, ofEntry e = .error why ∧ why.rank ≤ n := by
  rw [ofEntry_of_object he]
  cases hid : readId fields with
  | error why =>
    have hrank := (applies_of_readId he hid).2
    exact ⟨why, rfl, Nat.le_trans hrank hn⟩
  | ok id =>
    obtain ⟨why, hparent, hrank⟩ := h id (names_of_readId hid)
    refine ⟨why, ?_, hrank⟩
    show (readParent fields id >>= _) = _
    rw [hparent]
    rfl

/-- An entry to which a complaint applies is refused, with this complaint or with one that comes before it. -/
theorem exists_error_of_applies (h : other.Applies e) : ∃ why, ofEntry e = .error why ∧ why.rank ≤ other.rank := by
  cases h with
  | notAnObject hother => exact ⟨_, by simp only [ofEntry, hother], Nat.le_refl _⟩
  | noId he habsent =>
    refine ⟨.noId, ?_, Nat.le_refl _⟩
    rw [ofEntry_of_object he, readId, habsent]
    rfl
  | @idKind fields j he hpresent htextless =>
    refine ⟨.idKind j.kind, ?_, Nat.le_refl _⟩
    rw [ofEntry_of_object he, readId, hpresent]
    simp only [idText?_eq_none_iff.2 htextless]
    rfl
  | emptyId he hnamed =>
    refine ⟨.emptyId, ?_, Nat.le_refl _⟩
    rw [ofEntry_of_object he, readId_of_names hnamed]
    rfl
  | @bothParents fields id he hnamed hp ha =>
    refine exists_error_of_readParent he (by simp [Malformed.rank]) fun id' hid' => ?_
    exact ⟨_, readParent_of_both id' hp ha, Nat.le_refl _⟩
  | noParent he habsent =>
    refine exists_error_of_readParent he (by simp [Malformed.rank]) fun id hid => ?_
    exact ⟨_, readParent_of_absent id habsent, Nat.le_refl _⟩
  | @parentKind fields id j he hnamed hpresent htextless =>
    refine exists_error_of_readParent he (by simp [Malformed.rank]) fun id' hid' => ?_
    rw [readParent_of_isParentValue id' hpresent, idText?_eq_none_iff.2 htextless]
    by_cases hnull : j.kind = .null
    · exact ⟨.noParent, by rw [if_pos hnull], by simp [Malformed.rank]⟩
    · exact ⟨.parentKind id' j.kind, by rw [if_neg hnull], Nat.le_refl _⟩


end Record

/-- No two complaints about one rule apply to an entry. -/
theorem Malformed.Applies.eq_of_rank_eq {e : Json.Value} {why other : Malformed} (h : why.Applies e)
    (h' : other.Applies e) (hrank : why.rank = other.rank) : why = other := by
  cases h with
  | notAnObject _ =>
    cases h' with
    | notAnObject _ => rfl
    | _ => simp [rank] at hrank
  | noId _ _ =>
    cases h' with
    | noId _ _ => rfl
    | _ => simp [rank] at hrank
  | idKind he hpresent _ =>
    cases h' with
    | idKind he' hpresent' _ =>
      obtain rfl := Option.some.inj (he.symm.trans he')
      obtain rfl := Option.some.inj (hpresent.symm.trans hpresent')
      rfl
    | _ => simp [rank] at hrank
  | emptyId _ _ =>
    cases h' with
    | emptyId _ _ => rfl
    | _ => simp [rank] at hrank
  | bothParents he hnamed _ _ =>
    cases h' with
    | bothParents he' hnamed' _ _ =>
      obtain rfl := Option.some.inj (he.symm.trans he')
      rw [hnamed.unique hnamed']
    | _ => simp [rank] at hrank
  | noParent _ _ =>
    cases h' with
    | noParent _ _ => rfl
    | _ => simp [rank] at hrank
  | parentKind he hnamed hpresent _ =>
    cases h' with
    | parentKind he' hnamed' hpresent' _ =>
      obtain rfl := Option.some.inj (he.symm.trans he')
      rw [hnamed.unique hnamed', hpresent.unique hpresent']
    | _ => simp [rank] at hrank

theorem Record.ofEntry_eq_error_iff {e : Json.Value} {why : Malformed} :
    ofEntry e = .error why ↔ why.Applies e ∧ ∀ other : Malformed, other.Applies e → why.rank ≤ other.rank := by
  constructor
  · intro h
    refine ⟨applies_of_ofEntry h, fun other hother => ?_⟩
    obtain ⟨first, hfirst, hle⟩ := exists_error_of_applies hother
    obtain rfl := Except.error.inj (h.symm.trans hfirst)
    exact hle
  · rintro ⟨happlies, hleast⟩
    obtain ⟨first, hfirst, hle⟩ := exists_error_of_applies happlies
    have hge := hleast first (applies_of_ofEntry hfirst)
    rw [happlies.eq_of_rank_eq (applies_of_ofEntry hfirst) (Nat.le_antisymm hge hle)]
    exact hfirst

/-- An entry is refused with the text of the first complaint that applies. -/
theorem Record.mapError_reason_eq_error_iff {e : Json.Value} {text : String} :
    (ofEntry e).mapError Malformed.reason = .error text ↔
      ∃ why : Malformed, why.reason = text ∧ why.Applies e ∧
        ∀ other : Malformed, other.Applies e → why.rank ≤ other.rank := by
  simp only [← ofEntry_eq_error_iff]
  cases ofEntry e with
  | error why => simp [eq_comm]
  | ok r => simp

theorem Malformed.mem_wording_of_id? {why : Malformed} {id : String} (h : why.id? = some id) : id ∈ why.wording := by
  cases why with
  | bothParents named =>
    obtain rfl := Option.some.inj h
    simp [wording]
  | parentKind named found =>
    obtain rfl := Option.some.inj h
    simp [wording]
  | _ => cases h

/-- The id in a complaint is the one of the entry. -/
theorem Malformed.Applies.names {e : Json.Value} {why : Malformed} (h : why.Applies e) {id : String}
    (hid : why.id? = some id) : ∃ fields, e.object? = some fields ∧ Names fields id := by
  cases h with
  | bothParents he hnamed _ _ =>
    obtain rfl := Option.some.inj hid
    exact ⟨_, he, hnamed⟩
  | parentKind he hnamed _ _ =>
    obtain rfl := Option.some.inj hid
    exact ⟨_, he, hnamed⟩
  | _ => cases hid

/-! ### Entries that are records -/

/-- The record has the texts of the object's id and parent, and keeps all its other fields. -/
structure Record.Of (r : Record) (fields : Json.Object) : Prop where
  texts : ∃ parent, Regular fields r.id parent ∧ r.parent = parentOf parent
  payload : ∀ name, r.payload.find? name =
    if name ∈ [idKey, parentKey, parentAlias] then none else fields.find? name

theorem Record.ofEntry_eq_ok_iff_of {e : Json.Value} {r : Record} :
    ofEntry e = .ok r ↔ ∃ fields, e.object? = some fields ∧ r.Of fields := by
  rw [ofEntry_eq_ok_iff]
  constructor
  · rintro ⟨fields, parent, he, hreg, hparent, hpayload⟩
    refine ⟨fields, he, ⟨parent, hreg, hparent⟩, fun name => ?_⟩
    rw [hpayload, Entry.find?_payload]
  · rintro ⟨fields, he, ⟨parent, hreg, hparent⟩, hpayload⟩
    refine ⟨fields, parent, he, hreg, hparent, Json.Object.ext_find? fun name => ?_⟩
    rw [hpayload, Entry.find?_payload]

/-- An entry is read exactly when it is an object with an id that is not empty and exactly one parent, both strings
or integers; the record has their texts and keeps all other fields.  Every other entry is refused with the reason of
the first complaint that applies to it.  The reason tells the complaint, says in words which rule it is, and names the
record by the id that was read. -/
theorem ofEntry_first_complaint (e : Json.Value) :
    ((∃ r, Record.ofEntry e = .ok r) ↔ ∃ fields id parent, e.object? = some fields ∧ Regular fields id parent) ∧
      (∀ r, Record.ofEntry e = .ok r ↔ ∃ fields, e.object? = some fields ∧ r.Of fields) ∧
      (∀ why, Record.ofEntry e = .error why ↔
        why.Applies e ∧ ∀ other : Malformed, other.Applies e → why.rank ≤ other.rank) ∧
      (∀ text, (Record.ofEntry e).mapError Malformed.reason = .error text ↔
        ∃ why : Malformed, why.reason = text ∧ why.Applies e ∧
          ∀ other : Malformed, other.Applies e → why.rank ≤ other.rank) ∧
      (∀ why other : Malformed, why.reason = other.reason ↔ why = other) ∧
      ∀ why : Malformed, why.Applies e →
        why.reason = String.join why.wording ∧
          ∀ id, why.id? = some id → id ∈ why.wording ∧ ∃ fields, e.object? = some fields ∧ Names fields id := by
  refine ⟨⟨?_, ?_⟩, fun r => Record.ofEntry_eq_ok_iff_of, fun why => Record.ofEntry_eq_error_iff,
    fun text => Record.mapError_reason_eq_error_iff, fun why other => Malformed.reason_inj, fun why happlies => ?_⟩
  · rintro ⟨r, hr⟩
    obtain ⟨fields, parent, he, hreg, -⟩ := Record.ofEntry_eq_ok_iff.1 hr
    exact ⟨fields, r.id, parent, he, hreg⟩
  · rintro ⟨fields, id, parent, he, hreg⟩
    refine ⟨⟨id, parentOf parent, Entry.payload fields⟩, ?_⟩
    exact Record.ofEntry_eq_ok_iff.2 ⟨fields, parent, he, hreg, rfl, rfl⟩
  · exact ⟨why.reason_eq_join, fun id hid => ⟨Malformed.mem_wording_of_id? hid, happlies.names hid⟩⟩

/-- An entry whose id is a negative zero, which is no integer, and whose parent is set twice. -/
def mistaken : Json.Value :=
  .ofJson (.object [("parentId", .bool true), ("id", .float (-0.0)), ("parent", .null)])

theorem ofEntry_first_complaint_mistaken : (Record.ofEntry mistaken).mapError Malformed.reason =
    .error "field `id` must be a string or integer, found a number" := by
  obtain ⟨-, -, -, hrefused, -⟩ := ofEntry_first_complaint mistaken
  rw [hrefused]
  obtain ⟨fields, he, hid⟩ : ∃ fields, mistaken.object? = some fields ∧
      fields.find? idKey = some (.float (-0.0)) := ⟨_, rfl, rfl⟩
  refine ⟨.idKind .number, rfl, ?_, ?_⟩
  · exact .idKind he hid fun text htext => by cases htext
  · intro other hother
    cases hother with
    | notAnObject hnone => cases he.symm.trans hnone
    | noId he' habsent =>
      obtain rfl := Option.some.inj (he.symm.trans he')
      cases hid.symm.trans habsent
    | _ => simp [Malformed.rank]

end Lineage
