import Lineage.Proofs.Complaints
import Lineage.Proofs.Decimal
import Lineage.Proofs.Payload
import Mathlib.Logic.Relation

/-!
# Entries that are spelled in another way

An integer may be written as the string of its digits, and a parent may stand under either of its names
(`Entry.Respelling`).  Neither changes what an entry reads as, whether it is a record or breaks a rule, so nothing
behind the decoding tells two spellings of a file apart.  Otherwise an id has one spelling: two integers are different
ids, and a string is the id of an integer only when it is its decimal text.
-/

namespace Lineage

namespace Entry

/-- The two names of a parent, in either order. -/
def ParentNames (key other : String) : Prop :=
  (key = parentKey ∧ other = parentAlias) ∨ (key = parentAlias ∧ other = parentKey)

/-- The fields of an entry with one of them spelled in another way. -/
inductive Respelling (fields : Json.Object) : Json.Object → Prop
  | digits {key : String} {n : Int} (named : key ∈ [idKey, parentKey, parentAlias])
    (value : fields.find? key = some (.integer n)) : Respelling fields (fields.insert key (.string (toString n)))
  | moved {key other : String} {v : Json.Value} (names : ParentNames key other)
    (value : fields.find? key = some v.json) (free : fields.find? other = none) :
    Respelling fields ((fields.erase key).insert other v)

/-- An entry, and the same with a field spelled in another way. -/
inductive Respells : Json.Value → Json.Value → Prop
  | fields {fields fields' : Json.Object} (respelling : Respelling fields fields') :
    Respells (.object fields) (.object fields')

/-! ### The names of a parent -/

section

variable {fields : Json.Object} {key other : String} {v : Json.Value}

theorem ParentNames.ne (h : ParentNames key other) : key ≠ other := by
  rcases h with ⟨rfl, rfl⟩ | ⟨rfl, rfl⟩ <;> decide

theorem ParentNames.symm (h : ParentNames key other) : ParentNames other key := by
  rcases h with ⟨rfl, rfl⟩ | ⟨rfl, rfl⟩
  · exact .inr ⟨rfl, rfl⟩
  · exact .inl ⟨rfl, rfl⟩

theorem ParentNames.mem (h : ParentNames key other) : key ∈ [parentKey, parentAlias] := by
  rcases h with ⟨rfl, rfl⟩ | ⟨rfl, rfl⟩ <;> simp

theorem ParentNames.isParentValue {j : Json} (h : ParentNames key other) (value : fields.find? key = some j)
    (free : fields.find? other = none) : IsParentValue fields j := by
  rcases h with ⟨rfl, rfl⟩ | ⟨rfl, rfl⟩
  · exact .inl ⟨value, free⟩
  · exact .inr ⟨free, value⟩

theorem ParentNames.readParent_of_both (h : ParentNames key other) (id : String) (hkey : fields.find? key ≠ none)
    (hother : fields.find? other ≠ none) : readParent fields id = .error (.bothParents id) := by
  rcases h with ⟨rfl, rfl⟩ | ⟨rfl, rfl⟩
  · exact Entry.readParent_of_both id hkey hother
  · exact Entry.readParent_of_both id hother hkey

theorem find?_insert_self (fields : Json.Object) (key : String) (v : Json.Value) :
    (fields.insert key v).find? key = some v.json := by
  rw [Json.Object.find?_insert, if_pos rfl]

theorem find?_insert_of_ne {name : String} (h : name ≠ key) : (fields.insert key v).find? name = fields.find? name := by
  rw [Json.Object.find?_insert, if_neg h]

theorem find?_moved_of_ne {name : String} (hkey : name ≠ key) (hother : name ≠ other) :
    ((fields.erase key).insert other v).find? name = fields.find? name := by
  rw [find?_insert_of_ne hother, Json.Object.find?_erase, if_neg hkey]

end

/-! ### Reading a field that is spelled in another way -/

section

variable {fields fields' : Json.Object}

theorem Respelling.find?_eq (h : Respelling fields fields') {name : String}
    (hname : name ∉ [idKey, parentKey, parentAlias]) : fields'.find? name = fields.find? name := by
  cases h with
  | digits named _ => exact find?_insert_of_ne fun heq => hname (heq ▸ named)
  | moved names _ _ =>
    have hmem := List.mem_cons_of_mem idKey names.mem
    have hmem' := List.mem_cons_of_mem idKey names.symm.mem
    exact find?_moved_of_ne (fun heq => hname (heq ▸ hmem)) (fun heq => hname (heq ▸ hmem'))

theorem Respelling.payload_eq (h : Respelling fields fields') : payload fields = payload fields' := by
  apply Json.Object.ext_find?
  intro name
  rw [find?_payload, find?_payload]
  by_cases hname : name ∈ [idKey, parentKey, parentAlias]
  · rw [if_pos hname, if_pos hname]
  · rw [if_neg hname, if_neg hname, h.find?_eq hname]

theorem Respelling.readId_eq (h : Respelling fields fields') : readId fields = readId fields' := by
  cases h with
  | @digits key n named value =>
    by_cases hkey : key = idKey
    · subst hkey
      have hnames : Names fields (toString n) := ⟨_, value, .integer n⟩
      have hnames' : Names (fields.insert idKey (.string (toString n))) (toString n) :=
        ⟨_, find?_insert_self fields idKey _, .string (toString n)⟩
      rw [readId_of_names hnames, readId_of_names hnames']
    · exact readId_congr (find?_insert_of_ne (Ne.symm hkey)).symm
  | moved names _ _ =>
    apply readId_congr
    rcases names with ⟨rfl, rfl⟩ | ⟨rfl, rfl⟩
    · exact (find?_moved_of_ne (by decide) (by decide)).symm
    · exact (find?_moved_of_ne (by decide) (by decide)).symm

/-- A number under a name of a parent may be written as its digits, also where both names are used. -/
theorem ParentNames.readParent_digits {key other : String} (names : ParentNames key other) {n : Int}
    (value : fields.find? key = some (.integer n)) (id : String) :
    readParent fields id = readParent (fields.insert key (.string (toString n))) id := by
  have hvalue : (fields.insert key (.string (toString n))).find? key = some (.string (toString n)) :=
    find?_insert_self fields key _
  have hother : (fields.insert key (.string (toString n))).find? other = fields.find? other :=
    find?_insert_of_ne names.ne.symm
  by_cases hfree : fields.find? other = none
  · have hread : readParent fields id = .ok (parentOf (toString n)) :=
      readParent_eq_ok_iff.2 ⟨_, ⟨_, names.isParentValue value hfree, .integer n⟩, rfl⟩
    rw [hread, eq_comm, readParent_eq_ok_iff]
    exact ⟨_, ⟨_, names.isParentValue hvalue (hother.trans hfree), .string (toString n)⟩, rfl⟩
  · -- the complaint about two parents has the id of the record and neither value
    have hkey : fields.find? key ≠ none := by
      rw [value]
      exact Option.some_ne_none _
    have hkey' : (fields.insert key (.string (toString n))).find? key ≠ none := by
      rw [hvalue]
      exact Option.some_ne_none _
    rw [names.readParent_of_both id hkey hfree, names.readParent_of_both id hkey' (hother ▸ hfree)]

theorem Respelling.readParent_eq (h : Respelling fields fields') (id : String) :
    readParent fields id = readParent fields' id := by
  cases h with
  | @digits key n named value =>
    simp only [List.mem_cons, List.not_mem_nil, or_false] at named
    rcases named with rfl | hparent | halias
    · apply readParent_congr
      · exact (find?_insert_of_ne (by decide)).symm
      · exact (find?_insert_of_ne (by decide)).symm
    · exact ParentNames.readParent_digits (.inl ⟨hparent, rfl⟩) value id
    · exact ParentNames.readParent_digits (.inr ⟨halias, rfl⟩) value id
  | @moved key other v names value free =>
    have hfree : ((fields.erase key).insert other v).find? key = none := by
      rw [find?_insert_of_ne names.ne, Json.Object.find?_erase, if_pos rfl]
    have hmoved := names.symm.isParentValue (find?_insert_self (fields.erase key) other v) hfree
    rw [readParent_of_isParentValue id (names.isParentValue value free), readParent_of_isParentValue id hmoved]

end

/-- An entry reads the same in either spelling, with the same complaint if it breaks a rule. -/
theorem Respells.ofEntry_eq {e e' : Json.Value} (h : Respells e e') : Record.ofEntry e = Record.ofEntry e' := by
  obtain ⟨respelling⟩ := h
  rw [Record.ofEntry_of_object rfl, Record.ofEntry_of_object rfl, respelling.readId_eq, respelling.payload_eq]
  simp only [respelling.readParent_eq]

theorem ofEntry_eq_of_eqvGen {e e' : Json.Value} (h : Relation.EqvGen Respells e e') :
    Record.ofEntry e = Record.ofEntry e' := by
  induction h with
  | rel e e' h => exact h.ofEntry_eq
  | refl e => rfl
  | symm e e' _ ih => exact ih.symm
  | trans e e' e'' _ _ ih ih' => exact ih.trans ih'

/-! ### Ids and their values -/

/-- The entry is a record, and the value in it stands for an id: that of the record, or that of its parent. -/
inductive Identifies (e : Json.Value) (j : Json) : String → Prop
  | id {r : Record} {fields : Json.Object} (read : Record.ofEntry e = .ok r) (object : e.object? = some fields)
    (value : fields.find? idKey = some j) : Identifies e j r.id
  | parent {r : Record} {fields : Json.Object} {parent : String} (read : Record.ofEntry e = .ok r)
    (object : e.object? = some fields) (value : IsParentValue fields j) (named : r.parent = some parent) :
    Identifies e j parent

theorem Identifies.gives {e : Json.Value} {j : Json} {id : String} (h : Identifies e j id) : Gives j id := by
  cases h with
  | id read object value =>
    obtain ⟨fields, _, hobject, hreg, -⟩ := Record.ofEntry_eq_ok_iff.1 read
    obtain rfl := Option.some.inj (object.symm.trans hobject)
    obtain ⟨j', hj', hgives⟩ := hreg.idText
    obtain rfl := Option.some.inj (value.symm.trans hj')
    exact hgives
  | parent read object value named =>
    obtain ⟨fields, text, hobject, hreg, hparent, -⟩ := Record.ofEntry_eq_ok_iff.1 read
    obtain rfl := Option.some.inj (object.symm.trans hobject)
    obtain ⟨j', hj', hgives⟩ := hreg.parentText
    obtain rfl := value.unique hj'
    rw [named, parentOf] at hparent
    split at hparent
    · cases hparent
    · rwa [Option.some.inj hparent]

/-- Every text but the empty one is the id of an entry, in each of its spellings. -/
theorem exists_identifies {v : Json.Value} {id : String} (h : Gives v.json id) (hne : id ≠ "") :
    ∃ e, Identifies e v.json id := by
  let fields := (Json.Object.empty.insert idKey v).insert parentKey (.string noParent)
  have hid : fields.find? idKey = some v.json := by
    rw [find?_insert_of_ne (by decide), find?_insert_self]
  have hparent : IsParentValue fields (.string noParent) := by
    refine .inl ⟨find?_insert_self _ parentKey _, ?_⟩
    rw [find?_insert_of_ne (by decide), find?_insert_of_ne (by decide)]
    rfl
  have hread : Record.ofEntry (.object fields) = .ok ⟨id, none, payload fields⟩ :=
    Record.ofEntry_eq_ok_iff.2 ⟨fields, noParent, rfl, ⟨⟨_, hid, h⟩, hne, _, hparent, .string noParent⟩, rfl, rfl⟩
  exact ⟨.object fields, .id hread rfl hid⟩

theorem gives_integer_iff {n : Int} {id : String} : Gives (.integer n) id ↔ Decimal.Writes n id.toList := by
  rw [Decimal.writes_iff, Json.integerText, String.toList_inj]
  constructor
  · rintro ⟨⟩
    rfl
  · rintro rfl
    exact .integer n

theorem gives_string_iff {s id : String} : Gives (.string s) id ↔ id = s := by
  constructor
  · rintro ⟨⟩
    rfl
  · rintro rfl
    exact .string id

theorem exists_identifies_integer (n : Int) : ∃ e, Identifies e (.integer n) (toString n) := by
  refine exists_identifies (v := .integer n) (.integer n) fun hempty => ?_
  have hwrites := gives_integer_iff.1 (.integer n)
  rw [hempty] at hwrites
  exact hwrites.ne_nil rfl

/-- Different integers are different ids. -/
theorem exists_identifies_integers_iff {m n : Int} :
    (∃ e e' id, Identifies e (.integer m) id ∧ Identifies e' (.integer n) id) ↔ m = n := by
  constructor
  · rintro ⟨e, e', id, h, h'⟩
    have hm := h.gives
    have hn := h'.gives
    rw [gives_integer_iff] at hm hn
    exact hm.unique hn
  · rintro rfl
    obtain ⟨e, he⟩ := exists_identifies_integer m
    exact ⟨e, e, _, he, he⟩

/-- A string is the id of an integer when it is its decimal text. -/
theorem exists_identifies_string_iff {n : Int} {s : String} :
    (∃ e e' id, Identifies e (.integer n) id ∧ Identifies e' (.string s) id) ↔ Decimal.Writes n s.toList := by
  constructor
  · rintro ⟨e, e', id, h, h'⟩
    obtain rfl := gives_string_iff.1 h'.gives
    exact gives_integer_iff.1 h.gives
  · intro h
    obtain ⟨e, he⟩ := exists_identifies_integer n
    have hgives := gives_integer_iff.2 h
    obtain rfl := hgives.unique (.integer n)
    obtain ⟨e', he'⟩ := exists_identifies (v := .string (toString n)) (.string (toString n)) fun hempty => by
      rw [hempty] at h
      exact h.ne_nil rfl
    exact ⟨e, e', _, he, he'⟩

end Entry

/-! ### Files -/

theorem Decoded.ofEntries_congr {entries entries' : List Json.Value}
    (h : entries.map Record.ofEntry = entries'.map Record.ofEntry) : ofEntries entries = ofEntries entries' := by
  rw [ofEntries, ofEntries, h]

theorem Decoded.ofEntries_eq_of_respells {entries entries' : List Json.Value}
    (h : List.Forall₂ (Relation.EqvGen Entry.Respells) entries entries') : ofEntries entries = ofEntries entries' := by
  apply ofEntries_congr
  induction h with
  | nil => rfl
  | cons he _ ih => rw [List.map_cons, List.map_cons, Entry.ofEntry_eq_of_eqvGen he, ih]

/-- Files that list the same entries in different spellings cannot be told apart: whatever the verifier, they decode to
the same records and the same complaints, or fail alike, and are given the same report.  Otherwise a value is the only
one to stand for its id: two integers stand for the same id only if they are equal, and an integer and a string only
if the string is the decimal text of the integer. -/
theorem decoding_respelled :
    (∀ entries entries', List.Forall₂ (Relation.EqvGen Entry.Respells) entries entries' →
        Decoded.ofEntries entries = Decoded.ofEntries entries' ∧
          ∀ content content', History.Lists content entries → History.Lists content' entries' → ∀ v,
            History.decodeWith v content = History.decodeWith v content' ∧
              ∀ hash, (History.audit hash v content).map (fun o => (o.report, o.recordCount)) =
                (History.audit hash v content').map fun o => (o.report, o.recordCount)) ∧
      (∀ m n : Int, (∃ e e' id, Entry.Identifies e (.integer m) id ∧ Entry.Identifies e' (.integer n) id) ↔ m = n) ∧
      ∀ (n : Int) (s : String),
        (∃ e e' id, Entry.Identifies e (.integer n) id ∧ Entry.Identifies e' (.string s) id) ↔
          Decimal.Writes n s.toList := by
  refine ⟨fun entries entries' h => ?_, fun _ _ => Entry.exists_identifies_integers_iff,
    fun _ _ => Entry.exists_identifies_string_iff⟩
  have hentries := Decoded.ofEntries_eq_of_respells h
  refine ⟨hentries, fun content content' hc hc' v => ?_⟩
  have hdecode : History.decodeWith v content = History.decodeWith v content' := by
    rw [hc.decodeWith_eq, hc'.decodeWith_eq, h.length_eq, hentries]
  refine ⟨hdecode, fun hash => ?_⟩
  rw [History.audit, History.audit, hdecode]
  cases History.decodeWith v content' with
  | error e => rfl
  | ok d =>
    simp only [bind, Except.bind]
    cases d.verify v <;> rfl

/-- A root whose id is a number and whose parent stands under its other name, and an entry with two parents. -/
def numbered : Bytes :=
  .ofString "[\x7b\"id\":-7,\"parentId\":\"\"\x7d,\x7b\"id\":\"b\",\"parent\":-7,\"parentId\":8\x7d]"

/-- The same entries with every number as a string, and with the one parent under its first name. -/
def lettered : Bytes :=
  .ofString "[\x7b\"id\":\"-7\",\"parent\":\"\"\x7d,\x7b\"id\":\"b\",\"parent\":\"-7\",\"parentId\":8\x7d]"

/-- An entry that is read and one that breaks a rule, whose complaint stays. -/
theorem decoding_respelled_numbered :
    ∃ entries entries', List.Forall₂ (Relation.EqvGen Entry.Respells) entries entries' ∧
      History.Lists numbered entries ∧ History.Lists lettered entries' ∧
      Decoded.ofEntries entries = Decoded.ofEntries entries' ∧
      History.decodeWith ⟨.collect, none⟩ numbered = History.decodeWith ⟨.collect, none⟩ lettered := by
  let root : Json.Object := .ofFields [("id", .integer (-7)), ("parentId", .string "")]
  let torn : Json.Object := .ofFields [("id", .string "b"), ("parent", .integer (-7)), ("parentId", .integer 8)]
  have hnumbered : Json.read numbered = .ok (.array
      [.object [("id", .integer (-7)), ("parentId", .string "")],
        .object [("id", .string "b"), ("parent", .integer (-7)), ("parentId", .integer 8)]]) := by rfl
  have hlettered : Json.read lettered = .ok (.array
      [.object [("id", .string "-7"), ("parent", .string "")],
        .object [("id", .string "b"), ("parent", .string "-7"), ("parentId", .integer 8)]]) := by rfl
  let root' := root.insert "id" (.string "-7")
  let root'' := (root'.erase "parentId").insert "parent" (.string "")
  let torn' := torn.insert "parent" (.string "-7")
  have hid : Entry.Respells (.object root) (.object root') := .fields (.digits (n := -7) (by decide) rfl)
  have hmoved : Entry.Respells (.object root') (.object root'') := .fields (.moved (.inr ⟨rfl, rfl⟩) rfl rfl)
  have hparent : Entry.Respells (.object torn) (.object torn') := .fields (.digits (n := -7) (by decide) rfl)
  have hspelled : List.Forall₂ (Relation.EqvGen Entry.Respells) [.object root, .object torn]
      [.object root'', .object torn'] :=
    .cons (.trans _ _ _ (.rel _ _ hid) (.rel _ _ hmoved)) (.cons (.rel _ _ hparent) .nil)
  have hlists : History.Lists numbered [.object root, .object torn] := ⟨_, by rw [Json.Value.read, hnumbered]; rfl, rfl⟩
  have hlists' : History.Lists lettered [.object root'', .object torn'] :=
    ⟨_, by rw [Json.Value.read, hlettered]; rfl, rfl⟩
  obtain ⟨hneutral, -, -⟩ := decoding_respelled
  obtain ⟨hdecoded, hfiles⟩ := hneutral _ _ hspelled
  exact ⟨_, _, hspelled, hlists, hlists', hdecoded, (hfiles _ _ hlists hlists' ⟨.collect, none⟩).1⟩

end Lineage
