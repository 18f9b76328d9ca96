import Lineage.Json.Typed
import Lineage.Proofs.Answer

/-!
# Reading values from trees

What the readers of values make of a document that is a whole tree: one law for each of them, from laws of the
readers it uses.
-/

namespace Lineage.Document

mutual

theorem json_ofJson : ∀ j : Json, (ofJson j).json = .ok j
  | .null => rfl
  | .bool _ => rfl
  | .integer _ => rfl
  | .float _ => rfl
  | .string _ => rfl
  | .array items => by
    rw [ofJson, json, jsonItems_ofItems items]
    rfl
  | .object fields => by
    rw [ofJson, json, jsonFields_ofFields fields]
    rfl

theorem jsonItems_ofItems : ∀ items : List Json, jsonItems (ofItems items) = .ok items
  | [] => rfl
  | j :: js => by
    rw [ofItems, jsonItems, json_ofJson j, jsonItems_ofItems js]
    rfl

theorem jsonFields_ofFields : ∀ fields : List (String × Json), jsonFields (ofFields fields) = .ok fields
  | [] => rfl
  | (n, j) :: fs => by
    rw [ofFields, jsonFields, json_ofJson j, jsonFields_ofFields fs]
    rfl

end

@[simp]
theorem whole_ofJson (j : Json) : (ofJson j).whole = .ok j := by
  rw [whole, json_ofJson]
  rfl

@[simp]
theorem text_ofJson (s : String) : (ofJson (.string s)).text = .ok s :=
  rfl

@[simp]
theorem count_ofJson (wanted : String) (n : Nat) : (ofJson (.integer n)).count wanted = .ok n := by
  simp [ofJson, count]

theorem list_ofJson {α : Type} {read : Document → Typed α} {write : α → Json} {as : List α}
    (h : ∀ a ∈ as, read (ofJson (write a)) = .ok a) : (ofJson (.array (as.map write))).list read = .ok as := by
  have hitems : (ofItems (as.map write)).mapM read = .ok as := by
    induction as with
    | nil => rfl
    | cons a as ih =>
      have ih := ih fun a' ha' => h a' (List.mem_cons_of_mem _ ha')
      rw [List.map_cons, ofItems, List.mapM_cons, h a (List.mem_cons_self ..), ih]
      rfl
  rw [ofJson, list, hitems]
  rfl

theorem find?_ofFields (fields : Fields Json) (name : String) :
    Fields.find? name (ofFields fields) = (fields.find? name).map ofJson := by
  induction fields with
  | nil => rfl
  | cons f fs ih =>
    obtain ⟨n, j⟩ := f
    rw [ofFields, Fields.find?, Fields.find?, ih]
    split <;> rfl

/-! ### Parts -/

namespace Parts

theorem walk_ofFields {known : Fields (Document → Typed Unit)} {seen : List String} {fields : Fields Json}
    (hnew : ∀ f ∈ fields, f.1 ∉ seen) (hnodup : (fields.map Prod.fst).Nodup)
    (hread : ∀ f ∈ fields, ∃ read, known.find? f.1 = some read ∧ read (ofJson f.2) = .ok ()) :
    walk known seen (ofFields fields) = .ok () := by
  induction fields generalizing seen with
  | nil => rfl
  | cons f fs ih =>
    obtain ⟨name, j⟩ := f
    obtain ⟨hhead, htail⟩ := List.nodup_cons.1 hnodup
    obtain ⟨⟨read, hknown, hj⟩, hread⟩ := List.forall_mem_cons.1 hread
    obtain ⟨hseen, hnew⟩ := List.forall_mem_cons.1 hnew
    simp only [ofFields, walk, hknown, if_neg hseen, hj]
    refine ih (fun g hg hmem => ?_) htail hread
    rcases List.mem_cons.1 hmem with heq | hmem
    · exact hhead (List.mem_map.2 ⟨g, hg, heq⟩)
    · exact hnew g hg hmem

/-- Fields of different names pass when each is known and holds what is known of it. -/
theorem check_named {known : Fields (Document → Typed Unit)} {fields : Fields Json}
    (hnodup : (fields.map Prod.fst).Nodup)
    (hread : ∀ f ∈ fields, ∃ read, known.find? f.1 = some read ∧ read (ofJson f.2) = .ok ()) :
    (named (ofFields fields) none).check known = .ok () := by
  rw [check, walk_ofFields (fun _ _ => List.not_mem_nil) hnodup hread]
  rfl

theorem get_named {α : Type} {fields : Fields Json} {name : String} {j : Json} (h : fields.find? name = some j)
    (place : Nat) (type : String) (read : Document → Typed α) :
    (named (ofFields fields) none).get place name type read = read (ofJson j) := by
  rw [get, part?, find?_ofFields, h]
  rfl

end Parts

/-! ### Variants -/

theorem splitTag_others {tag : String} {read : Document → Typed String} {found : Option String}
    {others : Fields Document} {fields : Fields Json} (h : ∀ f ∈ fields, f.1 ≠ tag) :
    splitTag tag read found others (ofFields fields) = .ok (found, others.reverse ++ ofFields fields) := by
  induction fields generalizing others with
  | nil => simp [ofFields, splitTag]
  | cons f fs ih =>
    obtain ⟨name, j⟩ := f
    have hname : name ≠ tag := h (name, j) (List.mem_cons_self ..)
    simp only [ofFields, splitTag, if_neg hname, whole_ofJson]
    refine (ih fun g hg => h g (List.mem_cons_of_mem _ hg)).trans ?_
    simp

/-- The variant that stands first under its tag, and the other fields. -/
theorem taggedFields_ofFields {tag name : String} {read : Document → Typed String} {fields : Fields Json}
    (hread : read (.string name) = .ok name) (h : ∀ f ∈ fields, f.1 ≠ tag) :
    taggedFields tag read (ofFields ((tag, .string name) :: fields)) none =
      .ok (name, .named (ofFields fields) none) := by
  have hsplit : splitTag tag read none [] (ofFields ((tag, .string name) :: fields)) =
      .ok (some name, ofFields fields) := by
    rw [ofFields, splitTag, if_pos rfl, ofJson, hread]
    exact splitTag_others h
  rw [taggedFields, hsplit]
  rfl

theorem tagged_ofJson {wanted tag name : String} {variants : List String} {fields : Fields Json}
    (hname : name ∈ variants) (h : ∀ f ∈ fields, f.1 ≠ tag) :
    (ofJson (.object ((tag, .string name) :: fields))).tagged wanted tag variants =
      .ok (name, .named (ofFields fields) none) := by
  have hread : variant variants (.string name) = .ok name := if_pos hname
  exact taggedFields_ofFields hread h

end Lineage.Document
