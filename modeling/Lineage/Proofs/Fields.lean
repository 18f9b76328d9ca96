import Lineage.Json.Basic

/-!
# Fields as a function of names

Sorted fields are known by what stands under each name (`Fields.Sorted.ext`), and so are objects
(`Json.Object.ext_find?`).  So it is enough to say of an operation what it leaves under a name.
-/

namespace Lineage

namespace Fields

variable {α : Type}

theorem find?_erase (name erased : String) (fields : Fields α) :
    (fields.erase erased).find? name = if name = erased then none else fields.find? name := by
  induction fields with
  | nil => simp [erase, find?]
  | cons f rest ih =>
    obtain ⟨n, v⟩ := f
    have hcons : erase erased ((n, v) :: rest) =
        if n = erased then erase erased rest else (n, v) :: erase erased rest := by
      by_cases hn : n = erased
      · simp [erase, hn]
      · simp [erase, hn]
    rw [hcons]
    by_cases hn : n = erased
    · rw [if_pos hn, ih, find?]
      by_cases hname : name = erased
      · simp [hname]
      · have hne : n ≠ name := fun h => hname (h ▸ hn)
        simp [hname, hne]
    · rw [if_neg hn, find?, find?, ih]
      by_cases hname : n = name
      · subst hname
        simp [hn]
      · simp [hname]

theorem find?_insert (name inserted : String) (value : α) (fields : Fields α) :
    (fields.insert inserted value).find? name = if name = inserted then some value else fields.find? name := by
  induction fields with
  | nil => simp [insert, find?, eq_comm]
  | cons f rest ih =>
    obtain ⟨n, v⟩ := f
    simp only [insert]
    by_cases hlt : inserted < n
    · simp [hlt, find?, eq_comm]
    · by_cases heq : inserted = n
      · subst heq
        simp only [hlt, ↓reduceIte, find?]
        by_cases hname : name = inserted
        · simp [hname]
        · simp [hname, Ne.symm hname]
      · simp only [hlt, heq, ↓reduceIte, find?, ih]
        by_cases hname : n = name
        · subst hname
          simp [Ne.symm heq]
        · simp [hname]

theorem mem_of_find? {name : String} {value : α} {fields : Fields α} (h : fields.find? name = some value) :
    (name, value) ∈ fields := by
  induction fields with
  | nil => cases h
  | cons f rest ih =>
    obtain ⟨n, v⟩ := f
    simp only [find?] at h
    split at h
    · rename_i hn
      obtain rfl := Option.some.inj h
      subst hn
      exact List.mem_cons_self ..
    · exact List.mem_cons_of_mem _ (ih h)

theorem Sorted.find?_of_mem {name : String} {value : α} {fields : Fields α} (hs : fields.Sorted)
    (h : (name, value) ∈ fields) : fields.find? name = some value := by
  induction fields with
  | nil => cases h
  | cons f rest ih =>
    obtain ⟨n, v⟩ := f
    obtain ⟨hn, hr⟩ := List.pairwise_cons.1 hs
    rcases List.mem_cons.1 h with heq | hmem
    · obtain ⟨rfl, rfl⟩ := Prod.mk.inj heq
      simp [find?]
    · have hne : n ≠ name := by
        rintro rfl
        exact String.lt_irrefl n (hn _ hmem)
      simp [find?, hne, ih hr hmem]

theorem Sorted.mem_iff {fields : Fields α} (hs : fields.Sorted) {name : String} {value : α} :
    (name, value) ∈ fields ↔ fields.find? name = some value :=
  ⟨hs.find?_of_mem, mem_of_find?⟩

theorem Sorted.nodup {fields : Fields α} (hs : fields.Sorted) : fields.Nodup := by
  apply hs.imp
  intro a b hlt heq
  exact String.lt_irrefl b.1 (heq ▸ hlt)

theorem Sorted.ext {a b : Fields α} (ha : a.Sorted) (hb : b.Sorted) (h : ∀ name, a.find? name = b.find? name) :
    a = b := by
  have hperm : a.Perm b := by
    rw [List.perm_ext_iff_of_nodup ha.nodup hb.nodup]
    rintro ⟨name, value⟩
    rw [ha.mem_iff, hb.mem_iff, h]
  apply hperm.eq_of_pairwise _ ha hb
  intro f g _ _ hfg hgf
  exact absurd (String.lt_trans hfg hgf) (String.lt_irrefl f.1)

/-- Inserting sorted fields puts each of their values under its name. -/
theorem Sorted.find?_insertAll {new : Fields α} (hn : new.Sorted) (name : String) (fields : Fields α) :
    (insertAll new fields).find? name = (new.find? name).or (fields.find? name) := by
  induction new generalizing fields with
  | nil => rfl
  | cons f rest ih =>
    obtain ⟨n, v⟩ := f
    obtain ⟨hlt, hr⟩ := List.pairwise_cons.1 hn
    show (insertAll rest (insert n v fields)).find? name = _
    rw [ih hr, find?_insert, find?]
    by_cases hname : n = name
    · subst hname
      have hnone : find? n rest = none := by
        cases hf : find? n rest with
        | none => rfl
        | some w => exact absurd (hlt _ (mem_of_find? hf)) (String.lt_irrefl n)
      simp [hnone]
    · simp [hname, Ne.symm hname]

theorem Sorted.collect_eq {fields : Fields α} (h : fields.Sorted) : collect fields = fields := by
  apply (sorted_collect fields).ext h
  intro name
  rw [collect, h.find?_insertAll]
  simp [find?]

end Fields

namespace Json

/-! ### Trees in order -/

private theorem sortedItems_eq {items : List Json} (h : ∀ j ∈ items, j.sorted = j) :
    sortedItems items = items := by
  induction items with
  | nil => rfl
  | cons j js ih =>
    rw [sortedItems, h j (List.mem_cons_self ..), ih fun k hk => h k (List.mem_cons_of_mem _ hk)]

private theorem sortedFields_eq {fields : Fields Json} (h : ∀ f ∈ fields, f.2.sorted = f.2) :
    sortedFields fields = fields := by
  induction fields with
  | nil => rfl
  | cons f fs ih =>
    have hf := h f (List.mem_cons_self ..)
    obtain ⟨n, j⟩ := f
    rw [sortedFields, hf, ih fun g hg => h g (List.mem_cons_of_mem _ hg)]

/-- A tree whose fields are in order stays as it is. -/
theorem Ordered.sorted_eq {j : Json} (h : j.Ordered) : j.sorted = j := by
  induction h with
  | null => rfl
  | bool b => rfl
  | integer n => rfl
  | float f => rfl
  | string s => rfl
  | array _ ih => rw [sorted, sortedItems_eq ih]
  | object _ hs ih => rw [sorted, sortedFields_eq ih, hs.collect_eq]

theorem Value.ofJson_json (v : Value) : ofJson v.json = v := by
  obtain ⟨j, h⟩ := v
  simp only [ofJson, h.sorted_eq]

theorem Value.items?_array (items : List Value) : (array items).items? = some items := by
  simp only [items?, array, Option.some.injEq]
  apply List.ext_getElem
  · simp
  · intro i _ _
    simp

/-! ### Objects -/

namespace Object

theorem ext_find? {a b : Object} (h : ∀ name, a.find? name = b.find? name) : a = b := by
  obtain ⟨as, ha⟩ := a
  obtain ⟨bs, hb⟩ := b
  obtain rfl : as = bs := ha.fields.2.ext hb.fields.2 h
  rfl

theorem mem_fields_iff {o : Object} {f : String × Json} : f ∈ o.fields ↔ o.find? f.1 = some f.2 :=
  o.ordered.fields.2.mem_iff

theorem find?_erase (o : Object) (erased name : String) :
    (o.erase erased).find? name = if name = erased then none else o.find? name :=
  Fields.find?_erase name erased o.fields

theorem find?_insert (o : Object) (inserted : String) (v : Value) (name : String) :
    (o.insert inserted v).find? name = if name = inserted then some v.json else o.find? name :=
  Fields.find?_insert name inserted v.json o.fields

theorem find?_overlay (o new : Object) (name : String) :
    (o.overlay new).find? name = (new.find? name).or (o.find? name) :=
  new.ordered.fields.2.find?_insertAll name o.fields

end Object

end Json

end Lineage
