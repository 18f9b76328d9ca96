import Lineage.Exchange.Certificate
import Lineage.Proofs.Json.Asked
import Lineage.Proofs.Json.Parts
import Lineage.Proofs.Json.RoundTrip

/-!
# Reports and certificates that survive their text

A violation puts the parts of its breach beside its position, a report puts its part beside its verdict, and a
certificate holds a report.  Each of them comes back from its text, since what is taken out of the fields by name
never stands under a name of the others; the texts in the fields do not matter.
-/

namespace Lineage

open Document (Parts)

/-! ### Numbers -/

/-- The numbers that are written of a breach, besides those that its texts may spell. -/
def Breach.numbers : Breach → List Nat
  | .duplicateId _ firstSeen => [firstSeen]
  | _ => []

def Violation.numbers (v : Violation) : List Nat :=
  v.position.toList ++ v.breach.numbers

def Report.numbers : Report → List Nat
  | .verified n => [n]
  | .failed vs => vs.flatMap Violation.numbers

def Certificate.numbers (c : Certificate) : List Nat :=
  c.schemaVersion :: c.recordCount :: c.verdict.numbers

/-! ### Breaches -/

namespace Breach

theorem one_named {variant a x : String} {make : String → Breach} :
    one variant a make (.named (Document.ofFields [(a, .string x)]) none) = .ok (make x) := by
  have hx : Fields.find? a [(a, Json.string x)] = some (.string x) := if_pos rfl
  rw [one, Parts.check_named (by simp) (by simp [Fields.find?]), Parts.get_named hx]
  rfl

theorem two_named {variant a b x y : String} {make : String → String → Breach} (hab : a ≠ b) :
    two variant a b make (.named (Document.ofFields [(a, .string x), (b, .string y)]) none) = .ok (make x y) := by
  have hx : Fields.find? a [(a, Json.string x), (b, .string y)] = some (.string x) := if_pos rfl
  have hy : Fields.find? b [(a, Json.string x), (b, .string y)] = some (.string y) := by simp [Fields.find?, hab]
  rw [two, Parts.check_named (by simpa using hab) (by simp [Fields.find?, hab]), Parts.get_named hx,
    Parts.get_named hy]
  rfl

theorem duplicate_named (id : String) (firstSeen : Nat) :
    duplicate (.named (Document.ofFields [("id", .string id), ("first_seen", .integer firstSeen)]) none) =
      .ok (.duplicateId id firstSeen) := by
  have hid : Fields.find? "id" [("id", Json.string id), ("first_seen", .integer firstSeen)] = some (.string id) :=
    rfl
  have hseen : Fields.find? "first_seen" [("id", Json.string id), ("first_seen", .integer firstSeen)] =
      some (.integer firstSeen) := rfl
  rw [duplicate, Parts.check_named (by simp) (by simp [Fields.find?]), Parts.get_named hid,
    Parts.get_named hseen, Document.count_ofJson]
  rfl

/-- The parts of a breach are read by its kind. -/
theorem ofParts_fields (b : Breach) : ofParts b.kind (.named (Document.ofFields b.fields) none) = .ok b := by
  cases b with
  | rootHasParent id parent => exact two_named (by decide)
  | missingParent parent id => exact two_named (by decide)
  | selfReference id => exact one_named
  | duplicateId id firstSeen => exact duplicate_named id firstSeen
  | multipleRoots id root => exact two_named (by decide)
  | misplacedRoot id => exact one_named
  | emptyHistory => rfl
  | malformedRecord reason => exact one_named

theorem kind_mem_kinds (b : Breach) : b.kind ∈ kinds := by
  cases b <;> simp [kind, kinds]

theorem toFields_ne_position (b : Breach) : ∀ f ∈ b.toFields, f.1 ≠ "position" := by
  cases b <;> simp [toFields, fields]

theorem fields_ne_kind (b : Breach) : ∀ f ∈ b.fields, f.1 ≠ "kind" := by
  cases b <;> simp [fields]

end Breach

/-! ### Violations -/

namespace Violation

theorem splitPosition_others {found : Option (Option Nat)} {others : Fields Document} {fields : Fields Json}
    (h : ∀ f ∈ fields, f.1 ≠ "position") :
    splitPosition found others (Document.ofFields fields) =
      .ok (found.join, others.reverse ++ Document.ofFields fields) := by
  induction fields generalizing others with
  | nil => simp [Document.ofFields, splitPosition]
  | cons f fs ih =>
    obtain ⟨name, j⟩ := f
    have hname : name ≠ "position" := h (name, j) (List.mem_cons_self ..)
    simp only [Document.ofFields, splitPosition, if_neg hname, Document.whole_ofJson]
    refine (ih fun g hg => h g (List.mem_cons_of_mem _ hg)).trans ?_
    simp

theorem position?_ofCount (position : Option Nat) :
    position? (.ofJson (Json.ofCount? position)) = .ok position := by
  cases position with
  | none => rfl
  | some p =>
    show ((Document.ofJson (.integer p)).count "usize").map some = _
    rw [Document.count_ofJson]
    rfl

theorem ofDocument_ofJson (v : Violation) : ofDocument (.ofJson v.toJson) = .ok v := by
  -- the position is taken out first, and the kind out of what that leaves
  have hsplit : splitPosition none []
      (Document.ofFields (("position", Json.ofCount? v.position) :: v.breach.toFields)) =
        .ok (v.position, Document.ofFields v.breach.toFields) := by
    rw [Document.ofFields, splitPosition, if_pos rfl, position?_ofCount]
    exact splitPosition_others v.breach.toFields_ne_position
  have hkind : Document.variantOrPlace Breach.kinds (.string v.breach.kind) = .ok v.breach.kind :=
    if_pos v.breach.kind_mem_kinds
  rw [toJson, Document.ofJson, ofDocument, hsplit]
  simp only [Breach.toFields, Document.ending, bind, Except.bind,
    Document.taggedFields_ofFields hkind v.breach.fields_ne_kind, v.breach.ofParts_fields]
  rfl

end Violation

/-! ### Reports and certificates -/

namespace Report

theorem one_named {α : Type} {variant name : String} {read : Document → Typed α} {j : Json} {a : α}
    (h : read (.ofJson j) = .ok a) :
    one variant name read (.named (Document.ofFields [(name, j)]) none) = .ok a := by
  have hj : Fields.find? name [(name, j)] = some j := if_pos rfl
  rw [one, Parts.check_named (by simp) (by simp [Fields.find?, h]), Parts.get_named hj, h]
  rfl

theorem ofDocument_ofJson (r : Report) : ofDocument (.ofJson r.toJson) = .ok r := by
  cases r with
  | verified n =>
    have hone : one "Verified" "node_count" (Document.count "usize")
        (.named (Document.ofFields [("node_count", .integer n)]) none) = .ok n :=
      one_named (Document.count_ofJson "usize" n)
    rw [toJson, ofDocument, Document.tagged_ofJson (by simp [verdicts]) (by simp)]
    simp only [bind, Except.bind, hone]
    rfl
  | failed vs =>
    have hone : one "Failed" "violations" (Document.list Violation.ofDocument)
        (.named (Document.ofFields [("violations", .array (vs.map Violation.toJson))]) none) = .ok vs :=
      one_named (Document.list_ofJson fun v _ => v.ofDocument_ofJson)
    rw [toJson, ofDocument, Document.tagged_ofJson (by simp [verdicts]) (by simp)]
    simp only [bind, Except.bind, hone]
    rfl

end Report

namespace Certificate

theorem ofDocument_ofJson (source : Source) (c : Certificate) : ofDocument source (.ofJson c.toJson) = .ok c := by
  obtain ⟨version, digest, size, verdict, time⟩ := c
  let fields : Fields Json := [("schema_version", .integer version), ("history_digest", .string digest),
    ("record_count", .integer size), ("verdict", verdict.toJson), ("verified_at", .string time)]
  have hversion : fields.find? "schema_version" = some (.integer version) := rfl
  have hdigest : fields.find? "history_digest" = some (.string digest) := rfl
  have hsize : fields.find? "record_count" = some (.integer size) := rfl
  have hverdict : fields.find? "verdict" = some verdict.toJson := rfl
  have htime : fields.find? "verified_at" = some (.string time) := rfl
  have hparts : (Document.ofJson (.object fields)).parts "struct AuditCertificate" =
      .ok (.named (Document.ofFields fields) none) := rfl
  show ofDocument source (.ofJson (.object fields)) = _
  rw [ofDocument, hparts]
  simp only [bind, Except.bind]
  rw [Parts.check_named (by simp [fields])]
  · simp only [Parts.get_named hversion, Parts.get_named hdigest, Parts.get_named hsize, Parts.get_named hverdict,
      Parts.get_named htime, Document.count_ofJson, Document.text_ofJson, Report.ofDocument_ofJson]
    rfl
  · simp only [fields, List.forall_mem_cons]
    refine ⟨⟨_, rfl, ?_⟩, ⟨_, rfl, ?_⟩, ⟨_, rfl, ?_⟩, ⟨_, rfl, ?_⟩, ⟨_, rfl, ?_⟩, List.forall_mem_nil _⟩
    all_goals simp [Report.ofDocument_ofJson]

theorem shape_covers (c : Certificate) : shape.Covers c.toJson := by
  apply Json.Shape.Covers.fields
  simp only [List.forall_mem_cons]
  exact ⟨.any _, .any _, .any _, .any _, .any _, List.forall_mem_nil _⟩

end Certificate

/-! ### Texts -/

theorem Json.Integral.count {n : Nat} (h : n ≤ Numeral.maxSignificand) : Integral (.integer n) :=
  .integer (by omega) (by omega)

theorem Breach.integral_toFields {b : Breach} (h : ∀ n ∈ b.numbers, n ≤ Json.Numeral.maxSignificand) :
    ∀ f ∈ b.toFields, f.2.Integral := by
  cases b with
  | duplicateId id firstSeen =>
    simp [toFields, fields, Json.Integral.string, Json.Integral.count (h firstSeen (List.mem_singleton_self _))]
  | _ => simp [toFields, fields, Json.Integral.string]

theorem Violation.integral_toJson {v : Violation} (h : ∀ n ∈ v.numbers, n ≤ Json.Numeral.maxSignificand) :
    v.toJson.Integral := by
  rw [numbers, List.forall_mem_append] at h
  refine .object (List.forall_mem_cons.2 ⟨?_, Breach.integral_toFields h.2⟩)
  cases hp : v.position with
  | none => exact .null
  | some p => exact .count (h.1 p (by simp [hp]))

theorem Report.integral_toJson {r : Report} (h : ∀ n ∈ r.numbers, n ≤ Json.Numeral.maxSignificand) :
    r.toJson.Integral := by
  cases r with
  | verified n =>
    have hn : (Json.integer n).Integral := .count (h n (List.mem_singleton_self n))
    exact .object (by simp [Json.Integral.string, hn])
  | failed vs =>
    have hvs : (Json.array (vs.map Violation.toJson)).Integral := by
      refine .array (List.forall_mem_map.2 fun v hv => Violation.integral_toJson fun n hn => h n ?_)
      exact List.mem_flatMap.2 ⟨v, hv, hn⟩
    exact .object (by simp [Json.Integral.string, hvs])

theorem Certificate.integral_toJson {c : Certificate} (h : ∀ n ∈ c.numbers, n ≤ Json.Numeral.maxSignificand) :
    c.toJson.Integral := by
  rw [numbers, List.forall_mem_cons, List.forall_mem_cons] at h
  have hversion : (Json.integer c.schemaVersion).Integral := .count h.1
  have hsize : (Json.integer c.recordCount).Integral := .count h.2.1
  have hverdict : c.verdict.toJson.Integral := Report.integral_toJson h.2.2
  exact .object (by simp [Json.Integral.string, hversion, hsize, hverdict])

theorem Violation.depth_toJson (v : Violation) : v.toJson.depth ≤ 1 := by
  have hposition : (Json.ofCount? v.position).depth = 0 := by cases v.position <;> rfl
  have hfields : ∀ f ∈ v.breach.toFields, f.2.depth ≤ 0 := by
    cases v.breach <;> simp [Breach.toFields, Breach.fields, Json.depth]
  rw [toJson, Json.depth, Nat.add_le_add_iff_right, Json.depthFields_le_iff, List.forall_mem_cons, hposition]
  exact ⟨Nat.le_refl 0, hfields⟩

theorem Report.depth_toJson (r : Report) : r.toJson.depth ≤ 3 := by
  cases r with
  | verified n => simp [toJson, Json.depth, Json.depthFields]
  | failed vs =>
    have hvs : Json.depthItems (vs.map Violation.toJson) ≤ 1 :=
      Json.depthItems_le_iff.2 (List.forall_mem_map.2 fun v _ => v.depth_toJson)
    simp only [toJson, Json.depth, Json.depthFields]
    omega

theorem Certificate.depth_toJson (c : Certificate) : c.toJson.depth ≤ 4 := by
  have hverdict := c.verdict.depth_toJson
  simp only [toJson, Json.depth, Json.depthFields]
  omega

/-- A value that is read from a tree is read from the text of the tree, in one line or indented. -/
theorem Typed.ofText_written {α : Type} {asked : Json.Shape} {read : Source → Document → Typed α} {j : Json}
    {a : α} (hj : j.Integral) (hd : j.depth ≤ Json.maxDepth) (hasked : asked.Covers j)
    (ha : read .text (.ofJson j) = .ok a) :
    ∀ text ∈ [j.compact, j.pretty], Typed.ofText asked read (.ofString text) = .ok a := by
  refine List.forall_mem_cons.2 ⟨?_, List.forall_mem_singleton.2 ?_⟩
  · exact ofText_of_covers (hj.read_text Json.Layout.blanks_compact hd) hasked ha
  · exact ofText_of_covers (hj.read_text Json.Layout.blanks_pretty hd) hasked ha

/-- Certificates and reports whose numbers fit into 64 bits come back from their texts as they were. -/
theorem ofText_toJson :
    (∀ c : Certificate, (∀ n ∈ c.numbers, n ≤ Json.Numeral.maxSignificand) →
      ∀ text ∈ [c.toJson.compact, c.toJson.pretty],
        Typed.ofText Certificate.shape Certificate.ofDocument (.ofString text) = .ok c) ∧
      ∀ r : Report, (∀ n ∈ r.numbers, n ≤ Json.Numeral.maxSignificand) →
        ∀ text ∈ [r.toJson.compact, r.toJson.pretty],
          Typed.ofText .any (fun _ => Report.ofDocument) (.ofString text) = .ok r := by
  constructor
  · intro c hc
    have hd : c.toJson.depth ≤ Json.maxDepth := Nat.le_trans c.depth_toJson (by decide)
    exact Typed.ofText_written (Certificate.integral_toJson hc) hd c.shape_covers (c.ofDocument_ofJson .text)
  · intro r hr
    have hd : r.toJson.depth ≤ Json.maxDepth := Nat.le_trans r.depth_toJson (by decide)
    exact Typed.ofText_written (Report.integral_toJson hr) hd (.any _) r.ofDocument_ofJson

/-- A report whose texts look like the fields around them, with the largest position and with none. -/
def entangled : Report :=
  .failed [
    ⟨none, .duplicateId "\",\"kind\":\"empty_history" 18446744073709551615⟩,
    ⟨some 18446744073709551615, .emptyHistory⟩,
    ⟨some 0, .malformedRecord "\x7b\"position\":null\x7d\n\x00"⟩]

theorem ofText_toJson_entangled :
    (∀ n ∈ entangled.numbers, n ≤ Json.Numeral.maxSignificand) ∧
      (∀ text ∈ [entangled.toJson.compact, entangled.toJson.pretty],
        Typed.ofText .any (fun _ => Report.ofDocument) (.ofString text) = .ok entangled) ∧
      ∀ text ∈ [Json.compact (Certificate.toJson ⟨1, "verdict", 3, entangled, ""⟩),
          Json.pretty (Certificate.toJson ⟨1, "verdict", 3, entangled, ""⟩)],
        Typed.ofText Certificate.shape Certificate.ofDocument (.ofString text) =
          .ok ⟨1, "verdict", 3, entangled, ""⟩ := by
  have hfits : ∀ n ∈ entangled.numbers, n ≤ Json.Numeral.maxSignificand := by decide
  exact ⟨hfits, ofText_toJson.2 entangled hfits, ofText_toJson.1 _ (by decide)⟩

end Lineage
