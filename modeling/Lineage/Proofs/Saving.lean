import Lineage.Audit
import Lineage.Proofs.Reaching
import Lineage.Proofs.Rereading

/-!
# Histories that are saved and loaded

What is written to a file is read from it, whatever else the tree holds (`FileTree.read_of_write`): nothing lies in a
file, so what leads to it leads there still.  So a history that was saved to a file is loaded as it was exactly when
its records are preserved (`FileTree.loadHistory_of_saveHistory`).
-/

namespace Lineage

/-! ### The last part of a path -/

namespace Path

theorem withoutSlashes_of_not_endsInSlash {path : String} (hempty : path ≠ "") (h : endsInSlash path = false) :
    withoutSlashes path = path := by
  have hlast : path.toList.reverse.head? ≠ some '/' := by
    rw [List.head?_reverse]
    simpa [endsInSlash] using h
  unfold withoutSlashes
  cases hrev : path.toList.reverse with
  | nil => exact absurd (by simpa using hrev) hempty
  | cons c cs =>
    rw [hrev, List.head?_cons] at hlast
    have hc : c ≠ '/' := fun hc => hlast (hc ▸ rfl)
    rw [List.dropWhile_cons_of_neg (by simpa using hc)]
    show String.ofList (c :: cs).reverse = path
    rw [← hrev, List.reverse_reverse, String.ofList_toList]

end Path

namespace FileTree

variable {t t' : FileTree} {place target directory : Location} {path name : String} {parts : List String} {n : Node}
  {content : Bytes}

theorem follow_append (place : Location) (parts rest : List String) :
    t.follow place (parts ++ rest) = t.follow place parts >>= fun next => t.follow next rest :=
  List.foldlM_append

theorem locateLast_eq_ok (h : t.locateLast path = .ok (directory, name)) :
    Path.fault? path = none ∧
      t.follow (t.origin path) (Path.parts (Path.withoutSlashes path)).dropLast = .ok directory ∧
      name = (Path.parts (Path.withoutSlashes path)).getLastD "" := by
  unfold locateLast at h
  cases hfault : Path.fault? path with
  | some e =>
    rw [hfault] at h
    cases h
  | none =>
    simp only [hfault, bind_eq_ok_iff] at h
    obtain ⟨found, hfollow, h⟩ := h
    split at h
    · obtain ⟨rfl, rfl⟩ := Prod.mk.inj (Except.ok.inj h)
      exact ⟨rfl, hfollow, rfl⟩
    all_goals cases h

/-- The location of a path is that of its last part in the directory before it. -/
theorem locate_of_locateLast (h : t.locateLast path = .ok (directory, name)) (hslash : Path.endsInSlash path = false)
    (hlookup : t.lookupPart directory name = .ok place) : t.locate path = .ok place := by
  obtain ⟨hfault, hfollow, hname⟩ := locateLast_eq_ok h
  obtain ⟨-, hempty, -⟩ := Path.fault?_eq_none_iff.1 hfault
  rw [Path.withoutSlashes_of_not_endsInSlash hempty hslash] at hfollow hname
  have hparts : Path.parts path = (Path.parts path).dropLast ++ [name] := by
    rw [hname, List.getLastD_eq_getLast?, List.getLast?_eq_some_getLast (Path.parts_ne_nil path)]
    exact (List.dropLast_concat_getLast _).symm
  rw [locate, hfault]
  show t.follow _ _ = _
  rw [hparts, follow_append, hfollow]
  show t.lookupPart directory name >>= pure = _
  rw [hlookup]
  rfl

/-! ### One entry more -/

theorem node?_set (t : FileTree) (place : Location) (n : Node) (other : Location) :
    (t.set place n).node? other = if other = place then some n else t.node? other := by
  have hkept : ∀ nodes : List (Location × Node), other ≠ place →
      (nodes.filter (·.1 ≠ place)).lookup other = nodes.lookup other := by
    intro nodes hne
    induction nodes with
    | nil => rfl
    | cons entry nodes ih =>
      by_cases hat : entry.1 = place
      · have hother : (other == entry.1) = false := beq_eq_false_iff_ne.2 (hat ▸ hne)
        rw [List.filter_cons_of_neg (by simpa using hat), ih, List.lookup_cons, hother]
      · rw [List.filter_cons_of_pos (by simpa using hat), List.lookup_cons, List.lookup_cons, ih]
  unfold node? set
  rw [List.lookup_cons]
  by_cases hother : other = place
  · simp [hother]
  · rw [beq_eq_false_iff_ne.2 hother, if_neg hother]
    exact hkept t.nodes hother

/-- What holds no entries leads nowhere, so it can be replaced and all that leads anywhere still does. -/
theorem Leads.set {start : Location} (h : t.Leads start parts target) (hplace : ¬t.HoldsEntries place) (n : Node) :
    (t.set place n).Leads start parts target := by
  induction h with
  | here start => exact .here start
  | @into start target part rest hdirectory _ ih =>
    refine .into ?_ ih
    have hne : start ≠ place := by
      rintro rfl
      exact hplace hdirectory
    rw [HoldsEntries, node?_set, if_neg hne]
    exact hdirectory

theorem Passes.set {start : Location} (h : t.Passes start parts) (place : Location)
    (hn : n ≠ .closed) : (t.set place n).Passes start parts := by
  induction h with
  | here start => exact .here start
  | @into start part rest hshort hsearched _ ih =>
    refine .into hshort (fun hclosed => ?_) ih
    rw [node?_set] at hclosed
    split at hclosed
    · exact absurd (Option.some.inj hclosed) hn
    · exact hsearched hclosed

theorem locate_set (h : t.locate path = .ok target) (hplace : ¬t.HoldsEntries place) (hn : n ≠ .closed) :
    (t.set place n).locate path = .ok target := by
  obtain ⟨hnamed, hreaches, hleads⟩ := locate_eq_ok_iff.1 h
  exact locate_eq_ok_iff.2 ⟨hnamed, ⟨hreaches.short, hreaches.passes.set place hn⟩, hleads.set hplace n⟩

/-! ### Reading what was written -/

/-- What is written to a path is read from it, unless a device has taken it. -/
theorem read_of_write (h : t.write path content = .ok t') :
    t'.read path = .ok content ∨ (t' = t ∧ (t.lookup path = .ok .sink ∨ t.lookup path = .ok .full)) := by
  rw [write, bind_eq_ok_iff] at h
  obtain ⟨⟨directory, name⟩, hlast, h⟩ := h
  cases hslash : Path.endsInSlash path with
  | true =>
    simp only [hslash] at h
    cases h
  | false =>
    simp only [hslash, Bool.false_eq_true, ↓reduceIte, bind_eq_ok_iff] at h
    obtain ⟨place, hpart, h⟩ := h
    have hlocate := locate_of_locateLast hlast hslash hpart
    have hfile : ∀ modified executable, ¬t.HoldsEntries place →
        (t.set place (.file content modified executable)).read path = .ok content := by
      intro modified executable hplace
      have hlookup : (t.set place (.file content modified executable)).lookup path =
          .ok (.file content modified executable) := by
        refine lookup_eq_ok_iff.2 ⟨place, locate_set hlocate hplace Node.noConfusion, ?_⟩
        rw [node?_set, if_pos rfl]
      rw [read, hlookup]
      rfl
    cases hnode : t.node? place with
    | none =>
      simp only [hnode] at h
      obtain rfl := Except.ok.inj h
      exact .inl (hfile _ _ (by simp [HoldsEntries, hnode]))
    | some node =>
      cases node with
      | file _ _ executable =>
        simp only [hnode] at h
        obtain rfl := Except.ok.inj h
        exact .inl (hfile _ _ (by simp [HoldsEntries, hnode]))
      | sink =>
        simp only [hnode] at h
        obtain rfl := Except.ok.inj h
        exact .inr ⟨rfl, .inl (lookup_eq_ok_iff.2 ⟨place, hlocate, hnode⟩)⟩
      | full =>
        simp only [hnode] at h
        split at h
        · obtain rfl := Except.ok.inj h
          exact .inr ⟨rfl, .inr (lookup_eq_ok_iff.2 ⟨place, hlocate, hnode⟩)⟩
        · cases h
      | _ =>
        simp only [hnode] at h
        cases h

/-! ### Histories -/

variable {h : History}

theorem loadHistory_of_read (hr : t.read path = .ok content) :
    t.loadHistory path = (History.decode content).mapError .undecodable := by
  rw [loadHistory, contentAt, naming, hr]
  rfl

/-- A history that is saved anywhere but on a device leaves its content at the path. -/
theorem read_of_saveHistory (hsave : (t.saveHistory path h).whole = .ok t') (hsink : t'.lookup path ≠ .ok .sink)
    (hfull : t'.lookup path ≠ .ok .full) : t'.read path = .ok h.content := by
  unfold saveHistory at hsave
  dsimp only at hsave
  cases hmade : (t.makeParent path).result with
  | error e =>
    rw [hmade] at hsave
    simp [Changes.whole, hmade, Except.map] at hsave
  | ok =>
    rw [hmade] at hsave
    cases hwrite : (t.makeParent path).files.write path h.content with
    | error e =>
      simp [hwrite, naming, after, Changes.whole, Except.map] at hsave
    | ok written =>
      simp only [hwrite, naming, mapError_ok, after, Changes.whole, Except.map, Except.ok.injEq] at hsave
      subst hsave
      rcases read_of_write hwrite with hread | ⟨hsame, hdevice | hdevice⟩
      · exact hread
      · exact absurd (hsame ▸ hdevice) hsink
      · exact absurd (hsame ▸ hdevice) hfull

example : ((fresh 0).saveHistory "dag.json" [.root "a", .child "b" "a"]).whole.toOption.map (·.read "dag.json") =
    some (.ok (History.content [.root "a", .child "b" "a"])) :=
  rfl

/-- A history whose numbers are integers and that is saved to a file is loaded from there as it was, with nothing
malformed, exactly when its records are preserved. -/
theorem loadHistory_of_saveHistory (hsave : (t.saveHistory path h).whole = .ok t')
    (hsink : t'.lookup path ≠ .ok .sink) (hfull : t'.lookup path ≠ .ok .full)
    (hintegral : ∀ r ∈ h, ∀ f ∈ r.payload.fields, f.2.Integral) :
    t'.loadHistory path = .ok ⟨h, []⟩ ↔ ∀ r ∈ h, r.Preserved := by
  rw [loadHistory_of_read (read_of_saveHistory hsave hsink hfull), mapError_eq_ok_iff,
    History.decode_content_eq_iff hintegral]

end FileTree

end Lineage
