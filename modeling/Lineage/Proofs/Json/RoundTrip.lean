import Lineage.Proofs.Json.Integer
import Lineage.Proofs.Json.Place
import Lineage.Proofs.Json.Text

/-!
# Reading what was written

A tree whose numbers are all integers of 64 bits is read back from its text, whatever the layout puts between
its parts, as long as its containers do not stand too deep inside each other; a tree that is too deep is refused
(`Integral.read_text_error`).  A value is read inside open containers, so the induction is on the tree for every
stack of them, and the depth that is left is what the stack has not used.
-/

namespace Lineage.Json

/-! ### Depth and numbers -/

mutual

/-- How many containers stand inside each other at most. -/
def depth : Json → Nat
  | .array items => depthItems items + 1
  | .object fields => depthFields fields + 1
  | .null | .bool _ | .integer _ | .float _ | .string _ => 0

def depthItems : List Json → Nat
  | [] => 0
  | j :: js => max j.depth (depthItems js)

def depthFields : List (String × Json) → Nat
  | [] => 0
  | (_, j) :: fs => max j.depth (depthFields fs)

end

theorem depthItems_le_iff {items : List Json} {n : Nat} : depthItems items ≤ n ↔ ∀ j ∈ items, j.depth ≤ n := by
  induction items with
  | nil => simp [depthItems]
  | cons j js ih => rw [depthItems, Nat.max_le, ih, List.forall_mem_cons]

theorem depthFields_le_iff {fields : Fields Json} {n : Nat} :
    depthFields fields ≤ n ↔ ∀ f ∈ fields, f.2.depth ≤ n := by
  induction fields with
  | nil => simp [depthFields]
  | cons f fs ih => rw [depthFields, Nat.max_le, ih, List.forall_mem_cons]

/-- Every number in the tree is an integer of 64 bits, with a sign or without. -/
inductive Integral : Json → Prop where
  | null : Integral .null
  | bool (b : Bool) : Integral (.bool b)
  | integer {n : Int} (low : -Numeral.maxNegative ≤ n) (high : n ≤ Numeral.maxSignificand) :
    Integral (.integer n)
  | string (s : String) : Integral (.string s)
  | array {items : List Json} (each : ∀ j ∈ items, Integral j) : Integral (.array items)
  | object {fields : Fields Json} (each : ∀ f ∈ fields, Integral f.2) : Integral (.object fields)

open State

/-! ### One value -/

/-- Wherever a value may stand, the text of the tree is read as the tree if it is not too deep there, and
refused if it is. -/
def Readable (l : Layout) (j : Json) : Prop :=
  ∀ (depth : Nat) (s : State) (outer : List Frame), outer.length ≤ maxDepth → s.Expects outer →
    s.Reads (Utf8.encode (l.write depth j)) (outer.length + j.depth ≤ maxDepth) (deliver j outer)

/-- A container that may be opened as long as there is room for one more. -/
private theorem reads_nest {s t : State} {outer : List Frame} {b : UInt8} {place : Place} {bs : Bytes} {n : Nat}
    (hb : s.feed b = if outer.length < maxDepth then .ok (.reading place outer) else refuse .tooDeep)
    (hin : outer.length < maxDepth → (State.reading place outer).Reads bs (outer.length + 1 + n ≤ maxDepth) t) :
    s.Reads (b :: bs) (outer.length + (n + 1) ≤ maxDepth) t := by
  by_cases hlt : outer.length < maxDepth
  · rw [if_pos hlt] at hb
    exact (Reads.after (feedAll_cons_ok hb []) (hin hlt)).congr (by omega)
  · rw [if_neg hlt] at hb
    refine ⟨fun hle => absurd hle (by omega), fun _ => ?_⟩
    rw [feedAll, List.foldlM_cons, hb]
    exact ⟨_, rfl⟩

variable {l : Layout}

private theorem readable_of_feedAll {j : Json} {text : List Char} (hw : ∀ depth, l.write depth j = text)
    (h0 : j.depth = 0)
    (hf : ∀ (s : State) (outer : List Frame), s.Expects outer → ∃ s', s.feedAll (Utf8.encode text) = .ok s' ∧
      s'.Settles (deliver j outer)) : Readable l j := by
  intro depth s outer hlen hs
  rw [hw, h0]
  exact ⟨fun _ => hf s outer hs, fun hn => absurd hlen hn⟩

private theorem readable_word {j : Json} {text : List Char} (b : UInt8) (left : Bytes)
    (hw : ∀ depth, l.write depth j = text) (h0 : j.depth = 0) (ht : Utf8.encode text = b :: left)
    (hb : ∀ outer, begin outer b = .ok (.reading (.word left j) outer)) (hs : isSpace b = false)
    (hne : b ≠ 0x5D)
    (hleft : ∀ outer, feedAll (.reading (.word left j) outer) left = .ok (deliver j outer)) : Readable l j := by
  apply readable_of_feedAll hw h0
  intro s outer hexp
  rw [ht, feedAll_cons_ok ((hexp b hs hne).trans (hb outer)), hleft]
  exact ⟨_, rfl, .refl _⟩

theorem readable_null : Readable l .null :=
  readable_word 0x6E [0x75, 0x6C, 0x6C] (fun _ => by rw [Layout.write]) rfl (by decide) (fun _ => rfl) rfl
    (by decide) (fun _ => rfl)

theorem readable_bool (value : Bool) : Readable l (.bool value) := by
  cases value with
  | false =>
    exact readable_word 0x66 [0x61, 0x6C, 0x73, 0x65] (fun _ => by rw [Layout.write]) rfl (by decide)
      (fun _ => rfl) rfl (by decide) (fun _ => rfl)
  | true =>
    exact readable_word 0x74 [0x72, 0x75, 0x65] (fun _ => by rw [Layout.write]) rfl (by decide)
      (fun _ => rfl) rfl (by decide) (fun _ => rfl)

theorem readable_string (text : String) : Readable l (.string text) := by
  apply readable_of_feedAll (fun _ => by rw [Layout.write]) rfl
  intro s outer hexp
  have hopen : s.feed 0x22 = .ok (.reading (.text .value [] .none) outer) := hexp 0x22 rfl (by decide)
  refine ⟨_, ?_, .refl _⟩
  exact (feedAll_cons_ok hopen _).trans (feedAll_quoted .value outer text)

theorem readable_integer {n : Int} (low : -Numeral.maxNegative ≤ n) (high : n ≤ Numeral.maxSignificand) :
    Readable l (.integer n) := by
  apply readable_of_feedAll (fun _ => by rw [Layout.write]) rfl
  intro s outer hexp
  have hdigit : ∀ d < 10, s.feed (digitByte d) = .ok (.reading (.number (Numeral.whole false d)) outer) := by
    intro d hd
    obtain ⟨hspace, hne⟩ := opens_digitByte d hd
    rw [hexp _ hspace hne, begin_digit outer hd]
  -- the sign decides how far the digits may go, but the reader holds up to the same bound for both
  by_cases hn : 0 ≤ n
  · have hm : n.toNat ≤ Numeral.maxSignificand := by omega
    rw [integerText_of_nonneg hn]
    refine ⟨_, feedAll_digits hdigit n.toNat hm, settles_whole ?_⟩
    rw [Numeral.value_whole, Int.toNat_of_nonneg hn]
  · have hm : (-n).toNat ≤ Numeral.maxNegative := by omega
    have hminus : s.feed 0x2D = .ok (.reading (.number .minus) outer) := hexp 0x2D rfl (by decide)
    have hsign : ∀ d < 10, State.feed (.reading (.number .minus) outer) (digitByte d) =
        .ok (.reading (.number (Numeral.whole true d)) outer) := by
      intro d hd
      simp only [State.feed, Numeral.feed_minus hd]
    rw [integerText_of_neg (by omega)]
    refine ⟨_, (feedAll_cons_ok hminus _).trans (feedAll_digits hsign (-n).toNat ?_), settles_whole ?_⟩
    · exact Nat.le_trans hm (by decide)
    · rw [Numeral.value_whole_negative (by omega) hm, Int.toNat_of_nonneg (by omega), Int.neg_neg]

/-! ### Containers -/

private theorem delimited_char {c : Char} {b : UInt8} (hc : Utf8.encodeChar c = [b]) (hb : EndsNumber b)
    (cs : List Char) : Delimited (Utf8.encode (c :: cs)) := by
  rw [Utf8.encode, List.flatMap_cons, hc]
  exact delimited_cons hb _

private theorem delimited_writeItems (depth : Nat) (js : List Json) :
    Delimited (Utf8.encode (l.writeItems depth js)) := by
  cases js with
  | nil => intro b hb; cases hb
  | cons j js => exact delimited_char (c := ',') rfl (by decide) _

private theorem delimited_writeFields (depth : Nat) (fs : Fields Json) :
    Delimited (Utf8.encode (l.writeFields depth fs)) := by
  cases fs with
  | nil => intro b hb; cases hb
  | cons f fs => exact delimited_char (c := ',') rfl (by decide) _

private theorem delimited_close (hl : l.Blanks) (depth : Nat) {b : UInt8} (hb : EndsNumber b) :
    Delimited (Utf8.encode (l.lineBreak depth) ++ [b]) :=
  Delimited.append (delimited_blank (hl.lineBreak depth)) (delimited_cons hb [])

/-- The items after the first, each behind a comma. -/
private theorem reads_writeItems (hl : l.Blanks) {js : List Json} (hjs : ∀ j ∈ js, Readable l j) (depth : Nat)
    (before : List Json) {outer : List Frame} (hlen : outer.length < maxDepth) :
    State.Reads (.reading (.items before .after) outer) (Utf8.encode (l.writeItems depth js))
      (outer.length + 1 + depthItems js ≤ maxDepth)
      (.reading (.items (js.reverse ++ before) .after) outer) := by
  induction js generalizing before with
  | nil => exact (Reads.of_feedAll rfl).congr (by simp [depthItems]; omega)
  | cons j js ih =>
    have hcomma : feedAll (.reading (.items before .after) outer) (0x2C :: Utf8.encode (l.lineBreak depth)) =
        .ok (.reading (.items before .next) outer) :=
      (feedAll_cons_ok rfl _).trans (feedAll_blank rests_items (hl.lineBreak depth))
    have hj := hjs j (List.mem_cons_self ..) depth _ (.items before :: outer) hlen expects_next
    have hrest := ih (fun k hk => hjs k (List.mem_cons_of_mem _ hk)) (j :: before)
    have htext : Utf8.encode (l.writeItems depth (j :: js)) =
        (0x2C :: Utf8.encode (l.lineBreak depth)) ++
          (Utf8.encode (l.write depth j) ++ Utf8.encode (l.writeItems depth js)) := by
      rw [Layout.writeItems, Utf8.encode_append, Utf8.encode_append, List.append_assoc]
      rfl
    have hrev : (j :: js).reverse ++ before = js.reverse ++ j :: before := by simp
    have hd : depthItems (j :: js) = max j.depth (depthItems js) := rfl
    rw [htext, hrev]
    refine (Reads.after hcomma (hj.append hrest (delimited_writeItems depth js))).congr ?_
    rw [hd, List.length_cons]
    omega

theorem readable_array (hl : l.Blanks) {items : List Json} (each : ∀ j ∈ items, Readable l j) :
    Readable l (.array items) := by
  intro depth s outer hlen hs
  have hopen : s.feed 0x5B =
      if outer.length < maxDepth then .ok (.reading (.items [] .first) outer) else refuse .tooDeep :=
    hs 0x5B rfl (by decide)
  cases items with
  | nil =>
    have htext : Utf8.encode (l.write depth (.array [])) = [0x5B, 0x5D] := by
      rw [Layout.write]
      rfl
    rw [htext, Json.depth]
    refine reads_nest hopen fun hlt => ?_
    exact (Reads.of_feedAll rfl).congr (by simp [depthItems]; omega)
  | cons j js =>
    have htext : Utf8.encode (l.write depth (.array (j :: js))) =
        0x5B :: (Utf8.encode (l.lineBreak (depth + 1)) ++ (Utf8.encode (l.write (depth + 1) j) ++
          (Utf8.encode (l.writeItems (depth + 1) js) ++ (Utf8.encode (l.lineBreak depth) ++ [0x5D])))) := by
      rw [Layout.write]
      simp only [Utf8.encode_append, List.append_assoc]
      rfl
    rw [htext, Json.depth]
    refine reads_nest hopen fun hlt => ?_
    have hj := each j (List.mem_cons_self ..) (depth + 1) _ (.items [] :: outer) hlt expects_first
    have hjs := reads_writeItems hl (fun k hk => each k (List.mem_cons_of_mem _ hk)) (depth + 1) [j] hlt
    have hclose : feedAll (.reading (.items (js.reverse ++ [j]) .after) outer)
        (Utf8.encode (l.lineBreak depth) ++ [0x5D]) = .ok (deliver (.array (j :: js)) outer) := by
      rw [feedAll_append_ok (feedAll_blank rests_items (hl.lineBreak depth))]
      show Except.ok (deliver (.array (js.reverse ++ [j]).reverse) outer) = _
      simp
    have hrest := hjs.append (Reads.of_feedAll hclose) (delimited_close hl depth (by decide))
    have hdelim := (delimited_writeItems (l := l) (depth + 1) js).append
      (delimited_close (b := 0x5D) hl depth (by decide))
    have hd : depthItems (j :: js) = max j.depth (depthItems js) := rfl
    have hbreak : feedAll (.reading (.items [] .first) outer) (Utf8.encode (l.lineBreak (depth + 1))) =
        .ok (.reading (.items [] .first) outer) := feedAll_blank rests_items (hl.lineBreak (depth + 1))
    refine (Reads.after hbreak (hj.append hrest hdelim)).congr ?_
    rw [hd, and_true, List.length_cons]
    omega

/-- A field, from the quote of its name to the end of its value. -/
private theorem reads_field (hl : l.Blanks) (name : String) {j : Json} (hj : Readable l j) (depth : Nat)
    (before : Fields Json) {outer : List Frame} (hlen : outer.length < maxDepth) {s : State}
    (hs : s.feed 0x22 = .ok (.reading (.text (.name before) [] .none) outer)) :
    s.Reads (Utf8.encode (quoted name ++ l.colon ++ l.write depth j)) (outer.length + 1 + j.depth ≤ maxDepth)
      (.reading (.fields ((name, j) :: before) .after) outer) := by
  obtain ⟨cs, hcolon, hcs⟩ := hl.colon
  have hname : s.feedAll (Utf8.encode (quoted name)) = .ok (.reading (.colon before name) outer) :=
    (feedAll_cons_ok hs _).trans (feedAll_quoted (.name before) outer name)
  have hvalue : feedAll (.reading (.colon before name) outer) (Utf8.encode l.colon) =
      .ok (.reading .value (.field before name :: outer)) := by
    rw [hcolon]
    exact (feedAll_cons_ok rfl _).trans (feedAll_blank rests_value hcs)
  have hj := hj depth _ (.field before name :: outer) hlen expects_value
  rw [Utf8.encode_append, Utf8.encode_append, List.append_assoc]
  exact Reads.after hname (Reads.after hvalue hj)

/-- The fields after the first, each behind a comma. -/
private theorem reads_writeFields (hl : l.Blanks) {fs : Fields Json} (hfs : ∀ f ∈ fs, Readable l f.2)
    (depth : Nat) (before : Fields Json) {outer : List Frame} (hlen : outer.length < maxDepth) :
    State.Reads (.reading (.fields before .after) outer) (Utf8.encode (l.writeFields depth fs))
      (outer.length + 1 + depthFields fs ≤ maxDepth)
      (.reading (.fields (fs.reverse ++ before) .after) outer) := by
  induction fs generalizing before with
  | nil => exact (Reads.of_feedAll rfl).congr (by simp [depthFields]; omega)
  | cons f fs ih =>
    obtain ⟨name, j⟩ := f
    have hj : Readable l j := hfs (name, j) (List.mem_cons_self ..)
    have hcomma : feedAll (.reading (.fields before .after) outer) (0x2C :: Utf8.encode (l.lineBreak depth)) =
        .ok (.reading (.fields before .next) outer) :=
      (feedAll_cons_ok rfl _).trans (feedAll_blank rests_fields (hl.lineBreak depth))
    have hfield := reads_field hl name hj depth before hlen (s := .reading (.fields before .next) outer) rfl
    have hrest := ih (fun g hg => hfs g (List.mem_cons_of_mem _ hg)) ((name, j) :: before)
    have htext : Utf8.encode (l.writeFields depth ((name, j) :: fs)) =
        (0x2C :: Utf8.encode (l.lineBreak depth)) ++
          (Utf8.encode (quoted name ++ l.colon ++ l.write depth j) ++
            Utf8.encode (l.writeFields depth fs)) := by
      rw [Layout.writeFields]
      simp only [Utf8.encode_append, List.append_assoc]
      rfl
    have hrev : ((name, j) :: fs).reverse ++ before = fs.reverse ++ (name, j) :: before := by simp
    have hd : depthFields ((name, j) :: fs) = max j.depth (depthFields fs) := rfl
    rw [htext, hrev]
    refine (Reads.after hcomma (hfield.append hrest (delimited_writeFields depth fs))).congr ?_
    rw [hd]
    omega

theorem readable_object (hl : l.Blanks) {fields : Fields Json} (each : ∀ f ∈ fields, Readable l f.2) :
    Readable l (.object fields) := by
  intro depth s outer hlen hs
  have hopen : s.feed 0x7B =
      if outer.length < maxDepth then .ok (.reading (.fields [] .first) outer) else refuse .tooDeep :=
    hs 0x7B rfl (by decide)
  cases fields with
  | nil =>
    have htext : Utf8.encode (l.write depth (.object [])) = [0x7B, 0x7D] := by
      rw [Layout.write]
      rfl
    rw [htext, Json.depth]
    refine reads_nest hopen fun hlt => ?_
    exact (Reads.of_feedAll rfl).congr (by simp [depthFields]; omega)
  | cons f fs =>
    obtain ⟨name, j⟩ := f
    have hj : Readable l j := each (name, j) (List.mem_cons_self ..)
    have htext : Utf8.encode (l.write depth (.object ((name, j) :: fs))) =
        0x7B :: (Utf8.encode (l.lineBreak (depth + 1)) ++
          (Utf8.encode (quoted name ++ l.colon ++ l.write (depth + 1) j) ++
            (Utf8.encode (l.writeFields (depth + 1) fs) ++ (Utf8.encode (l.lineBreak depth) ++ [0x7D])))) := by
      rw [Layout.write]
      simp only [Utf8.encode_append, List.append_assoc]
      rfl
    rw [htext, Json.depth]
    refine reads_nest hopen fun hlt => ?_
    have hfield := reads_field hl name hj (depth + 1) [] hlt (s := .reading (.fields [] .first) outer) rfl
    have heach : ∀ g ∈ fs, Readable l g.2 := fun g hg => each g (List.mem_cons_of_mem _ hg)
    have hfs := reads_writeFields hl heach (depth + 1) [(name, j)] hlt
    have hclose : feedAll (.reading (.fields (fs.reverse ++ [(name, j)]) .after) outer)
        (Utf8.encode (l.lineBreak depth) ++ [0x7D]) = .ok (deliver (.object ((name, j) :: fs)) outer) := by
      rw [feedAll_append_ok (feedAll_blank rests_fields (hl.lineBreak depth))]
      show Except.ok (deliver (.object (fs.reverse ++ [(name, j)]).reverse) outer) = _
      simp
    have hrest := hfs.append (Reads.of_feedAll hclose) (delimited_close hl depth (by decide))
    have hdelim := (delimited_writeFields (l := l) (depth + 1) fs).append
      (delimited_close (b := 0x7D) hl depth (by decide))
    have hd : depthFields ((name, j) :: fs) = max j.depth (depthFields fs) := rfl
    have hbreak : feedAll (.reading (.fields [] .first) outer) (Utf8.encode (l.lineBreak (depth + 1))) =
        .ok (.reading (.fields [] .first) outer) := feedAll_blank rests_fields (hl.lineBreak (depth + 1))
    refine (Reads.after hbreak (hfield.append hrest hdelim)).congr ?_
    rw [hd, and_true]
    omega

theorem Integral.readable (hl : l.Blanks) {j : Json} (hj : j.Integral) : Readable l j := by
  induction hj with
  | null => exact readable_null
  | bool b => exact readable_bool b
  | integer low high => exact readable_integer low high
  | string s => exact readable_string s
  | array _ ih => exact readable_array hl ih
  | object _ ih => exact readable_object hl ih

/-! ### Whole texts -/

private theorem reads_write (hl : l.Blanks) {j : Json} (hj : j.Integral) :
    State.start.Reads (Bytes.ofString (l.text j)) (j.depth ≤ maxDepth) (.done j) := by
  have hr := hj.readable hl 0 .start [] (Nat.zero_le _) expects_value
  rw [Bytes.ofString, Layout.text, String.toList_ofList]
  exact hr.congr (by simp)

/-- The text of a tree is read as that tree if it is not too deep. -/
theorem Integral.read_text (hl : l.Blanks) {j : Json} (hj : j.Integral) (hd : j.depth ≤ maxDepth) :
    Json.read (.ofString (l.text j)) = .ok j :=
  read_eq_ok (reads_write hl hj) hd

theorem Integral.read_text_error (hl : l.Blanks) {j : Json} (hj : j.Integral) (hd : maxDepth < j.depth) :
    ∃ fault, Json.read (.ofString (l.text j)) = .error fault :=
  read_eq_error (reads_write hl hj) (by omega)

end Lineage.Json
