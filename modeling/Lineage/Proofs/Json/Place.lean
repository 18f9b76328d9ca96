import Lineage.Json.Writer
import Lineage.Proofs.Json.Feed

/-!
# Between the parts of a text

What a layout puts between the parts of a text is blank, and a state that waits for the next part stays as it is
at a blank.  There are three places where a value may stand: in a text of its own or behind a colon, first in an
array, and behind a comma of an array.
-/

namespace Lineage.Json

/-! ### Blanks -/

/-- Nothing but spaces and line breaks. -/
def Blank (cs : List Char) : Prop :=
  ∀ c ∈ cs, c = ' ' ∨ c = '\n'

/-- The layout adds nothing but blanks to a text. -/
structure Layout.Blanks (l : Layout) : Prop where
  lineBreak : ∀ depth, Blank (l.lineBreak depth)
  colon : ∃ cs, l.colon = ':' :: cs ∧ Blank cs

theorem Layout.blanks_compact : compact.Blanks where
  lineBreak _ := List.forall_mem_nil _
  colon := ⟨[], rfl, List.forall_mem_nil _⟩

theorem Layout.blanks_pretty : pretty.Blanks where
  lineBreak depth c hc := by
    rcases List.mem_cons.1 hc with rfl | hc
    · exact .inr rfl
    · exact .inl (List.mem_replicate.1 hc).2
  colon := ⟨[' '], rfl, fun c hc => .inl (List.mem_singleton.1 hc)⟩

namespace State

/-- The state waits for the next part of the text, and stays as it is at a space. -/
def Rests (s : State) : Prop :=
  ∀ b, isSpace b = true → s.feed b = .ok s

theorem feedAll_blank {s : State} (hs : s.Rests) {cs : List Char} (hcs : Blank cs) :
    s.feedAll (Utf8.encode cs) = .ok s := by
  induction cs with
  | nil => rfl
  | cons c cs ih =>
    have ih := ih fun c' hc' => hcs c' (List.mem_cons_of_mem _ hc')
    rcases hcs c (List.mem_cons_self ..) with rfl | rfl
    · exact (feedAll_cons_ok (hs 0x20 rfl) _).trans ih
    · exact (feedAll_cons_ok (hs 0x0A rfl) _).trans ih

theorem Delimited.append {as bs : Bytes} (ha : Delimited as) (hb : Delimited bs) : Delimited (as ++ bs) := by
  cases as with
  | nil => exact hb
  | cons a as => exact ha

theorem delimited_cons {b : UInt8} (hb : EndsNumber b) (bs : Bytes) : Delimited (b :: bs) := by
  intro b' hb'
  obtain rfl := Option.some.inj hb'
  exact hb

theorem delimited_blank {cs : List Char} (hcs : Blank cs) : Delimited (Utf8.encode cs) := by
  cases cs with
  | nil => intro b hb; cases hb
  | cons c cs =>
    rcases hcs c (List.mem_cons_self ..) with rfl | rfl
    · exact delimited_cons (by decide) _
    · exact delimited_cons (by decide) _

variable {outer : List Frame}

theorem rests_value : Rests (.reading .value outer) :=
  fun b hb => by simp [feed, structural, hb]

theorem rests_items {before : List Json} {turn : Turn} : Rests (.reading (.items before turn) outer) :=
  fun b hb => by simp [feed, structural, hb]

theorem rests_fields {before : Fields Json} {turn : Turn} : Rests (.reading (.fields before turn) outer) :=
  fun b hb => by simp [feed, structural, hb]

/-! ### Places for a value -/

/-- The state takes the first byte of a value for the beginning of one inside the given containers. -/
def Expects (s : State) (outer : List Frame) : Prop :=
  ∀ b, isSpace b = false → b ≠ 0x5D → s.feed b = begin outer b

theorem expects_value : Expects (.reading .value outer) outer :=
  fun b hb _ => by simp [feed, structural, hb]

theorem expects_first {before : List Json} :
    Expects (.reading (.items before .first) outer) (.items before :: outer) :=
  fun b hb hne => by simp [feed, structural, hb, itemsByte, hne]

theorem expects_next {before : List Json} :
    Expects (.reading (.items before .next) outer) (.items before :: outer) :=
  fun b hb hne => by simp [feed, structural, hb, itemsByte, hne]

end State

end Lineage.Json
