import Lineage.Proofs.Answer
import Lineage.Proofs.Json.Text
import Mathlib.Data.List.Induction

/-!
# What a byte can do

`State.Step` lists what the reader may do with a byte that it does not refuse, with as much of the byte and of
the states around it as matters to what is proved of whole runs; `State.step_of_feed` says that the list is
complete.  What every step keeps is then proved by cases on the list, without a look at the reader, and holds of
every run (`State.feedAll_induction`).
-/

namespace Lineage.Json

/-- The byte neither begins nor ends a container or a string. -/
def Neutral (b : UInt8) : Prop :=
  b ≠ 0x22 ∧ b ≠ 0x5B ∧ b ≠ 0x5D ∧ b ≠ 0x7B ∧ b ≠ 0x7D

instance (b : UInt8) : Decidable (Neutral b) :=
  inferInstanceAs (Decidable (_ ∧ _ ∧ _ ∧ _ ∧ _))

theorem neutral_of_isSpace {b : UInt8} (hb : isSpace b = true) : Neutral b := by
  have hspace : b = 0x20 ∨ b = 0x0A ∨ b = 0x09 ∨ b = 0x0D := by simpa [isSpace, or_assoc] using hb
  rcases hspace with rfl | rfl | rfl | rfl <;> decide

theorem Numeral.Part.neutral_of_next {p q : Part} {b : UInt8} (h : p.next b = .part q) : Neutral b := by
  refine ⟨?_, ?_, ?_, ?_, ?_⟩
  all_goals
    rintro rfl
    cases p <;> cases h

theorem Numeral.take_ne_ended (n : Numeral) (b : UInt8) : n.take b ≠ .ended := by
  cases hp : n.part with
  | power =>
    simp only [take, hp]
    cases n.powerDigit? (digit b) <;> exact Step.noConfusion
  | _ => simp [take, hp]

namespace State

/-! ### Strings -/

/-- What a byte may do to the escape that is being read in a string. -/
inductive EscapeStep : Escape → UInt8 → Escape → Prop where
  | plain {b : UInt8} (quote : b ≠ 0x22) (slash : b ≠ 0x5C) : EscapeStep .none b .none
  | slash : EscapeStep .none 0x5C .slash
  | letter (b : UInt8) : EscapeStep .slash b .none
  | hex : EscapeStep .slash 0x75 (.hex none [])
  | digit (high : Option Nat) (read : Bytes) (b : UInt8) : EscapeStep (.hex high read) b (.hex high (b :: read))
  | digits {high : Option Nat} {read : Bytes} {b : UInt8} {next : Escape}
    (each : ∀ d ∈ b :: read, hexValue? d ≠ none) (outcome : next = .none ∨ ∃ half, next = .low half false) :
    EscapeStep (.hex high read) b next
  | lowSlash (half : Nat) : EscapeStep (.low half false) 0x5C (.low half true)
  | lowHex (half : Nat) : EscapeStep (.low half true) 0x75 (.hex (some half) [])

/-! ### Values -/

/-- What the first byte of a value leads to. -/
inductive Begins : UInt8 → Place → Prop where
  | text : Begins 0x22 (.text .value [] .none)
  | items : Begins 0x5B (.items [] .first)
  | fields : Begins 0x7B (.fields [] .first)
  | null : Begins 0x6E (.word [0x75, 0x6C, 0x6C] .null)
  | true : Begins 0x74 (.word [0x72, 0x75, 0x65] (.bool true))
  | false : Begins 0x66 (.word [0x61, 0x6C, 0x73, 0x65] (.bool false))
  | number {b : UInt8} (n : Numeral) (hb : Neutral b) : Begins b (.number n)

/-- In the state a value may begin, inside the given containers. -/
inductive Opens : State → List Frame → Prop where
  | value (outer : List Frame) : Opens (.reading .value outer) outer
  | items (before : List Json) (turn : Turn) (outer : List Frame) :
    Opens (.reading (.items before turn) outer) (.items before :: outer)

/-- The state stands between the parts of a text. -/
inductive Waits : State → Prop where
  | done (j : Json) : Waits (.done j)
  | value (outer : List Frame) : Waits (.reading .value outer)
  | items (before : List Json) (turn : Turn) (outer : List Frame) : Waits (.reading (.items before turn) outer)
  | fields (before : Fields Json) (turn : Turn) (outer : List Frame) :
    Waits (.reading (.fields before turn) outer)
  | colon (before : Fields Json) (name : String) (outer : List Frame) :
    Waits (.reading (.colon before name) outer)

/-- A value is complete although the state still stands inside it. -/
inductive Ends : State → Json → List Frame → Prop where
  | word (j : Json) (outer : List Frame) : Ends (.reading (.word [] j) outer) j outer
  | number {n : Numeral} {j : Json} (value : n.value = .ok j) (outer : List Frame) :
    Ends (.reading (.number n) outer) j outer

theorem waits_deliver (j : Json) (outer : List Frame) : Waits (deliver j outer) := by
  cases outer with
  | nil => exact .done j
  | cons frame outer => cases frame <;> constructor

/-- What a byte may do to a state. -/
inductive Step : State → UInt8 → State → Prop where
  | blank {s : State} {b : UInt8} (waits : Waits s) (space : isSpace b = true) : Step s b s
  | begin {s : State} {outer : List Frame} {b : UInt8} {place : Place} (opens : Opens s outer)
    (begins : Begins b place) : Step s b (.reading place outer)
  | nextItem (before : List Json) (outer : List Frame) :
    Step (.reading (.items before .after) outer) 0x2C (.reading (.items before .next) outer)
  | nextField (before : Fields Json) (outer : List Frame) :
    Step (.reading (.fields before .after) outer) 0x2C (.reading (.fields before .next) outer)
  | closeItems (before : List Json) (turn : Turn) (outer : List Frame) :
    Step (.reading (.items before turn) outer) 0x5D (deliver (.array before.reverse) outer)
  | closeFields (before : Fields Json) (turn : Turn) (outer : List Frame) :
    Step (.reading (.fields before turn) outer) 0x7D (deliver (.object before.reverse) outer)
  | name (before : Fields Json) (turn : Turn) (outer : List Frame) :
    Step (.reading (.fields before turn) outer) 0x22 (.reading (.text (.name before) [] .none) outer)
  | colon (before : Fields Json) (name : String) (outer : List Frame) :
    Step (.reading (.colon before name) outer) 0x3A (.reading .value (.field before name :: outer))
  | text (role : Role) (content content' : Bytes) {escape escape' : Escape} {b : UInt8}
    (escapes : EscapeStep escape b escape') (outer : List Frame) :
    Step (.reading (.text role content escape) outer) b (.reading (.text role content' escape') outer)
  | endText (role : Role) (content : Bytes) (outer : List Frame) (s : String) :
    Step (.reading (.text role content .none) outer) 0x22 (afterText role outer s)
  | word (b : UInt8) (left : Bytes) (value : Json) (outer : List Frame) :
    Step (.reading (.word (b :: left) value) outer) b (.reading (.word left value) outer)
  | endWord (b : UInt8) (value : Json) (outer : List Frame) :
    Step (.reading (.word [b] value) outer) b (deliver value outer)
  | number {b : UInt8} (n n' : Numeral) (hb : Neutral b) (outer : List Frame) :
    Step (.reading (.number n) outer) b (.reading (.number n') outer)
  | settle {s t : State} {b : UInt8} {j : Json} {outer : List Frame} (ends : Ends s j outer)
    (step : Step (deliver j outer) b t) : Step s b t

/-! ### The list is complete -/

variable {s t : State} {b : UInt8} {outer : List Frame}

theorem begins_of_begin (h : begin outer b = .ok t) : ∃ place, Begins b place ∧ t = .reading place outer := by
  unfold begin at h
  simp only at h
  split at h
  · subst b; cases h; exact ⟨_, .text, rfl⟩
  split at h
  · subst b
    split at h
    · cases h; exact ⟨_, .items, rfl⟩
    · cases h
  split at h
  · subst b
    split at h
    · cases h; exact ⟨_, .fields, rfl⟩
    · cases h
  split at h
  · subst b; cases h; exact ⟨_, .null, rfl⟩
  split at h
  · subst b; cases h; exact ⟨_, .true, rfl⟩
  split at h
  · subst b; cases h; exact ⟨_, .false, rfl⟩
  split at h
  · subst b; cases h; exact ⟨_, .number _ (by decide), rfl⟩
  split at h
  · rename_i hdigit
    cases h
    have hnext : Numeral.Part.minus.next b = .part (Numeral.Part.first b) := by
      simp [Numeral.Part.next, hdigit]
    exact ⟨_, .number _ (Numeral.Part.neutral_of_next hnext), rfl⟩
  · cases h

private theorem step_of_begin (ho : Opens s outer) (h : begin outer b = .ok t) : Step s b t := by
  obtain ⟨place, hb, rfl⟩ := begins_of_begin h
  exact .begin ho hb

private theorem step_of_itemsByte {before : List Json} {turn : Turn} (h : itemsByte before turn outer b = .ok t) :
    Step (.reading (.items before turn) outer) b t := by
  unfold itemsByte at h
  cases turn with
  | first =>
    simp only at h
    split at h
    · subst b; cases h; exact .closeItems before .first outer
    · exact step_of_begin (.items before .first outer) h
  | next =>
    simp only at h
    split at h
    · cases h
    · exact step_of_begin (.items before .next outer) h
  | after =>
    simp only at h
    split at h
    · subst b; cases h; exact .nextItem before outer
    split at h
    · subst b; cases h; exact .closeItems before .after outer
    · cases h

private theorem step_of_beginName {before : Fields Json} {turn : Turn} (h : beginName before outer b = .ok t) :
    Step (.reading (.fields before turn) outer) b t := by
  unfold beginName at h
  split at h
  · subst b; cases h; exact .name before turn outer
  · cases h

private theorem step_of_fieldsByte {before : Fields Json} {turn : Turn}
    (h : fieldsByte before turn outer b = .ok t) : Step (.reading (.fields before turn) outer) b t := by
  unfold fieldsByte at h
  cases turn with
  | first =>
    simp only at h
    split at h
    · subst b; cases h; exact .closeFields before .first outer
    · exact step_of_beginName h
  | next =>
    simp only at h
    split at h
    · cases h
    · exact step_of_beginName h
  | after =>
    simp only at h
    split at h
    · subst b; cases h; exact .nextField before outer
    split at h
    · subst b; cases h; exact .closeFields before .after outer
    · cases h

private theorem step_of_structural (hw : Waits s) (h : structural s b = .ok t) : Step s b t := by
  unfold structural at h
  split at h
  · cases h; exact .blank hw ‹_›
  · cases hw with
    | done j => cases h
    | value outer => exact step_of_begin (.value outer) h
    | items before turn outer => exact step_of_itemsByte h
    | fields before turn outer => exact step_of_fieldsByte h
    | colon before name outer =>
      simp only at h
      split at h
      · subst b; cases h; exact .colon before name outer
      · cases h

theorem hexValue?_of_hexNumber? {digits : Bytes} {n : Nat} (h : hexNumber? digits = some n) :
    ∀ d ∈ digits, hexValue? d ≠ none := by
  unfold hexNumber? at h
  generalize 0 = start at h
  induction digits generalizing start with
  | nil => simp
  | cons d digits ih =>
    rw [List.foldlM_cons] at h
    obtain ⟨m, hm, hrest⟩ := Option.bind_eq_some_iff.1 h
    intro d' hd'
    rcases List.mem_cons.1 hd' with rfl | hd'
    · intro hnone
      simp [hnone] at hm
    · exact ih m hrest d' hd'

private theorem step_of_hexEscape {role : Role} {content : Bytes} {high : Option Nat} {read : Bytes}
    (h : hexEscape role content outer high (b :: read).reverse = .ok t) :
    Step (.reading (.text role content (.hex high read)) outer) b t := by
  unfold hexEscape at h
  simp only at h
  cases hn : hexNumber? (b :: read).reverse with
  | none =>
    rw [hn] at h
    cases h
  | some n =>
    have each : ∀ d ∈ b :: read, hexValue? d ≠ none :=
      fun d hd => hexValue?_of_hexNumber? hn d (List.mem_reverse.2 hd)
    rw [hn] at h
    cases high with
    | some half =>
      simp only at h
      split at h
      · cases h; exact .text role content _ (.digits each (.inl rfl)) outer
      · cases h
    | none =>
      simp only at h
      split at h
      · cases h
      split at h
      · cases h; exact .text role content _ (.digits each (.inr ⟨n, rfl⟩)) outer
      · cases h; exact .text role content _ (.digits each (.inl rfl)) outer

private theorem step_of_closeText {role : Role} {content : Bytes} (h : closeText role content outer = .ok t) :
    Step (.reading (.text role content .none) outer) 0x22 t := by
  unfold closeText at h
  simp only at h
  split at h
  · cases h
  · rename_i cs _
    have ht : t = afterText role outer (String.ofList cs) := by
      cases role <;> cases h <;> rfl
    subst ht
    exact .endText role content outer (String.ofList cs)

private theorem step_of_textByte {role : Role} {content : Bytes} {escape : Escape}
    (h : textByte role content escape outer b = .ok t) :
    Step (.reading (.text role content escape) outer) b t := by
  cases escape with
  | none =>
    simp only [textByte] at h
    split at h
    · subst b; exact step_of_closeText h
    split at h
    · subst b; cases h; exact .text role content _ .slash outer
    split at h
    · cases h
    · cases h; exact .text role content _ (.plain ‹_› ‹_›) outer
  | slash =>
    simp only [textByte] at h
    split at h
    · subst b; cases h; exact .text role content _ .hex outer
    split at h
    · cases h; exact .text role content _ (.letter b) outer
    · cases h
  | hex high read =>
    simp only [textByte] at h
    split at h
    · cases h; exact .text role content _ (.digit high read b) outer
    · exact step_of_hexEscape h
  | low half slash =>
    cases slash with
    | false =>
      simp only [textByte] at h
      split at h
      · subst b; cases h; exact .text role content _ (.lowSlash half) outer
      · cases h
    | true =>
      simp only [textByte] at h
      split at h
      · subst b; cases h; exact .text role content _ (.lowHex half) outer
      · cases h

private theorem step_of_word {left : Bytes} {value : Json}
    (h : feed (.reading (.word left value) outer) b = .ok t) : Step (.reading (.word left value) outer) b t := by
  cases left with
  | nil => exact .settle (.word value outer) (step_of_structural (waits_deliver value outer) h)
  | cons l left =>
    cases left with
    | nil =>
      simp only [feed] at h
      split at h
      · subst b; cases h; exact .endWord l value outer
      · cases h
    | cons l' left =>
      simp only [feed] at h
      split at h
      · subst b; cases h; exact .word l (l' :: left) value outer
      · cases h

private theorem step_of_number {n : Numeral} (h : feed (.reading (.number n) outer) b = .ok t) :
    Step (.reading (.number n) outer) b t := by
  simp only [feed] at h
  cases hn : n.part.next b with
  | part p =>
    rw [Numeral.feed, hn] at h
    simp only at h
    split at h
    · cases h; exact .number n _ (Numeral.Part.neutral_of_next hn) outer
    · cases h
    · exact absurd ‹_› (Numeral.take_ne_ended _ b)
  | ended =>
    rw [Numeral.feed, hn] at h
    simp only at h
    cases hv : n.value with
    | error cause => simp [hv] at h
    | ok j =>
      rw [hv] at h
      exact .settle (.number hv outer) (step_of_structural (waits_deliver j outer) h)
  | broken =>
    rw [Numeral.feed, hn] at h
    cases h

/-- A byte that is not refused does something that is listed. -/
theorem step_of_feed (h : s.feed b = .ok t) : Step s b t := by
  cases s with
  | done j => exact step_of_structural (.done j) h
  | reading place outer =>
    cases place with
    | value => exact step_of_structural (.value outer) h
    | items before turn => exact step_of_structural (.items before turn outer) h
    | fields before turn => exact step_of_structural (.fields before turn outer) h
    | colon before name => exact step_of_structural (.colon before name outer) h
    | word left value => exact step_of_word h
    | number n => exact step_of_number h
    | text role content escape => exact step_of_textByte h

/-! ### Runs -/

theorem feedAll_append_eq_ok_iff {as bs : Bytes} :
    s.feedAll (as ++ bs) = .ok t ↔ ∃ u, s.feedAll as = .ok u ∧ u.feedAll bs = .ok t := by
  rw [feedAll_append, bind_eq_ok_iff]

theorem feedAll_singleton (s : State) (b : UInt8) : s.feedAll [b] = s.feed b := by
  unfold feedAll
  rw [List.foldlM_cons]
  cases s.feed b <;> rfl

/-- What holds of the first state of a run and is kept by every step holds of the last one. -/
theorem feedAll_induction {bytes : Bytes} {P : Bytes → State → Prop} (h : s.feedAll bytes = .ok t)
    (start : P [] s) (step : ∀ read u b v, P read u → Step u b v → P (read ++ [b]) v) : P bytes t := by
  induction bytes using List.reverseRecOn generalizing t with
  | nil =>
    obtain rfl : s = t := Except.ok.inj h
    exact start
  | append_singleton bytes b ih =>
    obtain ⟨u, hu, hb⟩ := feedAll_append_eq_ok_iff.1 h
    rw [feedAll_singleton] at hb
    exact step bytes u b t (ih hu) (step_of_feed hb)

end State

/-- A text has a value when the reader takes all its bytes and may stop there. -/
theorem read_eq_ok_iff {text : Bytes} {j : Json} :
    read text = .ok j ↔ ∃ s, State.start.feedAll text = .ok s ∧ s.finish = .ok j := by
  cases h : State.start.feedAll text with
  | ok s =>
    obtain ⟨reached, hr⟩ := Reader.foldl_feed_ok h .start
    simp only [read, Reader.start, hr, Reader.finish, mapError_eq_ok_iff, Except.ok.injEq, exists_eq_left']
  | error why =>
    obtain ⟨fault, hf⟩ := Reader.foldl_feed_error h .start
    simp [read, Reader.start, hf, Reader.finish]

end Lineage.Json
