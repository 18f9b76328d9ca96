import Lineage.Proofs.Json.Cut

/-!
# Brackets and quotes

`Nesting` goes through a text and knows nothing but how many containers are open and whether it stands in a
string.  The reader agrees with it wherever it gets (`State.nesting_of_feedAll`), so a text that has a value
closes all that it opens.
-/

namespace Lineage.Json

/-- Where a byte stands with regard to strings. -/
inductive Quoting where
  | outside
  | inside
  /-- Inside, behind a backslash. -/
  | escaped
  deriving DecidableEq

/-- The number of containers that are open at a place, and where it stands with regard to strings. -/
structure Nesting where
  depth : Nat
  quoting : Quoting
  deriving DecidableEq

namespace Nesting

def feed (n : Nesting) (b : UInt8) : Nesting :=
  match n.quoting with
  | .outside =>
    if b = 0x22 then ⟨n.depth, .inside⟩
    else if b = 0x5B ∨ b = 0x7B then ⟨n.depth + 1, .outside⟩
    else if b = 0x5D ∨ b = 0x7D then ⟨n.depth - 1, .outside⟩
    else n
  | .inside => if b = 0x22 then ⟨n.depth, .outside⟩ else if b = 0x5C then ⟨n.depth, .escaped⟩ else n
  | .escaped => ⟨n.depth, .inside⟩

def feedAll (n : Nesting) (bytes : Bytes) : Nesting :=
  bytes.foldl feed n

theorem feedAll_append (n : Nesting) (as bs : Bytes) : n.feedAll (as ++ bs) = (n.feedAll as).feedAll bs :=
  List.foldl_append

theorem feedAll_concat (n : Nesting) (as : Bytes) (b : UInt8) : n.feedAll (as ++ [b]) = (n.feedAll as).feed b :=
  feedAll_append n as [b]

theorem feed_neutral {b : UInt8} (hb : Neutral b) (depth : Nat) : feed ⟨depth, .outside⟩ b = ⟨depth, .outside⟩ := by
  obtain ⟨h1, h2, h3, h4, h5⟩ := hb
  simp [feed, h1, h2, h3, h4, h5]

theorem feed_inside {b : UInt8} (quote : b ≠ 0x22) (slash : b ≠ 0x5C) (depth : Nat) :
    feed ⟨depth, .inside⟩ b = ⟨depth, .inside⟩ := by
  simp [feed, quote, slash]

end Nesting

open Nesting (feed_neutral feed_inside)

/-! ### The reader -/

/-- The containers that a place belongs to, of those that the frames do not count. -/
def Place.depth : Place → Nat
  | .items _ _ | .fields _ _ | .colon _ _ | .text (.name _) _ _ => 1
  | .value | .word _ _ | .number _ | .text .value _ _ => 0

/-- The digits of an escape are followed one by one, since the reader takes them without a look. -/
def Escape.nesting (depth : Nat) : Escape → Nesting
  | .none | .low _ false => ⟨depth, .inside⟩
  | .slash | .low _ true => ⟨depth, .escaped⟩
  | .hex _ read => Nesting.feedAll ⟨depth, .inside⟩ read.reverse

namespace State

def nesting : State → Nesting
  | .done _ => ⟨0, .outside⟩
  | .reading place outer =>
    match place with
    | .text _ _ escape => escape.nesting (outer.length + place.depth)
    | _ => ⟨outer.length + place.depth, .outside⟩

variable {s t : State} {b : UInt8} {outer : List Frame}

theorem nesting_deliver (j : Json) (outer : List Frame) : (deliver j outer).nesting = ⟨outer.length, .outside⟩ := by
  cases outer with
  | nil => rfl
  | cons frame outer => cases frame <;> rfl

theorem Opens.nesting (h : Opens s outer) : s.nesting = ⟨outer.length, .outside⟩ := by
  cases h <;> rfl

theorem Ends.nesting {j : Json} (h : Ends s j outer) : s.nesting = ⟨outer.length, .outside⟩ := by
  cases h <;> rfl

theorem Waits.nesting (h : Waits s) : ∃ depth, s.nesting = ⟨depth, .outside⟩ := by
  cases h <;> exact ⟨_, rfl⟩

theorem Begins.nesting {place : Place} (h : Begins b place) (outer : List Frame) :
    (State.reading place outer).nesting = Nesting.feed ⟨outer.length, .outside⟩ b := by
  cases h with
  | number n hb => exact (feed_neutral hb outer.length).symm
  | _ => rfl

/-- A hexadecimal digit is no quote and no backslash. -/
private theorem feed_hexDigit {d : UInt8} (hd : hexValue? d ≠ none) (depth : Nat) :
    Nesting.feed ⟨depth, .inside⟩ d = ⟨depth, .inside⟩ := by
  apply feed_inside
  · rintro rfl
    exact hd (by decide)
  · rintro rfl
    exact hd (by decide)

theorem EscapeStep.nesting {escape escape' : Escape} (h : EscapeStep escape b escape') (depth : Nat) :
    escape'.nesting depth = (escape.nesting depth).feed b := by
  cases h with
  | plain quote slash => exact (feed_inside quote slash depth).symm
  | digit high read =>
    show Nesting.feedAll _ (b :: read).reverse = Nesting.feed (Nesting.feedAll _ read.reverse) b
    rw [List.reverse_cons, Nesting.feedAll_concat]
  | @digits high read b escape' each outcome =>
    have hstay : ∀ digits : Bytes, (∀ d ∈ digits, hexValue? d ≠ none) →
        Nesting.feedAll ⟨depth, .inside⟩ digits = ⟨depth, .inside⟩ := by
      intro digits hdigits
      induction digits with
      | nil => rfl
      | cons d digits ih =>
        show Nesting.feedAll (Nesting.feed _ d) digits = _
        rw [feed_hexDigit (hdigits d (List.mem_cons_self ..)), ih fun c hc => hdigits c (List.mem_cons_of_mem _ hc)]
    have hleft : Nesting.feedAll ⟨depth, .inside⟩ read.reverse = ⟨depth, .inside⟩ :=
      hstay _ fun d hd => each d (List.mem_cons_of_mem _ (List.mem_reverse.1 hd))
    show _ = Nesting.feed (Nesting.feedAll _ read.reverse) b
    rw [hleft, feed_hexDigit (each b (List.mem_cons_self ..))]
    rcases outcome with rfl | ⟨half, rfl⟩
    · rfl
    · rfl
  | _ => rfl

theorem Step.nesting (h : Step s b t) (hs : s.Spelled) : t.nesting = s.nesting.feed b := by
  induction h with
  | blank waits space =>
    obtain ⟨depth, hdepth⟩ := waits.nesting
    rw [hdepth, feed_neutral (neutral_of_isSpace space)]
  | begin opens begins => rw [opens.nesting, begins.nesting]
  | closeItems before turn outer => exact nesting_deliver _ outer
  | closeFields before turn outer => exact nesting_deliver _ outer
  | text role content content' escapes outer => cases role <;> exact escapes.nesting _
  | endText role content outer s =>
    cases role with
    | value => exact nesting_deliver _ outer
    | name before => rfl
  | word b left value outer => exact (feed_neutral (hs.2 b (List.mem_cons_self ..)) _).symm
  | endWord b value outer =>
    rw [nesting_deliver]
    exact (feed_neutral (hs.2 b (List.mem_cons_self ..)) _).symm
  | number n n' hb outer => exact (feed_neutral hb _).symm
  | @settle s t b j outer ends step ih => rw [ih (spelled_deliver j outer), nesting_deliver, ends.nesting]
  | _ => rfl

/-- The nesting of a state is that of the bytes that led to it. -/
theorem nesting_of_feedAll {bytes : Bytes} (h : s.feedAll bytes = .ok t) (hs : s.Spelled) :
    t.nesting = s.nesting.feedAll bytes := by
  have hrun : t.Spelled ∧ t.nesting = s.nesting.feedAll bytes := by
    refine feedAll_induction (P := fun read u => u.Spelled ∧ u.nesting = s.nesting.feedAll read) h ⟨hs, rfl⟩ ?_
    rintro read u b v ⟨hu, hn⟩ hstep
    refine ⟨hstep.spelled hu, ?_⟩
    rw [hstep.nesting hu, hn, Nesting.feedAll_concat]
  exact hrun.2

theorem Complete.nesting (h : s.Complete) : s.nesting = ⟨0, .outside⟩ := by
  cases s with
  | done j => rfl
  | reading place outer =>
    cases place with
    | number n =>
      cases outer with
      | nil => rfl
      | cons frame outer => cases h
    | _ => cases h

end State

/-- A text that has a value closes all that it opens. -/
theorem nesting_of_read {text : Bytes} {j : Json} (h : read text = .ok j) :
    Nesting.feedAll ⟨0, .outside⟩ text = ⟨0, .outside⟩ := by
  obtain ⟨s, hs, hfinish⟩ := read_eq_ok_iff.1 h
  have hn := State.nesting_of_feedAll hs trivial
  rw [(State.complete_of_finish hfinish).nesting] at hn
  exact hn.symm

end Lineage.Json
