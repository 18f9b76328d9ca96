import Lineage.Json.Typed
import Lineage.Proofs.Json.Cut

/-!
# Texts that hold what is asked for

A text is read for a shape like any other as long as nothing in it is skipped (`Document.read_of_covers`).
Whether a value is skipped depends on the names before it, but that everything is asked for is known of the whole
value only; so what is asked for is followed from the last state of a reading back to the first (`Step.covers`).
-/

namespace Lineage

namespace Json

/-- A value of the shape is read with all that is in it, whatever it begins with. -/
def Shape.Ordinary : Shape → Prop
  | .nothing | .choice => False
  | .any | .list _ | .fields _ => True

/-- Everything in the value is asked for. -/
inductive Shape.Covers : Shape → Json → Prop where
  | any (j : Json) : Covers .any j
  | list {asked : Shape} {items : List Json} (each : ∀ j ∈ items, Covers asked j) :
    Covers (.list asked) (.array items)
  | fields {known : Fields Shape} {fields : Fields Json}
    (each : ∀ f ∈ fields, Covers ((known.find? f.1).getD .nothing) f.2) : Covers (.fields known) (.object fields)

variable {asked : Shape}

theorem Shape.Covers.ordinary {j : Json} (h : asked.Covers j) : asked.Ordinary := by
  cases h <;> trivial

/-! ### Open containers -/

/-- The items before an entry are asked for, in an array that is read. -/
structure Shape.CoversItems (asked : Shape) (before : List Json) : Prop where
  ordinary : asked.Ordinary
  each : ∀ j ∈ before, (asked.entry (.items before)).Covers j

/-- The fields before an entry are asked for, in an object that is read. -/
structure Shape.CoversFields (asked : Shape) (before : Fields Json) : Prop where
  ordinary : asked.Ordinary
  each : ∀ f ∈ before, (asked.entry (.field before f.1)).Covers f.2

/-- What stands before an entry in any of the containers is asked for. -/
def Shape.CoversOuter (asked : Shape) : List Frame → Prop
  | [] => True
  | .items before :: outer => (asked.within outer).CoversItems before ∧ asked.CoversOuter outer
  | .field before _ :: outer => (asked.within outer).CoversFields before ∧ asked.CoversOuter outer

/-- What was read so far is asked for, and so is the value that is being read. -/
def Shape.CoversState (asked : Shape) : Json.State → Prop
  | .done j => asked.Covers j
  | .reading place outer =>
    asked.CoversOuter outer ∧
      match place with
      | .items before _ => (asked.within outer).CoversItems before
      | .fields before _ | .colon before _ | .text (.name before) _ _ => (asked.within outer).CoversFields before
      | .value | .word _ _ | .number _ | .text .value _ _ => (asked.within outer).Ordinary

theorem Shape.Covers.coversItems {before : List Json} (h : asked.Covers (.array before.reverse)) :
    asked.CoversItems before := by
  refine ⟨h.ordinary, fun j hj => ?_⟩
  cases h with
  | any => exact .any j
  | list each => exact each j (List.mem_reverse.2 hj)

theorem Shape.Covers.coversFields {before : Fields Json} (h : asked.Covers (.object before.reverse)) :
    asked.CoversFields before := by
  refine ⟨h.ordinary, fun f hf => ?_⟩
  cases h with
  | any => exact .any f.2
  | fields each => exact each f (List.mem_reverse.2 hf)

namespace State

variable {s t : Json.State} {b : UInt8}

theorem covers_of_deliver {j : Json} {outer : List Frame} (h : asked.CoversState (deliver j outer)) :
    (asked.within outer).Covers j ∧ asked.CoversOuter outer := by
  cases outer with
  | nil => exact ⟨h, trivial⟩
  | cons frame outer =>
    cases frame with
    | items before =>
      obtain ⟨houter, hitems⟩ := h
      refine ⟨hitems.each j (List.mem_cons_self ..), ⟨hitems.ordinary, fun i hi => ?_⟩, houter⟩
      exact hitems.each i (List.mem_cons_of_mem _ hi)
    | field before name =>
      obtain ⟨houter, hfields⟩ := h
      refine ⟨hfields.each (name, j) (List.mem_cons_self ..), ⟨hfields.ordinary, fun f hf => ?_⟩, houter⟩
      exact hfields.each f (List.mem_cons_of_mem _ hf)

theorem Begins.ordinary {place : Place} {outer : List Frame} (h : Begins b place)
    (ht : asked.CoversState (.reading place outer)) : (asked.within outer).Ordinary := by
  cases h with
  | items => exact ht.2.ordinary
  | fields => exact ht.2.ordinary
  | _ => exact ht.2

/-- What is asked for after a step was asked for before it. -/
theorem Step.covers (h : Step s b t) (ht : asked.CoversState t) : asked.CoversState s := by
  induction h with
  | blank => exact ht
  | begin opens begins =>
    cases opens with
    | value outer => exact ⟨ht.1, begins.ordinary ht⟩
    | items before turn outer => exact ⟨ht.1.2, ht.1.1⟩
  | closeItems before turn outer =>
    obtain ⟨hj, houter⟩ := covers_of_deliver ht
    exact ⟨houter, hj.coversItems⟩
  | closeFields before turn outer =>
    obtain ⟨hj, houter⟩ := covers_of_deliver ht
    exact ⟨houter, hj.coversFields⟩
  | colon before name outer => exact ⟨ht.1.2, ht.1.1⟩
  | endText role content outer text =>
    cases role with
    | value =>
      obtain ⟨hj, houter⟩ := covers_of_deliver ht
      exact ⟨houter, hj.ordinary⟩
    | name before => exact ht
  | text role content content' escapes outer => cases role <;> exact ht
  | endWord b value outer =>
    obtain ⟨hj, houter⟩ := covers_of_deliver ht
    exact ⟨houter, hj.ordinary⟩
  | settle ends step ih =>
    obtain ⟨hj, houter⟩ := covers_of_deliver (ih ht)
    cases ends with
    | word => exact ⟨houter, hj.ordinary⟩
    | number => exact ⟨houter, hj.ordinary⟩
  | _ => exact ht

theorem covers_of_finish {j : Json} (h : s.finish = .ok j) (hj : asked.Covers j) : asked.CoversState s := by
  have hs := complete_of_finish h
  cases s with
  | done i =>
    obtain rfl : i = j := Except.ok.inj h
    exact hj
  | reading place outer =>
    cases place with
    | number n =>
      cases outer with
      | nil => exact ⟨trivial, hj.ordinary⟩
      | cons frame outer => cases hs
    | _ => cases hs

end State

/-! ### Reading for a shape -/

namespace Shape

theorem begin_of_ordinary (h : asked.Ordinary) (outer : List Frame) (b : UInt8) :
    State.begin asked outer b = State.ofAnswer (Json.State.begin outer b) := by
  cases asked with
  | nothing => cases h
  | choice => cases h
  | _ => rfl

theorem feed_of_covers {s t : Json.State} {b : UInt8} (hs : asked.CoversState s) (h : s.feed b = .ok t) :
    State.feed asked (.reading s) b = .ok (.reading t) := by
  have hplain : State.ofAnswer (s.feed b) = .ok (.reading t) := by rw [h]; rfl
  cases s with
  | done j => exact hplain
  | reading place outer =>
    cases place with
    | value =>
      have hb : Json.State.feed (.reading .value outer) b =
          if isSpace b then .ok (.reading .value outer) else Json.State.begin outer b := rfl
      rw [State.feed, begin_of_ordinary hs.2]
      rw [hb] at h hplain
      split
      · rw [if_pos ‹_›] at h
        cases h
        rfl
      · rw [if_neg ‹_›] at hplain
        exact hplain
    | _ => exact hplain

/-- A reading that is asked for all that it reads goes like one without a shape. -/
theorem foldl_feed_of_covers {bytes : Bytes} {s t : Json.State} (h : s.feedAll bytes = .ok t)
    (ht : asked.CoversState t) :
    bytes.foldl (Reader.feed asked) (.going (.reading s)) = .going (.reading t) := by
  induction bytes using List.reverseRecOn generalizing t with
  | nil =>
    obtain rfl : s = t := Except.ok.inj h
    rfl
  | append_singleton bytes b ih =>
    obtain ⟨u, hu, hb⟩ := State.feedAll_append_eq_ok_iff.1 h
    rw [State.feedAll_singleton] at hb
    have hcovers := (State.step_of_feed hb).covers ht
    rw [List.foldl_append, ih hu hcovers]
    simp only [List.foldl_cons, List.foldl_nil, Reader.feed, feed_of_covers hcovers hb]

end Shape

end Json

open Json (Shape)

variable {asked : Shape} {text : Bytes} {j : Json}

/-- A text is read for a shape that asks for all of its value as it is read without one. -/
theorem Document.read_of_covers (h : Json.read text = .ok j) (hj : asked.Covers j) :
    Document.read asked text = (.ofJson j, none) := by
  obtain ⟨s, hs, hfinish⟩ := Json.read_eq_ok_iff.1 h
  rw [Document.read, Shape.State.start, Shape.foldl_feed_of_covers hs (Json.State.covers_of_finish hfinish hj)]
  simp only [Shape.Reader.finish, Shape.State.finish, hfinish]

theorem Typed.ofText_of_covers {α : Type} {read : Source → Document → Typed α} {a : α}
    (h : Json.read text = .ok j) (hj : asked.Covers j) (ha : read .text (.ofJson j) = .ok a) :
    Typed.ofText asked read text = .ok a := by
  rw [Typed.ofText, Document.read_of_covers h hj]
  simp only [ha]
  rfl

end Lineage
