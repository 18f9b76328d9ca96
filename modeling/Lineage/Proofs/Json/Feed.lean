import Lineage.Json.Reader

/-!
# Feeding several bytes

`State.feedAll` is what a sequence of bytes does to a state.  A number only ends with the byte after it, so a
state in which it has been read to its end is not the state after its value; but the two `Settles` alike under
every byte that can follow a value.  `State.Reads` is what is proved of the text of a value: it leads to the
state after the value, up to settling, if a condition holds, and otherwise it is refused.
-/

namespace Lineage.Json

namespace State

def feedAll (s : State) (bytes : Bytes) : Except Refusal State :=
  bytes.foldlM feed s

theorem feedAll_append (s : State) (as bs : Bytes) :
    s.feedAll (as ++ bs) = (s.feedAll as >>= fun t => t.feedAll bs) := by
  unfold feedAll
  rw [List.foldlM_append]

theorem feedAll_cons_ok {s t : State} {b : UInt8} (h : s.feed b = .ok t) (bs : Bytes) :
    s.feedAll (b :: bs) = t.feedAll bs := by
  unfold feedAll
  rw [List.foldlM_cons, h]
  rfl

theorem feedAll_append_ok {s t : State} {as : Bytes} (h : s.feedAll as = .ok t) (bs : Bytes) :
    s.feedAll (as ++ bs) = t.feedAll bs := by
  rw [feedAll_append, h]
  rfl

theorem feedAll_append_error {s : State} {as : Bytes} {why : Refusal} (h : s.feedAll as = .error why)
    (bs : Bytes) : s.feedAll (as ++ bs) = .error why := by
  rw [feedAll_append, h]
  rfl

/-! ### Settling -/

/-- The byte is no part of a number that could end before it. -/
def EndsNumber (b : UInt8) : Prop :=
  Numeral.Part.isDigit b = false ∧ Numeral.Part.isMark b = false ∧ b ≠ 0x2E

instance (b : UInt8) : Decidable (EndsNumber b) :=
  inferInstanceAs (Decidable (_ ∧ _ ∧ _))

/-- The first byte, if there is one, ends a number. -/
def Delimited (bytes : Bytes) : Prop :=
  ∀ b ∈ bytes.head?, EndsNumber b

/-- Both states do the same when a value is over. -/
structure Settles (s t : State) : Prop where
  feed : ∀ b, EndsNumber b → s.feed b = t.feed b
  finish : s.finish = t.finish

theorem Settles.refl (s : State) : s.Settles s :=
  ⟨fun _ _ => rfl, rfl⟩

theorem Settles.trans {s t u : State} (h : s.Settles t) (h' : t.Settles u) : s.Settles u :=
  ⟨fun b hb => (h.feed b hb).trans (h'.feed b hb), h.finish.trans h'.finish⟩

theorem Settles.feedAll {s t : State} (h : s.Settles t) {b : UInt8} (hb : EndsNumber b) (bs : Bytes) :
    s.feedAll (b :: bs) = t.feedAll (b :: bs) := by
  unfold State.feedAll
  rw [List.foldlM_cons, List.foldlM_cons, h.feed b hb]

/-! ### Reading a text under a condition -/

/-- If the condition holds, the bytes lead to a state that settles as the second one does; else one of them is
refused. -/
structure Reads (s : State) (bytes : Bytes) (condition : Prop) (t : State) : Prop where
  accepted : condition → ∃ s', s.feedAll bytes = .ok s' ∧ s'.Settles t
  refused : ¬condition → ∃ why, s.feedAll bytes = .error why

namespace Reads

variable {s t u : State} {as bs : Bytes} {p q : Prop}

theorem of_feedAll (h : s.feedAll as = .ok t) : s.Reads as True t :=
  ⟨fun _ => ⟨t, h, .refl t⟩, fun hn => absurd trivial hn⟩

theorem congr (h : s.Reads as p t) (hpq : p ↔ q) : s.Reads as q t :=
  ⟨fun hq => h.accepted (hpq.2 hq), fun hn => h.refused fun hp => hn (hpq.1 hp)⟩

/-- Bytes that are read for certain, and others after them. -/
theorem after (h : s.feedAll as = .ok t) (h' : t.Reads bs p u) : s.Reads (as ++ bs) p u := by
  constructor
  · intro hp
    rw [feedAll_append_ok h]
    exact h'.accepted hp
  · intro hn
    rw [feedAll_append_ok h]
    exact h'.refused hn

theorem append (h : s.Reads as p t) (h' : t.Reads bs q u) (hd : Delimited bs) :
    s.Reads (as ++ bs) (p ∧ q) u := by
  constructor
  · rintro ⟨hp, hq⟩
    obtain ⟨s', hs, hst⟩ := h.accepted hp
    obtain ⟨t', ht, htu⟩ := h'.accepted hq
    rw [feedAll_append_ok hs]
    -- a number at the end of the first bytes is over only with a byte of the others
    cases bs with
    | nil =>
      obtain rfl : t = t' := Except.ok.inj ht
      exact ⟨s', rfl, hst.trans htu⟩
    | cons b bs =>
      rw [hst.feedAll (hd b rfl)]
      exact ⟨t', ht, htu⟩
  · intro hn
    by_cases hp : p
    · obtain ⟨s', hs, hst⟩ := h.accepted hp
      obtain ⟨why, ht⟩ := h'.refused fun hq => hn ⟨hp, hq⟩
      rw [feedAll_append_ok hs]
      cases bs with
      | nil => cases ht
      | cons b bs =>
        rw [hst.feedAll (hd b rfl)]
        exact ⟨why, ht⟩
    · obtain ⟨why, hs⟩ := h.refused hp
      exact ⟨why, feedAll_append_error hs bs⟩

end Reads

end State

/-! ### Readers -/

namespace Reader

theorem foldl_feed_ok {s t : State} {bytes : Bytes} (h : s.feedAll bytes = .ok t) (position : Position) :
    ∃ reached, bytes.foldl feed (.going position s) = .going reached t := by
  induction bytes generalizing s position with
  | nil =>
    obtain rfl : s = t := Except.ok.inj h
    exact ⟨position, rfl⟩
  | cons b bs ih =>
    cases hb : s.feed b with
    | error why =>
      rw [State.feedAll, List.foldlM_cons, hb] at h
      cases h
    | ok s' =>
      rw [State.feedAll_cons_ok hb] at h
      obtain ⟨reached, hr⟩ := ih h (position.next b)
      refine ⟨reached, ?_⟩
      rw [List.foldl_cons, feed, hb]
      exact hr

theorem foldl_feed_broken (fault : Fault) (bytes : Bytes) :
    bytes.foldl feed (.broken fault) = .broken fault := by
  induction bytes with
  | nil => rfl
  | cons b bs ih => exact ih

theorem foldl_feed_error {s : State} {bytes : Bytes} {why : Refusal} (h : s.feedAll bytes = .error why)
    (position : Position) : ∃ fault, bytes.foldl feed (.going position s) = .broken fault := by
  induction bytes generalizing s position with
  | nil => cases h
  | cons b bs ih =>
    cases hb : s.feed b with
    | error why =>
      simp only [List.foldl_cons, feed, hb, foldl_feed_broken]
      exact ⟨_, rfl⟩
    | ok s' =>
      rw [State.feedAll_cons_ok hb] at h
      obtain ⟨fault, hf⟩ := ih h (position.next b)
      refine ⟨fault, ?_⟩
      rw [List.foldl_cons, feed, hb]
      exact hf

end Reader

/-- A text that the start state reads up to a value is the text of that value. -/
theorem read_eq_ok {text : Bytes} {p : Prop} {j : Json} (h : State.start.Reads text p (.done j)) (hp : p) :
    read text = .ok j := by
  obtain ⟨s, hs, hst⟩ := h.accepted hp
  obtain ⟨reached, hr⟩ := Reader.foldl_feed_ok hs .start
  rw [read, Reader.start, hr, Reader.finish, hst.finish]
  rfl

theorem read_eq_error {text : Bytes} {p : Prop} {t : State} (h : State.start.Reads text p t) (hn : ¬p) :
    ∃ fault, read text = .error fault := by
  obtain ⟨why, hs⟩ := h.refused hn
  obtain ⟨fault, hf⟩ := Reader.foldl_feed_error hs .start
  exact ⟨fault, by rw [read, Reader.start, hf, Reader.finish]⟩

end Lineage.Json
