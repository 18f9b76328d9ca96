import Lineage.Proofs.Decoding
import Lineage.Proofs.Json.Balance

/-!
# Histories whose file is cut off

A file that decodes, cut off anywhere before its last bracket, is no JSON at all; and so is the file of any
history when the write of it stopped before the end.
-/

namespace Lineage.History

theorem decode_of_read_error {content : Bytes} {fault : Json.Fault} (h : Json.read content = .error fault) :
    decode content = .error (.notJson fault) := by
  unfold decode decodeWith Json.Value.read
  rw [h]
  rfl

theorem decode_congr {a b : Bytes} (h : Json.read a = Json.read b) : decode a = decode b := by
  unfold decode decodeWith Json.Value.read
  rw [h]

theorem exists_read_of_decode {content : Bytes} {d : Decoded} (h : decode content = .ok d) :
    ∃ items, Json.read content = .ok (.array items) := by
  obtain ⟨value, entries, hread, hitems, -⟩ := (decodeWith_eq_ok_iff (by simp [Verifier.of])).1 h
  obtain ⟨j, hj, rfl⟩ := Json.Value.read_eq_ok_iff.1 hread
  cases j with
  | array items => exact ⟨items, hj⟩
  | _ => cases hitems

/-- A content that decodes is a text that ends with its last bracket, and blanks, and what ends before the bracket
is no JSON.  Neither is what a write of a history leaves that stops before the end. -/
theorem decode_cut :
    (∀ content d, decode content = .ok d →
      ∃ array blanks, content = array ++ blanks ∧ array.getLast? = some 0x5D ∧
        (∀ b ∈ blanks, Json.isSpace b = true) ∧ decode array = .ok d ∧
        ∀ torn, torn <+: array → torn ≠ array → ∃ fault, decode torn = .error (.notJson fault)) ∧
      ∀ (h : History) (torn : Bytes), torn <+: h.content → torn ≠ h.content →
        ∃ fault, decode torn = .error (.notJson fault) := by
  constructor
  · intro content d hd
    obtain ⟨items, hread⟩ := exists_read_of_decode hd
    obtain ⟨array, blanks, hcut, hlast, hblanks, harray, htorn⟩ := Json.read_array_cut hread
    refine ⟨array, blanks, hcut, hlast, hblanks, ?_, fun torn hle hne => ?_⟩
    · rw [← hd]
      exact decode_congr (harray.trans hread.symm)
    · obtain ⟨fault, hfault⟩ := htorn torn hle hne
      exact ⟨fault, decode_of_read_error hfault⟩
  · intro h torn hle hne
    obtain ⟨fault, hfault⟩ := Json.read_written_cut Json.Layout.blanks_pretty hle hne
    exact ⟨fault, decode_of_read_error hfault⟩

/-- A root that is named by a number, whose digits are numbers too, and a line break at the end. -/
def numbered : Bytes :=
  .ofString "[\x7b\"id\":12,\"parent\":\"\"\x7d]\n"

/-- No part of a file with a number in it decodes, and no part of what is written of its record. -/
theorem decode_cut_numbered :
    ∃ d, decode numbered = .ok d ∧
      (∃ array blanks, numbered = array ++ blanks ∧ array.getLast? = some 0x5D ∧
        (∀ b ∈ blanks, Json.isSpace b = true) ∧ decode array = .ok d ∧
        ∀ torn, torn <+: array → torn ≠ array → ∃ fault, decode torn = .error (.notJson fault)) ∧
      ∀ torn, torn <+: content [.root "12"] → torn ≠ content [.root "12"] →
        ∃ fault, decode torn = .error (.notJson fault) := by
  have hjson : Json.read numbered =
      .ok (.array [.object [("id", .integer 12), ("parent", .string "")]]) := by rfl
  have hread : Json.Value.read numbered =
      .ok (.ofJson (.array [.object [("id", .integer 12), ("parent", .string "")]])) := by
    rw [Json.Value.read, hjson]
    rfl
  have hd : decode numbered = .ok (.ofEntries [.ofJson (.object [("id", .integer 12), ("parent", .string "")])]) :=
    (decodeWith_eq_ok_iff (by simp [Verifier.of])).2 ⟨_, _, hread, rfl, rfl⟩
  exact ⟨_, hd, decode_cut.1 numbered _ hd, decode_cut.2 [.root "12"]⟩

end Lineage.History
