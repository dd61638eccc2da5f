import Dialogue.Proofs.Text.Offsets

namespace Dialogue.Text.Utf8

/-- Octets that are no character, before others. -/
inductive Refused : List UInt8 → List UInt8 → Prop where
  | alone {b : UInt8} {more : List UInt8} : ¬ Opens [b] → Refused [b] more
  | cutOff {run : List UInt8} {b : UInt8} {more : List UInt8} :
      run ≠ [] → Unfinished run → ¬ Opens (run ++ [b]) → Refused run (b :: more)

/-- Octets by their first fault. -/
inductive Checked : List UInt8 → Option Fault → Prop where
  | whole (text : List Char) : Checked (encode text) none
  | ends (text : List Char) {rest : List UInt8} : rest ≠ [] → Unfinished rest →
      Checked (encode text ++ rest) (some ⟨(encode text).length, none⟩)
  | refused (text : List Char) {run more : List UInt8} : Refused run more →
      Checked (encode text ++ (run ++ more)) (some ⟨(encode text).length, some run.length⟩)

variable {waiting octets more : List UInt8}

theorem Refused.repaired {text : List Char} {left : List UInt8} (h : Refused octets more)
    (hmore : Repaired more text left) : Repaired (octets ++ more) (replacement :: text) left := by
  cases h with
  | alone hopens => exact .alone hopens hmore
  | cutOff hne hrun hopens => exact .cutOff hne hrun hopens hmore

theorem Repaired.encode_append {text : List Char} {left : List UInt8}
    (h : Repaired octets text left) (before : List Char) :
    Repaired (encode before ++ octets) (before ++ text) left := by
  induction before with
  | nil => exact h
  | cons c before ih =>
      rw [encode_cons, List.append_assoc]
      exact .character c ih

theorem checked_faultAfter (text : List Char) (h : Unfinished waiting) :
    Checked (encode text ++ (waiting ++ octets))
      (faultAfter (encode text).length waiting octets) := by
  induction octets generalizing text waiting with
  | nil =>
      rw [List.append_nil, faultAfter]
      split
      · subst waiting
        rw [List.append_nil]
        exact .whole text
      · exact .ends text ‹_› h
  | cons b rest ih =>
      rw [faultAfter]
      cases hread : read (waiting ++ [b]) with
      | complete c =>
          have hc := (read_concat_complete_iff h).mp hread
          have hnext := ih (text ++ [c]) unfinished_nil
          have hencode : encode (text ++ [c]) = encode text ++ (waiting ++ [b]) := by
            rw [Utf8.encode_append, ← hc]
            simp [encode]
          rw [hencode] at hnext
          simpa [Nat.add_assoc] using hnext
      | incomplete =>
          have hnext := ih text ((read_concat_incomplete_iff h).mp hread)
          rwa [List.append_assoc, List.singleton_append] at hnext
      | malformed =>
          have hopens := (read_concat_malformed_iff h).mp hread
          rcases eq_or_ne waiting [] with rfl | hne
          · exact .refused text (.alone hopens)
          · rw [Nat.max_eq_right (List.length_pos_iff.mpr hne)]
            exact .refused text (.cutOff hne h hopens)

theorem checked_fault (octets : List UInt8) : Checked octets (fault? octets) :=
  checked_faultAfter [] unfinished_nil

example : fault? [0x61, 0xE2, 0x82, 0x62] = some ⟨1, some 2⟩ := by decide

theorem faultAfter_unfinished {good : Nat} (h : Unfinished (waiting ++ octets)) :
    faultAfter good waiting (octets ++ more) = faultAfter good (waiting ++ octets) more := by
  induction octets generalizing waiting with
  | nil => rw [List.append_nil, List.nil_append]
  | cons b rest ih =>
      rw [List.append_cons] at h ⊢
      have hlonger : Unfinished (waiting ++ [b]) := h.mono (List.prefix_append _ _)
      have hwaiting : Unfinished waiting := hlonger.mono (List.prefix_append _ _)
      rw [List.cons_append, faultAfter, (read_concat_incomplete_iff hwaiting).mpr hlonger]
      exact ih h

theorem faultAfter_character (good : Nat) (c : Char) (more : List UInt8) :
    faultAfter good [] (String.utf8EncodeChar c ++ more) =
      faultAfter (good + (String.utf8EncodeChar c).length) [] more := by
  obtain ⟨front, last, hc, hfront⟩ := exists_last c
  have hshift : faultAfter good [] (front ++ last :: more) = faultAfter good front (last :: more) :=
    faultAfter_unfinished hfront
  rw [hc, List.append_assoc, List.singleton_append, hshift, faultAfter,
    (read_concat_complete_iff hfront).mpr hc, List.length_append, ← Nat.add_assoc]
  rfl

theorem faultAfter_encode (good : Nat) (text : List Char) :
    faultAfter good [] (encode text) = none := by
  induction text generalizing good with
  | nil => rfl
  | cons c text ih => rw [encode_cons, faultAfter_character, ih]

theorem fault_encode (text : List Char) : fault? (encode text) = none :=
  faultAfter_encode 0 text

end Dialogue.Text.Utf8
