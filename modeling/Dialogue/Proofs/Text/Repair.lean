import Dialogue.Proofs.Text.Characters

/-!
Reading octet by octet against reading all octets at once. A text is repaired by replacing each
octet that no character begins with, and each run of octets that begins a character which the next
octet does not go on with; `decode` finds exactly that text, however far it has read before.
-/

namespace Dialogue.Text.Utf8

/-- What octets read as, and those at the end that are the beginning of a character. -/
inductive Repaired : List UInt8 → List Char → List UInt8 → Prop where
  | left {octets : List UInt8} : Unfinished octets → Repaired octets [] octets
  | character {octets : List UInt8} {text : List Char} {left : List UInt8} (c : Char) :
      Repaired octets text left → Repaired (String.utf8EncodeChar c ++ octets) (c :: text) left
  | alone {b : UInt8} {octets : List UInt8} {text : List Char} {left : List UInt8} :
      ¬ Opens [b] → Repaired octets text left →
        Repaired (b :: octets) (replacement :: text) left
  | cutOff {run : List UInt8} {b : UInt8} {octets : List UInt8} {text : List Char}
      {left : List UInt8} :
      run ≠ [] → Unfinished run → ¬ Opens (run ++ [b]) → Repaired (b :: octets) text left →
        Repaired (run ++ b :: octets) (replacement :: text) left

variable {waiting octets left : List UInt8} {text : List Char} {b : UInt8}

theorem push_complete {c : Char} (h : Unfinished waiting)
    (hc : String.utf8EncodeChar c = waiting ++ [b]) : push waiting b = ([c], []) := by
  have hread := (read_concat_complete_iff h).mpr hc
  rw [push, start]
  split
  · subst waiting
    rw [List.nil_append] at hread
    simp [hread]
  · simp [hread]

theorem push_incomplete (h : Unfinished waiting) (hlonger : Unfinished (waiting ++ [b])) :
    push waiting b = ([], waiting ++ [b]) := by
  have hread := (read_concat_incomplete_iff h).mpr hlonger
  rw [push, start]
  split
  · subst waiting
    rw [List.nil_append] at hread
    simp [hread]
  · simp [hread]

theorem push_alone (h : ¬ Opens [b]) : push [] b = ([replacement], []) := by
  have hread : read [b] = .malformed := (read_concat_malformed_iff unfinished_nil).mpr h
  simp [push, start, hread]

theorem push_cutOff (hne : waiting ≠ []) (h : Unfinished waiting)
    (hopens : ¬ Opens (waiting ++ [b])) :
    push waiting b = (replacement :: (push [] b).1, (push [] b).2) := by
  simp [push, hne, (read_concat_malformed_iff h).mpr hopens]

theorem decode_cons (waiting : List UInt8) (b : UInt8) (octets : List UInt8) :
    decode waiting (b :: octets) =
      ((push waiting b).1 ++ (decode (push waiting b).2 octets).1,
        (decode (push waiting b).2 octets).2) := rfl

theorem decode_unfinished (h : Unfinished (waiting ++ octets)) :
    decode waiting octets = ([], waiting ++ octets) := by
  induction octets generalizing waiting with
  | nil => simp
  | cons b rest ih =>
      rw [List.append_cons] at h ⊢
      have hlonger : Unfinished (waiting ++ [b]) := h.mono (List.prefix_append _ _)
      have hwaiting : Unfinished waiting := hlonger.mono (List.prefix_append _ _)
      rw [decode_cons, push_incomplete hwaiting hlonger, ih h]
      rfl

theorem decode_of_unfinished (h : Unfinished octets) : decode [] octets = ([], octets) :=
  decode_unfinished h

theorem decode_character (c : Char) : decode [] (String.utf8EncodeChar c) = ([c], []) := by
  obtain ⟨front, last, hc, hfront⟩ := exists_last c
  rw [hc, decode_append, decode_of_unfinished hfront]
  simp [decode_cons, push_complete hfront hc]

theorem Repaired.decode_eq (h : Repaired octets text left) : decode [] octets = (text, left) := by
  induction h with
  | left hleft => exact decode_of_unfinished hleft
  | character c _ ih => simp [decode_append, decode_character, ih]
  | alone hopens _ ih => simp [decode_cons, push_alone hopens, ih]
  | @cutOff run b octets text left hne hrun hopens _ ih =>
      rw [decode_cons] at ih
      rw [decode_append, decode_of_unfinished hrun]
      simp only [List.nil_append, decode_cons, push_cutOff hne hrun hopens, List.cons_append]
      simpa using ih

theorem repaired_decode (h : Unfinished waiting) :
    Repaired (waiting ++ octets) (decode waiting octets).1 (decode waiting octets).2 := by
  induction octets generalizing waiting with
  | nil => simpa using Repaired.left h
  | cons b rest ih =>
      have hgoesOn : ∀ {first : List UInt8}, Unfinished first → Opens (first ++ [b]) →
          Repaired (first ++ b :: rest) (decode first (b :: rest)).1
            (decode first (b :: rest)).2 := by
        intro first hfirst hopens
        rw [List.append_cons, decode_cons]
        rcases hopens.cases with ⟨c, hc⟩ | hlonger
        · rw [push_complete hfirst hc, ← hc]
          exact .character c (ih unfinished_nil)
        · rw [push_incomplete hfirst hlonger]
          exact ih hlonger
      -- an octet that ends a run is read as if it came first
      have hfirst : Repaired (b :: rest) (decode [] (b :: rest)).1 (decode [] (b :: rest)).2 := by
        by_cases hopens : Opens [b]
        · exact hgoesOn unfinished_nil hopens
        · rw [decode_cons, push_alone hopens]
          exact .alone hopens (ih unfinished_nil)
      by_cases hopens : Opens (waiting ++ [b])
      · exact hgoesOn h hopens
      · rcases eq_or_ne waiting [] with rfl | hne
        · exact hfirst
        · rw [decode_cons, push_cutOff hne h hopens]
          exact .cutOff hne h hopens hfirst

/-- Octets have one repaired text, and it is found octet by octet. -/
theorem repaired_iff : Repaired octets text left ↔ decode [] octets = (text, left) := by
  constructor
  · exact Repaired.decode_eq
  · intro h
    have hrepaired : Repaired octets (decode [] octets).1 (decode [] octets).2 :=
      repaired_decode unfinished_nil
    rwa [h] at hrepaired

theorem Repaired.unfinished (h : Repaired octets text left) : Unfinished left := by
  induction h with
  | left hleft => exact hleft
  | character _ _ ih | alone _ _ ih | cutOff _ _ _ _ ih => exact ih

theorem unfinished_decode (h : Unfinished waiting) : Unfinished (decode waiting octets).2 :=
  (repaired_decode h).unfinished

theorem repaired_encode (text : List Char) : Repaired (encode text) text [] := by
  induction text with
  | nil => exact .left unfinished_nil
  | cons c text ih => exact .character c ih

theorem lossy_unfinished (h : Unfinished octets) : lossy octets = finish octets := by
  rw [lossy, decode_of_unfinished h]
  rfl

theorem lossy_encode (text : List Char) : lossy (encode text) = text := by
  simp [lossy, (repaired_encode text).decode_eq, finish]

example : Repaired [0x61, 0xE2, 0x82, 0x62, 0xFF, 0xF0, 0x9F]
    ['a', replacement, 'b', replacement] [0xF0, 0x9F] := by
  rw [repaired_iff]
  decide

end Dialogue.Text.Utf8
