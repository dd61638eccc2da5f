import Mathlib.Data.List.Infix
import Dialogue.Text.Utf8

namespace Dialogue.Text.Utf8

/-- A character begins with these octets. -/
def Opens (octets : List UInt8) : Prop :=
  ∃ c : Char, octets <+: String.utf8EncodeChar c

/-- A character begins with these octets and has more of them. -/
def Unfinished (octets : List UInt8) : Prop :=
  ∃ c : Char, octets <+: String.utf8EncodeChar c ∧ octets ≠ String.utf8EncodeChar c

theorem Unfinished.opens {octets : List UInt8} (h : Unfinished octets) : Opens octets := by
  obtain ⟨c, hc, -⟩ := h
  exact ⟨c, hc⟩

theorem Unfinished.mono {first octets : List UInt8} (h : Unfinished octets)
    (hfirst : first <+: octets) : Unfinished first := by
  obtain ⟨c, hc, hne⟩ := h
  refine ⟨c, hfirst.trans hc, ?_⟩
  rintro rfl
  exact hne (hc.eq_of_length_le hfirst.length_le)

theorem Opens.cases {octets : List UInt8} (h : Opens octets) :
    (∃ c, String.utf8EncodeChar c = octets) ∨ Unfinished octets := by
  obtain ⟨c, hc⟩ := h
  by_cases hwhole : octets = String.utf8EncodeChar c
  · exact Or.inl ⟨c, hwhole.symm⟩
  · exact Or.inr ⟨c, hc, hwhole⟩

theorem unfinished_nil : Unfinished [] :=
  ⟨'a', List.nil_prefix, by decide⟩

theorem isContinuation_iff {b : UInt8} :
    isContinuation b = true ↔ 0x80 ≤ b.toNat ∧ b.toNat ≤ 0xBF := by
  simp [isContinuation, UInt8.le_iff_toNat_le]

/-- The second octets after a first one: neither overlong, nor a surrogate, nor too great. -/
def IsSecond (a b : UInt8) : Prop :=
  (0x80 ≤ b.toNat ∧ b.toNat ≤ 0xBF) ∧
    (a.toNat = 0xE0 → 0xA0 ≤ b.toNat) ∧ (a.toNat = 0xF0 → 0x90 ≤ b.toNat) ∧
    (a.toNat = 0xED → b.toNat ≤ 0x9F) ∧ (a.toNat = 0xF4 → b.toNat ≤ 0x8F)

instance (a b : UInt8) : Decidable (IsSecond a b) :=
  inferInstanceAs (Decidable (_ ∧ _))

theorem isSecond_iff {a b : UInt8} :
    leastSecond a ≤ b ∧ b ≤ greatestSecond a ↔ IsSecond a b := by
  have hleast : (leastSecond a).toNat =
      if a.toNat = 0xE0 then 0xA0 else if a.toNat = 0xF0 then 0x90 else 0x80 := by
    simp only [leastSecond, ← UInt8.toNat_inj, apply_ite UInt8.toNat]
    rfl
  have hgreatest : (greatestSecond a).toNat =
      if a.toNat = 0xED then 0x9F else if a.toNat = 0xF4 then 0x8F else 0xBF := by
    simp only [greatestSecond, ← UInt8.toNat_inj, apply_ite UInt8.toNat]
    rfl
  rw [UInt8.le_iff_toNat_le, UInt8.le_iff_toNat_le, hleast, hgreatest, IsSecond]
  split_ifs <;> omega

theorem read_one (a : UInt8) :
    read [a] =
      if a.toNat < 0x80 then .complete (Char.ofNat a.toNat)
      else if 0xC2 ≤ a.toNat ∧ a.toNat ≤ 0xF4 then .incomplete
      else .malformed := by
  simp [read, UInt8.lt_iff_toNat_lt, UInt8.le_iff_toNat_le]

theorem read_two (a b : UInt8) :
    read [a, b] =
      if IsSecond a b then
        if a.toNat < 0xE0 then .complete (Char.ofNat (a.toNat % 32 * 64 + b.toNat % 64))
        else .incomplete
      else .malformed := by
  simp only [read, Bool.and_eq_true, decide_eq_true_eq, isSecond_iff, UInt8.lt_iff_toNat_lt]
  rfl

theorem read_three (a b c : UInt8) :
    read [a, b, c] =
      if 0x80 ≤ c.toNat ∧ c.toNat ≤ 0xBF then
        if a.toNat < 0xF0 then
          .complete (Char.ofNat ((a.toNat % 16 * 64 + b.toNat % 64) * 64 + c.toNat % 64))
        else .incomplete
      else .malformed := by
  simp only [read, isContinuation_iff, UInt8.lt_iff_toNat_lt]
  rfl

theorem read_four (a b c d : UInt8) :
    read [a, b, c, d] =
      if 0x80 ≤ d.toNat ∧ d.toNat ≤ 0xBF then
        .complete (Char.ofNat
          (((a.toNat % 8 * 64 + b.toNat % 64) * 64 + c.toNat % 64) * 64 + d.toNat % 64))
      else .malformed := by
  simp only [read, isContinuation_iff]

theorem utf8EncodeChar_ofNat {n : Nat} (h : n.isValidChar) :
    String.utf8EncodeChar (Char.ofNat n) =
      if n ≤ 0x7F then [UInt8.ofNat n]
      else if n ≤ 0x7FF then [UInt8.ofNat (n / 64 % 32 + 0xC0), UInt8.ofNat (n % 64 + 0x80)]
      else if n ≤ 0xFFFF then
        [UInt8.ofNat (n / 4096 % 16 + 0xE0), UInt8.ofNat (n / 64 % 64 + 0x80),
          UInt8.ofNat (n % 64 + 0x80)]
      else
        [UInt8.ofNat (n / 262144 % 8 + 0xF0), UInt8.ofNat (n / 4096 % 64 + 0x80),
          UInt8.ofNat (n / 64 % 64 + 0x80), UInt8.ofNat (n % 64 + 0x80)] := by
  have hn : (Char.ofNat n).val.toNat = n := by
    rw [Char.ofNat, dif_pos h]
    rfl
  simp only [String.utf8EncodeChar, hn]

theorem exists_ofNat (c : Char) : ∃ n : Nat, n.isValidChar ∧ c = Char.ofNat n :=
  ⟨c.toNat, c.valid, (Char.ofNat_toNat c).symm⟩

/-- Octets that begin a character, by their ranges. -/
inductive Begun : List UInt8 → Prop where
  | nil : Begun []
  | one {a : UInt8} : 0xC2 ≤ a.toNat → a.toNat ≤ 0xF4 → Begun [a]
  | two {a b : UInt8} : 0xE0 ≤ a.toNat → a.toNat ≤ 0xF4 → IsSecond a b → Begun [a, b]
  | three {a b c : UInt8} : 0xF0 ≤ a.toNat → a.toNat ≤ 0xF4 → IsSecond a b →
      0x80 ≤ c.toNat → c.toNat ≤ 0xBF → Begun [a, b, c]

namespace Begun

variable {b : UInt8}

theorem length_le {waiting : List UInt8} (h : Begun waiting) : waiting.length ≤ 3 := by
  cases h <;> simp

theorem read_eq {waiting : List UInt8} (h : Begun waiting) (hne : waiting ≠ []) :
    read waiting = .incomplete := by
  cases h with
  | nil => exact absurd rfl hne
  | one hleast hmost => rw [read_one, if_neg (by omega), if_pos ⟨hleast, hmost⟩]
  | two hleast hmost hsecond => rw [read_two, if_pos hsecond, if_neg (by omega)]
  | three hleast hmost hsecond hthird hthird' =>
      rw [read_three, if_pos ⟨hthird, hthird'⟩, if_neg (by omega)]

theorem concat {waiting : List UInt8} (h : Begun waiting)
    (hread : read (waiting ++ [b]) = .incomplete) : Begun (waiting ++ [b]) := by
  cases h with
  | nil =>
      rw [List.nil_append, read_one] at hread
      split_ifs at hread with hsingle hfirst
      exact .one hfirst.1 hfirst.2
  | one hleast hmost =>
      simp only [List.cons_append, List.nil_append, read_two] at hread
      split_ifs at hread with hsecond hshort
      exact .two (by omega) hmost hsecond
  | two hleast hmost hsecond =>
      simp only [List.cons_append, List.nil_append, read_three] at hread
      split_ifs at hread with hthird hshort
      exact .three (by omega) hmost hsecond hthird.1 hthird.2
  | three =>
      simp only [List.cons_append, List.nil_append, read_four] at hread
      split_ifs at hread

theorem utf8EncodeChar_of_read {waiting : List UInt8} {c : Char} (h : Begun waiting)
    (hread : read (waiting ++ [b]) = .complete c) :
    String.utf8EncodeChar c = waiting ++ [b] := by
  have hlt := b.toNat_lt
  -- the number that was read is in the range of the encodings of this length
  cases h with
  | nil =>
      rw [List.nil_append, read_one] at hread
      split_ifs at hread
      cases hread
      rw [utf8EncodeChar_ofNat (.inl (by omega)), if_pos (by omega)]
      simp
  | one hleast hmost =>
      simp only [List.cons_append, List.nil_append, read_two] at hread ⊢
      split_ifs at hread with hsecond hshort
      rw [IsSecond] at hsecond
      cases hread
      rw [utf8EncodeChar_ofNat (.inl (by omega)), if_neg (by omega), if_pos (by omega)]
      simp only [List.cons.injEq, ← UInt8.toNat_inj, UInt8.toNat_ofNat', and_true]
      omega
  | two hleast hmost hsecond =>
      simp only [List.cons_append, List.nil_append, read_three, IsSecond] at hsecond hread ⊢
      split_ifs at hread
      cases hread
      rw [utf8EncodeChar_ofNat (by rw [Nat.isValidChar]; omega), if_neg (by omega),
        if_neg (by omega), if_pos (by omega)]
      simp only [List.cons.injEq, ← UInt8.toNat_inj, UInt8.toNat_ofNat', and_true]
      omega
  | three hleast hmost hsecond hthird hthird' =>
      simp only [List.cons_append, List.nil_append, read_four, IsSecond] at hsecond hread ⊢
      split_ifs at hread
      cases hread
      rw [utf8EncodeChar_ofNat (by rw [Nat.isValidChar]; omega), if_neg (by omega),
        if_neg (by omega), if_neg (by omega)]
      simp only [List.cons.injEq, ← UInt8.toNat_inj, UInt8.toNat_ofNat', and_true]
      omega

theorem exists_next {waiting : List UInt8} (h : Begun waiting) :
    ∃ b, read (waiting ++ [b]) ≠ .malformed := by
  cases h with
  | nil => exact ⟨0, by decide⟩
  | @one a =>
      refine ⟨leastSecond a, ?_⟩
      have hle : leastSecond a ≤ greatestSecond a := by
        rw [leastSecond, greatestSecond]
        split_ifs <;> simp_all
      simp only [List.cons_append, List.nil_append, read_two]
      rw [if_pos (isSecond_iff.mp ⟨UInt8.le_refl _, hle⟩)]
      split_ifs <;> exact Reading.noConfusion
  | two =>
      refine ⟨0x80, ?_⟩
      simp only [List.cons_append, List.nil_append, read_three]
      rw [if_pos (by decide)]
      split_ifs <;> exact Reading.noConfusion
  | three =>
      refine ⟨0x80, ?_⟩
      simp only [List.cons_append, List.nil_append, read_four]
      rw [if_pos (by decide)]
      exact Reading.noConfusion

theorem unfinished {waiting : List UInt8} (h : Begun waiting) : Unfinished waiting := by
  obtain ⟨b, hb⟩ := h.exists_next
  cases hread : read (waiting ++ [b]) with
  | complete c =>
      refine ⟨c, ?_⟩
      rw [h.utf8EncodeChar_of_read hread]
      exact ⟨List.prefix_append _ _, by simp⟩
  | incomplete =>
      have hlength := (h.concat hread).length_le
      obtain ⟨c, hc, hne⟩ := (h.concat hread).unfinished
      refine ⟨c, (List.prefix_append _ _).trans hc, ?_⟩
      rintro rfl
      have hle := hc.length_le
      rw [List.length_append, List.length_singleton] at hle
      omega
  | malformed => exact absurd hread hb
termination_by 3 - waiting.length
decreasing_by
  simp only [List.length_append, List.length_singleton] at hlength ⊢
  omega

end Begun

theorem Unfinished.begun {octets : List UInt8} (h : Unfinished octets) : Begun octets := by
  obtain ⟨c, hprefix, hne⟩ := h
  obtain ⟨n, hn, rfl⟩ := exists_ofNat c
  rw [utf8EncodeChar_ofNat hn] at hprefix hne
  rw [Nat.isValidChar] at hn
  split_ifs at hprefix hne
  all_goals simp only [List.prefix_cons_iff, List.prefix_nil] at hprefix
  · obtain rfl | ⟨t, rfl, rfl⟩ := hprefix
    · exact .nil
    · exact absurd rfl hne
  · obtain rfl | ⟨t, rfl, rfl | ⟨t, rfl, rfl⟩⟩ := hprefix
    · exact .nil
    · constructor <;> rw [UInt8.toNat_ofNat'] <;> omega
    · exact absurd rfl hne
  · obtain rfl | ⟨t, rfl, rfl | ⟨t, rfl, rfl | ⟨t, rfl, rfl⟩⟩⟩ := hprefix
    · exact .nil
    · constructor <;> rw [UInt8.toNat_ofNat'] <;> omega
    · constructor <;> simp only [IsSecond, UInt8.toNat_ofNat'] <;> omega
    · exact absurd rfl hne
  · obtain rfl | ⟨t, rfl, rfl | ⟨t, rfl, rfl | ⟨t, rfl, rfl | ⟨t, rfl, rfl⟩⟩⟩⟩ := hprefix
    · exact .nil
    · constructor <;> rw [UInt8.toNat_ofNat'] <;> omega
    · constructor <;> simp only [IsSecond, UInt8.toNat_ofNat'] <;> omega
    · constructor <;> simp only [IsSecond, UInt8.toNat_ofNat'] <;> omega
    · exact absurd rfl hne

theorem Unfinished.length_le {octets : List UInt8} (h : Unfinished octets) :
    octets.length ≤ 3 :=
  h.begun.length_le

theorem read_utf8EncodeChar (c : Char) : read (String.utf8EncodeChar c) = .complete c := by
  obtain ⟨n, hn, rfl⟩ := exists_ofNat c
  rw [utf8EncodeChar_ofNat hn]
  rw [Nat.isValidChar] at hn
  split_ifs
  · rw [read_one, UInt8.toNat_ofNat', if_pos (by omega), Nat.mod_eq_of_lt (by omega)]
  · rw [read_two]
    simp only [IsSecond, UInt8.toNat_ofNat']
    rw [if_pos (by omega), if_pos (by omega)]
    congr 2
    omega
  · rw [read_three]
    simp only [UInt8.toNat_ofNat']
    rw [if_pos (by omega), if_pos (by omega)]
    congr 2
    omega
  · rw [read_four]
    simp only [UInt8.toNat_ofNat']
    rw [if_pos (by omega)]
    congr 2
    omega

theorem utf8EncodeChar_eq_cons (c : Char) :
    ∃ first rest, String.utf8EncodeChar c = first :: rest ∧ isContinuation first = false ∧
      ∀ b ∈ rest, isContinuation b = true := by
  obtain ⟨n, hn, rfl⟩ := exists_ofNat c
  rw [utf8EncodeChar_ofNat hn]
  rw [Nat.isValidChar] at hn
  simp only [← Bool.not_eq_true, isContinuation_iff]
  split_ifs
  all_goals
    refine ⟨_, _, rfl, ?_⟩
    simp only [List.forall_mem_cons, UInt8.toNat_ofNat', List.not_mem_nil, false_implies,
      implies_true, and_true]
    omega

theorem exists_last (c : Char) :
    ∃ front last, String.utf8EncodeChar c = front ++ [last] ∧ Unfinished front := by
  rcases List.eq_nil_or_concat (String.utf8EncodeChar c) with hnil | ⟨front, last, hconcat⟩
  · exact absurd hnil String.utf8EncodeChar_ne_nil
  · rw [List.concat_eq_append] at hconcat
    exact ⟨front, last, hconcat, c, hconcat ▸ List.prefix_append _ _, by simp [hconcat]⟩

section Waiting

variable {waiting : List UInt8} {b : UInt8}

theorem read_concat_complete_iff (h : Unfinished waiting) {c : Char} :
    read (waiting ++ [b]) = .complete c ↔ String.utf8EncodeChar c = waiting ++ [b] := by
  constructor
  · exact h.begun.utf8EncodeChar_of_read
  · intro hc
    rw [← hc]
    exact read_utf8EncodeChar c

theorem read_concat_incomplete_iff (h : Unfinished waiting) :
    read (waiting ++ [b]) = .incomplete ↔ Unfinished (waiting ++ [b]) := by
  constructor
  · exact fun hread => (h.begun.concat hread).unfinished
  · exact fun hlonger => hlonger.begun.read_eq (by simp)

theorem read_concat_malformed_iff (h : Unfinished waiting) :
    read (waiting ++ [b]) = .malformed ↔ ¬ Opens (waiting ++ [b]) := by
  constructor
  · intro hread hopens
    rcases hopens.cases with ⟨c, hc⟩ | hlonger
    · rw [(read_concat_complete_iff h).mpr hc] at hread
      exact Reading.noConfusion hread
    · rw [(read_concat_incomplete_iff h).mpr hlonger] at hread
      exact Reading.noConfusion hread
  · intro hopens
    cases hread : read (waiting ++ [b]) with
    | complete c =>
        have hc := (read_concat_complete_iff h).mp hread
        exact absurd ⟨c, hc ▸ List.prefix_rfl⟩ hopens
    | incomplete => exact absurd ((read_concat_incomplete_iff h).mp hread).opens hopens
    | malformed => rfl

end Waiting

end Dialogue.Text.Utf8
