import Mathlib.Data.List.Sort
import Mathlib.Order.Bounds.Image
import Dialogue.Text.Fault
import Dialogue.Proofs.Text.Repair

namespace Dialogue

theorem find_range_eq_some_iff {n k : Nat} {p : Nat → Bool} (h : ∀ i, p i = true → i < n) :
    (List.range n).find? p = some k ↔ IsLeast {i | p i = true} k := by
  rw [List.find?_range_eq_some]
  simp only [List.mem_range, Bool.not_eq_true', ← Bool.not_eq_true]
  constructor
  · rintro ⟨hk, -, hleast⟩
    exact ⟨hk, fun j hj => le_of_not_gt fun hlt => hleast j hlt hj⟩
  · rintro ⟨hk, hleast⟩
    exact ⟨hk, h k hk, fun j hlt hj => absurd (hleast hj) (not_le_of_gt hlt)⟩

end Dialogue

namespace Dialogue.Text.Utf8

theorem encode_append (first second : List Char) :
    encode (first ++ second) = encode first ++ encode second :=
  List.flatMap_append

theorem encode_cons (c : Char) (text : List Char) :
    encode (c :: text) = String.utf8EncodeChar c ++ encode text := rfl

theorem encode_prefix_iff {first text : List Char} :
    encode first <+: encode text ↔ first <+: text := by
  constructor
  · rintro ⟨more, hmore⟩
    have hdecode := (repaired_encode text).decode_eq
    rw [← hmore, decode_append, (repaired_encode first).decode_eq] at hdecode
    exact ⟨_, congrArg Prod.fst hdecode⟩
  · rintro ⟨rest, rfl⟩
    rw [encode_append]
    exact List.prefix_append _ _

theorem encode_eq_nil_iff {text : List Char} : encode text = [] ↔ text = [] := by
  cases text with
  | nil => simp [encode]
  | cons c text => simp [encode_cons, String.utf8EncodeChar_ne_nil]

theorem isEmpty_encode (text : List Char) : (encode text).isEmpty = text.isEmpty := by
  rw [Bool.eq_iff_iff, List.isEmpty_iff, List.isEmpty_iff, encode_eq_nil_iff]

theorem length_encode_lt_iff {first text : List Char} (h : first <+: text) :
    (encode first).length < (encode text).length ↔ first.length < text.length := by
  obtain ⟨rest, rfl⟩ := h
  rw [encode_append, List.length_append, List.length_append, Nat.lt_add_right_iff_pos,
    Nat.lt_add_right_iff_pos, List.length_pos_iff, List.length_pos_iff, ne_eq, ne_eq,
    encode_eq_nil_iff]

/-- Where the octets of a text are after its first characters. -/
def offset (text : List Char) (i : Nat) : Nat :=
  (encode (text.take i)).length

section Offsets

variable {text : List Char} {i j k : Nat}

@[simp] theorem offset_zero (text : List Char) : offset text 0 = 0 := rfl

@[simp] theorem offset_cons_succ (c : Char) (text : List Char) (i : Nat) :
    offset (c :: text) (i + 1) = (String.utf8EncodeChar c).length + offset text i := by
  rw [offset, List.take_succ_cons, encode_cons, List.length_append, offset]

theorem offset_mono (text : List Char) : Monotone (offset text) := by
  intro i j hij
  exact (encode_prefix_iff.mpr (List.take_prefix_take_left hij)).length_le

theorem offset_lt (hij : i < j) (hj : j ≤ text.length) : offset text i < offset text j := by
  rw [offset, offset, length_encode_lt_iff (List.take_prefix_take_left hij.le),
    List.length_take_of_le hj, List.length_take_of_le (hij.le.trans hj)]
  exact hij

theorem offset_le_length (text : List Char) (i : Nat) : offset text i ≤ (encode text).length :=
  (encode_prefix_iff.mpr (List.take_prefix i text)).length_le

theorem offset_length_append (first second : List Char) :
    offset (first ++ second) first.length = (encode first).length := by
  rw [offset, List.take_left]

theorem take_offset (text : List Char) (i : Nat) :
    (encode text).take (offset text i) = encode (text.take i) := by
  conv_lhs => rw [← List.take_append_drop i text, encode_append]
  rw [List.take_append_drop, offset, List.take_left]

theorem drop_offset (text : List Char) (i : Nat) :
    (encode text).drop (offset text i) = encode (text.drop i) := by
  conv_lhs => rw [← List.take_append_drop i text, encode_append]
  rw [List.take_append_drop, offset, List.drop_left]

theorem isContinuation_of_head {b : UInt8} (h : (encode text)[0]? = some b) :
    isContinuation b = false := by
  cases text with
  | nil => simp [encode] at h
  | cons c text =>
      obtain ⟨first, rest, hc, hfirst, -⟩ := utf8EncodeChar_eq_cons c
      rw [encode_cons, hc, List.cons_append, List.getElem?_cons_zero, Option.some.injEq] at h
      exact h ▸ hfirst

theorem isBoundary_within {c : Char} (hpos : 0 < k)
    (hk : k < (String.utf8EncodeChar c).length) : isBoundary (encode (c :: text)) k = false := by
  obtain ⟨first, rest, hc, -, hrest⟩ := utf8EncodeChar_eq_cons c
  obtain ⟨j, rfl⟩ := Nat.exists_eq_add_one.mpr hpos
  rw [hc, List.length_cons, Nat.add_lt_add_iff_right] at hk
  have hb : (encode (c :: text))[j + 1]? = some rest[j] := by
    rw [encode_cons, hc, List.cons_append, List.getElem?_cons_succ, List.getElem?_append_left hk,
      List.getElem?_eq_getElem hk]
  simp [isBoundary, hb, hrest _ (List.getElem_mem hk)]

theorem isBoundary_after (c : Char) (text : List Char) (k : Nat) :
    isBoundary (encode (c :: text)) ((String.utf8EncodeChar c).length + k) =
      isBoundary (encode text) k := by
  have hpos := List.length_pos_iff.mpr (String.utf8EncodeChar_ne_nil (c := c))
  have hb : (encode (c :: text))[(String.utf8EncodeChar c).length + k]? = (encode text)[k]? := by
    rw [encode_cons, List.getElem?_append_right (Nat.le_add_right _ _), Nat.add_sub_cancel_left]
  rw [isBoundary, isBoundary, hb]
  cases hnext : (encode text)[k]? with
  | none =>
      have hlength := List.getElem?_eq_none_iff.mp hnext
      rw [encode_cons, List.length_append, Bool.eq_iff_iff]
      simp only [Bool.or_eq_true, decide_eq_true_eq]
      omega
  | some b =>
      cases k with
      | zero => simp [isContinuation_of_head hnext]
      | succ k => simp

theorem isBoundary_iff :
    isBoundary (encode text) k = true ↔ ∃ i ≤ text.length, offset text i = k := by
  induction text generalizing k with
  | nil => simp [isBoundary, encode, eq_comm]
  | cons c text ih =>
      constructor
      · intro h
        rcases Nat.eq_zero_or_pos k with rfl | hpos
        · exact ⟨0, Nat.zero_le _, rfl⟩
        · rcases lt_or_ge k (String.utf8EncodeChar c).length with hk | hk
          · rw [isBoundary_within hpos hk] at h
            exact Bool.noConfusion h
          · obtain ⟨j, rfl⟩ := Nat.exists_eq_add_of_le hk
            rw [isBoundary_after, ih] at h
            obtain ⟨i, hi, rfl⟩ := h
            exact ⟨i + 1, Nat.succ_le_succ hi, offset_cons_succ c text i⟩
      · rintro ⟨i, hi, rfl⟩
        cases i with
        | zero => rfl
        | succ i =>
            rw [offset_cons_succ, isBoundary_after, ih]
            exact ⟨i, Nat.le_of_succ_le_succ hi, rfl⟩

theorem sliceFrom_offset (hi : i ≤ text.length) :
    sliceFrom? (encode text) (offset text i) = some (encode (text.drop i)) := by
  rw [sliceFrom?, if_pos (isBoundary_iff.mpr ⟨i, hi, rfl⟩), drop_offset]

theorem sliceTo_offset (hi : i ≤ text.length) :
    sliceTo? (encode text) (offset text i) = some (encode (text.take i)) := by
  rw [sliceTo?, if_pos (isBoundary_iff.mpr ⟨i, hi, rfl⟩), take_offset]

theorem charOffsets_encode (text : List Char) :
    charOffsets (encode text) = (List.range text.length).map (offset text) := by
  have hsorted : (charOffsets (encode text)).Pairwise (· < ·) :=
    List.pairwise_lt_range.filter _
  have hoffsets : ((List.range text.length).map (offset text)).Pairwise (· < ·) := by
    rw [List.pairwise_map]
    refine List.pairwise_lt_range.imp_of_mem ?_
    intro i j _ hj hij
    exact offset_lt hij (List.mem_range.mp hj).le
  refine hsorted.eq_of_mem_iff hoffsets fun k => ?_
  simp only [charOffsets, List.mem_filter, List.mem_range, isBoundary_iff, List.mem_map]
  constructor
  · rintro ⟨hk, i, hi, rfl⟩
    refine ⟨i, lt_of_le_of_ne hi ?_, rfl⟩
    rintro rfl
    rw [offset, List.take_length] at hk
    exact lt_irrefl _ hk
  · rintro ⟨i, hi, rfl⟩
    refine ⟨?_, i, hi.le, rfl⟩
    conv_rhs => rw [← List.take_length (l := text)]
    exact offset_lt hi le_rfl

theorem mapM_sliceFrom {places : List Nat} (h : ∀ i ∈ places, i ≤ text.length) :
    (places.map (offset text)).mapM (sliceFrom? (encode text)) =
      some (places.map fun i => encode (text.drop i)) := by
  induction places with
  | nil => rfl
  | cons i places ih =>
      rw [List.forall_mem_cons] at h
      simp [sliceFrom_offset h.1, ih h.2]

theorem slices_encode (text : List Char) :
    (charOffsets (encode text)).mapM (sliceFrom? (encode text)) =
      some ((List.range text.length).map fun i => encode (text.drop i)) := by
  rw [charOffsets_encode]
  exact mapM_sliceFrom fun i hi => (List.mem_range.mp hi).le

/-- Where a text has another one in octets, it has it in characters. -/
theorem encode_prefix_drop_iff {part : List Char} (hne : part ≠ []) :
    encode part <+: (encode text).drop k ↔
      ∃ i ≤ text.length, offset text i = k ∧ part <+: text.drop i := by
  constructor
  · intro h
    obtain ⟨c, rest, rfl⟩ := List.exists_cons_of_ne_nil hne
    obtain ⟨first, others, hc, hfirst, -⟩ := utf8EncodeChar_eq_cons c
    -- the first octet of the other text tells that a character begins here
    have hb : (encode text)[k]? = some first := by
      obtain ⟨more, hmore⟩ := h
      rw [← Nat.add_zero k, ← List.getElem?_drop, ← hmore, encode_cons, hc]
      rfl
    obtain ⟨i, hi, rfl⟩ := isBoundary_iff.mp (by simp [isBoundary, hb, hfirst] :
      isBoundary (encode text) k = true)
    rw [drop_offset, encode_prefix_iff] at h
    exact ⟨i, hi, rfl, h⟩
  · rintro ⟨i, -, rfl, h⟩
    rw [drop_offset]
    exact encode_prefix_iff.mpr h

theorem encode_suffix_iff {part : List Char} (hne : part ≠ []) :
    encode part <:+ encode text ↔ part <:+ text := by
  constructor
  · intro h
    have hdrop := List.suffix_iff_eq_drop.mp h
    obtain ⟨i, -, hi, hpart⟩ := (encode_prefix_drop_iff hne).mp ⟨[], by
      rw [List.append_nil, ← hdrop]⟩
    rw [← hi, drop_offset] at hdrop
    have hback : text.drop i <+: part := encode_prefix_iff.mp (hdrop ▸ List.prefix_rfl)
    rw [hpart.eq_of_length_le hback.length_le]
    exact List.drop_suffix i text
  · rintro ⟨rest, rfl⟩
    rw [encode_append]
    exact List.suffix_append _ _

end Offsets

section Search

variable {octets part : List UInt8} {parts : List (List UInt8)} {k : Nat}

theorem find_eq_some_iff (hne : part ≠ []) :
    find? octets part = some k ↔ IsLeast {j | part <+: octets.drop j} k := by
  rw [find?, find_range_eq_some_iff]
  · simp only [List.isPrefixOf_iff_prefix]
  · intro i hi
    have hle := (List.isPrefixOf_iff_prefix.mp hi).length_le
    have hpos := List.length_pos_iff.mpr hne
    rw [List.length_drop] at hle
    omega

theorem exists_find (hne : part ≠ []) (h : part <+: octets.drop k) :
    ∃ j ≤ k, find? octets part = some j := by
  have hsome : ∃ j, part <+: octets.drop j := ⟨k, h⟩
  refine ⟨Nat.find hsome, Nat.find_min' hsome h, (find_eq_some_iff hne).mpr ?_⟩
  exact ⟨Nat.find_spec hsome, fun j hj => Nat.find_min' hsome hj⟩

theorem min_find_eq_some_iff (hne : ∀ part ∈ parts, part ≠ []) :
    (parts.filterMap (find? octets)).min? = some k ↔
      IsLeast {j | ∃ part ∈ parts, part <+: octets.drop j} k := by
  rw [List.min?_eq_some_iff]
  simp only [List.mem_filterMap]
  constructor
  · rintro ⟨⟨part, hpart, hk⟩, hleast⟩
    refine ⟨⟨part, hpart, ((find_eq_some_iff (hne part hpart)).mp hk).1⟩, ?_⟩
    rintro j ⟨other, hother, hj⟩
    obtain ⟨i, hij, hi⟩ := exists_find (hne other hother) hj
    exact (hleast i ⟨other, hother, hi⟩).trans hij
  · rintro ⟨⟨part, hpart, hk⟩, hleast⟩
    have hmin : ∀ i, (∃ other ∈ parts, find? octets other = some i) → k ≤ i := by
      rintro i ⟨other, hother, hi⟩
      exact hleast ⟨other, hother, ((find_eq_some_iff (hne other hother)).mp hi).1⟩
    obtain ⟨j, hjk, hj⟩ := exists_find (hne part hpart) hk
    obtain rfl := le_antisymm hjk (hmin j ⟨part, hpart, hj⟩)
    exact ⟨⟨part, hpart, hj⟩, hmin⟩

end Search

end Dialogue.Text.Utf8
