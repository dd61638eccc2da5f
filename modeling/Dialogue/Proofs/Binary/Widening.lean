import Mathlib.Algebra.Order.Field.Rat
import Mathlib.Tactic.FieldSimp
import Mathlib.Tactic.Ring
import Dialogue.Proofs.Binary.NotNumbers

namespace Dialogue

namespace Format

/-- The number that a finite magnitude stands for. -/
def number (f : Format) (magnitude : Nat) : ℚ :=
  (f.unpack magnitude).1 * 2 ^ (f.unpack magnitude).2

theorem number_zero (f : Format) : f.number 0 = 0 := by
  simp [number, unpack]

theorem unpack_add {f : Format} {significand : Nat} (k : Nat)
    (hle : 2 ^ f.fractionWidth ≤ significand) (hlt : significand < 2 ^ (f.fractionWidth + 1)) :
    f.unpack (significand + k <<< f.fractionWidth) = (significand, f.leastExponent + k) := by
  have hquotient : significand / 2 ^ f.fractionWidth = 1 := by
    rw [Nat.div_eq_iff (Nat.two_pow_pos _)]
    rw [Nat.pow_succ] at hlt
    omega
  have hfield : (significand + k <<< f.fractionWidth) >>> f.fractionWidth = k + 1 := by
    rw [Nat.shiftRight_eq_div_pow, Nat.shiftLeft_eq, Nat.add_mul_div_right _ _ (Nat.two_pow_pos _),
      hquotient, Nat.add_comm]
  rw [unpack, hfield, if_neg (Nat.succ_ne_zero k), Nat.add_sub_cancel, Nat.add_sub_cancel,
    Prod.mk.injEq]
  exact ⟨rfl, by omega⟩

theorem log2_bounds {m : Nat} (hm : m ≠ 0) {n : Nat} (h : m.log2 ≤ n) :
    2 ^ n ≤ m <<< (n - m.log2) ∧ m <<< (n - m.log2) < 2 ^ (n + 1) := by
  rw [Nat.shiftLeft_eq]
  constructor
  · calc 2 ^ n = 2 ^ m.log2 * 2 ^ (n - m.log2) := by rw [← Nat.pow_add, Nat.add_sub_cancel' h]
      _ ≤ m * 2 ^ (n - m.log2) := Nat.mul_le_mul_right _ (Nat.log2_self_le hm)
  · calc m * 2 ^ (n - m.log2) < 2 ^ (m.log2 + 1) * 2 ^ (n - m.log2) :=
          Nat.mul_lt_mul_of_pos_right Nat.lt_log2_self (Nat.two_pow_pos _)
      _ = 2 ^ (n + 1) := by rw [← Nat.pow_add]; congr 1; omega

theorem round_single {m : Nat} {e : Int} (hm : m ≠ 0) (hlog : m.log2 ≤ 23)
    (hleast : -149 ≤ e + m.log2 - 23) (hgreatest : e + m.log2 ≤ 127) :
    single.round m e < single.infinity ∧
      single.unpack (single.round m e) = (m <<< (23 - m.log2), e + m.log2 - 23) := by
  have hleastExponent : single.leastExponent = -149 := by decide
  have hinfinity : single.infinity = 255 * 2 ^ 23 := by decide
  obtain ⟨hle, hlt⟩ := log2_bounds hm hlog
  obtain ⟨k, hk⟩ : ∃ k : Nat, e + m.log2 - 23 = -149 + k := ⟨(e + m.log2 + 126).toNat, by omega⟩
  have hunit : max single.leastExponent (e + m.log2 - (single.fractionWidth : Nat)) = -149 + k := by
    rw [hleastExponent, ← hk]
    exact Int.max_eq_right hleast
  -- The significand is moved up to 24 bits, and `k` is what the exponent exceeds the least one by.
  have hshift : (e - (-149 + k)).toNat = 23 - m.log2 := by omega
  have hfield : (-149 + k - (-149) : Int).toNat = k := by omega
  have hround : single.round m e = m <<< (23 - m.log2) + k <<< single.fractionWidth := by
    rw [round, if_neg hm]
    dsimp only
    rw [hunit, hleastExponent, if_pos (by omega), hshift, hfield]
    apply Nat.min_eq_left
    rw [hinfinity, Nat.shiftLeft_eq k]
    change _ + k * 2 ^ 23 ≤ _
    omega
  constructor
  · rw [hround, hinfinity, Nat.shiftLeft_eq k]
    change _ + k * 2 ^ 23 < _
    omega
  · rw [hround, unpack_add k hle hlt, hk, hleastExponent]

theorem number_round_single {m : Nat} {e : Int} (hlog : m.log2 ≤ 23)
    (hleast : -149 ≤ e + m.log2 - 23) (hgreatest : e + m.log2 ≤ 127) :
    single.round m e < single.infinity ∧ single.number (single.round m e) = m * 2 ^ e := by
  by_cases hm : m = 0
  · subst hm
    rw [round_zero, number_zero]
    exact ⟨by decide, by simp⟩
  · obtain ⟨hlt, hunpack⟩ := round_single hm hlog hleast hgreatest
    refine ⟨hlt, ?_⟩
    rw [number, hunpack, Nat.shiftLeft_eq]
    push_cast
    rw [← zpow_natCast, mul_assoc, ← zpow_add₀ two_ne_zero]
    congr 2
    omega

theorem unpack_half {magnitude : Nat} (h : magnitude < half.infinity) :
    (half.unpack magnitude).1 < 2 ^ 11 ∧ -24 ≤ (half.unpack magnitude).2 ∧
      (half.unpack magnitude).2 ≤ 5 := by
  have hinfinity : half.infinity = 31 * 2 ^ 10 := by decide
  have hleastExponent : half.leastExponent = -24 := by decide
  have hfield : magnitude >>> half.fractionWidth = magnitude / 2 ^ 10 :=
    Nat.shiftRight_eq_div_pow magnitude 10
  rw [unpack, hleastExponent, hfield, Nat.shiftLeft_eq]
  split
  · refine ⟨?_, Int.le_refl _, ?_⟩
    all_goals
      dsimp only
      omega
  · change _ - _ * 2 ^ 10 < _ ∧ _ ∧ _
    dsimp only
    omega

end Format

namespace Binary

def number {f : Format} (x : Binary f) : ℚ :=
  if x.negative then -f.number x.magnitude else f.number x.magnitude

/-- A half and the single it is widened to. -/
structure Widened (x : Binary16) (y : Binary32) : Prop where
  negative : y.negative = x.negative
  isNaN : y.isNaN = x.isNaN
  isInfinite : y.isInfinite = x.isInfinite
  number : x.isFinite = true → y.number = x.number

theorem widened_of_isNaN {x : Binary16} (h : x.isNaN = true) : Widened x x.convert := by
  have hhalf : Format.half.infinity = 31 * 2 ^ 10 := by decide
  have hsingle : Format.single.infinity = 255 * 2 ^ 23 := by decide
  have hshift : Format.single.fractionWidth - Format.half.fractionWidth = 13 := by decide
  have hlt : x.magnitude < 32 * 2 ^ 10 := x.magnitude_lt
  have hlt' : Format.half.infinity < x.magnitude := of_decide_eq_true h
  obtain ⟨m, hm, hwidth, hconvert⟩ : ∃ m, Format.single.infinity < m ∧
      m < 2 ^ Format.single.magnitudeWidth ∧ (x.convert : Binary32) = ofParts x.negative m := by
    refine ⟨_, ?_, ?_, by rw [convert, if_pos h]⟩
    all_goals rw [if_pos (by decide), hshift, Nat.shiftLeft_eq]
    · exact Nat.lt_of_lt_of_le (by omega) Nat.left_le_or
    · refine Nat.or_lt_two_pow ?_ (by decide)
      change _ < 2 ^ 31
      omega
  refine ⟨?_, ?_, ?_, fun hfinite => ?_⟩
  · rw [hconvert, negative_ofParts _ hwidth]
  · rw [hconvert, h, isNaN, magnitude_ofParts _ hwidth, decide_eq_true_iff]
    exact hm
  · rw [hconvert, isInfinite, isInfinite, magnitude_ofParts _ hwidth,
      decide_eq_false (by omega), decide_eq_false (by omega)]
  · rw [isNaN_of_isFinite hfinite] at h
    cases h

theorem widened_of_isFinite {x : Binary16} (h : x.isFinite = true) : Widened x x.convert := by
  have hnan := isNaN_of_isFinite h
  have hinf := isInfinite_of_isFinite h
  have hconvert : (x.convert : Binary32) = ofParts x.negative (Format.single.round
      (Format.half.unpack x.magnitude).1 (Format.half.unpack x.magnitude).2) := by
    rw [convert, hnan, hinf]
    rfl
  rw [isFinite, decide_eq_true_iff] at h
  obtain ⟨hlt, hleast, hgreatest⟩ := Format.unpack_half h
  have hlog : (Format.half.unpack x.magnitude).1.log2 ≤ 10 := by
    by_cases hzero : (Format.half.unpack x.magnitude).1 = 0
    · rw [hzero]
      decide
    · exact Nat.le_of_lt_succ ((Nat.log2_lt hzero).mpr hlt)
  obtain ⟨hround, hnumber⟩ := Format.number_round_single
    (m := (Format.half.unpack x.magnitude).1) (e := (Format.half.unpack x.magnitude).2)
    (by omega) (by omega) (by omega)
  have hwidth := Nat.lt_trans hround Format.single.infinity_lt
  refine ⟨?_, ?_, ?_, fun _ => ?_⟩
  · rw [hconvert, negative_ofParts _ hwidth]
  · rw [hconvert, hnan, isNaN_ofParts_of_le _ (Nat.le_of_lt hround)]
  · rw [hconvert, hinf, isInfinite, magnitude_ofParts _ hwidth, decide_eq_false_iff_not]
    omega
  · rw [number, number, hconvert, negative_ofParts _ hwidth, magnitude_ofParts _ hwidth, hnumber]
    rfl

theorem widened_of_isInfinite {x : Binary16} (h : x.isInfinite = true) : Widened x x.convert := by
  have hmagnitude : x.magnitude = Format.half.infinity := of_decide_eq_true h
  have hnan : x.isNaN = false := by
    rw [isNaN, hmagnitude, decide_eq_false_iff_not]
    exact Nat.lt_irrefl _
  have hwidth := Format.single.infinity_lt
  have hconvert : (x.convert : Binary32) = ofParts x.negative Format.single.infinity := by
    rw [convert, hnan, h]
    rfl
  refine ⟨?_, ?_, ?_, fun hfinite => ?_⟩
  · rw [hconvert, negative_ofParts _ hwidth]
  · rw [hconvert, hnan, isNaN_ofParts_of_le _ (Nat.le_refl _)]
  · rw [hconvert, h, isInfinite, magnitude_ofParts _ hwidth, decide_eq_true_iff]
  · rw [isInfinite_of_isFinite hfinite] at h
    cases h

/-- Widening a half keeps its sign, its class and, if it is finite, its number. -/
theorem widened_convert (x : Binary16) : Widened x x.convert := by
  rcases Nat.lt_trichotomy x.magnitude Format.half.infinity with hlt | heq | hgt
  · exact widened_of_isFinite (decide_eq_true hlt)
  · exact widened_of_isInfinite (decide_eq_true heq)
  · exact widened_of_isNaN (decide_eq_true hgt)

end Binary

end Dialogue
