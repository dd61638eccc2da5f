import Mathlib.Algebra.GroupWithZero.Nat
import Dialogue.Binary.Exponential

namespace Dialogue

theorem Format.infinity_lt (f : Format) : f.infinity < 2 ^ f.magnitudeWidth := by
  rw [infinity, magnitudeWidth, Nat.shiftLeft_eq, Nat.one_shiftLeft, Nat.pow_add]
  have hexponent := Nat.two_pow_pos f.exponentWidth
  exact Nat.mul_lt_mul_of_pos_right (by omega) (Nat.two_pow_pos _)

namespace Binary

section Parts

variable {f : Format} {x : Binary f} {m : Nat}

theorem negative_iff : x.negative = true ↔ 2 ^ f.magnitudeWidth ≤ x.toNat := by
  have hlt : x.toNat < 2 ^ f.magnitudeWidth * 2 := x.bits.isLt
  have hpos := Nat.two_pow_pos f.magnitudeWidth
  rw [negative, decide_eq_true_iff, Nat.shiftRight_eq_div_pow, Nat.div_eq_iff hpos]
  omega

theorem magnitude_lt (x : Binary f) : x.magnitude < 2 ^ f.magnitudeWidth := by
  have hlt : x.toNat < 2 ^ f.magnitudeWidth * 2 := x.bits.isLt
  rw [magnitude, Nat.one_shiftLeft]
  split
  · omega
  · rename_i h
    rw [negative_iff] at h
    omega

theorem eq_of_parts {y : Binary f} (hsign : x.negative = y.negative)
    (hmagnitude : x.magnitude = y.magnitude) : x = y := by
  have hx := negative_iff (x := x)
  have hy := negative_iff (x := y)
  rw [magnitude, magnitude, hsign, Nat.one_shiftLeft] at hmagnitude
  rw [hsign] at hx
  have hnat : x.toNat = y.toNat := by
    split at hmagnitude
    · rename_i hnegative
      have hxle := hx.mp hnegative
      have hyle := hy.mp hnegative
      omega
    · exact hmagnitude
  obtain ⟨_⟩ := x
  obtain ⟨_⟩ := y
  exact congrArg Binary.mk (BitVec.eq_of_toNat_eq hnat)

theorem toNat_ofParts (negative : Bool) (hm : m < 2 ^ f.magnitudeWidth) :
    (ofParts negative m : Binary f).toNat =
      if negative then m + 2 ^ f.magnitudeWidth else m := by
  have hwidth : 2 ^ f.width = 2 ^ f.magnitudeWidth * 2 := rfl
  rw [ofParts, ofBits, toNat, BitVec.toNat_ofNat, Nat.one_shiftLeft]
  apply Nat.mod_eq_of_lt
  split <;> omega

theorem negative_ofParts (negative : Bool) (hm : m < 2 ^ f.magnitudeWidth) :
    (ofParts negative m : Binary f).negative = negative := by
  rw [Bool.eq_iff_iff, negative_iff, toNat_ofParts negative hm]
  cases negative <;> simp [hm]

theorem magnitude_ofParts (negative : Bool) (hm : m < 2 ^ f.magnitudeWidth) :
    (ofParts negative m : Binary f).magnitude = m := by
  rw [magnitude, negative_ofParts negative hm, toNat_ofParts negative hm, Nat.one_shiftLeft]
  cases negative <;> simp

theorem isNaN_of_isFinite (hx : x.isFinite = true) : x.isNaN = false := by
  rw [isFinite, decide_eq_true_iff] at hx
  rw [isNaN, decide_eq_false_iff_not]
  omega

theorem isInfinite_of_isFinite (hx : x.isFinite = true) : x.isInfinite = false := by
  rw [isFinite, decide_eq_true_iff] at hx
  rw [isInfinite, decide_eq_false_iff_not]
  omega

theorem isNaN_ofParts_of_le (negative : Bool) (hm : m ≤ f.infinity) :
    (ofParts negative m : Binary f).isNaN = false := by
  have hlt := f.infinity_lt
  rw [isNaN, magnitude_ofParts negative (by omega)]
  simpa using hm

end Parts

section Order

variable {f : Format} {x : Binary f}

theorem rank_inj {y : Binary f} : x.rank = y.rank ↔ x = y := by
  refine ⟨fun h => ?_, congrArg rank⟩
  rw [rank, rank] at h
  cases hx : x.negative <;> cases hy : y.negative <;>
    simp only [hx, hy, Bool.false_eq_true, if_true, if_false] at h
  · exact eq_of_parts (hx.trans hy.symm) (by omega)
  · omega
  · omega
  · exact eq_of_parts (hx.trans hy.symm) (by omega)

theorem infinity_lt_rank_iff :
    (f.infinity : Int) < x.rank ↔ x.isNaN = true ∧ x.negative = false := by
  rw [rank, isNaN, decide_eq_true_iff]
  cases x.negative with
  | false => simp
  | true =>
      simp
      omega

theorem rank_lt_iff : x.rank < -(f.infinity : Int) - 1 ↔ x.isNaN = true ∧ x.negative = true := by
  rw [rank, isNaN, decide_eq_true_iff]
  cases x.negative with
  | false =>
      simp
      omega
  | true => simp

/-- Which of the three parts of the total order a bit pattern is in. -/
def tier (x : Binary f) : Nat :=
  if x.isNaN then if x.negative then 0 else 2 else 1

theorem tier_eq_one_iff : x.tier = 1 ↔ x.isNaN = false := by
  cases hx : x.isNaN <;> cases hsign : x.negative <;> simp [tier, hx, hsign]

theorem tier_eq_two_iff : x.tier = 2 ↔ x.isNaN = true ∧ x.negative = false := by
  cases hx : x.isNaN <;> cases hsign : x.negative <;> simp [tier, hx, hsign]

theorem tier_eq_zero_iff : x.tier = 0 ↔ x.isNaN = true ∧ x.negative = true := by
  cases hx : x.isNaN <;> cases hsign : x.negative <;> simp [tier, hx, hsign]

theorem tier_le_one_iff : x.tier ≤ 1 ↔ (x.isNaN = true → x.negative = true) := by
  cases hx : x.isNaN <;> cases hsign : x.negative <;> simp [tier, hx, hsign]

theorem tier_le_two (x : Binary f) : x.tier ≤ 2 := by
  cases hx : x.isNaN <;> cases hsign : x.negative <;> simp [tier, hx, hsign]

theorem tier_mono {y : Binary f} (h : x.rank ≤ y.rank) : x.tier ≤ y.tier := by
  have hle := x.tier_le_two
  have hx2 : x.tier = 2 → y.tier = 2 := by
    rw [tier_eq_two_iff, tier_eq_two_iff, ← infinity_lt_rank_iff, ← infinity_lt_rank_iff]
    omega
  have hy0 : y.tier = 0 → x.tier = 0 := by
    rw [tier_eq_zero_iff, tier_eq_zero_iff, ← rank_lt_iff, ← rank_lt_iff]
    omega
  omega

end Order

section Arithmetic

variable {x y : Binary32}

theorem isNaN_invalid : (invalid : Binary32).isNaN = true := by decide +kernel

theorem isNaN_infinity (negative : Bool) : (infinity negative : Binary32).isNaN = false :=
  isNaN_ofParts_of_le negative (Nat.le_refl _)

theorem quiet_magnitude_lt (x : Binary32) :
    x.magnitude ||| Format.single.quietBit < 2 ^ Format.single.magnitudeWidth :=
  Nat.or_lt_two_pow x.magnitude_lt (by decide)

theorem isNaN_quiet (hx : x.isNaN = true) : x.quiet.isNaN = true := by
  rw [isNaN, decide_eq_true_iff] at hx ⊢
  rw [quiet, magnitude_ofParts _ x.quiet_magnitude_lt]
  exact Nat.lt_of_lt_of_le hx Nat.left_le_or

theorem negative_quiet (x : Binary32) : x.quiet.negative = x.negative := by
  rw [quiet, negative_ofParts _ x.quiet_magnitude_lt]

theorem tier_quiet (hx : x.isNaN = true) : x.quiet.tier = x.tier := by
  rw [tier, tier, isNaN_quiet hx, hx, negative_quiet]

theorem propagate_of_isNaN (hx : x.isNaN = true) (y : Binary32) : propagate x y = some x.quiet :=
  if_pos hx

theorem propagate_eq_none (hx : x.isNaN = false) (hy : y.isNaN = false) : propagate x y = none := by
  rw [propagate, hx, hy]
  rfl

theorem sub_of_isNaN (hx : x.isNaN = true) (y : Binary32) : x - y = x.quiet := by
  have hadd (z : Binary32) : add x z = x.quiet := by rw [add, propagate_of_isNaN hx]
  change sub x y = x.quiet
  rw [sub, hadd, hadd, ite_self]

theorem mul_of_isNaN (hx : x.isNaN = true) (y : Binary32) : x * y = x.quiet := by
  change mul x y = x.quiet
  rw [mul, propagate_of_isNaN hx]

theorem div_of_isNaN (hx : x.isNaN = true) (y : Binary32) : x / y = x.quiet := by
  change div x y = x.quiet
  rw [div, propagate_of_isNaN hx]

theorem exp_of_isNaN (hx : x.isNaN = true) : x.exp = x.quiet :=
  if_pos hx

theorem isZero_eq_false_of_isInfinite (hx : x.isInfinite = true) : x.isZero = false := by
  rw [isInfinite, decide_eq_true_iff] at hx
  rw [isZero, hx]
  decide

theorem isZero_eq_false_of_lt (hx : 0 ≤ x.value) (h : x < y) : y.isZero = false := by
  rw [isZero, decide_eq_false_iff_not]
  intro hmagnitude
  have hvalue : y.value = 0 := by simp [value, hmagnitude]
  have hlt := h.2.2
  omega

theorem isNaN_finite (negative : Bool) (m : Nat) (e : Int) :
    (ofParts negative (Format.single.round m e) : Binary32).isNaN = false :=
  isNaN_ofParts_of_le negative (Format.single.round_le_infinity m e)

theorem mul_cases (hx : x.isNaN = false) (hy : y.isNaN = false) :
    if (x.isInfinite && y.isZero || x.isZero && y.isInfinite) = true then x * y = invalid
    else (x * y).isNaN = false := by
  have hzero := isZero_eq_false_of_isInfinite (x := x)
  have hzero' := isZero_eq_false_of_isInfinite (x := y)
  change if _ then mul x y = invalid else (mul x y).isNaN = false
  rw [mul, propagate_eq_none hx hy]
  cases hinf : x.isInfinite <;> cases hinf' : y.isInfinite
  · simp [isNaN_finite]
  · cases x.isZero <;> simp [hzero' hinf', isNaN_infinity]
  · cases y.isZero <;> simp [hzero hinf, isNaN_infinity]
  · simp [hzero hinf, hzero' hinf', isNaN_infinity]

theorem div_cases (hx : x.isNaN = false) (hy : y.isNaN = false) :
    if (x.isInfinite && y.isInfinite || x.isZero && y.isZero) = true then x / y = invalid
    else (x / y).isNaN = false := by
  have hzero := isZero_eq_false_of_isInfinite (x := x)
  have hzero' := isZero_eq_false_of_isInfinite (x := y)
  change if _ then div x y = invalid else (div x y).isNaN = false
  rw [div, propagate_eq_none hx hy]
  cases hinf : x.isInfinite <;> cases hinf' : y.isInfinite
  · cases y.isZero <;> cases x.isZero <;>
      simp [isNaN_infinity, ofRatio, Format.roundQuotient, isNaN_finite]
  · simp [hzero' hinf', isNaN_ofParts_of_le]
  · simp [hzero hinf, isNaN_infinity]
  · simp

end Arithmetic

end Binary

end Dialogue
