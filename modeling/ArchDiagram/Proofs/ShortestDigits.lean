import ArchDiagram.Proofs.Rounding
import Mathlib.Algebra.Order.Field.Power

/-!
Decimals that are read back. What a decimal is read as depends on its value alone; the shortest
decimal of a number is read back as it, and no power of ten lies between the two.
-/

namespace ArchDiagram

theorem zpow_ten (e : ℤ) : (10 : ℚ) ^ e = pow10 e.toNat / pow10 (-e).toNat := by
  rw [cast_pow10, cast_pow10]
  rcases le_total 0 e with h | h
  · obtain ⟨n, rfl⟩ := Int.eq_ofNat_of_zero_le h
    simp
  · obtain ⟨n, hn⟩ := Int.eq_ofNat_of_zero_le (neg_nonneg.mpr h)
    obtain rfl : e = -n := by omega
    simp

theorem zpow_ten_sub (a b : ℕ) : (10 : ℚ) ^ ((a : ℤ) - b) = pow10 a / pow10 b := by
  rw [zpow_sub₀ (by norm_num), zpow_natCast, zpow_natCast, cast_pow10, cast_pow10]

/-- A number other than zero with its count of digits. -/
theorem length_toDigits_bounds {n : Nat} (hn : n ≠ 0) :
    pow10 ((Nat.toDigits 10 n).length - 1) ≤ n ∧ n < pow10 (Nat.toDigits 10 n).length := by
  have hpos : 0 < (Nat.toDigits 10 n).length := Nat.length_toDigits_pos
  refine ⟨?_, (Nat.length_toDigits_le_iff (by decide) hpos).mp le_rfl⟩
  by_contra hlt
  rw [not_le] at hlt
  by_cases hone : (Nat.toDigits 10 n).length - 1 = 0
  · rw [hone] at hlt
    exact hn (Nat.lt_one_iff.mp hlt)
  · have hle := (Nat.length_toDigits_le_iff (by decide) (Nat.pos_of_ne_zero hone)).mpr hlt
    omega

theorem one_pos : 0 < Magnitude.one :=
  pow2_pos 1074

namespace Magnitude

theorem round?_eq_none {num den : Nat} (h : 2045 < place num den) : round? num den = none := by
  have h' : ¬(num / den).log2 - 52 ≤ 2045 := by
    unfold place at h
    omega
  have h'' : ¬(num / den).log2 - 52 + 1 ≤ 2045 := by omega
  unfold round?
  dsimp only
  split
  · rfl
  · rfl

/-- Less than half a unit is rounded to zero. -/
theorem round?_of_small {num den : Nat} (h : 2 * num < den) : round? num den = some zero := by
  have hden : 0 < den := by omega
  have hplace : place num den = 0 := by simp [place, Nat.div_eq_of_lt (by omega : num < den)]
  have hround : roundQuotient num den = 0 := by
    unfold roundQuotient
    dsimp only
    rw [Nat.div_eq_of_lt (by omega), Nat.mod_eq_of_lt (by omega), if_pos h]
  have hone : den * pow2 0 = den := Nat.mul_one den
  apply round?_eq_some
  · rw [hplace, hone, hround]
    exact pow2_pos 53
  · omega
  · rw [hplace, hone, hround]
    rfl

/-- The exact value. -/
def value (m : Magnitude) : ℚ :=
  m.units / one

end Magnitude

namespace Decimal

open Magnitude

/-- The exact value. -/
def value (d : Decimal) : ℚ :=
  d.digits * 10 ^ d.exponent

theorem value_neg (n places : ℕ) : value ⟨n, -(places : ℤ)⟩ = n / pow10 places := by
  rw [value, zpow_neg, zpow_natCast, cast_pow10, div_eq_mul_inv]

/-- A unit of some binary places has as many decimal ones. -/
theorem value_fives (n places : ℕ) :
    value ⟨n * Nat.pow 5 places, -(places : ℤ)⟩ = n / pow2 places := by
  have hfive : (0 : ℚ) < (Nat.pow 5 places : ℕ) := Nat.cast_pos.mpr (Nat.pow_pos (by decide))
  have hten : pow10 places = pow2 places * Nat.pow 5 places := Nat.mul_pow 2 5 places
  rw [value_neg, hten, Nat.cast_mul, Nat.cast_mul, mul_div_mul_right _ _ hfive.ne']

/-- The units in a decimal, as a quotient. -/
def num (d : Decimal) : Nat :=
  d.digits * pow10 d.exponent.toNat * one

def den (d : Decimal) : Nat :=
  pow10 (-d.exponent).toNat

theorem den_pos (d : Decimal) : 0 < d.den :=
  pow10_pos _

theorem num_div_den (d : Decimal) : (d.num : ℚ) / d.den = d.value * one := by
  rw [value, zpow_ten, num, den]
  push_cast
  ring

/-- The exponents that are decided at once are read as any others. -/
theorem magnitude?_eq (d : Decimal) : d.magnitude? = round? d.num d.den := by
  unfold magnitude?
  split
  · rename_i hz
    have hnum : d.num = 0 := by simp [num, hz]
    rw [hnum, round?_of_small (by simpa using d.den_pos)]
  rename_i hz
  split
  · rename_i hlarge
    symm
    apply round?_eq_none
    have hden : d.den = 1 := by
      rw [den, show (-d.exponent).toNat = 0 by omega]
      rfl
    have hexp : pow2 (3 * 401) ≤ pow10 d.exponent.toNat :=
      (pow2_le_pow10 401).trans (pow10_le_pow10 (by omega))
    have hle : pow2 (3 * 401 + 1074) ≤ d.num := by
      rw [num, pow2_add]
      exact Nat.mul_le_mul_right _ (hexp.trans (Nat.le_mul_of_pos_left _ (Nat.pos_of_ne_zero hz)))
    have hlog := le_log2_of_pow2_le hle
    rw [place, hden, Nat.div_one]
    omega
  · split
    · rename_i hsmall
      symm
      apply round?_of_small
      have hnum : d.num = d.digits * one := by
        rw [num, show d.exponent.toNat = 0 by omega]
        exact congrArg (· * one) (Nat.mul_one _)
      have hlog := lt_pow2_log2 d.digits
      calc 2 * d.num < 2 * (pow2 (d.digits.log2 + 1) * one) := by
            rw [hnum]
            have := Nat.mul_lt_mul_of_pos_right hlog one_pos
            omega
        _ = pow2 (1 + (d.digits.log2 + 1) + 1074) := by
            rw [pow2_add _ 1074, pow2_add 1, Nat.mul_assoc]
            rfl
        _ ≤ pow2 (3 * (-d.exponent).toNat) := pow2_le_pow2 (by omega)
        _ ≤ d.den := pow2_le_pow10 _
    · split
      · rename_i hnonneg
        rw [num, den, show (-d.exponent).toNat = 0 by omega]
        rfl
      · rename_i hneg
        rw [num, den, show d.exponent.toNat = 0 by omega]
        exact congrArg (fun n => round? (n * one) _) (Nat.mul_one _).symm

theorem magnitude?_congr {d d' : Decimal} (h : d.value = d'.value) :
    d.magnitude? = d'.magnitude? := by
  rw [magnitude?_eq, magnitude?_eq]
  apply round?_congr d.den_pos d'.den_pos
  rw [num_div_den, num_div_den, h]

theorem readsAs_iff {d : Decimal} {m : Magnitude} :
    d.readsAs m = true ↔ d.magnitude? = some m := by
  unfold readsAs
  rw [Option.any_eq_true]
  constructor
  · rintro ⟨n, hn, he⟩
    obtain rfl : n = m := Magnitude.ext (by simpa using he)
    exact hn
  · intro h
    exact ⟨m, h, by simp⟩

theorem readsAs_congr {d d' : Decimal} (h : d.value = d'.value) (m : Magnitude) :
    d.readsAs m = d'.readsAs m := by
  rw [readsAs, readsAs, magnitude?_congr h]

/-- A decimal that has the value of a number is read as it. -/
theorem readsAs_of_value {d : Decimal} {m : Magnitude} (h : d.value = m.value) :
    d.readsAs m = true := by
  have hone : (one : ℚ) ≠ 0 := Nat.cast_ne_zero.mpr one_pos.ne'
  rw [readsAs_iff, magnitude?_eq, ← round?_units m]
  apply round?_congr d.den_pos Nat.one_pos
  rw [num_div_den, h, Magnitude.value, div_mul_cancel₀ _ hone, Nat.cast_one, div_one]

/-- What a decimal is read as is close to it. -/
theorem near_of_readsAs {d : Decimal} {m : Magnitude} (h : d.readsAs m = true) :
    |m.value - d.value| ≤ max (1 / (2 * (one : ℚ))) (d.value / 2 ^ 53) := by
  have hone : (0 : ℚ) < one := Nat.cast_pos.mpr one_pos
  rw [readsAs_iff, magnitude?_eq] at h
  have hnear := round?_near d.den_pos h
  rw [num_div_den] at hnear
  have hunits : (m.units : ℚ) = m.value * one := by
    rw [Magnitude.value, div_mul_cancel₀ _ hone.ne']
  have hscaled : |m.value - d.value| * one ≤ max (1 / 2) (d.value * one / 2 ^ 53) := by
    rw [hunits, ← sub_mul, abs_mul, abs_of_pos hone] at hnear
    exact hnear
  rw [← le_div_iff₀ hone, ← max_div_div_right hone.le] at hscaled
  refine hscaled.trans (max_le_max (le_of_eq ?_) (le_of_eq ?_))
  · field_simp
  · field_simp

end Decimal

namespace Magnitude

theorem value_nonneg (m : Magnitude) : 0 ≤ m.value := by
  unfold value
  positivity

/-- The digits of the whole part give the position of the point. -/
theorem value_pointPosition {m : Magnitude} (h : m.units ≠ 0) :
    (10 : ℚ) ^ (m.pointPosition - 1) ≤ m.value ∧ m.value < 10 ^ m.pointPosition := by
  have hone : (0 : ℚ) < one := Nat.cast_pos.mpr one_pos
  have hscale : (0 : ℚ) < pow10 330 := Nat.cast_pos.mpr (pow10_pos 330)
  obtain ⟨w, hw⟩ : ∃ w, w = m.units * pow10 330 / one := ⟨_, rfl⟩
  obtain ⟨len, hlen⟩ : ∃ len, len = (Nat.toDigits 10 w).length := ⟨_, rfl⟩
  have hpoint : m.pointPosition = (len : ℤ) - (330 : ℕ) := by
    rw [hlen, hw]
    rfl
  have hpos : 0 < len := hlen ▸ Nat.length_toDigits_pos
  -- the least positive number has a digit before the point that far to the right
  have hsome : w ≠ 0 := by
    have hle : one ≤ m.units * pow10 330 :=
      (by decide +kernel : one ≤ pow10 330).trans (Nat.le_mul_of_pos_left _ (Nat.pos_of_ne_zero h))
    rw [hw]
    exact (Nat.div_pos hle one_pos).ne'
  obtain ⟨hlower, hupper⟩ := length_toDigits_bounds hsome
  rw [← hlen] at hlower hupper
  rw [hw, Nat.le_div_iff_mul_le one_pos] at hlower
  rw [hw, Nat.div_lt_iff_lt_mul one_pos] at hupper
  have hlower' : (pow10 (len - 1) : ℚ) * one ≤ m.units * pow10 330 := by exact_mod_cast hlower
  have hupper' : (m.units : ℚ) * pow10 330 < pow10 len * one := by exact_mod_cast hupper
  constructor
  · have hexp : m.pointPosition - 1 = ((len - 1 : ℕ) : ℤ) - (330 : ℕ) := by omega
    rw [hexp, zpow_ten_sub, value, div_le_div_iff₀ hscale hone]
    exact hlower'
  · rw [hpoint, zpow_ten_sub, value, div_lt_div_iff₀ hone hscale]
    exact hupper'

theorem grid_quotient (m : Magnitude) (e : ℤ) :
    ((m.units * pow10 (-e).toNat : ℕ) : ℚ) / (one * pow10 e.toNat : ℕ) = m.value * 10 ^ (-e) := by
  rw [zpow_ten, neg_neg, value]
  push_cast
  rw [div_mul_div_comm]

/-- The neighbour of `num / den` at an exponent that is read back as `m`, the nearest if both are. -/
def neighbour? (m : Magnitude) (num den : Nat) (exponent : ℤ) : Option Decimal :=
  match Decimal.readsAs ⟨num / den, exponent⟩ m, Decimal.readsAs ⟨num / den + 1, exponent⟩ m with
  | true, true => some ⟨roundQuotient num den, exponent⟩
  | true, false => some ⟨num / den, exponent⟩
  | false, true => some ⟨num / den + 1, exponent⟩
  | false, false => none

theorem onGrid?_eq (m : Magnitude) (n : Nat) :
    m.onGrid? n = m.neighbour? (m.units * pow10 (-(m.pointPosition - n)).toNat)
      (one * pow10 (m.pointPosition - n).toNat) (m.pointPosition - n) :=
  rfl

theorem neighbour?_eq_some {m : Magnitude} {num den : Nat} {exponent : ℤ} {d : Decimal}
    (h : m.neighbour? num den exponent = some d) :
    d.readsAs m = true ∧ d.exponent = exponent ∧
      (d.digits = num / den ∨ d.digits = num / den + 1) := by
  unfold neighbour? at h
  split at h
  · rename_i hlower hupper
    obtain rfl := Option.some.inj h
    rcases roundQuotient_cases num den with hq | hq
    · exact ⟨hq ▸ hlower, rfl, .inl hq⟩
    · exact ⟨hq ▸ hupper, rfl, .inr hq⟩
  · obtain rfl := Option.some.inj h
    exact ⟨by assumption, rfl, .inl rfl⟩
  · obtain rfl := Option.some.inj h
    exact ⟨by assumption, rfl, .inr rfl⟩
  · cases h

/-- Such a decimal lies between the powers of ten around the number. -/
theorem value_of_onGrid? {m : Magnitude} (hm : m.units ≠ 0) {n : Nat} (hn : 0 < n) {d : Decimal}
    (h : m.onGrid? n = some d) :
    (10 : ℚ) ^ (m.pointPosition - 1) ≤ d.value ∧ d.value ≤ 10 ^ m.pointPosition := by
  obtain ⟨hlow, hhigh⟩ := value_pointPosition hm
  rw [onGrid?_eq] at h
  obtain ⟨-, hexp, hdigits⟩ := neighbour?_eq_some h
  rw [← hexp] at hdigits
  have hden : 0 < one * pow10 d.exponent.toNat := Nat.mul_pos one_pos (pow10_pos _)
  have hdenq : (0 : ℚ) < (one * pow10 d.exponent.toNat : ℕ) := Nat.cast_pos.mpr hden
  have hquot := grid_quotient m d.exponent
  have hscale : (0 : ℚ) < 10 ^ (-d.exponent) := zpow_pos (by norm_num) _
  -- the powers of ten around the number, on the grid
  have hpow : (10 : ℚ) ^ m.pointPosition = pow10 n * 10 ^ d.exponent := by
    rw [cast_pow10, ← zpow_natCast, ← zpow_add₀ (by norm_num), hexp, add_sub_cancel]
  have hpow' : (10 : ℚ) ^ (m.pointPosition - 1) = pow10 (n - 1) * 10 ^ d.exponent := by
    rw [cast_pow10, ← zpow_natCast, ← zpow_add₀ (by norm_num), hexp, Nat.cast_pred hn,
      sub_add_sub_cancel']
  have hcancel : (10 : ℚ) ^ d.exponent * 10 ^ (-d.exponent) = 1 := by
    rw [← zpow_add₀ (by norm_num), add_neg_cancel, zpow_zero]
  obtain ⟨q, hq⟩ : ∃ q, q = m.units * pow10 (-d.exponent).toNat / (one * pow10 d.exponent.toNat) :=
    ⟨_, rfl⟩
  rw [← hq] at hdigits
  have hqlow : pow10 (n - 1) ≤ q := by
    have hle := mul_le_mul_of_nonneg_right hlow hscale.le
    rw [hpow', mul_assoc, hcancel, mul_one, ← hquot, le_div_iff₀ hdenq] at hle
    rw [hq, Nat.le_div_iff_mul_le hden]
    exact_mod_cast hle
  have hqhigh : q < pow10 n := by
    have hlt := mul_lt_mul_of_pos_right hhigh hscale
    rw [hpow, mul_assoc, hcancel, mul_one, ← hquot, div_lt_iff₀ hdenq] at hlt
    rw [hq, Nat.div_lt_iff_lt_mul hden]
    exact_mod_cast hlt
  have hdlow : (pow10 (n - 1) : ℚ) ≤ d.digits := Nat.cast_le.mpr (by omega)
  have hdhigh : (d.digits : ℚ) ≤ pow10 n := Nat.cast_le.mpr (by omega)
  have hunit : (0 : ℚ) < 10 ^ d.exponent := zpow_pos (by norm_num) _
  rw [hpow, hpow']
  exact ⟨mul_le_mul_of_nonneg_right hdlow hunit.le, mul_le_mul_of_nonneg_right hdhigh hunit.le⟩

theorem value_exact (m : Magnitude) : m.exact.value = m.value := by
  rw [exact, value, one, ← Decimal.value_fives m.units 1074, Nat.cast_ofNat]

theorem shortest_cases (m : Magnitude) :
    m.shortest = m.exact ∨ ∃ n, 0 < n ∧ m.onGrid? n = some m.shortest := by
  unfold shortest
  cases h : (List.range 17).findSome? fun i => m.onGrid? (i + 1) with
  | none => exact .inl rfl
  | some d =>
    obtain ⟨i, -, hi⟩ := List.exists_of_findSome?_eq_some h
    exact .inr ⟨i + 1, by omega, hi⟩

/-- The shortest decimal is read back. -/
theorem readsAs_shortest (m : Magnitude) : m.shortest.readsAs m = true := by
  rcases m.shortest_cases with h | ⟨n, -, h⟩
  · rw [h]
    exact Decimal.readsAs_of_value m.value_exact
  · rw [onGrid?_eq] at h
    exact (neighbour?_eq_some h).1

/-- No power of ten lies between a number and its shortest decimal. -/
theorem pow_le_shortest {m : Magnitude} (hm : m.units ≠ 0) {k : ℤ} (h : (10 : ℚ) ^ k ≤ m.value) :
    (10 : ℚ) ^ k ≤ m.shortest.value := by
  rcases m.shortest_cases with hs | ⟨n, hn, hs⟩
  · rw [hs, value_exact]
    exact h
  · have hlt := h.trans_lt (value_pointPosition hm).2
    rw [zpow_lt_zpow_iff_right₀ (by norm_num)] at hlt
    refine le_trans ?_ (value_of_onGrid? hm hn hs).1
    rw [zpow_le_zpow_iff_right₀ (by norm_num)]
    omega

theorem shortest_le_pow {m : Magnitude} (hm : m.units ≠ 0) {k : ℤ} (h : m.value < (10 : ℚ) ^ k) :
    m.shortest.value ≤ (10 : ℚ) ^ k := by
  rcases m.shortest_cases with hs | ⟨n, hn, hs⟩
  · rw [hs, value_exact]
    exact h.le
  · have hlt := (value_pointPosition hm).1.trans_lt h
    rw [zpow_lt_zpow_iff_right₀ (by norm_num)] at hlt
    refine (value_of_onGrid? hm hn hs).2.trans ?_
    rw [zpow_le_zpow_iff_right₀ (by norm_num)]
    omega

end Magnitude

end ArchDiagram
