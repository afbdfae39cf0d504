import ArchDiagram.Number.Decimal
import ArchDiagram.Proofs.Exact
import Mathlib.Algebra.Order.Field.Basic
import Mathlib.Tactic.FieldSimp
import Mathlib.Tactic.Linarith
import Mathlib.Tactic.NormNum
import Mathlib.Tactic.Positivity
import Mathlib.Tactic.Ring

/-!
Rounding to the nearest number. The result depends on the exact value alone, it is the value itself
where that is a number, and otherwise it is off by at most half a unit or one part in `2⁵³`.
-/

namespace ArchDiagram

theorem pow10_pos (n : Nat) : 0 < pow10 n :=
  Nat.pow_pos (by decide)

theorem pow2_add (m n : Nat) : pow2 (m + n) = pow2 m * pow2 n :=
  Nat.pow_add 2 m n

theorem pow2_le_pow2 {m n : Nat} (h : m ≤ n) : pow2 m ≤ pow2 n :=
  Nat.pow_le_pow_right (by decide) h

theorem pow10_le_pow10 {m n : Nat} (h : m ≤ n) : pow10 m ≤ pow10 n :=
  Nat.pow_le_pow_right (by decide) h

/-- Three binary digits fit into a decimal one. -/
theorem pow2_le_pow10 (n : Nat) : pow2 (3 * n) ≤ pow10 n := by
  change 2 ^ (3 * n) ≤ 10 ^ n
  rw [pow_mul]
  exact Nat.pow_le_pow_left (by decide) n

theorem pow10_add (m n : Nat) : pow10 (m + n) = pow10 m * pow10 n :=
  Nat.pow_add 10 m n

theorem lt_pow2_log2 (n : Nat) : n < pow2 (n.log2 + 1) :=
  Nat.lt_log2_self

theorem le_log2_of_pow2_le {k n : Nat} (h : pow2 k ≤ n) : k ≤ n.log2 :=
  (Nat.le_log2 ((pow2_pos k).trans_le h).ne').mpr h

theorem cast_pow2 (n : Nat) : ((pow2 n : Nat) : ℚ) = 2 ^ n :=
  Nat.cast_pow 2 n

theorem cast_pow10 (n : Nat) : ((pow10 n : Nat) : ℚ) = 10 ^ n :=
  Nat.cast_pow 10 n

section Quotient

variable {num den : Nat}

theorem roundQuotient_cases (num den : Nat) :
    roundQuotient num den = num / den ∨ roundQuotient num den = num / den + 1 := by
  unfold roundQuotient
  dsimp only
  split
  · exact .inl rfl
  · split
    · exact .inr rfl
    · rcases Nat.mod_two_eq_zero_or_one (num / den) with h | h <;> simp [h]

/-- The rounded quotient is at most one half away. -/
theorem roundQuotient_near (num : Nat) (hden : 0 < den) :
    |(roundQuotient num den : ℚ) - num / den| ≤ 1 / 2 := by
  have hd : (0 : ℚ) < den := Nat.cast_pos.mpr hden
  have hdiv : (num : ℚ) = den * (num / den : Nat) + (num % den : Nat) := by
    exact_mod_cast (Nat.div_add_mod num den).symm
  have hquot : (num : ℚ) / den = (num / den : Nat) + (num % den : Nat) / den := by
    rw [hdiv]
    field_simp
  have hlt : ((num % den : Nat) : ℚ) / den < 1 :=
    (div_lt_one hd).mpr (Nat.cast_lt.mpr (Nat.mod_lt _ hden))
  have hnonneg : (0 : ℚ) ≤ ((num % den : Nat) : ℚ) / den := by positivity
  have hhalf_le (h : 2 * (num % den) ≤ den) : ((num % den : Nat) : ℚ) / den ≤ 1 / 2 := by
    have hc : (2 : ℚ) * (num % den : Nat) ≤ den := by exact_mod_cast h
    rw [div_le_div_iff₀ hd (by norm_num)]
    linarith
  have hhalf_ge (h : den ≤ 2 * (num % den)) : 1 / 2 ≤ ((num % den : Nat) : ℚ) / den := by
    have hc : (den : ℚ) ≤ 2 * (num % den : Nat) := by exact_mod_cast h
    rw [div_le_div_iff₀ (by norm_num) hd]
    linarith
  rw [hquot, abs_le]
  unfold roundQuotient
  dsimp only
  split
  · rename_i h
    have := hhalf_le h.le
    constructor <;> linarith
  · rename_i h₁
    split
    · rename_i h₂
      have := hhalf_ge h₂.le
      push_cast
      constructor <;> linarith
    · rename_i h₂
      have hle := hhalf_le (by omega)
      have hge := hhalf_ge (by omega)
      -- a tie: one of the two neighbours is even
      rcases Nat.mod_two_eq_zero_or_one (num / den) with h | h
      · rw [h, Nat.add_zero]
        constructor <;> linarith
      · rw [h]
        push_cast
        constructor <;> linarith

/-- A whole number less than one half away is the rounded quotient. -/
theorem roundQuotient_eq_of_near (hden : 0 < den) {n : Nat} (h : |(n : ℚ) - num / den| < 1 / 2) :
    roundQuotient num den = n := by
  have hnear := abs_le.mp (roundQuotient_near num hden)
  have hn := abs_lt.mp h
  have hlt : ((roundQuotient num den : ℚ)) < n + 1 := by linarith
  have hgt : ((n : ℚ)) < roundQuotient num den + 1 := by linarith
  have hlt' : roundQuotient num den < n + 1 := by exact_mod_cast hlt
  have hgt' : n < roundQuotient num den + 1 := by exact_mod_cast hgt
  omega

theorem roundQuotient_mul (hden : 0 < den) (n : Nat) : roundQuotient (n * den) den = n := by
  have hd : (den : ℚ) ≠ 0 := Nat.cast_ne_zero.mpr hden.ne'
  apply roundQuotient_eq_of_near hden
  push_cast
  rw [mul_div_cancel_right₀ _ hd, sub_self, abs_zero]
  norm_num

theorem roundQuotient_le (hden : 0 < den) {n : Nat} (h : num ≤ n * den) :
    roundQuotient num den ≤ n := by
  have hd : (0 : ℚ) < den := Nat.cast_pos.mpr hden
  have hnear := abs_le.mp (roundQuotient_near num hden)
  have hquot : (num : ℚ) / den ≤ n := by
    rw [div_le_iff₀ hd]
    exact_mod_cast h
  have hlt : (roundQuotient num den : ℚ) < n + 1 := by linarith
  have hlt' : roundQuotient num den < n + 1 := by exact_mod_cast hlt
  omega

theorem roundQuotient_mul_right {k : Nat} (hk : 0 < k) (num den : Nat) :
    roundQuotient (num * k) (den * k) = roundQuotient num den := by
  have hlow : 2 * (num % den * k) < den * k ↔ 2 * (num % den) < den := by
    rw [← Nat.mul_assoc, Nat.mul_lt_mul_right hk]
  have hhigh : den * k < 2 * (num % den * k) ↔ den < 2 * (num % den) := by
    rw [← Nat.mul_assoc, Nat.mul_lt_mul_right hk]
  unfold roundQuotient
  dsimp only
  rw [Nat.mul_div_mul_right _ _ hk, Nat.mul_mod_mul_right]
  simp only [hlow, hhigh]

end Quotient

namespace Magnitude

/-- The exponent of the last place that is kept. -/
def place (num den : Nat) : Nat :=
  (num / den).log2 - 52

theorem lt_place (num : Nat) {den : Nat} (hden : 0 < den) :
    num < pow2 53 * (den * pow2 (place num den)) := by
  have hle : (num / den).log2 + 1 ≤ 53 + place num den := by
    unfold place
    omega
  have hlt : num / den < pow2 (53 + place num den) := (lt_pow2_log2 _).trans_le (pow2_le_pow2 hle)
  rw [Nat.div_lt_iff_lt_mul hden] at hlt
  calc num < pow2 (53 + place num den) * den := hlt
    _ = pow2 53 * (den * pow2 (place num den)) := by
      rw [pow2_add]
      ring

/-- The places that are kept have 53 binary digits, unless nothing is dropped. -/
theorem place_le {num den : Nat} (hden : 0 < den) (h : place num den ≠ 0) :
    pow2 52 * (den * pow2 (place num den)) ≤ num := by
  have hlog : (num / den).log2 = 52 + place num den := by
    unfold place at h ⊢
    omega
  have hne : num / den ≠ 0 := by
    intro hz
    rw [place, hz] at h
    exact h rfl
  have hle : pow2 (52 + place num den) ≤ num / den := hlog ▸ Nat.log2_self_le hne
  rw [Nat.le_div_iff_mul_le hden] at hle
  calc pow2 52 * (den * pow2 (place num den)) = pow2 (52 + place num den) * den := by
        rw [pow2_add]
        ring
    _ ≤ num := hle

theorem units_of_round? {num den : Nat} (hden : 0 < den) {m : Magnitude}
    (h : round? num den = some m) :
    m.units = roundQuotient num (den * pow2 (place num den)) * pow2 (place num den) := by
  unfold round? at h
  dsimp only at h
  split at h
  · split at h
    · cases h
      rfl
    · cases h
  · rename_i hm
    have hm : ¬roundQuotient num (den * pow2 (place num den)) < pow2 53 := hm
    split at h
    · cases h
      -- rounding up reached the next power of two
      have hle := roundQuotient_le (Nat.mul_pos hden (pow2_pos _)) (lt_place num hden).le
      have heq : roundQuotient num (den * pow2 (place num den)) = pow2 53 := by omega
      dsimp only
      rw [heq]
      change pow2 52 * pow2 (place num den + 1) = pow2 (52 + 1) * pow2 (place num den)
      rw [pow2_add, pow2_add]
      ring
    · cases h

/-- What is rounded is off by at most half a unit or one part in `2⁵³`. -/
theorem round?_near {num den : Nat} (hden : 0 < den) {m : Magnitude}
    (h : round? num den = some m) :
    |(m.units : ℚ) - num / den| ≤ max (1 / 2) ((num : ℚ) / den / 2 ^ 53) := by
  have hd : (0 : ℚ) < den := Nat.cast_pos.mpr hden
  have hp : (0 : ℚ) < 2 ^ place num den := by positivity
  have hnear := roundQuotient_near num (Nat.mul_pos hden (pow2_pos (place num den)))
  have hunits := units_of_round? hden h
  push_cast [cast_pow2] at hnear
  have herror : |(m.units : ℚ) - num / den| ≤ 2 ^ place num den / 2 := by
    rw [hunits]
    push_cast [cast_pow2]
    have hfactor : (roundQuotient num (den * pow2 (place num den)) : ℚ) * 2 ^ place num den -
        num / den = (roundQuotient num (den * pow2 (place num den)) -
          num / (den * 2 ^ place num den)) * 2 ^ place num den := by
      field_simp
    rw [hfactor, abs_mul, abs_of_pos hp]
    calc _ ≤ 1 / 2 * (2 : ℚ) ^ place num den := mul_le_mul_of_nonneg_right hnear hp.le
      _ = 2 ^ place num den / 2 := by ring
  by_cases hplace : place num den = 0
  · rw [hplace, pow_zero] at herror
    exact herror.trans (le_max_left _ _)
  · refine (herror.trans ?_).trans (le_max_right _ _)
    have hle : ((pow2 52 * (den * pow2 (place num den)) : Nat) : ℚ) ≤ num :=
      Nat.cast_le.mpr (place_le hden hplace)
    push_cast [cast_pow2] at hle
    rw [div_div, div_le_div_iff₀ (by norm_num) (by positivity)]
    linarith

theorem round?_eq_some {num den : Nat}
    (h : roundQuotient num (den * pow2 (place num den)) < pow2 53) (he : place num den ≤ 2045)
    {m : Magnitude}
    (hm : roundQuotient num (den * pow2 (place num den)) * pow2 (place num den) = m.units) :
    round? num den = some m := by
  have hround : round? num den =
      some ⟨roundQuotient num (den * pow2 (place num den)) * pow2 (place num den), _, _, h, he, rfl⟩ :=
    (dif_pos h).trans (dif_pos he)
  rw [hround, Option.some.injEq]
  exact ext hm

/-- A number is rounded to itself. -/
theorem round?_units (m : Magnitude) : round? m.units 1 = some m := by
  obtain ⟨a, b, ha, hb, hab⟩ := m.representable
  have hplace : place m.units 1 ≤ b := by
    by_cases hz : m.units = 0
    · simp [place, hz]
    · have hlt : m.units < pow2 (53 + b) := by
        rw [hab, pow2_add]
        exact Nat.mul_lt_mul_of_pos_right ha (pow2_pos b)
      have hlog := (Nat.log2_lt hz).mpr hlt
      rw [place, Nat.div_one]
      omega
  have hlt := lt_place m.units Nat.one_pos
  obtain ⟨e, he⟩ : ∃ e, place m.units 1 = e := ⟨_, rfl⟩
  rw [he] at hplace hlt
  -- no place that is dropped holds anything
  have hsplit : m.units = a * pow2 (b - e) * (1 * pow2 e) := by
    rw [Nat.one_mul, Nat.mul_assoc, ← pow2_add, Nat.sub_add_cancel hplace]
    exact hab
  have hround : roundQuotient m.units (1 * pow2 e) = a * pow2 (b - e) := by
    rw [hsplit]
    exact roundQuotient_mul (Nat.mul_pos Nat.one_pos (pow2_pos e)) _
  have hsmall : a * pow2 (b - e) < pow2 53 := by
    rw [hsplit] at hlt
    exact Nat.lt_of_mul_lt_mul_right hlt
  apply round?_eq_some
  · rw [he, hround]
    exact hsmall
  · rw [he]
    omega
  · rw [he, hround, hsplit, Nat.one_mul]

theorem round?_mul_right {k : Nat} (hk : 0 < k) (num den : Nat) :
    round? (num * k) (den * k) = round? num den := by
  have hquot : num * k / (den * k) = num / den := Nat.mul_div_mul_right _ _ hk
  have hround (e : Nat) : roundQuotient (num * k) (den * k * pow2 e) =
      roundQuotient num (den * pow2 e) := by
    rw [Nat.mul_right_comm]
    exact roundQuotient_mul_right hk _ _
  unfold round?
  dsimp only
  simp only [hquot, hround]

/-- Rounding depends on the exact value alone. -/
theorem round?_congr {num den num' den' : Nat} (hden : 0 < den) (hden' : 0 < den')
    (h : (num : ℚ) / den = num' / den') : round? num den = round? num' den' := by
  have hd : (den : ℚ) ≠ 0 := Nat.cast_ne_zero.mpr hden.ne'
  have hd' : (den' : ℚ) ≠ 0 := Nat.cast_ne_zero.mpr hden'.ne'
  have hcross : num * den' = num' * den := by
    have := (div_eq_div_iff hd hd').mp h
    exact_mod_cast this
  calc round? num den = round? (num * den') (den * den') := (round?_mul_right hden' _ _).symm
    _ = round? (num' * den) (den' * den) := by rw [hcross, Nat.mul_comm den]
    _ = round? num' den' := round?_mul_right hden _ _

end Magnitude

end ArchDiagram
