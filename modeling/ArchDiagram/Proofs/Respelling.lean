import ArchDiagram.Proofs.DecimalText

/-!
Reading plain spellings back. The spelling of a finite number has the narrow form, and from `10⁻⁴`
on it is read back as that number. Below that it has fifteen places, and is read back exactly for
the numbers that are nearest to a multiple of `10⁻¹⁵`.
-/

namespace ArchDiagram

open Text Numeral Magnitude

namespace Decimal

theorem toBinary64_of_readsAs {d : Decimal} {m : Magnitude} (h : d.readsAs m = true) (s : Bool) :
    d.toBinary64 s = .finite s m := by
  rw [toBinary64, readsAs_iff.mp h]

theorem readsAs_of_beq {d : Decimal} {m : Magnitude} {s t : Bool}
    (h : (d.toBinary64 s == .finite t m) = true) : d.readsAs m = true := by
  unfold toBinary64 at h
  cases hm : d.magnitude? with
  | none =>
    rw [hm] at h
    cases h
  | some n =>
    rw [hm] at h
    have hsigned : Binary64.signed s n = Binary64.signed t m := of_decide_eq_true h
    have hunits : n.units = m.units := by
      unfold Binary64.signed at hsigned
      split at hsigned <;> split at hsigned <;> omega
    rw [readsAs_iff, hm, Magnitude.ext hunits]

/-- A sign counts for any number but zero. -/
theorem beq_iff_readsAs {d : Decimal} {m : Magnitude} {s t : Bool} (hs : s = t ∨ m.units = 0) :
    (d.toBinary64 s == .finite t m) = true ↔ d.readsAs m = true := by
  refine ⟨readsAs_of_beq, fun h => ?_⟩
  rw [toBinary64_of_readsAs h]
  rcases hs with rfl | hz
  · exact Binary64.equal_self_of_isFinite rfl
  · have hsigned (b : Bool) : Binary64.signed b m = 0 := by cases b <;> simp [Binary64.signed, hz]
    exact decide_eq_true ((hsigned s).trans (hsigned t).symm)

/-- The power of ten of the first digit. -/
theorem pow_le_value {d : Decimal} (hd : d.digits ≠ 0) :
    (10 : ℚ) ^ (d.exponent + (digitsOf d.digits).length - 1) ≤ d.value ∧
      d.value < 10 ^ (d.exponent + (digitsOf d.digits).length) := by
  have hpow : (0 : ℚ) < 10 ^ d.exponent := zpow_pos (by norm_num) _
  have hpos : 0 < (digitsOf d.digits).length := Nat.length_toDigits_pos
  obtain ⟨hlow, hhigh⟩ := length_toDigits_bounds hd
  change pow10 ((digitsOf d.digits).length - 1) ≤ d.digits at hlow
  change d.digits < pow10 (digitsOf d.digits).length at hhigh
  constructor
  · have hexp : d.exponent + (digitsOf d.digits).length - 1 =
        (((digitsOf d.digits).length - 1 : ℕ) : ℤ) + d.exponent := by omega
    rw [hexp, zpow_add₀ (by norm_num), zpow_natCast, ← cast_pow10]
    exact mul_le_mul_of_nonneg_right (Nat.cast_le.mpr hlow) hpow.le
  · rw [add_comm, zpow_add₀ (by norm_num), zpow_natCast, ← cast_pow10]
    exact mul_lt_mul_of_pos_right (Nat.cast_lt.mpr hhigh) hpow

end Decimal

namespace Magnitude

variable {m : Magnitude}

/-- The power of ten of the first digit of the shortest decimal. -/
def topPlace (m : Magnitude) : ℤ :=
  m.shortest.exponent + (digitsOf m.shortest.digits).length - 1

theorem pow_topPlace (hm : m.units ≠ 0) :
    (10 : ℚ) ^ m.topPlace ≤ m.shortest.value ∧ m.shortest.value < 10 ^ (m.topPlace + 1) := by
  have hdigits : m.shortest.digits ≠ 0 := by
    intro hz
    have hpos := (zpow_pos (by norm_num : (0 : ℚ) < 10) _).trans_le
      (pow_le_shortest hm (value_pointPosition hm).1)
    rw [Decimal.value, hz, Nat.cast_zero, zero_mul] at hpos
    exact lt_irrefl _ hpos
  have hbounds := Decimal.pow_le_value hdigits
  rw [topPlace, sub_add_cancel]
  exact hbounds

/-- A number with a fraction has no more than 53 binary digits before the point. -/
theorem value_lt_of_fraction (h : m.units % one ≠ 0) : m.value < 2 ^ 53 := by
  obtain ⟨a, e, ha, -, hae⟩ := m.representable
  have he : e < 1074 := by
    by_contra hge
    obtain ⟨k, rfl⟩ := Nat.exists_eq_add_of_le (not_lt.mp hge)
    rw [hae, pow2_add, ← Nat.mul_assoc, Nat.mul_right_comm] at h
    exact h (Nat.mul_mod_left _ _)
  have hlt : m.units < pow2 53 * one := by
    calc m.units = a * pow2 e := hae
      _ < pow2 53 * pow2 e := Nat.mul_lt_mul_of_pos_right ha (pow2_pos e)
      _ ≤ pow2 53 * one := Nat.mul_le_mul_left _ (pow2_le_pow2 he.le)
  have hone : (0 : ℚ) < one := Nat.cast_pos.mpr one_pos
  rw [value, div_lt_iff₀ hone, ← cast_pow2]
  exact_mod_cast hlt

theorem half_unit_lt : 1 / (2 * (one : ℚ)) < 1 / (2 * 10 ^ 15) := by
  have hlt : (pow10 15 : ℚ) < one := Nat.cast_lt.mpr (by decide +kernel)
  rw [cast_pow10] at hlt
  apply one_div_lt_one_div_of_lt (by norm_num)
  linarith

/-- The shortest decimal of a number with a fraction is below `10¹⁶`. -/
theorem shortest_lt_of_fraction (h : m.units % one ≠ 0) : m.shortest.value < 10 ^ (16 : ℤ) := by
  have hsmall := value_lt_of_fraction h
  have hhalf := half_unit_lt
  have hnear := Decimal.near_of_readsAs m.readsAs_shortest
  generalize 1 / (2 * (one : ℚ)) = half at hhalf hnear
  by_contra hge
  rw [not_lt] at hge
  norm_num at hge hsmall hhalf
  rcases le_max_iff.mp hnear with hnear | hnear
  · have hle := (abs_le.mp hnear).1
    norm_num at hle
    linarith
  · have hle := (abs_le.mp hnear).1
    norm_num at hle
    linarith

/-- From `10⁻⁴` on a number with a fraction is shown without an exponent. -/
theorem isPositional_of_le (hm : m.units ≠ 0) (hfrac : m.units % one ≠ 0)
    (h : (10 : ℚ) ^ (-4 : ℤ) ≤ m.value) : Binary64.isPositional m.topPlace = true := by
  obtain ⟨hlow, hhigh⟩ := pow_topPlace hm
  have hge := (pow_le_shortest hm h).trans_lt hhigh
  have hlt := hlow.trans_lt (shortest_lt_of_fraction hfrac)
  rw [zpow_lt_zpow_iff_right₀ (by norm_num)] at hge hlt
  simp only [Binary64.isPositional, Bool.and_eq_true, decide_eq_true_eq]
  omega

theorem pow_le_of_isPositional (hm : m.units ≠ 0) (h : Binary64.isPositional m.topPlace = true) :
    (10 : ℚ) ^ (-4 : ℤ) ≤ m.shortest.value := by
  refine le_trans ?_ (pow_topPlace hm).1
  rw [zpow_le_zpow_iff_right₀ (by norm_num)]
  simp only [Binary64.isPositional, Bool.and_eq_true, decide_eq_true_eq] at h
  exact h.1

/-- Below `10⁻⁴` the fifteen places of a number are those of any multiple of `10⁻¹⁵` that it is
nearest to. -/
theorem roundQuotient_of_readsAs {n : Nat} (h : m.value < 10 ^ (-4 : ℤ))
    (hn : (⟨n, -15⟩ : Decimal).readsAs m = true) : roundQuotient (m.units * pow10 15) one = n := by
  have hone : (0 : ℚ) < one := Nat.cast_pos.mpr one_pos
  have hvalue : (⟨n, -15⟩ : Decimal).value = n / 10 ^ 15 := by
    rw [← cast_pow10]
    exact Decimal.value_neg n 15
  have hscaled : ((m.units * pow10 15 : ℕ) : ℚ) / one = m.value * 10 ^ 15 := by
    rw [Nat.cast_mul, cast_pow10, value]
    ring
  have hhalf := half_unit_lt
  have hnear := Decimal.near_of_readsAs hn
  generalize 1 / (2 * (one : ℚ)) = half at hhalf hnear
  apply roundQuotient_eq_of_near one_pos
  rw [hscaled, abs_lt]
  norm_num at h hhalf
  rcases le_max_iff.mp hnear with hnear | hnear
  · obtain ⟨hlow, hhigh⟩ := abs_le.mp hnear
    rw [hvalue] at hlow hhigh
    norm_num at hlow hhigh ⊢
    constructor <;> linarith
  · obtain ⟨hlow, hhigh⟩ := abs_le.mp hnear
    rw [hvalue] at hlow hhigh
    norm_num at hlow hhigh ⊢
    constructor <;> linarith

end Magnitude

namespace Binary64

variable {m : Magnitude}

theorem exponent_not_mem_placed {ds : List Char} {e : ℤ} (hd : Digits ds)
    (he : isPositional e = true) : 'e' ∉ placed ds e := by
  obtain ⟨ws, fs, -, hw, hf, hplaced⟩ := exists_point_of_placed hd he
  have hnone {cs : List Char} (h : Digits cs) : 'e' ∉ cs :=
    fun hc => absurd (h _ hc) (by decide)
  rw [hplaced]
  simp [hnone hw, hnone hf]

/-- The three spellings of a number: whole, shown, or with fifteen places. -/
theorem plain_of_fraction (s : Bool) (hfrac : m.units % one ≠ 0) :
    plain (finite s m) = sign s ++
      if isPositional m.topPlace then shownMagnitude m else stripped (fixed 15 m) := by
  have hm : m.units ≠ 0 := fun hz => hfrac (by rw [hz, Nat.zero_mod])
  have hsign : 'e' ∉ sign s := by cases s <;> decide
  have hshown : shownMagnitude m = placed (dropZeros (digitsOf m.shortest.digits)) m.topPlace :=
    if_neg hm
  have hd : Digits (dropZeros (digitsOf m.shortest.digits)) :=
    fun c hc => digits_digitsOf _ c (mem_of_mem_dropZeros hc)
  unfold plain
  dsimp only
  rw [if_neg hfrac, shown, hshown]
  cases he : isPositional m.topPlace with
  | true =>
    have hmark := exponent_not_mem_placed hd he
    rw [if_neg (by simp [hsign, hmark]), if_pos rfl]
  | false =>
    have hmark := @exponent_mem_placed (dropZeros (digitsOf m.shortest.digits)) _ he
    rw [if_pos (by simp [hmark]), if_neg (by simp)]

/-- Whether a number is not below `10⁻⁴` or nearest to some number with fifteen places. -/
def Lossless (m : Magnitude) : Prop :=
  (10 : ℚ) ^ (-4 : ℤ) ≤ m.value ∨ ∃ n : Nat, (⟨n, -15⟩ : Decimal).readsAs m = true

theorem value_of_whole (h : m.units % one = 0) : m.value = (m.units / one : ℕ) := by
  have hunits : (m.units : ℚ) = (m.units / one : ℕ) * one := by
    exact_mod_cast (Nat.div_mul_cancel (Nat.dvd_of_mod_eq_zero h)).symm
  have hone : (one : ℚ) ≠ 0 := Nat.cast_ne_zero.mpr one_pos.ne'
  rw [Magnitude.value, hunits, mul_div_cancel_right₀ _ hone]

theorem value_places (n : ℕ) : (⟨n, -15⟩ : Decimal).value = n / pow10 15 :=
  Decimal.value_neg n 15

theorem lossless_of_whole (h : m.units % one = 0) : Lossless m := by
  have hten : (pow10 15 : ℚ) ≠ 0 := Nat.cast_ne_zero.mpr (pow10_pos 15).ne'
  refine .inr ⟨m.units / one * pow10 15, Decimal.readsAs_of_value ?_⟩
  rw [value_places, value_of_whole h, Nat.cast_mul, mul_div_cancel_right₀ _ hten]

/-- A small number that is shown without an exponent is nearest to `10⁻⁴`. -/
theorem lossless_of_isPositional (hm : m.units ≠ 0) (he : isPositional m.topPlace = true) :
    Lossless m := by
  by_cases hle : (10 : ℚ) ^ (-4 : ℤ) ≤ m.value
  · exact .inl hle
  · have heq : m.shortest.value = (10 : ℚ) ^ (-4 : ℤ) :=
      le_antisymm (shortest_le_pow hm (not_le.mp hle)) (pow_le_of_isPositional hm he)
    have hsame : (⟨pow10 11, -15⟩ : Decimal).value = m.shortest.value := by
      rw [value_places, heq, cast_pow10, cast_pow10]
      norm_num
    exact .inr ⟨pow10 11, (Decimal.readsAs_congr hsame m).trans m.readsAs_shortest⟩

/-- The decimal that the plain spelling of a number is read as. -/
theorem real?_plain (s : Bool) (m : Magnitude) :
    ∃ (t : Bool) (d : Decimal), real? (plain (finite s m)) = some (d.toBinary64 t) ∧
      (t = s ∨ m.units = 0) ∧ (d.readsAs m = true ↔ Lossless m) := by
  have hform := @isNumeral_plain (finite s m) rfl
  by_cases hwhole : m.units % one = 0
  · have hplain : plain (finite s m) = sign (s && m.units != 0) ++ digitsOf (m.units / one) :=
      if_pos hwhole
    have hvalue : (⟨m.units / one, 0⟩ : Decimal).value = (m.units / one : ℕ) := by
      rw [Decimal.value, zpow_zero, mul_one]
    rw [hplain] at hform ⊢
    refine ⟨_, ⟨m.units / one, 0⟩, real?_of_denotes hform (denotes_digitsOf _) hvalue, ?_, ?_⟩
    · by_cases hz : m.units = 0
      · exact .inr hz
      · exact .inl (by simp [hz])
    · exact iff_of_true (Decimal.readsAs_of_value (hvalue.trans (value_of_whole hwhole).symm))
        (lossless_of_whole hwhole)
  · have hm : m.units ≠ 0 := fun hz => hwhole (by rw [hz, Nat.zero_mod])
    rw [plain_of_fraction s hwhole] at hform ⊢
    cases he : isPositional m.topPlace with
    | true =>
      rw [he, if_pos rfl] at hform
      rw [if_pos rfl]
      exact ⟨s, m.shortest, real?_of_denotes hform (denotes_shown hm he) rfl, .inl rfl,
        iff_of_true m.readsAs_shortest (lossless_of_isPositional hm he)⟩
    | false =>
      rw [he, if_neg (by simp)] at hform
      rw [if_neg (by simp)]
      have hsmall : m.value < 10 ^ (-4 : ℤ) := by
        by_contra hge
        rw [isPositional_of_le hm hwhole (not_lt.mp hge)] at he
        cases he
      have hdenotes := denotes_fixed (by decide : 0 < 15) m
      refine ⟨s, _, real?_of_denotes hform hdenotes (value_places _), .inl rfl, ?_, ?_⟩
      · intro hreads
        exact .inr ⟨_, hreads⟩
      · rintro (hle | ⟨n, hn⟩)
        · exact absurd hle (not_le.mpr hsmall)
        · rw [roundQuotient_of_readsAs hsmall hn]
          exact hn

theorem abs_exact (s : Bool) (m : Magnitude) : |(finite s m).exact| = m.value := by
  have hvalue := m.value_nonneg
  unfold Magnitude.value at hvalue ⊢
  cases s with
  | true =>
    rw [exact, signed, if_pos rfl, Int.cast_neg, Int.cast_natCast, neg_div, abs_neg,
      abs_of_nonneg hvalue]
  | false =>
    rw [exact, signed, if_neg (by simp), Int.cast_natCast, abs_of_nonneg hvalue]

/-- The plain spelling of a finite number has the narrow form, and is read back as the same number
if and only if it is not below `10⁻⁴` or is nearest to some number with fifteen places. -/
theorem plain_read_back_iff {v : Binary64} (h : v.isFinite = true) :
    NumberForm v.plain ∧ ∃ w, real? v.plain = some w ∧
      ((w == v) = true ↔ 1 / 10 ^ 4 ≤ |v.exact| ∨
        ∃ (s : Bool) (n : Nat), ((⟨n, -15⟩ : Decimal).toBinary64 s == v) = true) := by
  refine ⟨(isNumeral_iff _).mp (isNumeral_plain h), ?_⟩
  cases v with
  | nan | infinite => cases h
  | finite s m =>
    obtain ⟨t, d, hread, ht, hd⟩ := real?_plain s m
    have hpow : (1 / 10 ^ 4 : ℚ) = 10 ^ (-4 : ℤ) := by norm_num
    have hplaces :
        (∃ (b : Bool) (n : Nat), ((⟨n, -15⟩ : Decimal).toBinary64 b == finite s m) = true) ↔
          ∃ n : Nat, (⟨n, -15⟩ : Decimal).readsAs m = true := by
      constructor
      · rintro ⟨b, n, hn⟩
        exact ⟨n, Decimal.readsAs_of_beq hn⟩
      · rintro ⟨n, hn⟩
        exact ⟨s, n, (Decimal.beq_iff_readsAs (.inl rfl)).mpr hn⟩
    refine ⟨_, hread, ?_⟩
    rw [Decimal.beq_iff_readsAs ht, hd, abs_exact, hpow, hplaces]
    rfl

theorem plain_read_back_ten :
    ((⟨105, -1⟩ : Decimal).toBinary64 true).isFinite = true ∧
      ((⟨105, -1⟩ : Decimal).toBinary64 true).plain = "-10.5".toList ∧
      NumberForm ((⟨105, -1⟩ : Decimal).toBinary64 true).plain ∧
        ∃ w, real? ((⟨105, -1⟩ : Decimal).toBinary64 true).plain = some w ∧
          ((w == (⟨105, -1⟩ : Decimal).toBinary64 true) = true ↔
            1 / 10 ^ 4 ≤ |((⟨105, -1⟩ : Decimal).toBinary64 true).exact| ∨
              ∃ (s : Bool) (n : Nat), ((⟨n, -15⟩ : Decimal).toBinary64 s ==
                (⟨105, -1⟩ : Decimal).toBinary64 true) = true) :=
  ⟨by decide +kernel, by decide +kernel, plain_read_back_iff (by decide +kernel)⟩

/-- The number nearest to `10⁻²⁰` is spelled as zero. -/
theorem plain_tiny_lost :
    ((⟨1, -20⟩ : Decimal).toBinary64 false).isFinite = true ∧
      ((⟨1, -20⟩ : Decimal).toBinary64 false).plain = ['0'] ∧
      ¬∃ w, real? ((⟨1, -20⟩ : Decimal).toBinary64 false).plain = some w ∧
        (w == (⟨1, -20⟩ : Decimal).toBinary64 false) = true := by
  have hplain : ((⟨1, -20⟩ : Decimal).toBinary64 false).plain = ['0'] := by decide +kernel
  have hlost : (real? ['0']).any (· == (⟨1, -20⟩ : Decimal).toBinary64 false) = false := by
    decide +kernel
  refine ⟨by decide +kernel, hplain, ?_⟩
  rintro ⟨w, hw, heq⟩
  rw [hplain] at hw
  rw [hw, Option.any_some, heq] at hlost
  cases hlost

end Binary64

end ArchDiagram
