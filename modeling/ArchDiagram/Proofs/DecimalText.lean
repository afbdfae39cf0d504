import ArchDiagram.Proofs.ShortestDigits
import ArchDiagram.Proofs.Spelled

/-!
What written numbers denote. Digits are read by their places, with a point or without, and the
spellings of a number denote its shortest decimal or its value at a fixed number of places.
-/

namespace ArchDiagram

open Text Numeral

theorem foldl_value (n : Nat) (ds : List Char) :
    ds.foldl (fun n c => 10 * n + (digitValue? c).getD 0) n = n * pow10 ds.length + value ds := by
  induction ds generalizing n with
  | nil => exact (Nat.mul_one n).symm
  | cons c ds ih =>
    have hvalue : value (c :: ds) = (digitValue? c).getD 0 * pow10 ds.length + value ds := by
      rw [value, List.foldl_cons, ih, Nat.mul_zero, Nat.zero_add]
    rw [List.foldl_cons, ih, hvalue, List.length_cons, pow10_add]
    change (10 * n + _) * pow10 ds.length + value ds = n * (pow10 ds.length * 10) + _
    ring

theorem value_append (ds fs : List Char) :
    value (ds ++ fs) = value ds * pow10 fs.length + value fs := by
  rw [value, List.foldl_append, foldl_value]
  rfl

theorem digitValue?_digitChar : ∀ d < 10, digitValue? (Nat.digitChar d) = some d := by
  decide

theorem value_digitsOf (n : Nat) : value (digitsOf n) = n := by
  induction n using Nat.strong_induction_on with
  | _ n ih =>
    unfold digitsOf at ih ⊢
    by_cases hn : n < 10
    · rw [Nat.toDigits_of_lt_base hn]
      simp [value, digitValue?_digitChar n hn]
    · have hdigit : value [Nat.digitChar (n % 10)] = n % 10 := by
        simp [value, digitValue?_digitChar _ (Nat.mod_lt n (by decide))]
      have hlen : pow10 [Nat.digitChar (n % 10)].length = 10 := rfl
      rw [Nat.toDigits_of_base_le (by decide) (by omega), value_append, ih (n / 10) (by omega),
        hdigit, hlen]
      omega

theorem value_zeros (n : Nat) : value (zeros n) = 0 := by
  induction n with
  | zero => rfl
  | succ n ih =>
    have hcons : zeros (n + 1) = ['0'] ++ zeros n := rfl
    have hzero : value ['0'] = 0 := by decide
    rw [hcons, value_append, ih, hzero, Nat.zero_mul]

/-- The zeros at the end of a run. -/
theorem dropZeros_append_zeros (ds : List Char) :
    dropZeros ds ++ zeros (ds.length - (dropZeros ds).length) = ds := by
  have hcut := congrArg List.reverse
    (List.takeWhile_append_dropWhile (p := (· == '0')) (l := ds.reverse))
  rw [List.reverse_append, List.reverse_reverse] at hcut
  change dropZeros ds ++ (ds.reverse.takeWhile (· == '0')).reverse = ds at hcut
  have hzeros : (ds.reverse.takeWhile (· == '0')).reverse =
      zeros (ds.length - (dropZeros ds).length) := by
    have hlen := congrArg List.length hcut
    rw [List.length_append] at hlen
    refine List.eq_replicate_iff.mpr ⟨by omega, fun c hc => ?_⟩
    simpa using List.all_eq_true.mp List.all_takeWhile c (List.mem_reverse.mp hc)
  rw [← hzeros]
  exact hcut

theorem value_dropZeros (ds : List Char) :
    value ds = value (dropZeros ds) * pow10 (ds.length - (dropZeros ds).length) := by
  conv_lhs => rw [← dropZeros_append_zeros ds, value_append, value_zeros, Nat.add_zero]
  simp [zeros]

/-- A text without a sign stands for a decimal of the value `q`. -/
structure Denotes (cs : List Char) (q : ℚ) : Prop where
  head : ∀ c ∈ cs.head?, Text.isDigit c = true
  decimal : ∃ d, decimal? cs = some d ∧ d.value = q

theorem denotes_whole {ds : List Char} (hn : ds ≠ []) (hd : Digits ds) :
    Denotes ds (value ds) := by
  have hall : ds.all Text.isDigit = true := List.all_eq_true.mpr hd
  refine ⟨fun c hc => hd c (List.mem_of_mem_head? hc), ⟨value ds, 0⟩, ?_, ?_⟩
  · unfold decimal?
    simp [takeWhile_of_all hall, dropWhile_of_all hall, hn]
  · rw [Decimal.value, zpow_zero, mul_one]

theorem denotes_digitsOf (n : Nat) : Denotes (digitsOf n) n := by
  have hdenotes := @denotes_whole (digitsOf n) Nat.toDigits_ne_nil (digits_digitsOf n)
  rwa [value_digitsOf] at hdenotes

theorem denotes_point {ds fs : List Char} (hn : ds ≠ []) (hd : Digits ds)
    (hf : Digits fs) :
    Denotes (ds ++ '.' :: fs) (value (ds ++ fs) / pow10 fs.length) := by
  have hall : fs.all Text.isDigit = true := List.all_eq_true.mpr hf
  have hpoint : ∀ c ∈ ('.' :: fs).head?, Text.isDigit c = false := by
    rintro c ⟨⟩
    decide
  have hhead : ∀ c ∈ (ds ++ '.' :: fs).head?, Text.isDigit c = true := by
    obtain ⟨d, ds, rfl⟩ := List.exists_cons_of_ne_nil hn
    simpa using hd d
  refine ⟨hhead, ⟨value (ds ++ fs), -(fs.length : ℤ)⟩, ?_, Decimal.value_neg _ _⟩
  unfold decimal?
  rw [takeWhile_append_of_head hd hpoint, dropWhile_append_of_head hd hpoint]
  simp [takeWhile_of_all hall, dropWhile_of_all hall, hn]

/-- Zeros at the end of the places do not count. -/
theorem denotes_stripped {ds fs : List Char} (hn : ds ≠ [])
    (hd : Digits ds) (hf : Digits fs) :
    Denotes (Binary64.stripped (ds ++ '.' :: fs)) (value (ds ++ fs) / pow10 fs.length) := by
  have hf' : Digits (dropZeros fs) := fun c hc => hf c (mem_of_mem_dropZeros hc)
  obtain ⟨z, hz⟩ : ∃ z, z = fs.length - (dropZeros fs).length := ⟨_, rfl⟩
  have hlen : fs.length = (dropZeros fs).length + z := by
    have h := congrArg List.length (dropZeros_append_zeros fs)
    rw [List.length_append, zeros, List.length_replicate] at h
    omega
  have hscale : (0 : ℚ) < pow10 z := Nat.cast_pos.mpr (pow10_pos z)
  have hvalue : value (ds ++ fs) = value (ds ++ dropZeros fs) * pow10 z := by
    rw [value_append, value_append, value_dropZeros fs, ← hz, hlen, pow10_add]
    ring
  have hquot : (value (ds ++ fs) : ℚ) / pow10 fs.length =
      value (ds ++ dropZeros fs) / pow10 (dropZeros fs).length := by
    rw [hvalue, hlen, pow10_add]
    push_cast
    rw [mul_div_mul_right _ _ hscale.ne']
  rw [hquot]
  rcases stripped_append_point (Binary64.point_not_mem hd) fs (Binary64.point_not_mem hf) with
    ⟨hnil, he⟩ | he
  · have hone : (pow10 ([] : List Char).length : ℚ) = 1 := by rw [cast_pow10, List.length_nil, pow_zero]
    rw [he, hnil, List.append_nil, hone, div_one]
    exact denotes_whole hn hd
  · rw [he]
    exact denotes_point hn hd hf'

/-- A number is spelled at a fixed number of places by the multiple nearest to it. -/
theorem denotes_fixed {places : Nat} (hp : 0 < places) (m : Magnitude) :
    Denotes (Binary64.stripped (Binary64.fixed places m))
      (roundQuotient (m.units * pow10 places) Magnitude.one / pow10 places) := by
  unfold Binary64.fixed
  dsimp only
  generalize roundQuotient (m.units * pow10 places) Magnitude.one = n
  have hlen : (digitsOf (n % pow10 places)).length ≤ places :=
    (Nat.length_toDigits_le_iff (by decide) hp).mpr (Nat.mod_lt n (pow10_pos places))
  obtain ⟨fs, hfs⟩ : ∃ fs, fs = zeros (places - (digitsOf (n % pow10 places)).length) ++
      digitsOf (n % pow10 places) := ⟨_, rfl⟩
  have hplaces : fs.length = places := by
    rw [hfs, List.length_append, zeros, List.length_replicate]
    omega
  have hvalue : value (digitsOf (n / pow10 places) ++ fs) = n := by
    rw [value_append, hplaces, hfs, value_append, value_zeros, value_digitsOf, value_digitsOf,
      Nat.zero_mul, Nat.zero_add]
    exact Nat.div_add_mod' n _
  have hdenotes := @denotes_stripped (digitsOf (n / pow10 places)) fs Nat.toDigits_ne_nil
    (digits_digitsOf _) (hfs ▸ (digits_zeros _).append (digits_digitsOf _))
  rw [hvalue, hplaces] at hdenotes
  rw [List.append_assoc, List.cons_append, ← hfs]
  exact hdenotes

/-- Digits at their places, without an exponent. -/
theorem denotes_placed {ds : List Char} (hd : Digits ds) {e : ℤ}
    (he : Binary64.isPositional e = true) :
    Denotes (Binary64.placed ds e) (value ds * 10 ^ (e + 1 - ds.length)) := by
  have hzero : value ['0'] = 0 := by decide
  unfold Binary64.placed
  rw [if_pos he]
  by_cases hneg : e < 0
  · rw [if_pos hneg]
    have hfs : Digits (zeros (-e - 1).toNat ++ ds) := (digits_zeros _).append hd
    have hexp : e + 1 - ds.length = -((zeros (-e - 1).toNat ++ ds).length : ℤ) := by
      rw [List.length_append, zeros, List.length_replicate]
      omega
    have hvalue : value (['0'] ++ (zeros (-e - 1).toNat ++ ds)) = value ds := by
      rw [value_append, value_append, value_zeros, hzero]
      omega
    have hdenotes := @denotes_point ['0'] _ (by simp) (forall_mem_of_all (by decide)) hfs
    rw [hvalue, ← Decimal.value_neg, Decimal.value] at hdenotes
    rw [hexp]
    exact hdenotes
  · rw [if_neg hneg]
    dsimp only
    split
    · rename_i hlen
      obtain ⟨z, hz⟩ : ∃ z, z = e.toNat + 1 - ds.length := ⟨_, rfl⟩
      have hexp : e + 1 - ds.length = (z : ℤ) := by omega
      have hws : Digits (ds ++ zeros z) := hd.append (digits_zeros z)
      have hne : ds ++ zeros z ≠ [] := by
        intro hnil
        have hlength := congrArg List.length hnil
        rw [List.length_append, zeros, List.length_replicate, List.length_nil] at hlength
        omega
      have hvalue : value (ds ++ zeros z ++ ['0']) = value ds * pow10 z * pow10 1 := by
        rw [value_append, value_append, value_zeros, hzero, zeros, List.length_replicate]
        rfl
      have hten : (pow10 1 : ℚ) ≠ 0 := Nat.cast_ne_zero.mpr (pow10_pos 1).ne'
      have hdenotes := @denotes_point _ ['0'] hne hws (forall_mem_of_all (by decide))
      rw [hvalue, List.length_singleton, Nat.cast_mul, mul_div_cancel_right₀ _ hten, Nat.cast_mul,
        cast_pow10, ← zpow_natCast] at hdenotes
      rw [hexp, ← hz]
      exact hdenotes
    · rename_i hlen
      have hexp : e + 1 - ds.length = -((ds.drop (e.toNat + 1)).length : ℤ) := by
        rw [List.length_drop]
        omega
      have hne : ds.take (e.toNat + 1) ≠ [] := by
        intro hnil
        have hlength := congrArg List.length hnil
        rw [List.length_take, List.length_nil] at hlength
        omega
      have hdenotes := @denotes_point _ (ds.drop (e.toNat + 1)) hne
        (fun c hc => hd c (List.mem_of_mem_take hc)) (fun c hc => hd c (List.mem_of_mem_drop hc))
      rw [List.take_append_drop, ← Decimal.value_neg, Decimal.value] at hdenotes
      rw [hexp]
      exact hdenotes

/-- The shown spelling of a number is its shortest decimal. -/
theorem denotes_shown {m : Magnitude} (hm : m.units ≠ 0)
    (he : Binary64.isPositional
      (m.shortest.exponent + (digitsOf m.shortest.digits).length - 1) = true) :
    Denotes (Binary64.shownMagnitude m) m.shortest.value := by
  unfold Binary64.shownMagnitude
  rw [if_neg hm]
  dsimp only
  generalize m.shortest = d at he ⊢
  have hd : Digits (dropZeros (digitsOf d.digits)) :=
    fun c hc => digits_digitsOf _ c (mem_of_mem_dropZeros hc)
  obtain ⟨z, hz⟩ : ∃ z, z = (digitsOf d.digits).length - (dropZeros (digitsOf d.digits)).length :=
    ⟨_, rfl⟩
  have hlen := congrArg List.length (dropZeros_append_zeros (digitsOf d.digits))
  rw [List.length_append, ← hz, zeros, List.length_replicate] at hlen
  have hexp : d.exponent + (digitsOf d.digits).length - 1 + 1 -
      (dropZeros (digitsOf d.digits)).length = (z : ℤ) + d.exponent := by omega
  have hdigits : d.digits = value (dropZeros (digitsOf d.digits)) * pow10 z := by
    rw [hz, ← value_dropZeros, value_digitsOf]
  have hvalue : (value (dropZeros (digitsOf d.digits)) : ℚ) * 10 ^ ((z : ℤ) + d.exponent) =
      d.value := by
    rw [zpow_add₀ (by norm_num), zpow_natCast, ← cast_pow10, ← mul_assoc, ← Nat.cast_mul, ← hdigits]
    rfl
  have hdenotes := denotes_placed hd he
  rw [hexp, hvalue] at hdenotes
  exact hdenotes

/-- No digit is a letter. -/
theorem toLower_of_isDigit {c : Char} (h : Text.isDigit c = true) : c.toLower = c := by
  obtain ⟨z, hz, k, hk, hc⟩ := exists_zero_of_isDigit h
  have hapart : ∀ z ∈ decimalZeros, z + 10 ≤ 65 ∨ 90 < z := by decide
  have hrange := hapart z hz
  unfold Char.toLower
  rw [dif_neg]
  rintro ⟨hlow, hhigh⟩
  have hlow : 65 ≤ c.toNat := hlow
  have hhigh : c.toNat ≤ 90 := hhigh
  omega

/-- Digits are not the name of a value. -/
theorem ofList_toLower_ne {cs : List Char} (h : ∀ c ∈ cs.head?, Text.isDigit c = true) {m : Char}
    (hm : Text.isDigit m = false) (rest : List Char) :
    String.ofList (cs.map Char.toLower) ≠ String.ofList (m :: rest) := by
  intro he
  have hlist := String.ofList_injective he
  cases cs with
  | nil => cases hlist
  | cons c cs =>
    have hdigit := h c rfl
    have hhead := (List.cons.inj hlist).1
    rw [toLower_of_isDigit hdigit] at hhead
    rw [hhead, hm] at hdigit
    cases hdigit

theorem splitSign_sign_append (s : Bool) {cs : List Char}
    (h : ∀ c ∈ cs.head?, Text.isDigit c = true) : splitSign (Binary64.sign s ++ cs) = (s, cs) := by
  refine Prod.ext ?_ (splitSign_append_sign s h)
  cases s with
  | true => rfl
  | false =>
    change (splitSign cs).1 = false
    unfold splitSign
    split
    · exact absurd (h '-' rfl) (by decide)
    · rfl
    · rfl

theorem number?_sign_append (s : Bool) {cs : List Char}
    (h : ∀ c ∈ cs.head?, Text.isDigit c = true) :
    number? (Binary64.sign s ++ cs) = (decimal? cs).map (·.toBinary64 s) := by
  have hinf := ofList_toLower_ne h (m := 'i') (by decide) "nf".toList
  have hinfinity := ofList_toLower_ne h (m := 'i') (by decide) "nfinity".toList
  have hnan := ofList_toLower_ne h (m := 'n') (by decide) "an".toList
  unfold number?
  rw [splitSign_sign_append s h]
  dsimp only
  rw [if_neg, if_neg]
  · exact hnan
  · rw [Bool.or_eq_true, decide_eq_true_iff, decide_eq_true_iff]
    rintro (he | he)
    · exact hinf he
    · exact hinfinity he

/-- A written number is read as the number nearest to what it denotes. -/
theorem real?_of_denotes {s : Bool} {cs : List Char} {q : ℚ}
    (hform : isNumeral (Binary64.sign s ++ cs) = true) (hcs : Denotes cs q) {d : Decimal}
    (hd : d.value = q) : real? (Binary64.sign s ++ cs) = some (d.toBinary64 s) := by
  obtain ⟨hhead, d', hd', hq⟩ := hcs
  have hsame : d'.toBinary64 s = d.toBinary64 s := by
    rw [Decimal.toBinary64, Decimal.toBinary64, Decimal.magnitude?_congr (hq.trans hd.symm)]
  rw [real?_eq_number? hform, number?_sign_append s hhead, hd', Option.map_some, hsame]

end ArchDiagram
