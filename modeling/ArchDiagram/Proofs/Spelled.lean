import ArchDiagram.Number.Spelling
import ArchDiagram.Proofs.NumberForm

/-!
The plain spelling of a number. Every finite number is spelled in the narrow form of coordinates, so
that a coordinate is read back whenever its spelling denotes it; no spelling holds a blank, a quote
or a brace.
-/

namespace ArchDiagram

open Text Numeral

theorem isDigit_of_decimal {c : Char} (h : c.isDigit = true) : Text.isDigit c = true := by
  simp only [Char.isDigit, Bool.and_eq_true, decide_eq_true_eq, ge_iff_le,
    UInt32.le_iff_toNat_le] at h
  change 48 ≤ c.toNat ∧ c.toNat ≤ 57 at h
  unfold Text.isDigit digitValue?
  rw [Option.isSome_map, List.find?_isSome]
  refine ⟨48, by decide, ?_⟩
  simp only [Bool.and_eq_true, decide_eq_true_eq]
  omega

theorem isDigit_of_mem_digitsOf {n : Nat} {c : Char} (h : c ∈ digitsOf n) :
    Text.isDigit c = true :=
  isDigit_of_decimal (Nat.isDigit_of_mem_toDigits (by decide) (by decide) h)

theorem isDigit_of_mem_zeros {n : Nat} {c : Char} (h : c ∈ zeros n) : Text.isDigit c = true := by
  rw [(List.mem_replicate.mp h).2]
  decide

theorem digits_digitsOf (n : Nat) : Digits (digitsOf n) :=
  fun _ hc => isDigit_of_mem_digitsOf hc

theorem digits_zeros (n : Nat) : Digits (zeros n) :=
  fun _ hc => isDigit_of_mem_zeros hc

theorem isSign_sign (s : Bool) : IsSign (Binary64.sign s) := by
  cases s with
  | true => exact .minus
  | false => exact .none

theorem splitSign_append_sign (s : Bool) {cs : List Char}
    (h : ∀ c ∈ cs.head?, Text.isDigit c = true) : (splitSign (Binary64.sign s ++ cs)).2 = cs := by
  apply splitSign_append (isSign_sign s)
  intro c hc
  have happart := isDigit_apart (h c hc)
  exact ⟨happart.2.2.2.2, happart.2.2.2.1⟩

/-- A sign and a run of digits. -/
theorem isNumeral_whole (s : Bool) {ds : List Char} (hn : ds ≠ [])
    (hd : ∀ c ∈ ds, Text.isDigit c = true) : isNumeral (Binary64.sign s ++ ds) = true :=
  (isNumeral_iff _).mpr (.whole (isSign_sign s) hn hd)

/-- A sign, a run of digits, a point and more digits. -/
theorem isNumeral_point (s : Bool) {ds fs : List Char} (hn : ds ≠ [])
    (hd : ∀ c ∈ ds, Text.isDigit c = true) (hf : ∀ c ∈ fs, Text.isDigit c = true) :
    isNumeral (Binary64.sign s ++ (ds ++ '.' :: fs)) = true :=
  (isNumeral_iff _).mpr (.pointed (isSign_sign s) (.inl hn) hd hf)

theorem dropZeros_append_point (ds fs : List Char) :
    dropZeros (ds ++ '.' :: fs) = ds ++ '.' :: dropZeros fs := by
  unfold dropZeros
  rw [List.reverse_append, List.reverse_cons, List.append_assoc, List.dropWhile_append]
  split
  · rename_i he
    rw [List.isEmpty_iff.mp he]
    simp
  · simp

theorem mem_of_mem_dropZeros {c : Char} {ds : List Char} (h : c ∈ dropZeros ds) : c ∈ ds := by
  unfold dropZeros at h
  rw [List.mem_reverse] at h
  exact List.mem_reverse.mp ((List.dropWhile_sublist _).subset h)

/-- Without its last zeros a fixed spelling ends at the point, which goes too, or after it. -/
theorem stripped_append_point {ds : List Char} (hd : '.' ∉ ds) (fs : List Char)
    (hf : '.' ∉ fs) :
    dropZeros fs = [] ∧ Binary64.stripped (ds ++ '.' :: fs) = ds ∨
      Binary64.stripped (ds ++ '.' :: fs) = ds ++ '.' :: dropZeros fs := by
  have keep (cs : List Char) (hcs : ∀ c ∈ cs.reverse.head?, c ≠ '.') :
      (cs.reverse.dropWhile (· == '.')).reverse = cs := by
    cases hr : cs.reverse with
    | nil => simp_all
    | cons c rest =>
      have hc : (c == '.') = false := by simpa using hcs c (by simp [hr])
      rw [List.dropWhile_cons, hc, if_neg (by simp), ← hr, List.reverse_reverse]
  unfold Binary64.stripped
  rw [dropZeros_append_point]
  -- all places are zero, or the last one that is left is a digit
  rcases List.eq_nil_or_concat (dropZeros fs) with hnil | ⟨gs, c, hgs⟩
  · left
    refine ⟨hnil, ?_⟩
    rw [hnil, List.reverse_append]
    simp only [List.reverse_singleton, List.singleton_append, List.dropWhile_cons, beq_self_eq_true,
      if_true]
    apply keep
    rintro c hc rfl
    exact hd (List.mem_reverse.mp (List.mem_of_mem_head? hc))
  · right
    apply keep
    rw [hgs, List.concat_eq_append, List.head?_reverse,
      show ds ++ '.' :: (gs ++ [c]) = (ds ++ '.' :: gs) ++ [c] by simp, List.getLast?_concat]
    rintro d ⟨⟩ rfl
    exact hf (mem_of_mem_dropZeros (by rw [hgs]; simp))

namespace Binary64

theorem point_not_mem {ds : List Char} (h : ∀ c ∈ ds, Text.isDigit c = true) : '.' ∉ ds :=
  fun hp => absurd (h _ hp) (by decide)

theorem isNumeral_stripped_fixed (s : Bool) (places : Nat) (m : Magnitude) :
    isNumeral (sign s ++ stripped (fixed places m)) = true := by
  let n := roundQuotient (m.units * pow10 places) Magnitude.one
  let fs := zeros (places - (digitsOf (n % pow10 places)).length) ++ digitsOf (n % pow10 places)
  have hfixed : fixed places m = digitsOf (n / pow10 places) ++ '.' :: fs := by
    simp [fixed, n, fs]
  have hd : Digits (digitsOf (n / pow10 places)) := digits_digitsOf _
  have hf : Digits fs := (digits_zeros _).append (digits_digitsOf _)
  rw [hfixed]
  rcases stripped_append_point (point_not_mem hd) fs (point_not_mem hf) with
    ⟨-, he⟩ | he
  · rw [he]
    exact isNumeral_whole s Nat.toDigits_ne_nil hd
  · rw [he]
    exact isNumeral_point s Nat.toDigits_ne_nil hd fun c hc => hf c (mem_of_mem_dropZeros hc)

/-- Digits that are placed without an exponent are split by one point. -/
theorem exists_point_of_placed {ds : List Char} {e : Int} (hd : ∀ c ∈ ds, Text.isDigit c = true)
    (he : isPositional e = true) :
    ∃ ws fs, ws ≠ [] ∧ (∀ c ∈ ws, Text.isDigit c = true) ∧ (∀ c ∈ fs, Text.isDigit c = true) ∧
      placed ds e = ws ++ '.' :: fs := by
  unfold placed
  rw [if_pos he]
  by_cases hneg : e < 0
  · rw [if_pos hneg]
    exact ⟨['0'], zeros (-e - 1).toNat ++ ds, by simp, forall_mem_of_all (by decide),
      (digits_zeros _).append hd, rfl⟩
  · rw [if_neg hneg]
    dsimp only
    split
    · rename_i hlen
      refine ⟨ds ++ zeros (e.toNat + 1 - ds.length), ['0'], ?_, Digits.append hd (digits_zeros _),
        forall_mem_of_all (by decide), rfl⟩
      -- there is at least one place before the point
      intro hnil
      have := congrArg List.length hnil
      simp only [zeros, List.length_append, List.length_replicate, List.length_nil] at this
      omega
    · rename_i hlen
      refine ⟨ds.take (e.toNat + 1), ds.drop (e.toNat + 1), ?_, ?_, ?_, rfl⟩
      · intro hnil
        have := congrArg List.length hnil
        simp only [List.length_take, List.length_nil] at this
        omega
      · exact fun c hc => hd c (List.mem_of_mem_take hc)
      · exact fun c hc => hd c (List.mem_of_mem_drop hc)

theorem exponent_mem_placed {ds : List Char} {e : Int} (he : isPositional e = false) :
    'e' ∈ placed ds e := by
  have hmark : 'e' ∈ exponentText e := by
    unfold exponentText
    dsimp only
    split <;> simp
  unfold placed
  rw [if_neg (by simp [he])]
  simp [hmark]

/-- Every finite number is spelled in the narrow form. -/
theorem isNumeral_plain {v : Binary64} (h : v.isFinite = true) : isNumeral v.plain = true := by
  cases v with
  | nan => cases h
  | infinite s => cases h
  | finite s m =>
    unfold plain
    dsimp only
    split
    · exact isNumeral_whole _ Nat.toDigits_ne_nil fun c hc => isDigit_of_mem_digitsOf hc
    · rename_i hfrac
      have hunits : m.units ≠ 0 := by
        intro hz
        simp [hz] at hfrac
      split
      · exact isNumeral_stripped_fixed s 15 m
      · rename_i hexp
        have hshown : shown (finite s m) = sign s ++ shownMagnitude m := rfl
        rw [hshown] at hexp ⊢
        unfold shownMagnitude at hexp ⊢
        rw [if_neg hunits] at hexp ⊢
        dsimp only at hexp ⊢
        have hd : ∀ c ∈ dropZeros (digitsOf m.shortest.digits), Text.isDigit c = true :=
          fun c hc => isDigit_of_mem_digitsOf (mem_of_mem_dropZeros hc)
        -- a spelling with an exponent was replaced by a fixed one
        have hpos : isPositional (m.shortest.exponent + (digitsOf m.shortest.digits).length - 1) =
            true := by
          rw [← Bool.not_eq_false]
          intro hnot
          apply hexp
          simp [exponent_mem_placed hnot]
        obtain ⟨ws, fs, hn, hw, hf, he⟩ := exists_point_of_placed hd hpos
        rw [he]
        exact isNumeral_point s hn hw hf

/-- What the spelling of a number is read as in a coordinate. -/
def respelled? (v : Binary64) : Option Binary64 :=
  if isNumeral v.plain then (real? v.plain).filter (·.isFinite) else none

theorem isFinite_eq_of_beq {v w : Binary64} (h : (w == v) = true) : w.isFinite = v.isFinite := by
  cases v <;> cases w <;> simp_all [BEq.beq, equal, isFinite]

theorem plain_ne_nil (v : Binary64) : v.plain ≠ [] := by
  intro hnil
  cases hv : v.isFinite with
  | true =>
    have := isNumeral_plain hv
    rw [hnil] at this
    cases this
  | false =>
    cases v with
    | nan => simp [plain, shown] at hnil
    | infinite s => simp [plain, shown] at hnil
    | finite s m => cases hv

/-- A spelling is a single word without marks. -/
theorem apart_of_mem_plain {v : Binary64} {c : Char} (h : c ∈ v.plain) :
    isBlank c = false ∧ c ≠ '"' ∧ c ≠ '{' := by
  cases hv : v.isFinite with
  | true =>
    rcases mem_of_isNumeral (isNumeral_plain hv) h with hd | rfl | rfl | rfl
    · refine ⟨(isDigit_apart hd).1, ?_, ?_⟩
      · rintro rfl
        exact absurd hd (by decide)
      · rintro rfl
        exact absurd hd (by decide)
    · decide
    · decide
    · decide
  | false =>
    cases v with
    | nan =>
      have hall : ∀ c ∈ "nan".toList, isBlank c = false ∧ c ≠ '"' ∧ c ≠ '{' :=
        forall_mem_of_all (by decide)
      exact hall c h
    | infinite s =>
      have hall : ∀ c ∈ sign s ++ "inf".toList, isBlank c = false ∧ c ≠ '"' ∧ c ≠ '{' := by
        cases s <;> exact forall_mem_of_all (by decide)
      exact hall c h
    | finite s m => cases hv

end Binary64

end ArchDiagram
