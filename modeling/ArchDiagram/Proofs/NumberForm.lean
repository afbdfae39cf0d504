import ArchDiagram.Number.Numeral
import Mathlib.Tactic.Common

/-!
The narrow form of numbers, as a grammar: an optional sign, then digits, or digits with one point
among or around them. The test for the form accepts exactly these texts.
-/

namespace ArchDiagram.Numeral

open Text

/-- The signs that a number may begin with. -/
inductive IsSign : List Char → Prop
  | none : IsSign []
  | plus : IsSign ['+']
  | minus : IsSign ['-']

/-- A run of digits, of whatever script. -/
def Digits (ds : List Char) : Prop :=
  ∀ c ∈ ds, isDigit c = true

inductive NumberForm : List Char → Prop
  | whole {sign digits : List Char} (sign_ok : IsSign sign) (some : digits ≠ [])
      (digits_ok : Digits digits) : NumberForm (sign ++ digits)
  | pointed {sign digits fraction : List Char} (sign_ok : IsSign sign)
      (some : digits ≠ [] ∨ fraction ≠ []) (digits_ok : Digits digits)
      (fraction_ok : Digits fraction) : NumberForm (sign ++ (digits ++ '.' :: fraction))

theorem exists_sign (cs : List Char) : ∃ sign, IsSign sign ∧ cs = sign ++ (splitSign cs).2 := by
  unfold splitSign
  split
  · exact ⟨['-'], .minus, rfl⟩
  · exact ⟨['+'], .plus, rfl⟩
  · exact ⟨[], .none, rfl⟩

/-- What follows a sign begins with no other one. -/
theorem splitSign_append {sign body : List Char} (hs : IsSign sign)
    (hbody : ∀ c ∈ body.head?, c ≠ '-' ∧ c ≠ '+') : (splitSign (sign ++ body)).2 = body := by
  cases hs with
  | plus | minus => rfl
  | none =>
    rw [List.nil_append]
    unfold splitSign
    split
    · exact absurd rfl (hbody '-' rfl).1
    · exact absurd rfl (hbody '+' rfl).2
    · rfl

theorem Digits.head {ds : List Char} (h : Digits ds) : ∀ c ∈ ds.head?, c ≠ '-' ∧ c ≠ '+' := by
  intro c hc
  have happart := isDigit_apart (h c (List.mem_of_mem_head? hc))
  exact ⟨happart.2.2.2.2, happart.2.2.2.1⟩

theorem Digits.append {ds fs : List Char} (hd : Digits ds) (hf : Digits fs) : Digits (ds ++ fs) :=
  List.forall_mem_append.mpr ⟨hd, hf⟩

theorem isNumeral_iff (cs : List Char) : isNumeral cs = true ↔ NumberForm cs := by
  constructor
  · intro h
    obtain ⟨sign, hs, hcs⟩ := exists_sign cs
    unfold isNumeral at h
    dsimp only at h
    set body := (splitSign cs).2
    have hdigits : Digits (body.takeWhile isDigit) :=
      fun c hc => List.all_eq_true.mp List.all_takeWhile c hc
    have hbody := List.takeWhile_append_dropWhile (p := isDigit) (l := body)
    rw [hcs, ← hbody]
    split at h
    · rename_i hrest
      rw [hrest, List.append_nil]
      exact .whole hs (by simpa using h) hdigits
    · rename_i fraction hrest
      simp only [Bool.and_eq_true, List.all_eq_true, Bool.not_eq_true', Bool.and_eq_false_iff,
        List.isEmpty_eq_false_iff] at h
      rw [hrest]
      exact .pointed hs h.2 hdigits h.1
    · cases h
  · intro h
    cases h with
    | whole hs hne hd =>
      have hall := List.all_eq_true.mpr hd
      rw [isNumeral, splitSign_append hs hd.head]
      simp [takeWhile_of_all hall, dropWhile_of_all hall, hne]
    | @pointed sign digits fraction hs hne hd hf =>
      have hpoint : ∀ c ∈ ('.' :: fraction).head?, isDigit c = false := by
        rintro c ⟨⟩
        decide
      have hhead : ∀ c ∈ (digits ++ '.' :: fraction).head?, c ≠ '-' ∧ c ≠ '+' := by
        cases digits with
        | nil => simp
        | cons d ds => exact hd.head
      rw [isNumeral, splitSign_append hs hhead, takeWhile_append_of_head hd hpoint,
        dropWhile_append_of_head hd hpoint]
      have hall : fraction.all isDigit = true := List.all_eq_true.mpr hf
      change (fraction.all isDigit && !(digits.isEmpty && fraction.isEmpty)) = true
      rw [hall, Bool.true_and, Bool.not_eq_true', Bool.and_eq_false_iff]
      simpa using hne

end ArchDiagram.Numeral
