import ArchDiagram.Text.Blank

/-!
Decimal digits of every script. The digits of one script are ten consecutive characters in order, so
the table lists the zeros only.
-/

namespace ArchDiagram.Text

def decimalZeros : List Nat := [
  0x30, 0x660, 0x6F0, 0x7C0, 0x966, 0x9E6, 0xA66, 0xAE6, 0xB66, 0xBE6, 0xC66, 0xCE6, 0xD66, 0xDE6,
  0xE50, 0xED0, 0xF20, 0x1040, 0x1090, 0x17E0, 0x1810, 0x1946, 0x19D0, 0x1A80, 0x1A90, 0x1B50,
  0x1BB0, 0x1C40, 0x1C50, 0xA620, 0xA8D0, 0xA900, 0xA9D0, 0xA9F0, 0xAA50, 0xABF0, 0xFF10, 0x104A0,
  0x10D30, 0x11066, 0x110F0, 0x11136, 0x111D0, 0x112F0, 0x11450, 0x114D0, 0x11650, 0x116C0,
  0x11730, 0x118E0, 0x11950, 0x11C50, 0x11D50, 0x11DA0, 0x16A60, 0x16AC0, 0x16B50, 0x1D7CE,
  0x1D7D8, 0x1D7E2, 0x1D7EC, 0x1D7F6, 0x1E140, 0x1E2F0, 0x1E950, 0x1FBF0]

/-- The value of a decimal digit of any script. -/
def digitValue? (c : Char) : Option Nat :=
  (decimalZeros.find? fun z => z ≤ c.toNat && c.toNat < z + 10).map (c.toNat - ·)

def isDigit (c : Char) : Bool :=
  (digitValue? c).isSome

theorem exists_zero_of_isDigit {c : Char} (h : isDigit c = true) :
    ∃ z ∈ decimalZeros, ∃ k < 10, c.toNat = z + k := by
  unfold isDigit digitValue? at h
  rw [Option.isSome_map] at h
  obtain ⟨z, hz⟩ := Option.isSome_iff_exists.mp h
  have hp := List.find?_some hz
  simp only [Bool.and_eq_true, decide_eq_true_eq] at hp
  exact ⟨z, List.mem_of_find?_eq_some hz, c.toNat - z, by omega, by omega⟩

/-- Digits are neither blanks nor any of the marks used in numbers. -/
theorem decimalZeros_apart : ∀ z ∈ decimalZeros, ∀ k < 10,
    isBlank (Char.ofNat (z + k)) = false ∧
      z + k ≠ '_'.toNat ∧ z + k ≠ '.'.toNat ∧ z + k ≠ '+'.toNat ∧ z + k ≠ '-'.toNat := by
  decide +kernel

theorem isDigit_apart {c : Char} (h : isDigit c = true) :
    isBlank c = false ∧ c ≠ '_' ∧ c ≠ '.' ∧ c ≠ '+' ∧ c ≠ '-' := by
  obtain ⟨z, hz, k, hk, hc⟩ := exists_zero_of_isDigit h
  have ha := decimalZeros_apart z hz k hk
  rw [← hc, Char.ofNat_toNat] at ha
  refine ⟨ha.1, ?_, ?_, ?_, ?_⟩
  · rintro rfl; exact ha.2.1 rfl
  · rintro rfl; exact ha.2.2.1 rfl
  · rintro rfl; exact ha.2.2.2.1 rfl
  · rintro rfl; exact ha.2.2.2.2 rfl

end ArchDiagram.Text
