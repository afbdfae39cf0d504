import ArchDiagram.Source.Scanner
import Mathlib.Data.List.Basic

/-!
Outcomes of a scan. It gives a document exactly when nothing was found against it. Diagnostics come
out by line, and those of one line in the order in which they were found; these two rules leave one
list only.
-/

namespace ArchDiagram.Source

/-- The diagnostics `found`, by line; those of one line stay in the order in which they were
found. -/
structure ByLine (found es : List Diagnostic) : Prop where
  perm : es.Perm found
  sorted : es.Pairwise fun a b => a.line ≤ b.line
  stable : ∀ n, es.filter (fun e => e.line = n) = found.filter fun e => e.line = n

theorem line_le_trans (a b c : Diagnostic) (hab : decide (a.line ≤ b.line) = true)
    (hbc : decide (b.line ≤ c.line) = true) : decide (a.line ≤ c.line) = true := by
  simp only [decide_eq_true_eq] at hab hbc ⊢
  omega

theorem line_le_total (a b : Diagnostic) :
    (decide (a.line ≤ b.line) || decide (b.line ≤ a.line)) = true := by
  simp only [Bool.or_eq_true, decide_eq_true_eq]
  omega

/-- Sorting keeps diagnostics of one line in their order: they are a sorted part of the list, and
sorted parts are taken over as they are. -/
theorem filter_line_mergeSort (found : List Diagnostic) (n : Int) :
    (found.mergeSort fun a b => a.line ≤ b.line).filter (fun e => e.line = n) =
      found.filter fun e => e.line = n := by
  have hpart : (found.filter fun e => e.line = n).Pairwise
      fun a b => decide (a.line ≤ b.line) = true := by
    rw [List.pairwise_filter]
    apply List.pairwise_of_forall
    intro a b ha hb
    simp only [decide_eq_true_eq] at ha hb ⊢
    omega
  have hsub := List.sublist_mergeSort line_le_trans line_le_total hpart List.filter_sublist
  have hfiltered := hsub.filter fun e => decide (e.line = n)
  simp only [List.filter_filter, Bool.and_self] at hfiltered
  -- both parts are as long, because sorting only moves diagnostics
  have hlength := ((List.mergeSort_perm found fun a b => a.line ≤ b.line).filter
    fun e => decide (e.line = n)).length_eq
  exact (hfiltered.eq_of_length hlength.symm).symm

theorem byLine_mergeSort (found : List Diagnostic) :
    ByLine found (found.mergeSort fun a b => a.line ≤ b.line) := by
  refine ⟨List.mergeSort_perm _ _, ?_, filter_line_mergeSort found⟩
  have hsorted := List.pairwise_mergeSort line_le_trans line_le_total found
  simpa only [decide_eq_true_eq] using hsorted

theorem parse_eq_success_of_document? {o : Outcome} {d : Document Binary64}
    (h : o.document? = some d) : o = .success d := by
  cases o with
  | success e => rw [← Option.some.inj h]
  | invalid errors => cases h

namespace Scanner

theorem outcome_eq_success_iff {defaultTitle : String} {s : Scanner} {d : Document Binary64} :
    s.outcome defaultTitle = .success d ↔ s.errors = [] ∧ s.document defaultTitle = d := by
  unfold outcome
  split
  · rename_i h
    simp [List.isEmpty_iff.mp h]
  · rename_i h
    simp [mt List.isEmpty_iff.mpr h]

theorem outcome_eq_invalid_iff {defaultTitle : String} {s : Scanner} {es : List Diagnostic} :
    s.outcome defaultTitle = .invalid es ↔ s.errors ≠ [] ∧ s.sortedErrors = es := by
  unfold outcome
  split
  · rename_i h
    simp [List.isEmpty_iff.mp h]
  · rename_i h
    simp [mt List.isEmpty_iff.mpr h]

end Scanner

end ArchDiagram.Source
