/-!
Repeating a step until it gives a result. The number of steps is bounded by the caller, so a walk
that would never end has no result.
-/

namespace ArchDiagram

/-- Repeats `step` until it gives a result, at most `n` times. -/
def walk? {σ β : Type} (step : σ → σ ⊕ β) : Nat → σ → Option β
  | 0, _ => none
  | n + 1, s =>
    match step s with
    | .inl s => walk? step n s
    | .inr b => some b

/-- A longer bound keeps a result. -/
theorem walk?_mono {σ β : Type} {step : σ → σ ⊕ β} {n m : Nat} {s : σ} {b : β}
    (h : walk? step n s = some b) (hm : n ≤ m) : walk? step m s = some b := by
  induction n generalizing m s with
  | zero => simp [walk?] at h
  | succ n ih =>
    obtain ⟨m, rfl⟩ : ∃ k, m = k + 1 := ⟨m - 1, by omega⟩
    simp only [walk?] at h ⊢
    split at h
    · exact ih h (by omega)
    · exact h

end ArchDiagram
