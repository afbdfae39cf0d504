import ArchDiagram.Source.Scanner

/-!
Reading a whole source. Scanning it never fails, so every source has an outcome.
-/

namespace ArchDiagram.Source

/-- The scanner after all lines of a source. -/
def scan (source : String) : Except Failure Scanner :=
  Scanner.feedAll {} (sourceLines source)

theorem scan_isOk (source : String) : ∃ s, scan source = .ok s := by
  refine Scanner.feedAll_ofText rfl fun l hl => ?_
  obtain ⟨i, _, rfl⟩ := List.mem_mapIdx.mp hl
  exact ⟨_, _, rfl⟩

/-- The scanner after all lines of a source, which `scan_isOk` says there is. -/
def scanned (source : String) : Scanner :=
  match h : scan source with
  | .ok s => s
  | .error _ => False.elim (by
      obtain ⟨s, hs⟩ := scan_isOk source
      rw [h] at hs
      cases hs)

theorem scan_eq_ok_scanned (source : String) : scan source = .ok (scanned source) := by
  unfold scanned
  split
  · assumption
  · rename_i h
    obtain ⟨s, hs⟩ := scan_isOk source
    rw [h] at hs
    cases hs

/-- The outcome of a source; a source without a title has the default one. -/
def parse (defaultTitle source : String) : Outcome :=
  ((scanned source).finish defaultTitle).2

end ArchDiagram.Source
