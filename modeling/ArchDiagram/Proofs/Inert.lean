import ArchDiagram.Proofs.History

/-!
Lines that leave nothing behind. A line that declares nothing, sets no title and neither opens nor
closes a block has no say in what the other lines do, so a history may be cut down to the rest of
its lines: the same declarations are kept in the same places, and every line has the same fault.
-/

namespace ArchDiagram.Source

/-- A line that declares nothing, sets no title and moves no brace. -/
structure Line.Inert (l : Line) : Prop where
  declaration : l.declaration? = none
  title : l.title? = none
  opens : l.opens = false
  closes : l.closes = false

/-- What a line does to others is decided by three kinds of statement. -/
theorem Line.inert_of_kind {l : Line} (hd : l.kind ≠ .declaration) (ht : l.kind ≠ .title)
    (hb : l.kind ≠ .blockEnd) : l.Inert where
  declaration := by simp [Line.declaration?, hd]
  title := by simp [Line.title?, ht]
  opens := by simp [Line.opens, hd]
  closes := by simp [Line.closes, hb]

namespace History

section

variable {p : Line → Bool} (hp : ∀ l, p l = false → l.Inert)

include hp

theorem any_declares_filter (h : List Line) (id : String) :
    (h.filter p).any (Line.declares id) = h.any (Line.declares id) := by
  rw [List.any_filter]
  congr 1
  funext l
  cases hl : p l with
  | true => rfl
  | false => simp [Line.declares, (hp l hl).declaration]

theorem first?_filter (h : List Line) (l : Line) : first? (h.filter p) l = first? h l := by
  unfold first?
  simp only [any_declares_filter hp]

theorem openBlocks_filter (h : List Line) : openBlocks (h.filter p) = openBlocks h := by
  induction h with
  | nil => rfl
  | cons l before ih =>
    cases hl : p l with
    | true => simp [hl, openBlocks, first?_filter hp, ih]
    | false => simp [hl, openBlocks, (hp l hl).opens, (hp l hl).closes, ih]

theorem kept_filter (h : List Line) : kept (h.filter p) = kept h := by
  induction h with
  | nil => rfl
  | cons l before ih =>
    cases hl : p l with
    | true => simp [hl, kept, placed?, first?_filter hp, enclosing?, openBlocks_filter hp, ih]
    | false => simp [hl, kept, placed?, first?, (hp l hl).declaration, ih]

theorem title?_filter (h : List Line) : title? (h.filter p) = title? h := by
  induction h with
  | nil => rfl
  | cons l before ih =>
    cases hl : p l with
    | true => simp [hl, ih]
    | false => simp [hl, (hp l hl).title, ih]

/-- The fault of a line does not depend on the inert lines before it. -/
theorem fault?_filter (h : List Line) (l : Line) : fault? (h.filter p) l = fault? h l := by
  unfold fault?
  rw [kept_filter hp, title?_filter hp, openBlocks_filter hp]

end

/-- Only the lines that hold a link count for the links. -/
theorem links_filter {p : Line → Bool} (hp : ∀ l, p l = false → l.link? = none) (h : List Line) :
    links (h.filter p) = links h := by
  induction h with
  | nil => rfl
  | cons l before ih =>
    cases hl : p l with
    | true => simp [hl, ih]
    | false => simp [hl, hp l hl, ih]

/-- Inert lines without faults may be left out of the list of faults. -/
theorem diagnostics_filter {p : Line → Bool} (hp : ∀ l, p l = false → l.Inert)
    (hf : ∀ l before, p l = false → fault? before l = none) (h : List Line) :
    diagnostics (h.filter p) = diagnostics h := by
  induction h with
  | nil => rfl
  | cons l before ih =>
    cases hl : p l with
    | true => rw [List.filter_cons_of_pos hl, diagnostics, diagnostics, ih, fault?_filter hp]
    | false =>
      rw [List.filter_cons_of_neg (by simp [hl]), diagnostics, ih, hf l before hl]
      simp

end History

end ArchDiagram.Source
