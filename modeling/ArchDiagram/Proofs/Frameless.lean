import ArchDiagram.Proofs.Outline
import ArchDiagram.Proofs.Unframed
import ArchDiagram.Render.D2
import ArchDiagram.Render.Mermaid

/-!
Drawings do not show frames. The outline of a document with all frames open has the marks of its
outline with their frames open, and in neither notation does a line depend on the frame of a mark.
So documents that are equal up to frames are drawn alike, or neither of them is.
-/

namespace ArchDiagram

variable {α : Type}

theorem Document.items_unframed (d : Document α) : d.unframed.items = d.items.map Item.unframed := by
  rw [items, items, unframed, List.map_append, List.map_map, List.map_map]
  rfl

namespace Render

def Mark.unframed : Mark α → Mark α
  | opened c => opened c.unframed
  | node n => node n.unframed
  | closed => closed

def Entry.unframed (e : Entry α) : Entry α :=
  { e with mark := e.mark.unframed }

theorem Mark.id?_unframed (m : Mark α) : m.unframed.id? = m.id? := by
  cases m <;> rfl

theorem enclosed_unframed (depth : Nat) (c : Item α) (held : List (Entry α)) :
    enclosed depth c.unframed (held.map Entry.unframed) =
      (enclosed depth c held).map Entry.unframed := by
  rw [enclosed, enclosed, List.map_append, List.map_cons]
  rfl

/-- Results that are all changed alike are collected and then changed. -/
theorem mapM_map_some {β γ δ : Type} (f : β → Option γ) (h : γ → δ) (bs : List β) :
    bs.mapM (fun b => (f b).map h) = (bs.mapM f).map (List.map h) := by
  induction bs with
  | nil => rfl
  | cons b bs ih =>
    rw [List.mapM_cons, List.mapM_cons, ih]
    cases f b with
    | none => rfl
    | some c => cases bs.mapM f <;> rfl

variable {parentOf : Item α → Option String}

/-- What decides on parents without looking at frames gives the same outline without them. -/
theorem outlineWithin?_unframed (hparent : ∀ i, parentOf i.unframed = parentOf i) (d : Document α)
    (levels depth : Nat) (parent : Option String) :
    outlineWithin? parentOf d.unframed levels depth parent =
      (outlineWithin? parentOf d levels depth parent).map (List.map Entry.unframed) := by
  induction levels generalizing depth parent with
  | zero => rfl
  | succ levels ih =>
    have hcontainers : d.unframed.containers.filter (parentOf · == parent) =
        (d.containers.filter (parentOf · == parent)).map Item.unframed := by
      rw [Document.unframed, List.filter_map]
      exact congrArg _ (List.filter_congr fun c _ => congrArg (· == parent) (hparent c))
    have hnodes : d.unframed.nodes.filter (parentOf ·.toItem == parent) =
        (d.nodes.filter (parentOf ·.toItem == parent)).map Node.unframed := by
      rw [Document.unframed, List.filter_map]
      exact congrArg _ (List.filter_congr fun n _ => congrArg (· == parent) (hparent n.toItem))
    have hblock (c : Item α) :
        (outlineWithin? parentOf d.unframed levels (depth + 1) (some c.unframed.id)).map
            (enclosed depth c.unframed) =
          ((outlineWithin? parentOf d levels (depth + 1) (some c.id)).map (enclosed depth c)).map
            (List.map Entry.unframed) := by
      rw [ih, Option.map_map, Option.map_map]
      exact congrArg (Option.map · _) (funext fun held => enclosed_unframed depth c held)
    rw [outlineWithin?_succ, outlineWithin?_succ, hcontainers, hnodes, List.mapM_map]
    simp only [Function.comp_def, hblock]
    rw [mapM_map_some, Option.map_map, Option.map_map]
    congr 1
    funext inner
    simp only [Function.comp_apply, List.map_append, List.map_flatten, List.map_map]
    rfl

theorem outline?_unframed (hparent : ∀ i, parentOf i.unframed = parentOf i) (d : Document α) :
    outline? parentOf d.unframed = (outline? parentOf d).map (List.map Entry.unframed) := by
  have hlength : d.unframed.containers.length = d.containers.length := List.length_map _
  rw [outline?, hlength, outlineWithin?_unframed hparent]
  rfl

namespace Mermaid

theorem entryLine_unframed (ids : List String) (e : Entry α) :
    entryLine ids e.unframed = entryLine ids e := by
  obtain ⟨depth, mark⟩ := e
  cases mark <;> rfl

theorem mentioned_unframed (entries : List (Entry α)) (links : List Link) :
    mentioned (entries.map Entry.unframed) links = mentioned entries links := by
  rw [mentioned, mentioned, List.filterMap_map]
  simp only [Function.comp_def, Entry.unframed, Mark.id?_unframed]

/-- A flowchart does not show frames. -/
theorem render?_unframed (d : Document α) : render? d.unframed = render? d := by
  have hparent : parentOf d.unframed = parentOf d := by
    funext i
    rw [parentOf, parentOf, Document.containerIds_unframed]
  have hlines (entries : List (Entry α)) :
      lines d.unframed (entries.map Entry.unframed) = lines d entries := by
    have hlinks : d.unframed.links = d.links := rfl
    have hentries (ids : List String) :
        (entries.map Entry.unframed).map (entryLine ids) = entries.map (entryLine ids) := by
      rw [List.map_map]
      exact congrArg (List.map · _) (funext (entryLine_unframed ids))
    rw [lines, lines, hlinks, mentioned_unframed, hentries]
  rw [render?, render?, hparent, @outline?_unframed _ (parentOf d) fun _ => rfl, Option.map_map]
  simp only [Function.comp_def, hlines]

end Mermaid

namespace D2

theorem parentOfId_unframed (d : Document α) : parentOfId d.unframed = parentOfId d := by
  funext id
  rw [parentOfId, parentOfId, Document.items_unframed, ← List.map_reverse, List.find?_map,
    Option.bind_map, Document.containerIds_unframed]
  rfl

theorem path_unframed (d : Document α) : path d.unframed = path d := by
  have hlength : d.unframed.containers.length = d.containers.length := List.length_map _
  have hstep : Ascent.step d.unframed = Ascent.step d := by
    funext a
    rw [Ascent.step, Ascent.step, parentOfId_unframed]
  funext id
  rw [path, path, pathIds, pathIds, parentOfId_unframed, hstep, hlength]

theorem entryLine_unframed (r : Icon.Registry) (e : Entry α) :
    entryLine r e.unframed = entryLine r e := by
  obtain ⟨depth, mark⟩ := e
  cases mark <;> rfl

theorem entryLines_unframed (r : Icon.Registry) (entries : List (Entry α)) :
    entryLines r (entries.map Entry.unframed) = entryLines r entries := by
  induction entries generalizing r with
  | nil => rfl
  | cons e es ih =>
    rw [List.map_cons, entryLines, entryLines, entryLine_unframed]
    simp only [ih]

/-- A diagram does not show frames, and writing it leaves the same registry. -/
theorem render?_unframed (r : Icon.Registry) (d : Document α) :
    render? r d.unframed = render? r d := by
  have hlines (body : List (List Char)) : lines d.unframed body = lines d body := by
    have hlink : linkLine d.unframed = linkLine d := by
      funext l
      rw [linkLine, linkLine, path_unframed]
    rw [lines, lines, hlink]
    rfl
  rw [render?, render?, parentOfId_unframed,
    @outline?_unframed _ (fun i => parentOfId d i.id) fun _ => rfl, Option.map_map]
  simp only [Function.comp_def, entryLines_unframed, hlines]

end D2

end Render

end ArchDiagram
