import ArchDiagram.Proofs.D2Paths
import ArchDiagram.Proofs.Fitting
import ArchDiagram.Proofs.Reached
import ArchDiagram.Render.Mermaid

/-!
Climbing and drawing come to an end, whatever encloses what. Each climb along the parents marks the
places that it has passed and stops at one of them, so it takes no more steps than there are
different containers, and two. The drawings mark nothing: they start outside all containers, and
from there no way leads onto a cycle.
-/

namespace ArchDiagram

variable {α : Type}

/-- A walk that ends within a bound gives the same within a greater one. -/
theorem walk?_eq_some_getD {σ β : Type} {step : σ → σ ⊕ β} {n m : Nat} {s : σ}
    (h : (walk? step n s).isSome = true) (hm : n ≤ m) (b : β) :
    walk? step n s = some ((walk? step m s).getD b) := by
  obtain ⟨r, hr⟩ := Option.isSome_iff_exists.mp h
  rw [hr, walk?_mono hr hm, Option.getD_some]

namespace Render

namespace D2

variable {d : Document α}

theorem mem_containerIds_of_parentOfId {id p : String} (h : parentOfId d id = some p) :
    p ∈ d.containerIds := by
  obtain ⟨i, -, hp⟩ := Option.bind_eq_some_iff.mp h
  exact List.contains_iff_mem.mp (Option.filter_eq_some_iff.mp hp).2

theorem Ascent.step_eq_inl_iff {a a' : Ascent} :
    Ascent.step d a = .inl a' ↔
      ∃ p, a.next = some p ∧ p ∉ a.path ∧ a' = ⟨parentOfId d p, p :: a.path⟩ := by
  unfold Ascent.step
  cases hp : a.next with
  | none => simp
  | some p => by_cases hpath : p ∈ a.path <;> simp [hpath, eq_comm]

/-- The ascent from an item ends, whatever encloses what, and passes no container twice. -/
theorem isSome_walk?_ascent_of_le (id : String) {n : Nat}
    (hn : d.containerIds.toFinset.card + 2 ≤ n) :
    (walk? (Ascent.step d) n ⟨parentOfId d id, [id]⟩).isSome = true := by
  apply isSome_walk?_of_measure (P := fun a => ∀ p ∈ a.next, p ∈ d.containerIds)
    (μ := fun a => (d.containerIds.toFinset \ a.path.toFinset).card)
  · intro a a' _ hstep q hq
    obtain ⟨p, -, -, rfl⟩ := Ascent.step_eq_inl_iff.mp hstep
    exact mem_containerIds_of_parentOfId hq
  · intro a a' _ ha hstep _
    obtain ⟨p, hp, hpath, rfl⟩ := Ascent.step_eq_inl_iff.mp hstep
    exact card_sdiff_cons_lt (ha p hp) hpath
  · exact fun p hp => mem_containerIds_of_parentOfId hp
  · exact le_trans (Nat.add_le_add_right (Finset.card_le_card Finset.sdiff_subset) 2) hn

end D2

/-- The climbs along parents take at most two steps more than there are different containers. -/
structure ClimbsEnd (ds : List Source.Declaration) (d : Document α) : Prop where
  /-- The search for a declaration among the containers around it. -/
  inCycle : ∀ c : Source.Declaration,
    walk? (Source.Ascent.step ds c.id) (((Source.containersOf ds).map (·.id)).toFinset.card + 2)
      ⟨c.parent.bind (Source.container? ds), [c.id]⟩ = some (Source.inCycle ds c)
  /-- The count of the containers around a container. -/
  depth : ∀ c : Item α,
    walk? (Layout.Exit.step d.containers) (d.containerIds.toFinset.card + 2)
      ⟨Layout.enclosing? d.containers c, [c.id], 0⟩ = some (Layout.depth d.containers c)
  /-- The path to an item. -/
  path : ∀ id : String,
    walk? (D2.Ascent.step d) (d.containerIds.toFinset.card + 2) ⟨D2.parentOfId d id, [id]⟩ =
      some (D2.pathIds d id)

theorem climbsEnd (ds : List Source.Declaration) (d : Document α) : ClimbsEnd ds d := by
  have hcard : d.containerIds.toFinset.card ≤ d.containers.length :=
    (List.toFinset_card_le _).trans_eq (List.length_map _)
  exact {
    inCycle := by
      intro c
      apply walk?_eq_some_getD (Source.isSome_walk?_ascent_of_le ds c.id c.parent le_rfl)
      have hdeclared := Source.card_containersOf_le ds
      omega
    depth := by
      intro c
      have hinside : ∀ p ∈ Layout.enclosing? d.containers c, p ∈ d.containers :=
        fun p hp => (Layout.of_enclosing?_eq_some hp).1
      apply walk?_eq_some_getD
      · exact Layout.isSome_walk?_exit_of_le hinside le_rfl
      · omega
    path := by
      intro id
      apply walk?_eq_some_getD (D2.isSome_walk?_ascent_of_le id le_rfl)
      omega }

/-- The outline `es` is complete with as many levels as there are containers and one more, and opens
no container twice. -/
structure OutlineEnds (parentOf : Item α → Option String) (d : Document α) (es : List (Entry α)) :
    Prop where
  outline : ∀ levels, d.containers.length < levels →
    outlineWithin? parentOf d levels 0 none = some es
  once : ((opened es).map (·.id)).Nodup

theorem exists_outlineEnds (parentOf : Item α → Option String) {d : Document α}
    (hids : d.containerIds.Nodup) :
    ∃ es, outline? parentOf d = some es ∧ OutlineEnds parentOf d es := by
  obtain ⟨es, hes⟩ := Option.isSome_iff_exists.mp (isSome_outline? parentOf hids)
  exact ⟨es, hes, fun _ hlevels => outlineWithin?_mono hes hlevels, nodup_opened hids hes⟩

/-- Two containers in each other, one in itself, one below a cycle, and one whose parent is not
known. -/
def knotted : Document Nat where
  title := "Knots"
  containers := [
    { id := "left", label := "L", parent := some "right" },
    { id := "right", label := "R", parent := some "left" },
    { id := "self", label := "S", parent := some "self" },
    { id := "below", label := "B", parent := some "left" },
    { id := "stray", label := "T", parent := some "nowhere" },
    { id := "inner", label := "I", parent := some "stray" }]
  nodes := [
    { id := "lost", label := "N", parent := some "below" },
    { id := "kept", label := "K", parent := some "inner" }]

end Render

end ArchDiagram
