import ArchDiagram.Proofs.Ancestry
import ArchDiagram.Proofs.Outline
import Mathlib.Data.Fintype.Card
import Mathlib.Data.Set.Finite.Basic

/-!
Cycles of containers. The chain of parents of an item ends, or it runs into a cycle, and a trail of
open containers leads to the item exactly when it ends. What lies on a cycle or below one is
therefore not reached from outside, and nothing else is missed.
-/

namespace ArchDiagram

variable {α : Type}

/-- Following parents from a container comes to one that is inside itself. -/
def LeadsIntoCycle (cs : List (Item α)) (a : String) : Prop :=
  ∃ q, Relation.ReflTransGen (ParentOf cs) a q ∧ Relation.TransGen (ParentOf cs) q q

/-- The chain of parents of an item comes to a container that is inside itself. -/
def RunsIntoCycle (cs : List (Item α)) (i : Item α) : Prop :=
  ∃ p, i.parent = some p ∧ LeadsIntoCycle cs p

section Chains

variable {cs : List (Item α)} {a : String} {c : Item α}

/-- A cycle lies ahead of a container when it lies ahead of a parent. -/
theorem leadsIntoCycle_iff :
    LeadsIntoCycle cs a ↔ ∃ b, ParentOf cs a b ∧ LeadsIntoCycle cs b := by
  constructor
  · rintro ⟨q, hreach, hcycle⟩
    rcases hreach.cases_head with rfl | ⟨b, hup, hrest⟩
    · -- on a cycle, the next place leads back to this one
      obtain ⟨b, hup, hrest⟩ := Relation.TransGen.head'_iff.mp hcycle
      exact ⟨b, hup, a, hrest, hcycle⟩
    · exact ⟨b, hup, q, hrest, hcycle⟩
  · rintro ⟨b, hup, q, hrest, hcycle⟩
    exact ⟨q, hrest.head hup, hcycle⟩

/-- Only containers lead into a cycle. -/
theorem LeadsIntoCycle.exists_container (h : LeadsIntoCycle cs a) : ∃ c ∈ cs, c.id = a := by
  obtain ⟨b, ⟨c, hc, hid, -⟩, -⟩ := leadsIntoCycle_iff.mp h
  exact ⟨c, hc, hid⟩

/-- Where no container is inside itself, none leads into a cycle. -/
theorem Acyclic.not_leadsIntoCycle (h : Acyclic cs) : ¬LeadsIntoCycle cs a := by
  rintro ⟨q, -, hcycle⟩
  obtain ⟨b, ⟨c, hc, rfl, -⟩, -⟩ := Relation.TransGen.head'_iff.mp hcycle
  exact h c hc hcycle

/-- Without repeated identifiers a container has the parent that it names. -/
theorem parentOf_id_iff (hids : (cs.map (·.id)).Nodup) (hc : c ∈ cs) {b : String} :
    ParentOf cs c.id b ↔ c.parent = some b := by
  constructor
  · rintro ⟨k, hk, hid, hparent⟩
    rwa [← List.inj_on_of_nodup_map hids hk hc hid]
  · exact fun hparent => ⟨c, hc, rfl, hparent⟩

theorem runsIntoCycle_iff (hids : (cs.map (·.id)).Nodup) (hc : c ∈ cs) :
    RunsIntoCycle cs c ↔ LeadsIntoCycle cs c.id := by
  rw [leadsIntoCycle_iff]
  simp only [RunsIntoCycle, parentOf_id_iff hids hc]

end Chains

namespace Render

variable {d : Document α} {parentOf : Item α → Option String}

/-- The container `a` is an ancestor of `b`. -/
def Encloses (d : Document α) (a b : { c // c ∈ d.containers }) : Prop :=
  Relation.TransGen (ParentOf d.containers) b.1.id a.1.id

/-- The containers from which no cycle is reached. -/
abbrev Cycleless (d : Document α) : Type :=
  { c : { c // c ∈ d.containers } // ¬LeadsIntoCycle d.containers c.1.id }

/-- Among them, no chain of containers around each other goes outwards without end. -/
theorem wellFounded_encloses (d : Document α) :
    WellFounded (InvImage (Encloses d) (Subtype.val : Cycleless d → _)) := by
  have hfinite : Finite { c // c ∈ d.containers } := (List.finite_toSet d.containers).to_subtype
  have htrans : IsTrans (Cycleless d) (InvImage (Encloses d) Subtype.val) :=
    ⟨fun _ _ _ hab hbc => Relation.TransGen.trans hbc hab⟩
  have hirrefl : Std.Irrefl (InvImage (Encloses d) (Subtype.val : Cycleless d → _)) :=
    ⟨fun c hcycle => c.2 ⟨c.1.1.id, .refl, hcycle⟩⟩
  exact Finite.wellFounded_of_trans_of_irrefl _

/-- Parents that are not containers lead nowhere. -/
theorem runsIntoCycle_iff_filter {i : Item α} :
    RunsIntoCycle d.containers i ↔
      ∃ p, i.parent.filter d.containerIds.contains = some p ∧ LeadsIntoCycle d.containers p := by
  constructor
  · rintro ⟨p, hp, hcycle⟩
    obtain ⟨c, hc, rfl⟩ := hcycle.exists_container
    have hmem : d.containerIds.contains c.id = true :=
      List.contains_iff_mem.mpr (List.mem_map_of_mem hc)
    exact ⟨c.id, by rw [hp, Option.filter_some, hmem, if_pos rfl], hcycle⟩
  · rintro ⟨p, hp, hcycle⟩
    exact ⟨p, (Option.filter_eq_some_iff.mp hp).1, hcycle⟩

section Followed

variable (hids : d.containerIds.Nodup)
  (hparent : ∀ c ∈ d.containers, parentOf c = c.parent.filter d.containerIds.contains)
include hids hparent

/-- A trail passes no container from which a cycle is reached. -/
theorem Trail.not_leadsIntoCycle {cs : List (Item α)} (h : Trail parentOf d cs) :
    ∀ c ∈ cs, ¬LeadsIntoCycle d.containers c.id := by
  induction h with
  | nil => simp
  | @cons c cs hc hp _ ih =>
    refine List.forall_mem_cons.mpr ⟨fun hcycle => ?_, ih⟩
    obtain ⟨p, hup, hcycle⟩ :=
      runsIntoCycle_iff_filter.mp ((runsIntoCycle_iff hids hc).mpr hcycle)
    -- the parent is a container, so it is the next one of the trail
    rw [hparent c hc, hup] at hp
    obtain ⟨k, hk, rfl⟩ := Option.map_eq_some_iff.mp hp.symm
    exact ih k (List.mem_of_head? hk) hcycle

omit hids in
/-- A trail leads to every container from which no cycle is reached. -/
theorem exists_trail_cons {c : Item α} (hc : c ∈ d.containers)
    (hcycle : ¬LeadsIntoCycle d.containers c.id) : ∃ cs, Trail parentOf d (c :: cs) := by
  have hall : ∀ c : Cycleless d, ∃ cs, Trail parentOf d (c.1.1 :: cs) := by
    intro c
    -- the parent is a container further out, and the trail that leads to it is one shorter
    induction c using (wellFounded_encloses d).induction with
    | _ c ih =>
    obtain ⟨⟨c, hc⟩, hcycle⟩ := c
    cases hp : c.parent.filter d.containerIds.contains with
    | none => exact ⟨[], .cons hc ((hparent c hc).trans hp) .nil⟩
    | some p =>
      obtain ⟨hup, hmem⟩ := Option.filter_eq_some_iff.mp hp
      obtain ⟨b, hb, rfl⟩ := List.mem_map.mp (List.contains_iff_mem.mp hmem)
      have hstep : ParentOf d.containers c.id b.id := ⟨c, hc, rfl, hup⟩
      have hfree : ¬LeadsIntoCycle d.containers b.id :=
        fun h => hcycle (leadsIntoCycle_iff.mpr ⟨b.id, hstep, h⟩)
      obtain ⟨cs, hcs⟩ := ih ⟨⟨b, hb⟩, hfree⟩ (.single hstep)
      exact ⟨b :: cs, .cons hc ((hparent c hc).trans hp) hcs⟩
  exact hall ⟨⟨c, hc⟩, hcycle⟩

/-- The containers that trails lead to are those that no cycle keeps apart. -/
theorem exists_trail_cons_iff {c : Item α} (hc : c ∈ d.containers) :
    (∃ cs, Trail parentOf d (c :: cs)) ↔ ¬RunsIntoCycle d.containers c := by
  rw [runsIntoCycle_iff hids hc]
  exact ⟨fun ⟨_, hcs⟩ => hcs.not_leadsIntoCycle hids hparent c List.mem_cons_self,
    exists_trail_cons hparent hc⟩

end Followed

end Render

end ArchDiagram
