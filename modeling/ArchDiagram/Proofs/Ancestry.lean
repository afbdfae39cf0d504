import ArchDiagram.Source.Scanner
import Mathlib.Data.List.Perm.Subperm
import Mathlib.Dynamics.PeriodicPts.Defs
import Mathlib.Logic.Relation
import Mathlib.Tactic.Common

/-!
Nesting of containers. The walk up from a container comes back to it exactly when the container is
its own ancestor, and references to parents are free of faults exactly when every parent is a
container and no container is its own ancestor.
-/

namespace ArchDiagram

/-- `b` is the parent of a container `a`. -/
def ParentOf {α : Type} (cs : List (Item α)) (a b : String) : Prop :=
  ∃ c ∈ cs, c.id = a ∧ c.parent = some b

/-- Following parents from a container never comes back to it. -/
def Acyclic {α : Type} (cs : List (Item α)) : Prop :=
  ∀ c ∈ cs, ¬Relation.TransGen (ParentOf cs) c.id c.id

namespace Source

/-- The containers among declarations. -/
def containersOf (ds : List Declaration) : List (Item Binary64) :=
  (ds.filter (·.isContainer)).map Declaration.toItem

/-- The parent of a container, by identifier. -/
def parentOf? (ds : List Declaration) (a : String) : Option String :=
  (container? ds a).bind (·.parent)

theorem of_container?_eq_some {ds : List Declaration} {a : String} {c : Declaration}
    (h : container? ds a = some c) : c ∈ ds ∧ c.isContainer = true ∧ c.id = a := by
  unfold container? at h
  have hp := List.find?_some h
  rw [Bool.and_eq_true, beq_iff_eq] at hp
  exact ⟨List.mem_reverse.mp (List.mem_of_find?_eq_some h), hp⟩

theorem eq_of_id_eq {ds : List Declaration} (hn : (ds.map (·.id)).Nodup) {c d : Declaration}
    (hc : c ∈ ds) (hd : d ∈ ds) (h : c.id = d.id) : c = d :=
  List.inj_on_of_nodup_map hn hc hd h

theorem container?_eq_some_iff {ds : List Declaration} (hn : (ds.map (·.id)).Nodup) {a : String}
    {c : Declaration} :
    container? ds a = some c ↔ c ∈ ds ∧ c.isContainer = true ∧ c.id = a := by
  constructor
  · exact of_container?_eq_some
  · rintro ⟨hc, hk, rfl⟩
    cases hf : container? ds c.id with
    | none =>
      have hnot := List.find?_eq_none.mp hf c (List.mem_reverse.mpr hc)
      simp [hk] at hnot
    | some c' =>
      obtain ⟨hc', -, hid⟩ := of_container?_eq_some hf
      rw [eq_of_id_eq hn hc' hc hid]

theorem parentOf_iff {ds : List Declaration} (hn : (ds.map (·.id)).Nodup) {a b : String} :
    ParentOf (containersOf ds) a b ↔ parentOf? ds a = some b := by
  constructor
  · rintro ⟨i, hi, rfl, hp⟩
    obtain ⟨c, hc, rfl⟩ := List.mem_map.mp hi
    obtain ⟨hc, hk⟩ := List.mem_filter.mp hc
    have hfound := (container?_eq_some_iff hn).mpr ⟨hc, hk, rfl⟩
    rw [parentOf?, show c.toItem.id = c.id from rfl, hfound]
    exact hp
  · intro h
    obtain ⟨c, hfound, hp⟩ := Option.bind_eq_some_iff.mp h
    obtain ⟨hc, hk, rfl⟩ := of_container?_eq_some hfound
    exact ⟨c.toItem, List.mem_map_of_mem (List.mem_filter.mpr ⟨hc, hk⟩), rfl, hp⟩

/-- One step up, from no place to no place. -/
def ascend (ds : List Declaration) (a : Option String) : Option String :=
  a.bind (parentOf? ds)

theorem iterate_ascend_none (ds : List Declaration) (n : Nat) : (ascend ds)^[n] none = none := by
  induction n with
  | zero => rfl
  | succ n ih => rw [Function.iterate_succ_apply', ih]; rfl

/-- An ancestor is reached by some number of steps up. -/
theorem exists_iterate_of_transGen {ds : List Declaration} {a b : String}
    (h : Relation.TransGen (fun a b => parentOf? ds a = some b) a b) :
    ∃ n, 0 < n ∧ (ascend ds)^[n] (some a) = some b := by
  induction h with
  | single h => exact ⟨1, Nat.one_pos, h⟩
  | tail _ h ih =>
    obtain ⟨n, -, hn⟩ := ih
    refine ⟨n + 1, n.succ_pos, ?_⟩
    rw [Function.iterate_succ_apply', hn]
    exact h

/-- A walk that ends with a return has passed ancestors only. -/
theorem transGen_of_walk? {ds : List Declaration} {start : String} {n : Nat} {a : Ascent}
    (ha : ∀ c, a.current = some c → container? ds c.id = some c ∧
      Relation.TransGen (fun a b => parentOf? ds a = some b) start c.id)
    (h : walk? (Ascent.step ds start) n a = some true) :
    Relation.TransGen (fun a b => parentOf? ds a = some b) start start := by
  induction n generalizing a with
  | zero => cases h
  | succ n ih =>
    rw [walk?] at h
    cases hc : a.current with
    | none => simp [Ascent.step, hc] at h
    | some c =>
      obtain ⟨hfound, hreach⟩ := ha c hc
      cases hp : c.parent with
      | none => simp [Ascent.step, hc, hp] at h
      | some p =>
        have hup : parentOf? ds c.id = some p := by rw [parentOf?, hfound]; exact hp
        -- only the return to the start ends a walk with `true`
        by_cases hstart : p = start
        · exact hstart ▸ hreach.tail hup
        · by_cases hseen : p ∈ a.seen
          · simp [Ascent.step, hc, hp, hstart, hseen] at h
          · simp only [Ascent.step, hc, hp, List.contains_eq_mem, hstart, hseen, decide_false,
              Bool.false_eq_true, if_false] at h
            refine ih ?_ h
            intro c' hc'
            obtain ⟨-, -, hid⟩ := of_container?_eq_some hc'
            rw [hid]
            exact ⟨hc', hreach.tail hup⟩

/-- Before a return every place on the way up is a container with a parent. -/
theorem exists_parent_of_lt {ds : List Declaration} {start : String} {k i : Nat}
    (hreturn : (ascend ds)^[k] (some start) = some start) (hi : i < k) :
    ∃ c p, (ascend ds)^[i] (some start) = some c.id ∧ container? ds c.id = some c ∧
      c.parent = some p ∧ (ascend ds)^[i + 1] (some start) = some p := by
  -- a way that has ended does not come back
  have hnext : (ascend ds)^[i + 1] (some start) ≠ none := by
    intro hnone
    have hall : (ascend ds)^[k - (i + 1) + (i + 1)] (some start) = none := by
      rw [Function.iterate_add_apply, hnone, iterate_ascend_none]
    rw [Nat.sub_add_cancel hi, hreturn] at hall
    cases hall
  obtain ⟨p, hp⟩ := Option.ne_none_iff_exists'.mp hnext
  have hstep := hp
  rw [Function.iterate_succ_apply'] at hstep
  obtain ⟨q, hq, hup⟩ := Option.bind_eq_some_iff.mp hstep
  obtain ⟨c, hc, hparent⟩ := Option.bind_eq_some_iff.mp hup
  have hid := (of_container?_eq_some hc).2.2
  subst hid
  exact ⟨c, p, hq, hc, hparent, hp⟩

/-- Along the least cycle through `start` the walk goes on until it is back. The places passed are
those before the current one, and the places of the least cycle are all different. -/
theorem walk?_of_period {ds : List Declaration} {start : String} {k : Nat}
    (hk : Function.minimalPeriod (ascend ds) (some start) = k) {n i : Nat}
    (hi : i < k) (hfuel : k ≤ n + i) {a : Ascent}
    (hcur : a.current = ((ascend ds)^[i] (some start)).bind (container? ds))
    (hseen : ∀ s ∈ a.seen, ∃ j < i, (ascend ds)^[j] (some start) = some s) :
    walk? (Ascent.step ds start) n a = some true := by
  have hreturn : (ascend ds)^[k] (some start) = some start :=
    hk ▸ Function.iterate_minimalPeriod
  induction n generalizing i a with
  | zero => omega
  | succ n ih =>
    obtain ⟨c, p, hplace, hfound, hparent, hnext⟩ := exists_parent_of_lt hreturn hi
    have hcurrent : a.current = some c := by rw [hcur, hplace]; exact hfound
    rw [walk?]
    by_cases hstart : p = start
    · simp [Ascent.step, hcurrent, hparent, hstart]
    · have hlt : i + 1 < k := by
        apply lt_of_le_of_ne hi
        intro heq
        rw [heq, hreturn] at hnext
        exact hstart (Option.some.inj hnext).symm
      -- the places of the least cycle are different, so the walk does not stop at one it has seen
      have hfresh : p ∉ a.seen := by
        intro hmem
        obtain ⟨j, hj, hje⟩ := hseen p hmem
        have heq := (Function.iterate_eq_iterate_iff_of_lt_minimalPeriod
          (f := ascend ds) (x := some start) (hk.symm ▸ hlt) (hk.symm ▸ (by omega))).mp
          (hnext.trans hje.symm)
        omega
      simp only [Ascent.step, hcurrent, hparent, List.contains_eq_mem, hstart, hfresh,
        decide_false, Bool.false_eq_true, if_false]
      refine ih hlt (by omega) (by rw [hnext]; rfl) ?_
      intro s hs
      rcases List.mem_cons.mp hs with rfl | hs
      · exact ⟨i, by omega, hplace⟩
      · obtain ⟨j, hj, hje⟩ := hseen s hs
        exact ⟨j, by omega, hje⟩

/-- The least cycle is no longer than the list of declarations. -/
theorem period_le_length (ds : List Declaration) (start : String) :
    Function.minimalPeriod (ascend ds) (some start) ≤ ds.length := by
  set k := Function.minimalPeriod (ascend ds) (some start) with hk
  have hreturn : (ascend ds)^[k] (some start) = some start := Function.iterate_minimalPeriod
  have hnodup : ((List.range k).map fun i => (ascend ds)^[i] (some start)).Nodup := by
    apply List.Nodup.map_on _ List.nodup_range
    intro i hi j hj he
    exact (Function.iterate_eq_iterate_iff_of_lt_minimalPeriod (List.mem_range.mp hi)
      (List.mem_range.mp hj)).mp he
  have hsub : ((List.range k).map fun i => (ascend ds)^[i] (some start)) ⊆
      ds.map fun c => some c.id := by
    intro o ho
    obtain ⟨i, hi, rfl⟩ := List.mem_map.mp ho
    obtain ⟨c, -, hplace, hfound, -⟩ := exists_parent_of_lt hreturn (List.mem_range.mp hi)
    exact List.mem_map.mpr ⟨c, (of_container?_eq_some hfound).1, hplace.symm⟩
  simpa using (hnodup.subperm hsub).length_le

/-- The walk up from a container comes back to it exactly when it is its own ancestor. -/
theorem inCycle_iff {ds : List Declaration} {d : Declaration} {p : String}
    (hd : container? ds d.id = some d) (hp : d.parent = some p) (hne : p ≠ d.id) :
    inCycle ds d = true ↔
      Relation.TransGen (fun a b => parentOf? ds a = some b) d.id d.id := by
  have hup : parentOf? ds d.id = some p := by rw [parentOf?, hd]; exact hp
  constructor
  · intro h
    unfold inCycle at h
    rw [hp, Option.bind_some] at h
    cases hw : walk? (Ascent.step ds d.id) (ds.length + 3) ⟨container? ds p, [d.id]⟩ with
    | none => simp [hw] at h
    | some r =>
      rw [hw, Option.getD_some] at h
      subst h
      refine transGen_of_walk? ?_ hw
      intro c hc
      have hid := (of_container?_eq_some hc).2.2
      rw [hid]
      exact ⟨hc, .single hup⟩
  · intro h
    obtain ⟨n, hn, hback⟩ := exists_iterate_of_transGen h
    have hperiod : Function.IsPeriodicPt (ascend ds) n (some d.id) := hback
    have hpos := hperiod.minimalPeriod_pos hn
    have hone : Function.minimalPeriod (ascend ds) (some d.id) ≠ 1 := by
      intro h1
      have hfix : (ascend ds)^[1] (some d.id) = some d.id := by
        conv_rhs => rw [← Function.iterate_minimalPeriod (f := ascend ds) (x := some d.id), h1]
      exact hne (Option.some.inj (hup.symm.trans hfix))
    -- the bound on the walk is larger than the cycle is long
    have hlen := period_le_length ds d.id
    have hwalk : walk? (Ascent.step ds d.id) (ds.length + 3) ⟨container? ds p, [d.id]⟩ =
        some true := by
      refine walk?_of_period (i := 1) rfl (by omega) (by omega) ?_ ?_
      · rw [Function.iterate_one, ascend, Option.bind_some, hup, Option.bind_some]
      · intro s hs
        rw [List.mem_singleton] at hs
        subst hs
        exact ⟨0, Nat.one_pos, rfl⟩
    unfold inCycle
    rw [hp, Option.bind_some, hwalk]
    rfl

theorem isNodeId_iff {ds : List Declaration} {p : String} :
    isNodeId ds p = true ↔ ∃ d ∈ ds, d.isContainer = false ∧ d.id = p := by
  simp [isNodeId]

theorem mem_map_id_containersOf {ds : List Declaration} {p : String} :
    p ∈ (containersOf ds).map (·.id) ↔ ∃ c ∈ ds, c.isContainer = true ∧ c.id = p := by
  simp only [containersOf, List.map_map, List.mem_map, List.mem_filter]
  constructor
  · rintro ⟨c, ⟨hc, hk⟩, rfl⟩
    exact ⟨c, hc, hk, rfl⟩
  · rintro ⟨c, hc, hk, rfl⟩
    exact ⟨c, ⟨hc, hk⟩, rfl⟩

/-- With identifiers all different, a parent is free of faults when it is another container that is
not reached again from there. -/
theorem parentFault?_eq_none_iff {ds : List Declaration} (hn : (ds.map (·.id)).Nodup)
    (d : Declaration) :
    parentFault? ds d = none ↔
      ∀ p ∈ d.parent, p ≠ d.id ∧ p ∈ (containersOf ds).map (·.id) ∧
        (d.isContainer = true → inCycle ds d = false) := by
  cases hp : d.parent with
  | none => simp [parentFault?, hp]
  | some p =>
    have hcontainer : (container? ds p).isNone = false ↔ p ∈ (containersOf ds).map (·.id) := by
      rw [Option.isNone_eq_false_iff, Option.isSome_iff_exists, mem_map_id_containersOf]
      exact exists_congr fun c => container?_eq_some_iff hn
    have hnode : p ∈ (containersOf ds).map (·.id) → isNodeId ds p = false := by
      intro hp
      obtain ⟨c, hc, hk, rfl⟩ := mem_map_id_containersOf.mp hp
      rw [Bool.eq_false_iff]
      intro hnode
      obtain ⟨e, he, hek, hid⟩ := isNodeId_iff.mp hnode
      rw [eq_of_id_eq hn he hc hid, hk] at hek
      cases hek
    rw [parentFault?, hp, Option.bind_some]
    simp only [Option.mem_def, Option.some.injEq, forall_eq']
    constructor
    · intro hf
      split at hf
      · cases hf
      · rename_i hne
        split at hf
        · cases hf
        · split at hf
          · cases hf
          · rename_i hsome
            split at hf
            · cases hf
            · rename_i hcycle
              exact ⟨hne, hcontainer.mp (Bool.eq_false_iff.mpr hsome), by simpa using hcycle⟩
    · rintro ⟨hne, hc, hcycle⟩
      have hcycle' : (d.isContainer && inCycle ds d) = false := by simpa using hcycle
      rw [if_neg hne, hnode hc, hcontainer.mpr hc, hcycle']
      rfl

/-- With identifiers all different, the references to parents are free of faults exactly when every
parent is a container and no container is its own ancestor. -/
theorem parentDiagnostics_eq_nil_iff {ds : List Declaration} (hn : (ds.map (·.id)).Nodup) :
    parentDiagnostics ds = [] ↔
      (∀ d ∈ ds, ∀ p ∈ d.parent, p ∈ (containersOf ds).map (·.id)) ∧
        Acyclic (containersOf ds) := by
  have hrel : ParentOf (containersOf ds) = fun a b => parentOf? ds a = some b := by
    funext a b
    exact propext (parentOf_iff hn)
  have hnil : parentDiagnostics ds = [] ↔ ∀ d ∈ ds, parentFault? ds d = none := by
    simp [parentDiagnostics, List.filterMap_eq_nil_iff]
  have hfound {c : Declaration} (hc : c ∈ ds) (hk : c.isContainer = true) :
      container? ds c.id = some c :=
    (container?_eq_some_iff hn).mpr ⟨hc, hk, rfl⟩
  rw [hnil]
  constructor
  · intro h
    have hok := fun d hd => (parentFault?_eq_none_iff hn d).mp (h d hd)
    refine ⟨fun d hd p hp => (hok d hd p hp).2.1, ?_⟩
    intro i hi hcycle
    obtain ⟨c, hc, rfl⟩ := List.mem_map.mp hi
    obtain ⟨hc, hk⟩ := List.mem_filter.mp hc
    rw [hrel] at hcycle
    -- a container on a cycle has a parent, and the walk from there finds the cycle
    obtain ⟨p, hp⟩ : ∃ p, c.parent = some p := by
      obtain ⟨b, hb, -⟩ := Relation.TransGen.head'_iff.mp hcycle
      rw [parentOf?, show c.toItem.id = c.id from rfl, hfound hc hk] at hb
      exact ⟨b, hb⟩
    obtain ⟨hne, -, hnot⟩ := hok c hc p hp
    rw [(inCycle_iff (hfound hc hk) hp hne).mpr hcycle] at hnot
    exact absurd (hnot hk) (by simp)
  · rintro ⟨hparents, hacyclic⟩ d hd
    refine (parentFault?_eq_none_iff hn d).mpr fun p hp => ?_
    have hloop (hdk : d.isContainer = true) :
        ¬Relation.TransGen (fun a b => parentOf? ds a = some b) d.id d.id := by
      rw [← hrel]
      exact hacyclic d.toItem (List.mem_map_of_mem (List.mem_filter.mpr ⟨hd, hdk⟩))
    have hne : p ≠ d.id := by
      rintro rfl
      -- its own parent is a container, so it is one, and a cycle of length one
      obtain ⟨c, hc, hk, hid⟩ := mem_map_id_containersOf.mp (hparents d hd _ hp)
      rw [eq_of_id_eq hn hc hd hid] at hk
      refine hloop hk (.single ?_)
      rw [parentOf?, hfound hd hk]
      exact hp
    refine ⟨hne, hparents d hd p hp, fun hdk => ?_⟩
    rw [Bool.eq_false_iff]
    intro hin
    exact hloop hdk ((inCycle_iff (hfound hd hdk) hp hne).mp hin)

end Source

end ArchDiagram
