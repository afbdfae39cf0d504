import ArchDiagram.Proofs.Unfailing
import Mathlib.Data.List.Forall2

/-!
Verdicts on parents. When no identifier is declared twice, every declaration has one verdict on the
parent it names, and the check reports the faults among them in the order of declarations. Of
containers that lead into a cycle only its members are nested in themselves, and there is nothing to
report exactly when parents are containers and what is inside what is a forest.
-/

namespace ArchDiagram.Source

/-- A declaration `a` names `b` as its parent. -/
def InsideOf (ds : List Declaration) (a b : String) : Prop :=
  ∃ d ∈ ds, d.id = a ∧ d.parent = some b

/-- What is inside what as a forest: nothing has two parents and nothing is inside itself. -/
structure RootedForest {β : Type} (parent : β → β → Prop) : Prop where
  unique : ∀ a b c, parent a b → parent a c → b = c
  acyclic : ∀ a, ¬Relation.TransGen parent a a

/-- Following parents from `a` through containers comes back to `a`. -/
def OnCycle (ds : List Declaration) (a : String) : Prop :=
  Relation.TransGen (ParentOf (containersOf ds)) a a

/-- The fault of the parent that a declaration names, if there is one. -/
inductive ParentVerdict (ds : List Declaration) (d : Declaration) : Option Fault → Prop
  | outermost (parent : d.parent = none) : ParentVerdict ds d none
  | own (parent : d.parent = some d.id) : ParentVerdict ds d (some (.ownParent d.id))
  | node {n : Declaration} (parent : d.parent = some n.id) (other : n.id ≠ d.id) (mem : n ∈ ds)
      (kind : n.isContainer = false) : ParentVerdict ds d (some (.parentIsNode n.id d.id))
  | unknown {p : String} (parent : d.parent = some p) (other : p ≠ d.id)
      (undeclared : ∀ c ∈ ds, c.id ≠ p) : ParentVerdict ds d (some (.unknownParent p d.id))
  | nested {c : Declaration} (parent : d.parent = some c.id) (other : c.id ≠ d.id) (mem : c ∈ ds)
      (kind : c.isContainer = true) (container : d.isContainer = true) (cycle : OnCycle ds d.id) :
      ParentVerdict ds d (some (.nestedInItself d.id))
  | contained {c : Declaration} (parent : d.parent = some c.id) (other : c.id ≠ d.id) (mem : c ∈ ds)
      (kind : c.isContainer = true) (straight : d.isContainer = true → ¬OnCycle ds d.id) :
      ParentVerdict ds d none

section Distinct

variable {ds : List Declaration} (hn : (ds.map (·.id)).Nodup)
include hn

theorem inCycle_iff_onCycle {d : Declaration} (hd : d ∈ ds) (hk : d.isContainer = true) {p : String}
    (hp : d.parent = some p) (hne : p ≠ d.id) : inCycle ds d = true ↔ OnCycle ds d.id := by
  have hrel : ParentOf (containersOf ds) = fun a b => parentOf? ds a = some b := by
    funext a b
    exact propext (parentOf_iff hn)
  rw [OnCycle, hrel]
  exact inCycle_iff ((container?_eq_some_iff hn).mpr ⟨hd, hk, rfl⟩) hp hne

/-- No identifier is that of a node and of a container. -/
theorem isNodeId_of_container {c : Declaration} (hc : c ∈ ds) (hk : c.isContainer = true) :
    isNodeId ds c.id = false := by
  rw [Bool.eq_false_iff]
  intro hnode
  obtain ⟨n, hmem, hkind, hid⟩ := isNodeId_iff.mp hnode
  rw [eq_of_id_eq hn hmem hc hid, hk] at hkind
  cases hkind

/-- What is declared is a node or a container. -/
theorem undeclared_iff {p : String} :
    (∀ c ∈ ds, c.id ≠ p) ↔ isNodeId ds p = false ∧ container? ds p = none := by
  constructor
  · intro hnone
    constructor
    · rw [Bool.eq_false_iff]
      intro hnode
      obtain ⟨n, hmem, -, hid⟩ := isNodeId_iff.mp hnode
      exact hnone n hmem hid
    · rw [Option.eq_none_iff_forall_ne_some]
      intro c hfound
      obtain ⟨hmem, -, hid⟩ := of_container?_eq_some hfound
      exact hnone c hmem hid
  · rintro ⟨hnode, hcontainer⟩ c hc rfl
    cases hk : c.isContainer with
    | true =>
      rw [(container?_eq_some_iff hn).mpr ⟨hc, hk, rfl⟩] at hcontainer
      cases hcontainer
    | false =>
      rw [isNodeId_iff.mpr ⟨c, hc, hk, rfl⟩] at hnode
      cases hnode

/-- The last question of the check is whether a container is on a cycle. -/
theorem nested_iff {d : Declaration} (hd : d ∈ ds) {p : String} (hp : d.parent = some p)
    (hne : p ≠ d.id) :
    (d.isContainer && inCycle ds d) = true ↔ d.isContainer = true ∧ OnCycle ds d.id := by
  rw [Bool.and_eq_true]
  exact and_congr_right fun hk => inCycle_iff_onCycle hn hd hk hp hne

omit hn in
/-- The check of a parent that is not the declaration itself. -/
theorem parentFault?_of_other {d : Declaration} {p : String} (hp : d.parent = some p)
    (hne : p ≠ d.id) :
    parentFault? ds d =
      if isNodeId ds p then some (.parentIsNode p d.id)
      else if (container? ds p).isNone then some (.unknownParent p d.id)
      else if d.isContainer && inCycle ds d then some (.nestedInItself d.id)
      else none := by
  rw [parentFault?, hp, Option.bind_some, if_neg hne]

/-- The check of a parent that is a container. -/
theorem parentFault?_of_container {d c : Declaration} (hp : d.parent = some c.id)
    (hne : c.id ≠ d.id) (hc : c ∈ ds) (hk : c.isContainer = true) :
    parentFault? ds d =
      if d.isContainer && inCycle ds d then some (.nestedInItself d.id) else none := by
  have hfound := (container?_eq_some_iff hn).mpr ⟨hc, hk, rfl⟩
  rw [parentFault?_of_other hp hne, isNodeId_of_container hn hc hk, if_neg Bool.false_ne_true,
    hfound, Option.isNone_some, if_neg Bool.false_ne_true]

/-- A verdict on a declaration is what the check gives. -/
theorem ParentVerdict.parentFault?_eq {d : Declaration} (hd : d ∈ ds) {v : Option Fault}
    (h : ParentVerdict ds d v) : parentFault? ds d = v := by
  cases h with
  | outermost hp => rw [parentFault?, hp, Option.bind_none]
  | own hp => rw [parentFault?, hp, Option.bind_some, if_pos rfl]
  | node hp hne hmem hkind =>
    rw [parentFault?_of_other hp hne, if_pos (isNodeId_iff.mpr ⟨_, hmem, hkind, rfl⟩)]
  | unknown hp hne hnone =>
    obtain ⟨hnode, hcontainer⟩ := (undeclared_iff hn).mp hnone
    rw [parentFault?_of_other hp hne, hnode, if_neg Bool.false_ne_true, hcontainer,
      Option.isNone_none, if_pos rfl]
  | nested hp hne hmem hkind hk hcycle =>
    rw [parentFault?_of_container hn hp hne hmem hkind,
      if_pos ((nested_iff hn hd hp hne).mpr ⟨hk, hcycle⟩)]
  | contained hp hne hmem hkind hstraight =>
    have hcheck : ¬(d.isContainer && inCycle ds d) = true := by
      rw [nested_iff hn hd hp hne, not_and]
      exact hstraight
    rw [parentFault?_of_container hn hp hne hmem hkind, if_neg hcheck]

/-- What the check gives is a verdict on the declaration. -/
theorem parentVerdict_parentFault? {d : Declaration} (hd : d ∈ ds) :
    ParentVerdict ds d (parentFault? ds d) := by
  cases hp : d.parent with
  | none =>
    rw [parentFault?, hp, Option.bind_none]
    exact .outermost hp
  | some p =>
    by_cases hne : p = d.id
    · rw [parentFault?, hp, Option.bind_some, if_pos hne]
      exact .own (hne ▸ hp)
    cases hnode : isNodeId ds p with
    | true =>
      obtain ⟨n, hmem, hkind, rfl⟩ := isNodeId_iff.mp hnode
      rw [parentFault?_of_other hp hne, if_pos hnode]
      exact .node hp hne hmem hkind
    | false =>
      cases hfound : container? ds p with
      | none =>
        rw [parentFault?_of_other hp hne, hnode, if_neg Bool.false_ne_true, hfound,
          Option.isNone_none, if_pos rfl]
        exact .unknown hp hne ((undeclared_iff hn).mpr ⟨hnode, hfound⟩)
      | some c =>
        obtain ⟨hmem, hkind, rfl⟩ := of_container?_eq_some hfound
        rw [parentFault?_of_container hn hp hne hmem hkind]
        by_cases hcheck : (d.isContainer && inCycle ds d) = true
        · obtain ⟨hk, hcycle⟩ := (nested_iff hn hd hp hne).mp hcheck
          rw [if_pos hcheck]
          exact .nested hp hne hmem hkind hk hcycle
        · rw [if_neg hcheck]
          rw [nested_iff hn hd hp hne, not_and] at hcheck
          exact .contained hp hne hmem hkind hcheck

/-- The check gives the verdict on each declaration. -/
theorem parentVerdict_iff {d : Declaration} (hd : d ∈ ds) {v : Option Fault} :
    ParentVerdict ds d v ↔ parentFault? ds d = v := by
  refine ⟨fun h => h.parentFault?_eq hn hd, ?_⟩
  rintro rfl
  exact parentVerdict_parentFault? hn hd

/-- A diagnostic is the fault of a declaration at its line. -/
theorem mem_parentDiagnostics_iff {e : Diagnostic} :
    e ∈ parentDiagnostics ds ↔
      ∃ d ∈ ds, ParentVerdict ds d (some e.fault) ∧ e.line = d.line := by
  rw [parentDiagnostics, List.mem_filterMap]
  refine exists_congr fun d => and_congr_right fun hd => ?_
  rw [Option.map_eq_some_iff, parentVerdict_iff hn hd]
  constructor
  · rintro ⟨f, hf, rfl⟩
    exact ⟨hf, rfl⟩
  · rintro ⟨hf, hline⟩
    exact ⟨e.fault, hf, by rw [← hline]⟩

variable (hparents : ∀ d ∈ ds, ∀ p ∈ d.parent, ∃ c ∈ ds, c.isContainer = true ∧ c.id = p)
include hparents

/-- Where all parents are containers, the way up from a container passes containers only. -/
theorem transGen_parentOf {a b : String} (ha : ∃ c ∈ ds, c.isContainer = true ∧ c.id = a)
    (h : Relation.TransGen (InsideOf ds) a b) :
    Relation.TransGen (ParentOf (containersOf ds)) a b := by
  have hstep {x y : String} (hx : ∃ c ∈ ds, c.isContainer = true ∧ c.id = x)
      (hxy : InsideOf ds x y) : ParentOf (containersOf ds) x y := by
    obtain ⟨c, hc, hk, rfl⟩ := hx
    obtain ⟨d, hd, hid, hparent⟩ := hxy
    rw [eq_of_id_eq hn hd hc hid] at hparent
    exact ⟨c.toItem, List.mem_map_of_mem (List.mem_filter.mpr ⟨hc, hk⟩), rfl, hparent⟩
  induction h with
  | single hab => exact .single (hstep ha hab)
  | tail hab hbc ih =>
    obtain ⟨_, -, d, hd, -, hparent⟩ := Relation.TransGen.tail'_iff.mp hab
    exact ih.tail (hstep (hparents d hd _ hparent) hbc)

omit hn hparents in
theorem transGen_insideOf {a b : String}
    (h : Relation.TransGen (ParentOf (containersOf ds)) a b) :
    Relation.TransGen (InsideOf ds) a b := by
  refine Relation.TransGen.mono ?_ _ _ h
  rintro x y ⟨i, hi, hid, hparent⟩
  obtain ⟨c, hc, rfl⟩ := List.mem_map.mp hi
  exact ⟨c, (List.mem_filter.mp hc).1, hid, hparent⟩

/-- Where all parents are containers, only containers can be inside themselves. -/
theorem rootedForest_iff : RootedForest (InsideOf ds) ↔ Acyclic (containersOf ds) := by
  constructor
  · intro hforest c _ hcycle
    exact hforest.acyclic c.id (transGen_insideOf hcycle)
  · intro hacyclic
    refine ⟨?_, fun a hcycle => ?_⟩
    · rintro a b c ⟨d, hd, rfl, hb⟩ ⟨e, he, hid, hc⟩
      rw [eq_of_id_eq hn he hd hid, hb] at hc
      exact Option.some.inj hc
    · obtain ⟨_, -, d, hd, -, hparent⟩ := Relation.TransGen.tail'_iff.mp hcycle
      obtain ⟨c, hc, hk, rfl⟩ := hparents d hd a hparent
      exact hacyclic c.toItem (List.mem_map_of_mem (List.mem_filter.mpr ⟨hc, hk⟩))
        (transGen_parentOf hn hparents ⟨c, hc, hk, rfl⟩ hcycle)

end Distinct

/-- What the check of parents reports, and what it does not. -/
structure ParentsJudged (ds : List Declaration) : Prop where
  /-- The way up from every declaration ends. -/
  climbs : ∀ d ∈ ds, (walk? (Ascent.step ds d.id) (ds.length + 3)
    ⟨d.parent.bind (container? ds), [d.id]⟩).isSome = true
  /-- Every declaration has one verdict. -/
  verdict : ∀ d ∈ ds, ∃! v, ParentVerdict ds d v
  /-- The faults among the verdicts are reported, in order and at the lines of the declarations. -/
  reported : ∃ verdicts, List.Forall₂ (ParentVerdict ds) ds verdicts ∧
    parentDiagnostics ds =
      (ds.zip verdicts).filterMap fun (d, v) => v.map fun fault => ⟨d.line, fault⟩
  /-- Every member of a cycle is reported. -/
  members : ∀ c ∈ ds, c.isContainer = true → OnCycle ds c.id →
    ⟨c.line, if c.parent = some c.id then .ownParent c.id else .nestedInItself c.id⟩ ∈
      parentDiagnostics ds
  /-- Nothing else is reported as nested in itself, in particular nothing that leads into a cycle. -/
  others : ∀ d ∈ ds, ¬OnCycle ds d.id →
    ∀ line, ⟨line, .nestedInItself d.id⟩ ∉ parentDiagnostics ds
  /-- There is nothing to report when all parents are containers and form a forest. -/
  silent : parentDiagnostics ds = [] ↔
    (∀ d ∈ ds, ∀ p ∈ d.parent, ∃ c ∈ ds, c.isContainer = true ∧ c.id = p) ∧
      RootedForest (InsideOf ds)

/-- When no identifier is declared twice, the check of parents reports exactly the faults of the
verdicts. -/
theorem parents_judged {ds : List Declaration} (hn : (ds.map (·.id)).Nodup) :
    ParentsJudged ds where
  climbs := fun d _ => isSome_walk?_ascent ds d.id d.parent
  verdict := by
    intro d hd
    refine ⟨parentFault? ds d, (parentVerdict_iff hn hd).mpr rfl, fun v hv => ?_⟩
    exact ((parentVerdict_iff hn hd).mp hv).symm
  reported := by
    refine ⟨ds.map (parentFault? ds), ?_, ?_⟩
    · rw [List.forall₂_map_right_iff, List.forall₂_same]
      exact fun d hd => (parentVerdict_iff hn hd).mpr rfl
    · have hzip : ds.zip (ds.map (parentFault? ds)) = ds.map fun d => (d, parentFault? ds d) := by
        have hmap := @List.zip_map' _ _ _ id (parentFault? ds) ds
        rwa [List.map_id] at hmap
      rw [hzip, List.filterMap_map]
      rfl
  members := by
    intro c hc hk hcycle
    -- the first step of the cycle goes to a container, from which the second one starts
    obtain ⟨p, ⟨i, hi, hid, hparent⟩, hrest⟩ := Relation.TransGen.head'_iff.mp hcycle
    obtain ⟨c', hc', rfl⟩ := List.mem_map.mp hi
    rw [eq_of_id_eq hn (List.mem_filter.mp hc').1 hc hid] at hparent
    replace hparent : c.parent = some p := hparent
    rw [mem_parentDiagnostics_iff hn]
    refine ⟨c, hc, ?_, rfl⟩
    by_cases hown : p = c.id
    · rw [if_pos (hown ▸ hparent)]
      exact .own (hown ▸ hparent)
    · rw [if_neg (by simpa [hparent] using hown)]
      obtain ⟨q, hq⟩ : ∃ q, ParentOf (containersOf ds) p q := by
        rcases Relation.ReflTransGen.cases_head hrest with heq | ⟨q, hq, -⟩
        · exact absurd heq hown
        · exact ⟨q, hq⟩
      obtain ⟨j, hj, rfl, -⟩ := hq
      obtain ⟨e, he, rfl⟩ := List.mem_map.mp hj
      obtain ⟨he, hek⟩ := List.mem_filter.mp he
      exact .nested hparent hown he hek hk hcycle
  others := by
    intro d hd hstraight line hmem
    obtain ⟨c, hc, hverdict, -⟩ := (mem_parentDiagnostics_iff hn).mp hmem
    generalize hv : some (Fault.nestedInItself d.id) = v at hverdict
    cases hverdict with
    | nested _ _ _ _ _ hcycle =>
      have hid : d.id = c.id := by simpa using hv
      exact hstraight (hid ▸ hcycle)
    | _ => simp at hv
  silent := by
    rw [parentDiagnostics_eq_nil_iff hn]
    simp only [mem_map_id_containersOf]
    exact and_congr_right fun hparents => (rootedForest_iff hn hparents).symm

/-- Two containers in each other, one that leads to them, and nodes with each of the other faults. -/
theorem parents_judged_cycle :
    let ds : List Declaration :=
      [{ keyword := "container", id := "c", label := "C", line := 1, parent := "a" },
        { keyword := "container", id := "a", label := "A", line := 2, parent := "b" },
        { keyword := "container", id := "b", label := "B", line := 3, parent := "a" },
        { keyword := "node", id := "n", label := "N", line := 4, parent := "n" },
        { keyword := "node", id := "m", label := "M", line := 5, parent := "n" },
        { keyword := "node", id := "k", label := "K", line := 6, parent := "x" },
        { keyword := "node", id := "i", label := "I", line := 7, parent := "c" }]
    (ds.map (·.id)).Nodup ∧ ParentsJudged ds ∧
      parentDiagnostics ds =
        [⟨2, .nestedInItself "a"⟩, ⟨3, .nestedInItself "b"⟩, ⟨4, .ownParent "n"⟩,
          ⟨5, .parentIsNode "n" "m"⟩, ⟨6, .unknownParent "x" "k"⟩] := by
  intro ds
  have hn : (ds.map (·.id)).Nodup := by decide
  exact ⟨hn, parents_judged hn, by decide⟩

end ArchDiagram.Source
