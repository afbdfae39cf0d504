import ArchDiagram.Proofs.Unfailing
import ArchDiagram.Proofs.Unframed

/-!
The order in which containers are fitted. A container is one deeper than its parent, and the deepest
come first, so each is fitted after all containers inside it. No size that a fitting looks at
changes later, and in the end every container fits round its children as they are in the end.
-/

namespace ArchDiagram

variable {α : Type}

/-- What decides how items are nested. -/
def Item.lineage (i : Item α) : String × Option String :=
  (i.id, i.parent)

theorem exists_of_lineage {β : Type} {cs : List (Item α)} {ds : List (Item β)}
    (h : cs.map Item.lineage = ds.map Item.lineage) {i : Nat} {c : Item α} (hc : cs[i]? = some c) :
    ∃ d, ds[i]? = some d ∧ d.id = c.id ∧ d.parent = c.parent := by
  have hsame := congrArg (·[i]?) h
  simp only [List.getElem?_map, hc, Option.map_some] at hsame
  obtain ⟨d, hd, hlineage⟩ := Option.map_eq_some_iff.mp hsame.symm
  exact ⟨d, hd, Prod.mk.inj hlineage⟩

theorem parentOf_iff_mem_lineage {cs : List (Item α)} {a b : String} :
    ParentOf cs a b ↔ (a, some b) ∈ cs.map Item.lineage := by
  simp [ParentOf, Item.lineage]

theorem parentOf_congr {β : Type} {cs : List (Item α)} {ds : List (Item β)}
    (h : cs.map Item.lineage = ds.map Item.lineage) : ParentOf cs = ParentOf ds := by
  funext a b
  rw [parentOf_iff_mem_lineage, parentOf_iff_mem_lineage, h]

/-- Containers with names of their own, none of which is inside itself. -/
structure Forest (cs : List (Item α)) : Prop where
  named : ∀ c ∈ cs, c.id ≠ ""
  distinct : (cs.map (·.id)).Nodup
  acyclic : Acyclic cs

theorem Forest.eq_of_id_eq {cs : List (Item α)} (hf : Forest cs) {c k : Item α} (hc : c ∈ cs)
    (hk : k ∈ cs) (h : c.id = k.id) : c = k :=
  List.inj_on_of_nodup_map hf.distinct hc hk h

/-- Whether containers are a forest is decided by how they are nested. -/
theorem Forest.of_lineage {β : Type} {cs : List (Item α)} {ds : List (Item β)} (hf : Forest cs)
    (h : cs.map Item.lineage = ds.map Item.lineage) : Forest ds := by
  have hids : cs.map (·.id) = ds.map (·.id) := by
    simpa [Function.comp_def, Item.lineage] using congrArg (List.map Prod.fst) h
  have hsame {d : Item β} (hd : d ∈ ds) : ∃ c ∈ cs, c.id = d.id := by
    rw [← List.mem_map, hids]
    exact List.mem_map_of_mem hd
  refine ⟨fun d hd => ?_, hids ▸ hf.distinct, fun d hd => ?_⟩
  · obtain ⟨c, hc, hid⟩ := hsame hd
    exact hid ▸ hf.named c hc
  · obtain ⟨c, hc, hid⟩ := hsame hd
    rw [← parentOf_congr h, ← hid]
    exact hf.acyclic c hc

namespace Layout

variable {cs : List (Item α)} {c k : Item α}

theorem of_enclosing?_eq_some (h : enclosing? cs k = some c) : c ∈ cs ∧ k.parent = some c.id := by
  obtain ⟨p, hp, hfound⟩ := Option.bind_eq_some_iff.mp h
  obtain ⟨hparent, -⟩ := Option.filter_eq_some_iff.mp hp
  have hid := List.find?_some hfound
  exact ⟨List.mem_reverse.mp (List.mem_of_find?_eq_some hfound), by simp_all⟩

theorem enclosing?_eq_some_iff (hf : Forest cs) :
    enclosing? cs k = some c ↔ c ∈ cs ∧ k.parent = some c.id := by
  refine ⟨of_enclosing?_eq_some, ?_⟩
  rintro ⟨hc, hparent⟩
  have hnamed : c.id.isEmpty = false := by simpa using hf.named c hc
  have hsome : (cs.reverse.find? (·.id == c.id)).isSome = true := by
    rw [List.find?_isSome]
    exact ⟨c, List.mem_reverse.mpr hc, beq_self_eq_true _⟩
  obtain ⟨c', hfound⟩ := Option.isSome_iff_exists.mp hsome
  have hid : c'.id = c.id := by simpa using List.find?_some hfound
  have hc' : c' ∈ cs := List.mem_reverse.mp (List.mem_of_find?_eq_some hfound)
  rw [enclosing?, hparent, Option.filter_some, hnamed, Bool.not_false, if_pos rfl,
    Option.bind_some, hfound, hf.eq_of_id_eq hc' hc hid]

theorem Exit.step_eq_inl_iff {e e' : Exit α} :
    Exit.step cs e = .inl e' ↔
      ∃ p, e.next = some p ∧ p.id ∉ e.seen ∧
        e' = ⟨enclosing? cs p, p.id :: e.seen, e.depth + 1⟩ := by
  unfold Exit.step
  cases hp : e.next with
  | none => simp
  | some p => by_cases hseen : p.id ∈ e.seen <;> simp [hseen, eq_comm]

/-- The way out of a container ends, whatever encloses what, and passes no container twice. -/
theorem isSome_walk?_exit_of_le {e : Exit α} (he : ∀ p ∈ e.next, p ∈ cs) {n : Nat}
    (hn : (cs.map (·.id)).toFinset.card + 2 ≤ n) :
    (walk? (Exit.step cs) n e).isSome = true := by
  apply isSome_walk?_of_measure (P := fun e : Exit α => ∀ p ∈ e.next, p ∈ cs)
    (μ := fun e => ((cs.map (·.id)).toFinset \ e.seen.toFinset).card) _ _ he
  · exact le_trans (Nat.add_le_add_right (Finset.card_le_card Finset.sdiff_subset) 2) hn
  · intro e e' _ hstep p hp
    obtain ⟨c, -, -, rfl⟩ := Exit.step_eq_inl_iff.mp hstep
    exact (of_enclosing?_eq_some hp).1
  · intro e e' _ he hstep _
    obtain ⟨c, hc, hseen, rfl⟩ := Exit.step_eq_inl_iff.mp hstep
    exact card_sdiff_cons_lt (List.mem_map_of_mem (he c hc)) hseen

/-- The way out of a container ends, whatever encloses what. -/
theorem isSome_walk?_exit {e : Exit α} (he : ∀ p ∈ e.next, p ∈ cs) :
    (walk? (Exit.step cs) (cs.length + 2) e).isSome = true :=
  have hdistinct := (List.toFinset_card_le (cs.map (·.id))).trans_eq (List.length_map _)
  isSome_walk?_exit_of_le he (Nat.add_le_add_right hdistinct 2)

/-- The way out of a container does not come back to it, so it makes no difference whether the
container itself counts as passed. -/
theorem walk?_exit_of_outside (hacyclic : Acyclic cs) (hk : k ∈ cs) (n : Nat) {e : Exit α}
    (he : ∀ p ∈ e.next, Relation.TransGen (ParentOf cs) k.id p.id ∧ p ∈ cs) {seen : List String}
    (hseen : ∀ s, s ∈ seen ↔ s ∈ e.seen ∨ s = k.id) :
    walk? (Exit.step cs) n ⟨e.next, seen, e.depth + 1⟩ =
      (walk? (Exit.step cs) n e).map (· + 1) := by
  induction n generalizing e seen with
  | zero => rfl
  | succ n ih =>
    rw [walk?, walk?]
    cases hp : e.next with
    | none => simp [Exit.step, hp]
    | some p =>
      obtain ⟨habove, hmem⟩ := he p hp
      have hother : p.id ≠ k.id := fun heq => hacyclic k hk (heq ▸ habove)
      have hsame : p.id ∈ seen ↔ p.id ∈ e.seen := by simp [hseen, hother]
      by_cases hpassed : p.id ∈ e.seen
      · simp [Exit.step, hp, hpassed, hsame]
      · simp only [Exit.step, hp, List.contains_eq_mem, hsame, hpassed, decide_false,
          Bool.false_eq_true, if_false]
        apply ih (e := ⟨enclosing? cs p, p.id :: e.seen, e.depth + 1⟩)
        · intro q hq
          obtain ⟨hq, hparent⟩ := of_enclosing?_eq_some hq
          exact ⟨habove.tail ⟨p, hmem, rfl, hparent⟩, hq⟩
        · intro s
          rw [List.mem_cons, List.mem_cons, hseen, or_assoc]

/-- A container is one deeper than its parent. -/
theorem depth_eq_of_parent (hf : Forest cs) (hk : k ∈ cs) (hc : c ∈ cs)
    (hparent : k.parent = some c.id) : depth cs k = depth cs c + 1 := by
  have hup : Relation.TransGen (ParentOf cs) k.id c.id := .single ⟨k, hk, rfl, hparent⟩
  have hother : c.id ≠ k.id := fun heq => hf.acyclic k hk (heq ▸ hup)
  have houter : ∀ p ∈ enclosing? cs c, Relation.TransGen (ParentOf cs) k.id p.id ∧ p ∈ cs := by
    intro p hp
    obtain ⟨hp, hparent⟩ := of_enclosing?_eq_some hp
    exact ⟨hup.tail ⟨c, hc, rfl, hparent⟩, hp⟩
  obtain ⟨n, hn⟩ := Option.isSome_iff_exists.mp
    (isSome_walk?_exit (e := ⟨enclosing? cs c, [c.id], 0⟩) fun p hp => (houter p hp).2)
  have hdepth : depth cs c = n := by
    rw [depth, walk?_mono hn (Nat.le_succ _), Option.getD_some]
  -- the way out of `k` begins with `c` and goes on like that of `c`
  have hfirst : Exit.step cs ⟨some c, [k.id], 0⟩ =
      .inl ⟨enclosing? cs c, [c.id, k.id], 0 + 1⟩ := by
    simp [Exit.step, hother]
  rw [hdepth, depth, (enclosing?_eq_some_iff hf).mpr ⟨hc, hparent⟩, walk?, hfirst]
  change (walk? _ _ _).getD 0 = _
  rw [walk?_exit_of_outside (e := ⟨enclosing? cs c, [c.id], 0⟩) hf.acyclic hk _ houter (by simp),
    hn]
  rfl

/-- What is inside a container, at whatever depth, is deeper. -/
theorem depth_lt_of_inside (hf : Forest cs) (hk : k ∈ cs) (hc : c ∈ cs)
    (h : Relation.TransGen (ParentOf cs) k.id c.id) : depth cs c < depth cs k := by
  obtain ⟨a, ha⟩ : ∃ a, a = k.id := ⟨_, rfl⟩
  rw [← ha] at h
  induction h using Relation.TransGen.head_induction_on generalizing k with
  | single hup =>
    obtain ⟨k', hk', hid, hparent⟩ := hup
    rw [hf.eq_of_id_eq hk' hk (hid.trans ha)] at hparent
    rw [depth_eq_of_parent hf hk hc hparent]
    exact Nat.lt_succ_self _
  | head hup hrest ih =>
    obtain ⟨k', hk', hid, hparent⟩ := hup
    obtain ⟨_, ⟨p, hp, rfl, -⟩, -⟩ := Relation.TransGen.head'_iff.mp hrest
    rw [hf.eq_of_id_eq hk' hk (hid.trans ha)] at hparent
    rw [depth_eq_of_parent hf hk hp hparent]
    exact (ih hp rfl).trans (Nat.lt_succ_self _)

/-- Every container is fitted once. -/
theorem perm_fittingOrder (cs : List (Item α)) :
    (fittingOrder cs).Perm (List.range cs.length) := by
  have hsorted := (List.mergeSort_perm (cs.mapIdx fun i c => (i, depth cs c))
    fun a b => b.2 ≤ a.2).map (·.1)
  have hpositions : (cs.mapIdx fun i c => (i, depth cs c)).map (·.1) = List.range cs.length := by
    apply List.ext_getElem <;> simp
  rwa [hpositions] at hsorted

/-- Deeper containers are fitted first. -/
theorem pairwise_fittingOrder (cs : List (Item α)) :
    (fittingOrder cs).Pairwise fun i j =>
      ∀ c ∈ cs[i]?, ∀ k ∈ cs[j]?, depth cs k ≤ depth cs c := by
  have hsorted : ((cs.mapIdx fun i c => (i, depth cs c)).mergeSort fun a b => b.2 ≤ a.2).Pairwise
      fun a b => decide (b.2 ≤ a.2) = true := by
    apply List.pairwise_mergeSort
    · intro a b c hab hbc
      simp only [decide_eq_true_eq] at hab hbc ⊢
      omega
    · intro a b
      simp only [Bool.or_eq_true, decide_eq_true_eq]
      omega
  have hdepth {a : Nat × Nat} (ha : a ∈ (cs.mapIdx fun i c => (i, depth cs c)).mergeSort
      fun a b => b.2 ≤ a.2) : ∀ c ∈ cs[a.1]?, depth cs c = a.2 := by
    obtain ⟨i, hi, rfl⟩ := List.mem_mapIdx.mp (List.mem_mergeSort.mp ha)
    intro c hc
    obtain ⟨-, rfl⟩ := List.getElem?_eq_some_iff.mp hc
    rfl
  rw [fittingOrder, List.pairwise_map]
  apply hsorted.imp_of_mem
  intro a b ha hb hle c hc k hk
  rw [hdepth ha c hc, hdepth hb k hk]
  simpa using hle

/-- A container is fitted after all containers inside it. -/
theorem sublist_fittingOrder (hf : Forest cs) {i j : Nat} (hk : cs[i]? = some k)
    (hc : cs[j]? = some c) (h : Relation.TransGen (ParentOf cs) k.id c.id) :
    [i, j].Sublist (fittingOrder cs) := by
  have hlt := depth_lt_of_inside hf (List.mem_of_getElem? hk) (List.mem_of_getElem? hc) h
  have hmem {n : Nat} {x : Item α} (hx : cs[n]? = some x) : n ∈ fittingOrder cs := by
    rw [(perm_fittingOrder cs).mem_iff, List.mem_range]
    exact (List.getElem?_eq_some_iff.mp hx).1
  obtain ⟨before, after, hsplit⟩ := List.append_of_mem (hmem hk)
  have hj := hmem hc
  rw [hsplit] at hj
  rcases List.mem_append.mp hj with hj | hj
  · -- otherwise the container would be at least as deep
    have hpair : [j, i].Sublist (fittingOrder cs) := by
      rw [hsplit]
      exact (List.singleton_sublist.mpr hj).append (List.singleton_sublist.mpr List.mem_cons_self)
    have hle := List.pairwise_iff_forall_sublist.mp (pairwise_fittingOrder cs) hpair c hc k hk
    omega
  · rcases List.mem_cons.mp hj with rfl | hj
    · rw [hk] at hc
      cases hc
      omega
    · rw [hsplit]
      exact ((List.singleton_sublist.mpr hj).cons_cons i).trans (List.sublist_append_right _ _)

theorem children_congr (nodes : List (Node α)) {cs' : List (Item α)}
    (hlineage : cs.map Item.lineage = cs'.map Item.lineage)
    (h : ∀ i : Nat, ∀ k ∈ cs[i]?, k.parent = some c.id → k.id ≠ c.id → cs'[i]? = some k) :
    children cs nodes c = children cs' nodes c := by
  rw [children, children, List.filter_append, List.filter_append]
  congr 1
  induction cs generalizing cs' with
  | nil =>
    rw [List.map_nil, eq_comm, List.map_eq_nil_iff] at hlineage
    rw [hlineage]
  | cons k cs ih =>
    cases cs' with
    | nil => cases hlineage
    | cons k' cs' =>
      obtain ⟨hfirst, hrest⟩ := List.cons.inj hlineage
      obtain ⟨hid, hparent⟩ := Prod.mk.inj hfirst
      rw [List.filter_cons, List.filter_cons, ih hrest fun i => h (i + 1), ← hid, ← hparent]
      by_cases hinside : k.parent = some c.id ∧ k.id ≠ c.id
      · have hsame : k' = k := by simpa using h 0 k rfl hinside.1 hinside.2
        rw [hsame]
      · have hskip : (k.parent == some c.id && k.id != c.id) = false := by
          rw [Bool.eq_false_iff]
          simpa using hinside
        rw [hskip, if_neg Bool.false_ne_true, if_neg Bool.false_ne_true]

variable [Scalar α] (g : Grid α) (nodes : List (Node α))

/-- Fitting looks at the children only. -/
theorem fitFrame_congr {cs' : List (Item α)}
    (hlineage : cs.map Item.lineage = cs'.map Item.lineage)
    (h : ∀ i : Nat, ∀ k ∈ cs[i]?, k.parent = some c.id → k.id ≠ c.id → cs'[i]? = some k) :
    fitFrame g cs nodes c = fitFrame g cs' nodes c := by
  rw [fitFrame, fitFrame, children_congr nodes hlineage h]

theorem getElem?_fitAt (cs : List (Item α)) (i j : Nat) :
    (fitAt g nodes cs i)[j]? =
      if i = j then cs[j]?.map fun c => { c with frame := fitFrame g cs nodes c } else cs[j]? := by
  rw [fitAt, List.getElem?_modify]
  split <;> simp

/-- When no container comes before one of its children, each is fitted to what its children are in
the end. -/
theorem getElem?_foldl_fitAt {order : List Nat} (hnodup : order.Nodup) {cs : List (Item α)}
    (hafter : order.Pairwise fun i j => ∀ p ∈ (cs.map Item.lineage)[i]?,
      ∀ q ∈ (cs.map Item.lineage)[j]?, q.2 ≠ some p.1) (j : Nat) :
    (order.foldl (fitAt g nodes) cs)[j]? =
      if j ∈ order then cs[j]?.map fun c =>
        { c with frame := fitFrame g (order.foldl (fitAt g nodes) cs) nodes c }
      else cs[j]? := by
  induction order generalizing cs j with
  | nil => simp
  | cons i order ih =>
    obtain ⟨hi, hnodup⟩ := List.nodup_cons.mp hnodup
    obtain ⟨hfirst, hafter⟩ := List.pairwise_cons.mp hafter
    rw [← map_fitAt (f := Item.lineage) (fun _ _ _ => rfl) nodes cs i] at hafter
    have hrest := ih hnodup hafter
    rw [List.foldl_cons]
    set final := order.foldl (fitAt g nodes) (fitAt g nodes cs i) with hfinal
    rw [hrest j, getElem?_fitAt]
    by_cases hij : i = j
    · subst hij
      rw [if_neg hi, if_pos rfl, if_pos List.mem_cons_self]
      -- what the first fitting has looked at stays as it is
      apply Option.map_congr
      intro c hc
      have hlineage : cs.map Item.lineage = final.map Item.lineage := by
        rw [hfinal, map_foldl_fitAt (f := Item.lineage) fun _ _ _ => rfl,
          map_fitAt (f := Item.lineage) fun _ _ _ => rfl]
      rw [fitFrame_congr g nodes hlineage]
      intro n k hk hparent hne
      have hother : i ≠ n := by
        rintro rfl
        rw [hc] at hk
        cases hk
        exact hne rfl
      have hlater : n ∉ order := by
        intro hn
        refine hfirst n hn c.lineage ?_ k.lineage ?_ hparent
        · simp [hc]
        · simpa using ⟨k, hk, rfl⟩
      rw [hrest n, if_neg hlater, getElem?_fitAt, if_neg hother]
      exact hk
    · simp [hij, Ne.symm hij]

/-- In the end every container fits round its children as they are in the end. -/
theorem containers_fitContainers (d : Document α) (hf : Forest d.containers) :
    (fitContainers g d).containers = d.containers.map fun c =>
      { c with frame := fitFrame g (fitContainers g d).containers d.nodes c } := by
  have hperm := perm_fittingOrder d.containers
  have hafter : (fittingOrder d.containers).Pairwise fun i j =>
      ∀ p ∈ (d.containers.map Item.lineage)[i]?, ∀ q ∈ (d.containers.map Item.lineage)[j]?,
        q.2 ≠ some p.1 := by
    apply (pairwise_fittingOrder d.containers).imp
    intro i j hdepth p hp q hq hparent
    rw [List.getElem?_map] at hp hq
    obtain ⟨c, hc, rfl⟩ := Option.map_eq_some_iff.mp hp
    obtain ⟨k, hk, rfl⟩ := Option.map_eq_some_iff.mp hq
    have hdeeper :=
      depth_eq_of_parent hf (List.mem_of_getElem? hk) (List.mem_of_getElem? hc) hparent
    have hle := hdepth c hc k hk
    omega
  apply List.ext_getElem?
  intro j
  rw [List.getElem?_map, fitContainers,
    getElem?_foldl_fitAt g d.nodes (hperm.nodup_iff.mpr List.nodup_range) hafter]
  by_cases hj : j ∈ fittingOrder d.containers
  · rw [if_pos hj]
  · rw [if_neg hj]
    rw [hperm.mem_iff, List.mem_range, Nat.not_lt] at hj
    simp [hj]

end Layout

end ArchDiagram
