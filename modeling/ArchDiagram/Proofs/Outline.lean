import ArchDiagram.Render.Outline
import Mathlib.Data.List.Nodup
import Mathlib.Data.List.Perm.Subperm

/-!
Outlines end. The way from the outermost container to one that is opened is fixed by the last one,
when no identifier is repeated, so it passes each container once and is no longer than their list.
The levels that an outline is given are therefore enough, whatever encloses what.
-/

namespace ArchDiagram.Render

variable {α : Type} {parentOf : Item α → Option String} {d : Document α}

/-- The container that a mark opens. -/
def Mark.container? : Mark α → Option (Item α)
  | opened c => some c
  | node _ => none
  | closed => none

/-- The node that a mark shows. -/
def Mark.node? : Mark α → Option (Node α)
  | opened _ => none
  | node n => some n
  | closed => none

/-- The containers open at some place, the innermost first. -/
inductive Trail (parentOf : Item α → Option String) (d : Document α) : List (Item α) → Prop
  | nil : Trail parentOf d []
  | cons {c : Item α} {cs : List (Item α)} (mem : c ∈ d.containers)
      (parent : parentOf c = cs.head?.map (·.id)) (rest : Trail parentOf d cs) :
      Trail parentOf d (c :: cs)

namespace Trail

variable {cs cs' : List (Item α)}

theorem mem_containers (h : Trail parentOf d cs) : ∀ c ∈ cs, c ∈ d.containers := by
  induction h with
  | nil => simp
  | cons hc _ _ ih => exact List.forall_mem_cons.mpr ⟨hc, ih⟩

theorem of_append (h : Trail parentOf d (cs ++ cs')) : Trail parentOf d cs' := by
  induction cs with
  | nil => exact h
  | cons c cs ih =>
    cases h with
    | cons _ _ hrest => exact ih hrest

/-- The innermost container decides which ones are open. -/
theorem eq_of_head (hd : d.containerIds.Nodup) (h : Trail parentOf d cs)
    (h' : Trail parentOf d cs') (hhead : cs.head?.map (·.id) = cs'.head?.map (·.id)) :
    cs = cs' := by
  induction h generalizing cs' with
  | nil =>
    cases h' with
    | nil => rfl
    | cons _ _ _ => cases hhead
  | @cons c cs hc hp _ ih =>
    cases h' with
    | nil => cases hhead
    | @cons c' cs' hc' hp' hrest =>
      have hid : c.id = c'.id := Option.some.inj hhead
      have hsame : c = c' := List.inj_on_of_nodup_map hd hc hc' hid
      subst hsame
      rw [ih hrest (hp.symm.trans hp')]

/-- No container is open twice: it would be the innermost one at two places. -/
theorem nodup (hd : d.containerIds.Nodup) (h : Trail parentOf d cs) : cs.Nodup := by
  induction h with
  | nil => exact List.nodup_nil
  | @cons c cs hc hp hrest ih =>
    refine List.nodup_cons.mpr ⟨fun hmem => ?_, ih⟩
    obtain ⟨inner, outer, hcs⟩ := List.append_of_mem hmem
    -- both trails to `c` are the same list, and one would be a proper part of the other
    have houter : Trail parentOf d (c :: outer) := of_append (hcs ▸ hrest)
    have heq := eq_of_head hd (.cons hc hp hrest) houter rfl
    have hlength := congrArg List.length (hcs.symm.trans (List.cons.inj heq).2)
    rw [List.length_append, List.length_cons] at hlength
    omega

theorem length_le (hd : d.containerIds.Nodup) (h : Trail parentOf d cs) :
    cs.length ≤ d.containers.length :=
  ((h.nodup hd).subperm h.mem_containers).length_le

end Trail

theorem isSome_mapM {β γ : Type} {f : β → Option γ} {bs : List β}
    (h : ∀ b ∈ bs, (f b).isSome = true) : (bs.mapM f).isSome = true := by
  induction bs with
  | nil => rfl
  | cons b bs ih =>
    obtain ⟨c, hc⟩ := Option.isSome_iff_exists.mp (h b (by simp))
    obtain ⟨cs, hcs⟩ := Option.isSome_iff_exists.mp (ih fun b hb => h b (by simp [hb]))
    simp [List.mapM_cons, hc, hcs]

/-- What a container holds, between the marks that open and close it. -/
def enclosed (depth : Nat) (c : Item α) (held : List (Entry α)) : List (Entry α) :=
  ⟨depth, .opened c⟩ :: held ++ [⟨depth, .closed⟩]

theorem outlineWithin?_succ (parentOf : Item α → Option String) (d : Document α)
    (levels depth : Nat) (parent : Option String) :
    outlineWithin? parentOf d (levels + 1) depth parent =
      ((d.containers.filter (parentOf · == parent)).mapM fun c =>
        (outlineWithin? parentOf d levels (depth + 1) (some c.id)).map (enclosed depth c)).map
          fun inner => inner.flatten ++
            (d.nodes.filter (parentOf ·.toItem == parent)).map (⟨depth, .node ·⟩) := by
  rw [outlineWithin?]
  simp only [Option.map_eq_bind]
  rfl

/-- Inside every container that can be opened, the levels that are left are enough. -/
theorem isSome_outlineWithin? (hd : d.containerIds.Nodup) {levels : Nat} (depth : Nat)
    {cs : List (Item α)} (hcs : Trail parentOf d cs)
    (hlevels : d.containers.length < levels + cs.length) :
    (outlineWithin? parentOf d levels depth (cs.head?.map (·.id))).isSome = true := by
  induction levels generalizing depth cs with
  | zero =>
    -- more containers would be open than there are
    have := hcs.length_le hd
    omega
  | succ levels ih =>
    have hinner : ∀ c ∈ d.containers.filter (parentOf · == cs.head?.map (·.id)),
        (outlineWithin? parentOf d levels (depth + 1) (some c.id)).isSome = true := by
      intro c hc
      obtain ⟨hmem, hparent⟩ := List.mem_filter.mp hc
      have htrail : Trail parentOf d (c :: cs) := .cons hmem (by simpa using hparent) hcs
      exact ih (depth + 1) htrail (by rw [List.length_cons]; omega)
    rw [outlineWithin?_succ, Option.isSome_map]
    exact isSome_mapM fun c hc => by rw [Option.isSome_map, hinner c hc]

theorem mapM_eq_some_of_imp {β γ : Type} {f g : β → Option γ} {bs : List β} {cs : List γ}
    (h : bs.mapM f = some cs) (hfg : ∀ b ∈ bs, ∀ c, f b = some c → g b = some c) :
    bs.mapM g = some cs := by
  induction bs generalizing cs with
  | nil => simpa using h
  | cons b bs ih =>
    rw [List.mapM_cons] at h ⊢
    obtain ⟨c, hc, h⟩ := Option.bind_eq_some_iff.mp h
    obtain ⟨cs, hcs, h⟩ := Option.bind_eq_some_iff.mp h
    rw [hfg b (by simp) c hc, ih hcs fun b hb => hfg b (by simp [hb])]
    exact h

/-- More levels than an outline has change nothing. -/
theorem outlineWithin?_mono {levels more depth : Nat} {parent : Option String}
    {es : List (Entry α)} (h : outlineWithin? parentOf d levels depth parent = some es)
    (hle : levels ≤ more) : outlineWithin? parentOf d more depth parent = some es := by
  induction levels generalizing more depth parent es with
  | zero => simp [outlineWithin?] at h
  | succ levels ih =>
    obtain ⟨more, rfl⟩ : ∃ k, more = k + 1 := ⟨more - 1, by omega⟩
    rw [outlineWithin?_succ] at h ⊢
    obtain ⟨inner, hinner, rfl⟩ := Option.map_eq_some_iff.mp h
    rw [mapM_eq_some_of_imp hinner, Option.map_some]
    intro c _ block hblock
    obtain ⟨held, hheld, rfl⟩ := Option.map_eq_some_iff.mp hblock
    rw [ih hheld (by omega), Option.map_some]

/-- A document without repeated containers has an outline. -/
theorem isSome_outline? (parentOf : Item α → Option String) (hd : d.containerIds.Nodup) :
    (outline? parentOf d).isSome = true :=
  isSome_outlineWithin? hd 0 .nil (by simp)

end ArchDiagram.Render
