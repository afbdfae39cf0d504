import Mathlib.Tactic.Common

/-!
Strokes of a drawing. Each line of a drawing opens or closes a block, shows an item, joins two items
by a link, or does nothing of this. Reading the strokes with a stack of open blocks puts every block
and every item at a place: its key, and the keys of the blocks around it.
-/

namespace ArchDiagram.Render

/-- What a line of a drawing does. -/
inductive Stroke (κ : Type) where
  | opened (key : κ)
  | closed
  | item (key : κ)
  | link (source target : κ) (twoWay : Bool)
  | other
  deriving DecidableEq

/-- A key and the keys of the blocks around it, the innermost first. -/
structure Place (κ : Type) where
  around : List κ
  key : κ
  isBlock : Bool
  deriving DecidableEq

variable {κ : Type}

namespace Stroke

/-- The key that a stroke puts at a place. -/
@[simp]
def key? : Stroke κ → Option κ
  | opened k => some k
  | closed => none
  | item k => some k
  | link _ _ _ => none
  | other => none

def isLink : Stroke κ → Bool
  | opened _ => false
  | closed => false
  | item _ => false
  | link _ _ _ => true
  | other => false

/-- Whether a stroke draws a block, one end of it, or an item. -/
@[simp]
def isShape : Stroke κ → Bool
  | opened _ => true
  | closed => true
  | item _ => true
  | link _ _ _ => false
  | other => false

end Stroke

/-- The places of a drawing, when `open` are the blocks around it. Blocks are closed in the order
that a stack gives; a drawing that closes too many or too few has no places. -/
def places? : List κ → List (Stroke κ) → Option (List (Place κ))
  | [], [] => some []
  | _ :: _, [] => none
  | cs, .opened k :: sts => (places? (k :: cs) sts).map (⟨cs, k, true⟩ :: ·)
  | [], .closed :: _ => none
  | _ :: cs, .closed :: sts => places? cs sts
  | cs, .item k :: sts => (places? cs sts).map (⟨cs, k, false⟩ :: ·)
  | cs, .link _ _ _ :: sts => places? cs sts
  | cs, .other :: sts => places? cs sts

/-- The keys of a drawing come in the order of its strokes. -/
theorem map_key_of_places? {cs : List κ} {sts : List (Stroke κ)} {ps : List (Place κ)}
    (h : places? cs sts = some ps) : ps.map (·.key) = sts.filterMap Stroke.key? := by
  fun_induction places? cs sts generalizing ps with
  | case1 => simp_all
  | case2 => simp at h
  | case3 cs k sts ih =>
    obtain ⟨ps, hps, rfl⟩ := Option.map_eq_some_iff.mp h
    simp [ih hps]
  | case4 => simp at h
  | case5 c cs sts ih => simp [List.filterMap_cons, ih h]
  | case6 cs k sts ih =>
    obtain ⟨ps, hps, rfl⟩ := Option.map_eq_some_iff.mp h
    simp [ih hps]
  | case7 cs a b twoWay sts ih => simp [List.filterMap_cons, ih h]
  | case8 cs sts ih => simp [List.filterMap_cons, ih h]

/-- Shapes are drawn with one stroke, blocks with two. -/
theorem countP_isShape_of_places? {cs : List κ} {sts : List (Stroke κ)} {ps : List (Place κ)}
    (h : places? cs sts = some ps) :
    sts.countP Stroke.isShape = ps.length + ps.countP (·.isBlock) + cs.length := by
  fun_induction places? cs sts generalizing ps with
  | case1 => simp_all
  | case2 => simp at h
  | case3 cs k sts ih =>
    obtain ⟨ps, hps, rfl⟩ := Option.map_eq_some_iff.mp h
    have hrest := ih hps
    rw [List.length_cons] at hrest
    simp [List.countP_cons]
    omega
  | case4 => simp at h
  | case5 c cs sts ih =>
    have hrest := ih h
    simp [List.countP_cons]
    omega
  | case6 cs k sts ih =>
    obtain ⟨ps, hps, rfl⟩ := Option.map_eq_some_iff.mp h
    have hrest := ih hps
    simp [List.countP_cons]
    omega
  | case7 cs a b twoWay sts ih => simpa [List.countP_cons] using ih h
  | case8 cs sts ih => simpa [List.countP_cons] using ih h

/-- Strokes that are complete in themselves: whatever follows, the same blocks are open after them
as before, and they contribute the places `ps`. -/
def Reads (cs : List κ) (sts : List (Stroke κ)) (ps : List (Place κ)) : Prop :=
  ∀ rest, places? cs (sts ++ rest) = (places? cs rest).map (ps ++ ·)

namespace Reads

variable {cs : List κ} {sts sts' : List (Stroke κ)} {ps ps' : List (Place κ)}

theorem nil (cs : List κ) : Reads cs [] [] := fun rest => by
  simp

theorem append (h : Reads cs sts ps) (h' : Reads cs sts' ps') :
    Reads cs (sts ++ sts') (ps ++ ps') := by
  intro rest
  rw [List.append_assoc, h, h', Option.map_map]
  congr 1
  funext qs
  exact (List.append_assoc ps ps' qs).symm

/-- A block with complete strokes inside. -/
theorem block {k : κ} (h : Reads (k :: cs) sts ps) :
    Reads cs (.opened k :: sts ++ [.closed]) (⟨cs, k, true⟩ :: ps) := by
  intro rest
  have hinside := h (.closed :: rest)
  rw [places?] at hinside
  rw [List.append_assoc, List.cons_append, places?, List.singleton_append, hinside,
    Option.map_map]
  rfl

theorem items {β : Type} (cs : List κ) (bs : List β) (key : β → κ) :
    Reads cs (bs.map fun b => .item (key b)) (bs.map fun b => ⟨cs, key b, false⟩) := by
  induction bs with
  | nil => exact nil cs
  | cons b bs ih =>
    intro rest
    rw [List.map_cons, List.cons_append, places?, ih, Option.map_map]
    rfl

theorem of_silent (h : ∀ st ∈ sts, st.isShape = false) : Reads cs sts [] := by
  induction sts with
  | nil => exact nil cs
  | cons st sts ih =>
    intro rest
    have hrest := ih (fun st hst => h st (List.mem_cons_of_mem _ hst)) rest
    cases hst : st with
    | link a b twoWay => rwa [List.cons_append, places?]
    | other => rwa [List.cons_append, places?]
    | _ => simp [hst] at h

theorem flatMap {β : Type} {bs : List β} {f : β → List (Stroke κ)} {g : β → List (Place κ)}
    (h : ∀ b ∈ bs, Reads cs (f b) (g b)) : Reads cs (bs.flatMap f) (bs.flatMap g) := by
  induction bs with
  | nil => exact nil cs
  | cons b bs ih =>
    rw [List.flatMap_cons, List.flatMap_cons]
    exact (h b List.mem_cons_self).append (ih fun b hb => h b (List.mem_cons_of_mem _ hb))

theorem places?_eq (h : Reads [] sts ps) : places? [] sts = some ps := by
  have hall := h []
  rwa [List.append_nil, places?, Option.map_some, List.append_nil] at hall

end Reads

end ArchDiagram.Render
