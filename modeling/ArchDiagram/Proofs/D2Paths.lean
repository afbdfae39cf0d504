import ArchDiagram.Proofs.Drawing
import ArchDiagram.Proofs.Forms
import ArchDiagram.Render.D2

/-!
Keys and paths of D2 diagrams. The key of an identifier is the identifier, in quotes or not, so it
holds no dot and no other identifier has it. The path of an item is the way its parents lead out,
from the outermost container to the item, and its parts are found again at the dots.
-/

namespace ArchDiagram.Render.D2

open Text Source

/-- Identifiers need no backslashes. -/
theorem escape_identifier {cs : List Char} (h : isIdentifier cs = true) : escape cs = cs := by
  have hplain : ∀ c ∈ cs, escapeChar c = [c] := by
    intro c hc
    have hslash : c ≠ '\\' := fun heq => not_mem_identifier h (by decide) (heq ▸ hc)
    have hquote : c ≠ '"' := fun heq => not_mem_identifier h (by decide) (heq ▸ hc)
    simp [escapeChar, hslash, hquote]
  rw [escape, List.flatMap_congr hplain, List.flatMap_singleton']

/-- The key of an identifier is the identifier, in quotes or not. -/
theorem key_identifier {id : String} (h : isIdentifier id.toList = true) :
    key id = id.toList ∨ key id = '"' :: id.toList ++ ['"'] := by
  unfold key
  split
  · exact .inl rfl
  · rw [quoted, escape_identifier h]
    exact .inr rfl

theorem mem_key {id : String} (h : isIdentifier id.toList = true) {c : Char} (hc : c ∈ key id) :
    isIdentifierChar c = true ∨ c = '"' := by
  have hmem : c ∈ id.toList ∨ c = '"' := by
    rcases key_identifier h with hk | hk
    · exact .inl (hk ▸ hc)
    · rw [hk] at hc
      simp at hc
      tauto
  exact hmem.imp_left (((isIdentifier_iff _).mp h).2 c)

theorem key_ne_nil {id : String} (h : isIdentifier id.toList = true) : key id ≠ [] := by
  rcases key_identifier h with hk | hk <;> rw [hk]
  · exact ne_nil_of_isIdentifier h
  · simp

/-- Different identifiers have different keys. -/
theorem key_injective {a b : String} (ha : isIdentifier a.toList = true)
    (hb : isIdentifier b.toList = true) (h : key a = key b) : a = b := by
  have hquote {id : String} (hid : isIdentifier id.toList = true) (cs : List Char) :
      id.toList ≠ '"' :: cs := by
    intro heq
    exact not_mem_identifier hid (m := '"') (by decide) (by simp [heq])
  apply String.toList_inj.mp
  rcases key_identifier ha with hka | hka <;> rcases key_identifier hb with hkb | hkb <;>
    rw [hka, hkb] at h
  · exact h
  · exact absurd h (hquote ha _)
  · exact absurd h.symm (hquote hb _)
  · exact List.append_cancel_right (List.cons.inj h).2

/-- The characters of the paths of identifiers. -/
def IsPathChar (c : Char) : Prop :=
  isIdentifierChar c = true ∨ c = '"' ∨ c = '.'

theorem isPathChar_of_mem_key {id : String} (h : isIdentifier id.toList = true) {c : Char}
    (hc : c ∈ key id) : IsPathChar c :=
  (mem_key h hc).imp_right .inl

section Paths

variable {α : Type} {d : Document α}

/-- An identifier leads to the parent of its item, if that is a container. -/
theorem parentOfId_eq_filter (hids : (d.items.map (·.id)).Nodup) {i : Item α} (hi : i ∈ d.items) :
    parentOfId d i.id = i.parent.filter d.containerIds.contains := by
  have hfind : d.items.reverse.find? (·.id == i.id) = some i := by
    cases hf : d.items.reverse.find? (·.id == i.id) with
    | none =>
      have hnot := List.find?_eq_none.mp hf i (List.mem_reverse.mpr hi)
      simp at hnot
    | some j =>
      have hj := List.mem_reverse.mp (List.mem_of_find?_eq_some hf)
      have hid : j.id = i.id := by simpa using List.find?_some hf
      rw [List.inj_on_of_nodup_map hids hj hi hid]
  rw [parentOfId, hfind, Option.bind_some]

/-- An identifier leads to the parent of its item. -/
theorem parentOfId_eq (hd : d.Resolved) {i : Item α} (hi : i ∈ d.items) :
    parentOfId d i.id = i.parent := by
  rw [parentOfId_eq_filter hd.distinct hi, filter_parent hd hi]

/-- The way out of an item passes different identifiers. -/
theorem nodup_ids_of_trail (hd : d.Resolved) {parentOf : Item α → Option String} {i : Item α}
    {cs : List (Item α)} (hi : i ∈ d.items) (hcs : Trail parentOf d cs)
    (hparent : parentOf i = cs.head?.map (·.id)) : ((i :: cs).map (·.id)).Nodup := by
  have hsub : ∀ j ∈ i :: cs, j ∈ d.items := by
    intro j hj
    rcases List.mem_cons.mp hj with rfl | hj
    · exact hi
    · exact List.mem_append_left _ (hcs.mem_containers j hj)
  have hnodup : (i :: cs).Nodup := by
    refine List.nodup_cons.mpr ⟨fun hmem => ?_, hcs.nodup hd.nodup_containerIds⟩
    -- a container inside itself would be open twice
    have hopen : Trail parentOf d (i :: cs) := .cons (hcs.mem_containers i hmem) hparent hcs
    exact (List.nodup_cons.mp (hopen.nodup hd.nodup_containerIds)).1 hmem
  apply List.Nodup.map_on _ hnodup
  intro j hj k hk heq
  exact List.inj_on_of_nodup_map hd.distinct (hsub j hj) (hsub k hk) heq

/-- The ascent passes the open containers one by one. -/
theorem walk?_of_trail {cs : List (Item α)} (hcs : Trail (fun i => parentOfId d i.id) d cs)
    {passed : List String} (hnodup : ((cs.map (·.id)).reverse ++ passed).Nodup) {n : Nat}
    (hn : cs.length < n) :
    walk? (Ascent.step d) n ⟨cs.head?.map (·.id), passed⟩ =
      some ((cs.map (·.id)).reverse ++ passed) := by
  induction hcs generalizing passed n with
  | nil =>
    obtain ⟨n, rfl⟩ : ∃ k, n = k + 1 := ⟨n - 1, by omega⟩
    simp [walk?, Ascent.step]
  | @cons c cs _ hparent _ ih =>
    rw [List.length_cons] at hn
    obtain ⟨n, rfl⟩ : ∃ k, n = k + 1 := ⟨n - 1, by omega⟩
    rw [List.map_cons, List.reverse_cons, List.append_assoc, List.singleton_append] at hnodup ⊢
    -- the ascent ends early only at an identifier that it has passed
    have hfresh : c.id ∉ passed :=
      (List.nodup_cons.mp (List.nodup_append.mp hnodup).2.1).1
    have hup : parentOfId d c.id = cs.head?.map (·.id) := hparent
    have hstep : Ascent.step d ⟨some c.id, passed⟩ =
        .inl ⟨cs.head?.map (·.id), c.id :: passed⟩ := by
      simp [Ascent.step, hfresh, hup]
    rw [walk?, List.head?_cons, Option.map_some, hstep]
    exact ih hnodup (by omega)

/-- The path of an item names the containers open around it, the outermost first, and the item. -/
theorem path_eq (hd : d.Resolved) {i : Item α} {cs : List (Item α)} (hi : i ∈ d.items)
    (hcs : Trail (fun i => parentOfId d i.id) d cs)
    (hparent : parentOfId d i.id = cs.head?.map (·.id)) :
    path d i.id = joinWith ['.'] ((cs.map fun c => key c.id).reverse ++ [key i.id]) := by
  have hids := nodup_ids_of_trail hd hi hcs hparent
  have hnodup : ((cs.map (·.id)).reverse ++ [i.id]).Nodup := by
    have hreverse := List.nodup_reverse.mpr hids
    rwa [List.map_cons, List.reverse_cons] at hreverse
  have hlength := hcs.length_le hd.nodup_containerIds
  rw [path, pathIds, hparent, walk?_of_trail hcs hnodup (by omega), Option.getD_some]
  simp [List.map_reverse, Function.comp_def]

variable (hd : d.Resolved) (hids : ∀ i ∈ d.items, isIdentifier i.id.toList = true)
include hd hids

/-- The parts of a path are found again, since no key holds a dot. -/
theorem splitOn_path {i : Item α} {cs : List (Item α)} (hi : i ∈ d.items)
    (hcs : Trail (fun i => parentOfId d i.id) d cs)
    (hparent : parentOfId d i.id = cs.head?.map (·.id)) :
    splitOn '.' (path d i.id) = (cs.map fun c => key c.id).reverse ++ [key i.id] := by
  have hdot {j : Item α} (hj : j ∈ d.items) : '.' ∉ key j.id := by
    intro hmem
    rcases mem_key (hids j hj) hmem with h | h
    · exact absurd h (by decide)
    · exact absurd h (by decide)
  rw [path_eq hd hi hcs hparent]
  apply splitOn_joinWith (by simp)
  intro k hk
  simp only [List.mem_append, List.mem_reverse, List.mem_map, List.mem_singleton] at hk
  rcases hk with ⟨c, hc, rfl⟩ | rfl
  · exact hdot (List.mem_append_left _ (hcs.mem_containers c hc))
  · exact hdot hi

theorem path_ne_nil {i : Item α} (hi : i ∈ d.items) : path d i.id ≠ [] := by
  obtain ⟨cs, hcs, hparent⟩ := exists_trail hd (fun i => parentOfId_eq hd) hi
  intro hnil
  have hsplit := splitOn_path hd hids hi hcs hparent
  rw [hnil] at hsplit
  have hlast := congrArg List.getLast? hsplit
  rw [List.getLast?_concat] at hlast
  exact key_ne_nil (hids i hi) (Option.some.inj hlast).symm

theorem isPathChar_of_mem_path {i : Item α} (hi : i ∈ d.items) {c : Char}
    (hc : c ∈ path d i.id) : IsPathChar c := by
  obtain ⟨cs, hcs, hparent⟩ := exists_trail hd (fun i => parentOfId_eq hd) hi
  rw [path_eq hd hi hcs hparent] at hc
  rcases mem_of_mem_joinWith hc with hc | ⟨k, hk, hc⟩
  · exact .inr (.inr (List.mem_singleton.mp hc))
  · simp only [List.mem_append, List.mem_reverse, List.mem_map, List.mem_singleton] at hk
    rcases hk with ⟨b, hb, rfl⟩ | rfl
    · have hitem : b ∈ d.items := List.mem_append_left _ (hcs.mem_containers b hb)
      exact isPathChar_of_mem_key (hids b hitem) hc
    · exact isPathChar_of_mem_key (hids i hi) hc

/-- Different items have different paths: the last part of a path is the key of its item. -/
theorem nodup_paths : (d.items.map fun i => path d i.id).Nodup := by
  apply List.Nodup.map_on _ (hd.distinct.of_map _)
  intro i hi j hj heq
  obtain ⟨cs, hcs, hparent⟩ := exists_trail hd (fun i => parentOfId_eq hd) hi
  obtain ⟨cs', hcs', hparent'⟩ := exists_trail hd (fun i => parentOfId_eq hd) hj
  have hkeys : some (key i.id) = some (key j.id) :=
    calc some (key i.id)
      _ = (splitOn '.' (path d i.id)).getLast? := by
        rw [splitOn_path hd hids hi hcs hparent, List.getLast?_concat]
      _ = (splitOn '.' (path d j.id)).getLast? := by rw [heq]
      _ = some (key j.id) := by
        rw [splitOn_path hd hids hj hcs' hparent', List.getLast?_concat]
  apply List.inj_on_of_nodup_map hd.distinct hi hj
  exact key_injective (hids i hi) (hids j hj) (Option.some.inj hkeys)

end Paths

end ArchDiagram.Render.D2
