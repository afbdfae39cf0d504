import ArchDiagram.Proofs.RepeatedAttributes

/-!
The order of attributes. Whether an attribute is accepted does not depend on the others, and what a
field holds depends on its own attributes alone. So attributes of different fields can change
places, and unknown ones can come and go: both lists are rejected, or both give the same item.
-/

namespace ArchDiagram.Source

open Text

/-- Whether a key sets a field; containers take no icon. -/
def Key.isSet (isContainer : Bool) : Key → Bool
  | icon => !isContainer
  | other => false
  | _ => true

/-- The same attributes in another order, which is the same for each field. -/
structure Rearranged (isContainer : Bool) (ts us : List (List Char)) : Prop where
  perm : us.Perm ts
  order : ∀ k : Key, k.isSet isContainer = true →
    us.filter (targets k) = ts.filter (targets k)

/-- An attribute that is well-formed and whose key is not known. -/
def Foreign (token : List Char) : Prop :=
  ∃ m : Assignment, m.WellFormed ∧ (∀ k : Key, String.ofList m.key ∉ k.spellings) ∧
    token = m.text

/-- The second list has foreign attributes besides those of the first. -/
inductive Padded : List (List Char) → List (List Char) → Prop
  | nil : Padded [] []
  | keep (t : List Char) {ts us : List (List Char)} (more : Padded ts us) :
      Padded (t :: ts) (t :: us)
  | insert {t : List Char} (foreign : Foreign t) {ts us : List (List Char)} (more : Padded ts us) :
      Padded ts (t :: us)

/-- Both are rejected, for whatever reasons, or both give the same attributes. -/
inductive Alike : Except Stop Attributes → Except Stop Attributes → Prop
  | rejected (f g : Fault) : Alike (.error (.rejected f)) (.error (.rejected g))
  | accepted (a : Attributes) : Alike (.ok a) (.ok a)

namespace Attributes

variable (owner : String) (b : Bool) (a : Attributes)

/-- Attributes are accepted one by one. -/
theorem exists_applyAll_iff_forall (ts : List (List Char)) :
    (∃ a', a.applyAll owner b ts = .ok a') ↔
      ∀ t ∈ ts, ∃ m : Assignment, m.WellFormed ∧ t = m.text := by
  rw [exists_applyAll_iff]
  constructor
  · rintro ⟨ms, hms, rfl⟩ t ht
    obtain ⟨m, hm, rfl⟩ := List.mem_map.mp ht
    exact ⟨m, hms m hm, rfl⟩
  · intro h
    induction ts with
    | nil => exact ⟨[], by simp, rfl⟩
    | cons t ts ih =>
      obtain ⟨m, hm, rfl⟩ := h t (by simp)
      obtain ⟨ms, hms, rfl⟩ := ih fun u hu => h u (by simp [hu])
      exact ⟨m :: ms, by simpa using ⟨hm, hms⟩, rfl⟩

variable {owner b a}

theorem exists_rejected {ts : List (List Char)} (h : ¬∃ a', a.applyAll owner b ts = .ok a') :
    ∃ f, a.applyAll owner b ts = .error (.rejected f) := by
  cases hr : a.applyAll owner b ts with
  | ok a' => exact absurd ⟨a', hr⟩ h
  | error e =>
    cases e with
    | failed f => exact absurd hr (applyAll_ne_failed owner b ts a f)
    | rejected f => exact ⟨f, rfl⟩

/-- What attributes come to depends on the order of those that set one field. -/
theorem After.of_rearranged {ts us : List (List Char)} {a' : Attributes}
    (hr : Rearranged b ts us) (h : After b a ts a') : After b a us a' := by
  have hvalues {k : Key} (hk : k.isSet b = true) : valuesFor k us = valuesFor k ts :=
    congrArg (List.map attributeValue) (hr.order k hk)
  refine ⟨?_, ?_, fun s => ?_⟩
  · -- containers look at no icon, so the order of those may have changed
    cases b with
    | true => exact h.icon
    | false => rw [hvalues rfl, h.icon]
  · rw [hvalues rfl, h.parent]
  · rw [hvalues rfl, h.side]

theorem alike_of_rearranged {ts us : List (List Char)} (hr : Rearranged b ts us) :
    Alike (a.applyAll owner b us) (a.applyAll owner b ts) := by
  have haccepted : (∃ a', a.applyAll owner b us = .ok a') ↔
      ∃ a', a.applyAll owner b ts = .ok a' := by
    rw [exists_applyAll_iff_forall, exists_applyAll_iff_forall]
    exact forall_congr' fun t => by rw [hr.perm.mem_iff]
  by_cases h : ∃ a', a.applyAll owner b ts = .ok a'
  · obtain ⟨a₁, h₁⟩ := h
    obtain ⟨a₂, h₂⟩ := haccepted.mpr ⟨a₁, h₁⟩
    obtain rfl := (after_applyAll h₂).unique ((after_applyAll h₁).of_rearranged hr)
    rw [h₁, h₂]
    exact .accepted a₂
  · obtain ⟨f, hf⟩ := exists_rejected h
    obtain ⟨g, hg⟩ := exists_rejected (mt haccepted.mp h)
    rw [hf, hg]
    exact .rejected g f

theorem apply_of_foreign {t : List Char} (h : Foreign t) : a.apply owner b t = .ok a := by
  obtain ⟨m, hm, hunknown, rfl⟩ := h
  have hkey : Key.ofText (String.ofList m.key) = .other := by
    by_contra hk
    exact hunknown _ ((Key.ofText_eq_iff hk _).mp rfl)
  unfold Attributes.apply Assignment.text
  rw [splitAttribute?_append hm.key_ne_nil hm.key_ends]
  simp [hm.unquoted, hkey]

theorem applyAll_of_padded {ts us : List (List Char)} (h : Padded ts us) :
    a.applyAll owner b us = a.applyAll owner b ts := by
  induction h generalizing a with
  | nil => rfl
  | keep t _ ih =>
    rw [applyAll, applyAll]
    split
    · exact ih
    · rfl
  | insert hforeign _ ih =>
    rw [applyAll, apply_of_foreign hforeign]
    exact ih

end Attributes

/-- What can be done to attributes that are applied to an item. -/
structure OrderIrrelevant (owner : String) (isContainer : Bool) (a : Attributes)
    (ts : List (List Char)) : Prop where
  rearranged : ∀ us, Rearranged isContainer ts us →
    Alike (a.applyAll owner isContainer us) (a.applyAll owner isContainer ts)
  /-- Even the reason to reject them is the same with foreign attributes and without. -/
  padded : ∀ us, Padded ts us →
    a.applyAll owner isContainer us = a.applyAll owner isContainer ts

theorem attributes_order_irrelevant (owner : String) (isContainer : Bool) (a : Attributes)
    (ts : List (List Char)) : OrderIrrelevant owner isContainer a ts where
  rearranged := fun _ => Attributes.alike_of_rearranged
  padded := fun _ => Attributes.applyAll_of_padded

/-- A width given twice keeps its order, and a color comes in between. -/
theorem attributes_order_irrelevant_width :
    let ts := ["x=1".toList, "w=2".toList, "icon=A".toList, "width=3".toList]
    let us := ["w=2".toList, "width=3".toList, "x=1".toList, "icon=A".toList]
    Rearranged false ts us ∧ Padded us ("w=2".toList :: "color=red".toList :: us.tail) ∧
      OrderIrrelevant "n" false {} ts ∧ OrderIrrelevant "n" false {} us := by
  intro ts us
  refine ⟨⟨by decide, fun k _ => ?_⟩, ?_, attributes_order_irrelevant _ _ _ _,
    attributes_order_irrelevant _ _ _ _⟩
  · match k with
    | .side .x | .side .y | .side .width | .side .height | .icon | .parent | .other => decide
  · have hcolor : Foreign "color=red".toList := by
      refine ⟨⟨"color".toList, "red".toList⟩, ⟨by decide, by decide, by decide, ?_, ?_⟩, ?_, rfl⟩
      · exact fun h => absurd h (by decide)
      · exact fun h => absurd h (by decide)
      · rintro ((_ | _ | _ | _) | _ | _ | _) <;> decide
    have hrefl (l : List (List Char)) : Padded l l := by
      induction l with
      | nil => exact .nil
      | cons t l ih => exact .keep t ih
    exact .keep _ (.insert hcolor (hrefl _))

end ArchDiagram.Source
