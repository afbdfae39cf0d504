import ArchDiagram.Proofs.Spelled
import ArchDiagram.Proofs.Written

/-!
Written attributes. The attributes of an item are single words, and applied one after the other they
give back its icon, its frame with the values that its coordinates are spelled as, and its parent.
-/

namespace ArchDiagram

open Text

/-- What the spellings of the parts of a frame are read as. -/
def Frame.respelled? (f : Frame Binary64) : Option (Frame Binary64) := do
  let x ← f.x.mapM Binary64.respelled?
  let y ← f.y.mapM Binary64.respelled?
  let width ← f.width.mapM Binary64.respelled?
  let height ← f.height.mapM Binary64.respelled?
  return ⟨x, y, width, height⟩

/-- The coordinates that are present. -/
def Frame.values {α : Type} (f : Frame α) : List α :=
  f.x.toList ++ f.y.toList ++ f.width.toList ++ f.height.toList

namespace Source

/-- The attribute of one part of a frame. -/
def sideTokens (key : String) (v : Option Binary64) : List (List Char) :=
  (v.map fun v => key.toList ++ '=' :: v.plain).toList

theorem writeFrame_eq (f : Frame Binary64) :
    writeFrame f = sideTokens "x" f.x ++ sideTokens "y" f.y ++ sideTokens "w" f.width ++
      sideTokens "h" f.height :=
  rfl

theorem mem_writeFrame {f : Frame Binary64} {t : List Char} (h : t ∈ writeFrame f) :
    ∃ key : String, (∀ c ∈ key.toList, isBlank c = false ∧ c ≠ '"') ∧
      ∃ v : Binary64, t = key.toList ++ '=' :: v.plain := by
  have hside {key : String} {v : Option Binary64} (ht : t ∈ sideTokens key v) :
      ∃ v : Binary64, t = key.toList ++ '=' :: v.plain := by
    obtain ⟨u, -, rfl⟩ := Option.map_eq_some_iff.mp (Option.mem_toList.mp ht)
    exact ⟨u, rfl⟩
  rw [writeFrame_eq, List.mem_append, List.mem_append, List.mem_append] at h
  rcases h with ((h | h) | h) | h
  · exact ⟨"x", forall_mem_of_all (by decide), hside h⟩
  · exact ⟨"y", forall_mem_of_all (by decide), hside h⟩
  · exact ⟨"w", forall_mem_of_all (by decide), hside h⟩
  · exact ⟨"h", forall_mem_of_all (by decide), hside h⟩

theorem writeFrame_eq_nil_iff (f : Frame Binary64) :
    writeFrame f = [] ↔ f.values = [] := by
  simp [writeFrame_eq, sideTokens, Frame.values]

theorem filled?_eq_some_iff {o : Option String} {s : String} :
    filled? o = some s ↔ o = some s ∧ s ≠ "" := by
  simp [filled?, Option.filter_eq_some_iff]

/-- Attributes are words without quotes. -/
theorem of_mem_attributeTokens {item : Item Binary64} {icon : Option String}
    (hw : WritableItem item icon) {t : List Char} (ht : t ∈ attributeTokens item icon) :
    t ≠ [] ∧ ∀ c ∈ t, isBlank c = false ∧ c ≠ '"' := by
  have hcat {key value : List Char} (hk : ∀ c ∈ key, isBlank c = false ∧ c ≠ '"')
      (hv : ∀ c ∈ value, isBlank c = false ∧ c ≠ '"') :
      ∀ c ∈ key ++ value, isBlank c = false ∧ c ≠ '"' := by
    intro c hc
    rcases List.mem_append.mp hc with hc | hc
    · exact hk c hc
    · exact hv c hc
  rw [attributeTokens, List.mem_append, List.mem_append] at ht
  rcases ht with (ht | ht) | ht
  · obtain ⟨i, hi, rfl⟩ := Option.map_eq_some_iff.mp (Option.mem_toList.mp ht)
    exact ⟨by simp, hcat (forall_mem_of_all (by decide)) (hw.icon i hi).2⟩
  · obtain ⟨key, hk, v, rfl⟩ := mem_writeFrame ht
    refine ⟨by simp, ?_⟩
    have hvalue : ∀ c ∈ '=' :: v.plain, isBlank c = false ∧ c ≠ '"' := by
      intro c hc
      rcases List.mem_cons.mp hc with rfl | hc
      · decide
      · exact ⟨(Binary64.apart_of_mem_plain hc).1, (Binary64.apart_of_mem_plain hc).2.1⟩
    exact hcat hk hvalue
  · obtain ⟨p, hp, rfl⟩ := Option.map_eq_some_iff.mp (Option.mem_toList.mp ht)
    refine ⟨by simp, hcat (forall_mem_of_all (by decide)) fun c hc => ⟨?_, ?_⟩⟩
    · exact isBlank_of_mem_identifier (hw.parent p hp) c hc
    · rintro rfl
      exact not_mem_identifier (hw.parent p hp) rfl hc

theorem applyAll_append (owner : String) (b : Bool) (a : Attributes) (ts us : List (List Char)) :
    (a.applyAll owner b (ts ++ us)).toOption =
      (a.applyAll owner b ts).toOption.bind fun a => (a.applyAll owner b us).toOption := by
  induction ts generalizing a with
  | nil => rfl
  | cons t ts ih =>
    rw [List.cons_append, Attributes.applyAll, Attributes.applyAll]
    cases a.apply owner b t with
    | ok a' => exact ih a'
    | error e => rfl

theorem splitAttribute?_append {key : List Char} (hn : key ≠ []) (hk : '=' ∉ key)
    (value : List Char) : splitAttribute? (key ++ '=' :: value) = some (key, value) := by
  have hspan := (span_eq_iff (p := (· != '=')) (m := '=') (a := key) (b := value) rfl).mpr
    ⟨rfl, fun c hc => by simpa using fun h : c = '=' => hk (h ▸ hc)⟩
  unfold splitAttribute?
  rw [hspan.1, hspan.2]
  simp [hn]

theorem readCoordinate_plain (key owner : String) (v : Binary64) :
    (readCoordinate key owner v.plain).toOption = v.respelled? := by
  unfold readCoordinate Binary64.respelled?
  dsimp only
  split
  · cases hr : Numeral.real? v.plain with
    | none => rfl
    | some w =>
      cases hf : w.isFinite <;> simp [Except.toOption, Option.filter, hf]
  · rfl

/-- The attribute of a part of a frame sets that part. -/
theorem applyAll_sideTokens (owner : String) (b : Bool) (a : Attributes) (key : String) (s : Side)
    (hs : Key.ofText key = .side s) (hn : key.toList ≠ []) (hk : '=' ∉ key.toList)
    (v : Option Binary64) :
    (a.applyAll owner b (sideTokens key v)).toOption =
      (v.mapM Binary64.respelled?).map fun w =>
        { a with frame := w.elim a.frame (a.frame.set s) } := by
  cases v with
  | none => rfl
  | some v =>
    have hquote : '"' ∉ v.plain := fun hc => (Binary64.apart_of_mem_plain hc).2.1 rfl
    have hread := readCoordinate_plain key owner v
    have happly : a.apply owner b (key.toList ++ '=' :: v.plain) =
        (readCoordinate key owner v.plain).map fun w => { a with frame := a.frame.set s w } := by
      unfold Attributes.apply
      rw [splitAttribute?_append hn hk]
      simp [hquote, hs, Binary64.plain_ne_nil]
    change (a.applyAll owner b [key.toList ++ '=' :: v.plain]).toOption = _
    rw [Attributes.applyAll, happly]
    cases hr : readCoordinate key owner v.plain with
    | ok w =>
      rw [hr] at hread
      simp [Except.map, Attributes.applyAll, Except.toOption, ← hread]
    | error e =>
      rw [hr] at hread
      simp [Except.map, Except.toOption, ← hread]

/-- The attributes of a frame set all of it. -/
theorem applyAll_writeFrame (owner : String) (b : Bool) {a : Attributes} (ha : a.frame = {})
    (f : Frame Binary64) :
    (a.applyAll owner b (writeFrame f)).toOption =
      f.respelled?.map fun g => { a with frame := g } := by
  have hx := fun a => applyAll_sideTokens owner b a "x" .x rfl (by decide) (by decide) f.x
  have hy := fun a => applyAll_sideTokens owner b a "y" .y rfl (by decide) (by decide) f.y
  have hw := fun a => applyAll_sideTokens owner b a "w" .width rfl (by decide) (by decide) f.width
  have hh := fun a => applyAll_sideTokens owner b a "h" .height rfl (by decide) (by decide) f.height
  rw [writeFrame_eq, applyAll_append, applyAll_append, applyAll_append, hx]
  simp only [hy, hw, hh, ha, Frame.respelled?]
  -- each part is set on its own, and the first that is not read stops the rest
  cases f.x.mapM Binary64.respelled? with
  | none => rfl
  | some x =>
    cases f.y.mapM Binary64.respelled? with
    | none => rfl
    | some y =>
      cases f.width.mapM Binary64.respelled? with
      | none => rfl
      | some w =>
        cases f.height.mapM Binary64.respelled? with
        | none => rfl
        | some h => cases x <;> cases y <;> cases w <;> cases h <;> rfl

theorem apply_icon (owner : String) (a : Attributes) {i : String} (hi : Bare i) :
    a.apply owner false ("icon=".toList ++ i.toList) = .ok { a with icon := some i } := by
  have hcut : "icon=".toList ++ i.toList = "icon".toList ++ '=' :: i.toList := rfl
  have hquote : '"' ∉ i.toList := fun hc => (hi.2 _ hc).2 rfl
  have hkey : Key.ofText "icon" = .icon := rfl
  unfold Attributes.apply
  rw [hcut, splitAttribute?_append (by decide) (by decide)]
  simp [hquote, hkey, nonempty?, hi.1]

theorem apply_parent (owner : String) (b : Bool) (a : Attributes) {p : String}
    (hp : isIdentifier p.toList = true) :
    a.apply owner b ("parent=".toList ++ p.toList) = .ok { a with parent := some p } := by
  have hcut : "parent=".toList ++ p.toList = "parent".toList ++ '=' :: p.toList := rfl
  have hquote : '"' ∉ p.toList := not_mem_identifier hp rfl
  have hkey : Key.ofText "parent" = .parent := rfl
  have hne : p ≠ "" := fun he => ne_nil_of_isIdentifier hp (by simp [he])
  unfold Attributes.apply
  rw [hcut, splitAttribute?_append (by decide) (by decide)]
  simp [hquote, hkey, nonempty?, hp, hne]

/-- The attributes of a written item give its icon, its frame as spelled and its parent. -/
theorem applyAll_attributeTokens (owner : String) {b : Bool} {item : Item Binary64}
    {icon : Option String} (hw : WritableItem item icon) (hb : b = true → icon = none) :
    (Attributes.applyAll owner b {} (attributeTokens item icon)).toOption =
      item.frame.respelled?.map fun g => ⟨filled? icon, g, filled? item.parent⟩ := by
  have hicon : (Attributes.applyAll owner b {}
      ((filled? icon).map fun i => "icon=".toList ++ i.toList).toList).toOption =
        some { icon := filled? icon } := by
    cases hi : filled? icon with
    | none => rfl
    | some i =>
      have hnode : b = false := by
        rw [← Bool.not_eq_true]
        intro htrue
        simp [hb htrue, filled?] at hi
      rw [Option.map_some, Option.toList_some, Attributes.applyAll, hnode,
        apply_icon owner {} (hw.icon i hi)]
      rfl
  have hparent (g : Frame Binary64) :
      (Attributes.applyAll owner b { icon := filled? icon, frame := g }
        ((filled? item.parent).map fun p => "parent=".toList ++ p.toList).toList).toOption =
          some ⟨filled? icon, g, filled? item.parent⟩ := by
    cases hp : filled? item.parent with
    | none => rfl
    | some p =>
      rw [Option.map_some, Option.toList_some, Attributes.applyAll,
        apply_parent owner b _ (hw.parent p hp)]
      rfl
  have hframe := applyAll_writeFrame owner b (a := { icon := filled? icon }) rfl item.frame
  rw [attributeTokens, applyAll_append, applyAll_append, hicon, Option.bind_some, hframe]
  cases item.frame.respelled? with
  | none => rfl
  | some g =>
    rw [Option.map_some, Option.bind_some, hparent]
    rfl

end Source

end ArchDiagram
