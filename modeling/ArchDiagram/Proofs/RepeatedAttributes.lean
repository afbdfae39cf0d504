import ArchDiagram.Proofs.DeclarationGrammar

/-!
Several attributes of one item. What a field holds in the end depends only on the values that the
attributes of this field give it, in their order: for an icon and a parent the last one counts, and
for a coordinate the last one that is not empty. So an empty coordinate does not take back an
earlier one, while an empty icon does.
-/

namespace ArchDiagram

variable {α : Type}

def Frame.get (f : Frame α) : Side → Option α
  | .x => f.x
  | .y => f.y
  | .width => f.width
  | .height => f.height

@[simp] theorem Frame.get_set (f : Frame α) (s t : Side) (v : α) :
    (f.set s v).get t = if t = s then some v else f.get t := by
  cases s <;> cases t <;> rfl

theorem Frame.ext_get {f g : Frame α} (h : ∀ s, f.get s = g.get s) : f = g := by
  have hx : f.x = g.x := h .x
  have hy : f.y = g.y := h .y
  have hwidth : f.width = g.width := h .width
  have hheight : f.height = g.height := h .height
  cases f
  cases g
  simp_all

namespace Source

open Text

/-- Whether an attribute is one of a field. -/
def targets (k : Key) (token : List Char) : Bool :=
  (splitAttribute? token).any fun (key, _) => k.spellings.contains (String.ofList key)

/-- What stands behind the first equals sign. -/
def attributeValue (token : List Char) : List Char :=
  (token.dropWhile (· != '=')).tail

/-- The values that attributes give to a field, in their order. -/
def valuesFor (k : Key) (tokens : List (List Char)) : List (List Char) :=
  (tokens.filter (targets k)).map attributeValue

theorem valuesFor_append (k : Key) (ts us : List (List Char)) :
    valuesFor k (ts ++ us) = valuesFor k ts ++ valuesFor k us := by
  rw [valuesFor, List.filter_append, List.map_append]
  rfl

theorem attributeValue_of_split {token key value : List Char}
    (h : splitAttribute? token = some (key, value)) : attributeValue token = value := by
  obtain ⟨rfl, -, hk⟩ := splitAttribute?_eq_some_iff.mp h
  have hspan := (span_eq_iff (p := (· != '=')) (m := '=') (a := key) (b := value) rfl).mpr
    ⟨rfl, fun c hc => by simpa using fun h : c = '=' => hk (h ▸ hc)⟩
  rw [attributeValue, hspan.2, List.tail_cons]

/-- One attribute gives its value to the field of its key. -/
theorem valuesFor_singleton {token key value : List Char}
    (h : splitAttribute? token = some (key, value)) {k : Key} (hk : k ≠ .other) :
    valuesFor k [token] = if Key.ofText (String.ofList key) = k then [value] else [] := by
  have htargets : targets k token = decide (Key.ofText (String.ofList key) = k) := by
    rw [targets, h, Option.any_some, Bool.eq_iff_iff, List.contains_iff_mem, decide_eq_true_iff,
      Key.ofText_eq_iff hk]
  by_cases hkey : Key.ofText (String.ofList key) = k
  · simp [valuesFor, htargets, hkey, attributeValue_of_split h]
  · simp [valuesFor, htargets, hkey]

/-- What the last of some values makes of a field. -/
def lastOr {β : Type} (f : List Char → Option β) (old : Option β) (values : List (List Char)) :
    Option β :=
  (values.getLast?.map f).getD old

theorem lastOr_append {β : Type} (f : List Char → Option β) (old : Option β)
    (vs ws : List (List Char)) : lastOr f old (vs ++ ws) = lastOr f (lastOr f old vs) ws := by
  rw [lastOr, List.getLast?_append]
  -- the first list counts only if the second has no last value
  cases h : ws.getLast? <;> simp [lastOr, h]

theorem lastOr_none {β : Type} (f : List Char → Option β) (values : List (List Char)) :
    lastOr f none values = values.getLast?.bind f := by
  cases h : values.getLast? <;> simp [lastOr, h]

/-- What attributes make of an item, field by field. -/
structure Attributes.After (isContainer : Bool) (a : Attributes) (tokens : List (List Char))
    (a' : Attributes) : Prop where
  icon : a'.icon =
    if isContainer then a.icon else lastOr nonempty? a.icon (valuesFor .icon tokens)
  parent : a'.parent = lastOr nonempty? a.parent (valuesFor .parent tokens)
  side : ∀ s, a'.frame.get s =
    lastOr Numeral.real? (a.frame.get s) ((valuesFor (.side s) tokens).filter (· ≠ []))

namespace Attributes

variable {owner : String} {b : Bool} {a a' a'' : Attributes} {t : List Char}
  {ts us : List (List Char)}

theorem After.nil (b : Bool) (a : Attributes) : After b a [] a :=
  ⟨by cases b <;> rfl, rfl, fun _ => rfl⟩

theorem After.append (h : After b a ts a') (h' : After b a' us a'') :
    After b a (ts ++ us) a'' where
  icon := by
    rw [h'.icon, h.icon, valuesFor_append, lastOr_append]
    cases b <;> rfl
  parent := by rw [h'.parent, h.parent, valuesFor_append, lastOr_append]
  side := fun s => by rw [h'.side, h.side, valuesFor_append, List.filter_append, lastOr_append]

theorem After.unique (h : After b a ts a') (h' : After b a ts a'') : a' = a'' := by
  have hframe : a'.frame = a''.frame := Frame.ext_get fun s => (h.side s).trans (h'.side s).symm
  have hicon := h.icon.trans h'.icon.symm
  have hparent := h.parent.trans h'.parent.symm
  cases a'
  cases a''
  simp_all

theorem real?_of_readCoordinate {key : String} {value : List Char} {v : Binary64}
    (h : readCoordinate key owner value = .ok v) : Numeral.real? value = some v := by
  unfold readCoordinate at h
  dsimp only at h
  split at h
  · split at h
    · cases h
    · rename_i w hw
      split at h
      · cases h
        exact hw
      · cases h
  · cases h

/-- What one attribute does, by the field of its key. -/
theorem After.of_split {key value : List Char} {k : Key}
    (h : splitAttribute? t = some (key, value)) (hkey : Key.ofText (String.ofList key) = k)
    (icon : a'.icon = if k = .icon ∧ b = false then nonempty? value else a.icon)
    (parent : a'.parent = if k = .parent then nonempty? value else a.parent)
    (side : ∀ s, a'.frame.get s =
      if k = .side s ∧ value ≠ [] then Numeral.real? value else a.frame.get s) :
    After b a [t] a' := by
  have hvalues {k' : Key} (hk : k' ≠ .other) := hkey ▸ valuesFor_singleton h hk
  refine ⟨?_, ?_, fun s => ?_⟩
  · rw [icon, hvalues (by simp)]
    cases b <;> by_cases hk : k = .icon <;> simp [hk, lastOr]
  · rw [parent, hvalues (by simp)]
    by_cases hk : k = .parent <;> simp [hk, lastOr]
  · rw [side, hvalues (by simp)]
    by_cases hk : k = .side s <;> by_cases hv : value = [] <;> simp [hk, hv, lastOr]

/-- One attribute sets the field of its key and nothing else. -/
theorem after_apply (h : a.apply owner b t = .ok a') : After b a [t] a' := by
  unfold Attributes.apply at h
  split at h
  · cases h
  · rename_i key value hsplit
    dsimp only at h
    split at h
    · cases h
    · split at h
      · rename_i s hkey
        split at h
        · rename_i hempty
          cases h
          exact .of_split hsplit hkey (by simp) (by simp) (by simp [List.isEmpty_iff.mp hempty])
        · rename_i hvalue
          obtain ⟨v, hv, rfl⟩ := map_eq_ok_iff.mp h
          refine .of_split hsplit hkey (by simp) (by simp) fun s' => ?_
          -- a value that is not empty sets its part of the frame and no other
          rw [Frame.get_set, real?_of_readCoordinate hv]
          by_cases hs : s' = s
          · simp [hs, List.isEmpty_iff.not.mp hvalue]
          · simp [hs, Ne.symm hs]
      · rename_i hkey
        cases h
        cases b
        · exact .of_split hsplit hkey (by simp) (by simp) (by simp)
        · exact .of_split hsplit hkey (by simp) (by simp) (by simp)
      · rename_i hkey
        split at h
        · cases h
          exact .of_split hsplit hkey (by simp) (by simp) (by simp)
        · cases h
      · rename_i hkey
        cases h
        exact .of_split hsplit hkey (by simp) (by simp) (by simp)

theorem after_applyAll (h : a.applyAll owner b ts = .ok a') : After b a ts a' := by
  induction ts generalizing a with
  | nil =>
    cases h
    exact .nil b _
  | cons t ts ih =>
    unfold applyAll at h
    split at h
    · rename_i a₁ hfirst
      exact (after_apply hfirst).append (ih h)
    · cases h

/-- Coordinates that are not empty can be read, where all attributes are accepted. -/
theorem exists_real?_of_mem (h : a.applyAll owner b ts = .ok a') {s : Side} {v : List Char}
    (hv : v ∈ valuesFor (.side s) ts) (hne : v ≠ []) : ∃ w, Numeral.real? v = some w := by
  obtain ⟨ms, hms, rfl⟩ := (exists_applyAll_iff owner b a ts).mp ⟨a', h⟩
  obtain ⟨t, ht, rfl⟩ := List.mem_map.mp hv
  obtain ⟨ht, htargets⟩ := List.mem_filter.mp ht
  obtain ⟨m, hm, rfl⟩ := List.mem_map.mp ht
  have hform := hms m hm
  have hsplit := splitAttribute?_append hform.key_ne_nil hform.key_ends m.value
  rw [Assignment.text, attributeValue_of_split hsplit] at hne ⊢
  rw [Assignment.text, targets, hsplit, Option.any_some, List.contains_iff_mem,
    ← Key.ofText_eq_iff (by simp)] at htargets
  rcases hform.side ((Key.exists_side_iff _).mp ⟨s, htargets⟩) with hnil | ⟨-, w, hw, -⟩
  · exact absurd hnil hne
  · exact ⟨w, hw⟩

end Attributes

/-- What the last attribute of a field says, read by `f`; an empty value is nothing. -/
def lastSays {β : Type} (f : List Char → Option β) (k : Key) (tokens : List (List Char)) :
    Option β :=
  (tokens.filter (targets k)).getLast?.bind fun t =>
    if attributeValue t = [] then none else f (attributeValue t)

theorem lastSays_eq {β : Type} (f : List Char → Option β) (k : Key) (tokens : List (List Char)) :
    lastSays f k tokens =
      (valuesFor k tokens).getLast?.bind fun v => if v = [] then none else f v := by
  rw [lastSays, valuesFor, List.getLast?_map, Option.bind_map]
  rfl

/-- What the fields of an item hold, given its attributes. -/
structure LastCounts (isContainer : Bool) (tokens : List (List Char)) (a : Attributes) :
    Prop where
  /-- Containers take no icon. -/
  icon : a.icon =
    if isContainer then none else lastSays (fun v => some (String.ofList v)) .icon tokens
  parent : a.parent = lastSays (fun v => some (String.ofList v)) .parent tokens
  /-- Of the values of a coordinate the last one counts that is not empty. -/
  side : ∀ s, a.frame.get s =
    ((valuesFor (.side s) tokens).filter (· ≠ [])).getLast?.bind Numeral.real?
  /-- So the last attribute decides, unless it is empty and not all are. -/
  side_last : ∀ s, a.frame.get s = lastSays Numeral.real? (.side s) tokens ↔
    ((valuesFor (.side s) tokens).getLast? = some [] → ∀ v ∈ valuesFor (.side s) tokens, v = [])

theorem getLast?_filter_ne_nil {values : List (List Char)} (h : values.getLast? ≠ some []) :
    (values.filter (· ≠ [])).getLast? = values.getLast? := by
  rcases List.eq_nil_or_concat values with rfl | ⟨vs, v, rfl⟩
  · rfl
  · rw [List.concat_eq_append] at h ⊢
    have hv : v ≠ [] := fun hv => h (by rw [hv, List.getLast?_concat])
    rw [List.filter_append, List.getLast?_concat]
    simp [hv]

theorem last_attribute_counts {owner : String} {isContainer : Bool} {tokens : List (List Char)}
    {a : Attributes} (h : Attributes.applyAll owner isContainer {} tokens = .ok a) :
    LastCounts isContainer tokens a := by
  have hafter := Attributes.after_applyAll h
  have hside (s : Side) : a.frame.get s =
      ((valuesFor (.side s) tokens).filter (· ≠ [])).getLast?.bind Numeral.real? := by
    rw [hafter.side, show ({} : Attributes).frame.get s = none by cases s <;> rfl, lastOr_none]
  have hname : nonempty? = fun v => if v = [] then none else some (String.ofList v) := by
    funext v
    simp [nonempty?]
  refine ⟨?_, ?_, hside, fun s => ⟨fun heq hlast v hv => ?_, fun hempty => ?_⟩⟩
  · rw [hafter.icon, lastOr_none, lastSays_eq, hname]
  · rw [hafter.parent, lastOr_none, lastSays_eq, hname]
  · -- an earlier value would still be there
    by_contra hne
    have hmem : v ∈ (valuesFor (.side s) tokens).filter (· ≠ []) :=
      List.mem_filter.mpr ⟨hv, by simpa using hne⟩
    obtain ⟨u, hu⟩ := Option.ne_none_iff_exists'.mp
      (mt List.getLast?_eq_none_iff.mp (List.ne_nil_of_mem hmem))
    obtain ⟨hu', hne'⟩ := List.mem_filter.mp (List.mem_of_getLast? hu)
    obtain ⟨w, hw⟩ := Attributes.exists_real?_of_mem h hu' (by simpa using hne')
    rw [hside, lastSays_eq, hu, hlast] at heq
    simp [hw] at heq
  · rw [hside, lastSays_eq]
    by_cases hlast : (valuesFor (.side s) tokens).getLast? = some []
    · have hnone : (valuesFor (.side s) tokens).filter (· ≠ []) = [] := by
        simpa using hempty hlast
      rw [hnone, hlast]
      rfl
    · rw [getLast?_filter_ne_nil hlast]
      refine Option.bind_congr fun v hv => ?_
      have hne : v ≠ [] := by
        rintro rfl
        exact hlast hv
      rw [if_neg hne]

theorem eq_ok_of_toOption {ε α : Type} {x : Except ε α} {a : α} (h : x.toOption = some a) :
    x = .ok a := by
  cases x with
  | ok b => exact congrArg Except.ok (Option.some.inj h)
  | error e => cases h

/-- Aliases, an icon that is taken back, and a coordinate that is given after an empty one. -/
theorem last_attribute_counts_aliases :
    let tokens := ["w=3".toList, "icon=A".toList, "y=".toList, "width=4".toList, "icon=".toList,
      "y=-2".toList, "parent=p".toList]
    ∃ a, Attributes.applyAll "n" false {} tokens = .ok a ∧ LastCounts false tokens a := by
  intro tokens
  have hcheck : (Attributes.applyAll "n" false {} tokens).toOption.isSome = true := by
    decide +kernel
  obtain ⟨a, ha⟩ := Option.isSome_iff_exists.mp hcheck
  have hread := eq_ok_of_toOption ha
  exact ⟨a, hread, last_attribute_counts hread⟩

/-- An empty coordinate does not take back the one before it. -/
theorem empty_coordinate_ignored :
    ∃ a, Attributes.applyAll "a" false {} ["x=1".toList, "x=".toList] = .ok a ∧
      a.frame.get .x ≠ lastSays Numeral.real? (.side .x) ["x=1".toList, "x=".toList] := by
  have hcheck : (Attributes.applyAll "a" false {} ["x=1".toList, "x=".toList]).toOption.any
      (fun a => (a.frame.get .x).isSome) = true := by
    decide +kernel
  obtain ⟨a, ha, hsome⟩ := (Option.any_eq_true _ _).mp hcheck
  refine ⟨a, eq_ok_of_toOption ha, fun heq => ?_⟩
  rw [heq] at hsome
  exact absurd hsome (by decide)

end Source

end ArchDiagram
