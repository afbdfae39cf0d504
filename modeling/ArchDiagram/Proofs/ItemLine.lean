import ArchDiagram.Proofs.AttributeTokens
import ArchDiagram.Proofs.History
import Mathlib.Data.List.Basic

/-!
How a written item is read. Its line is a declaration of the item, with the values that its
coordinates are spelled as, and without an icon or a parent that is empty. A node whose line ends
with an icon that ends with a brace seems to open a block, and is not read at all.
-/

namespace ArchDiagram.Source

open Text

/-- The last character of words with a space before each. -/
theorem getLast?_flatMap {ts : List (List Char)} (hn : ∀ t ∈ ts, t ≠ []) :
    (ts.flatMap (' ' :: ·)).getLast? = ts.getLast?.bind List.getLast? := by
  rcases List.eq_nil_or_concat ts with rfl | ⟨us, t, rfl⟩
  · rfl
  · obtain ⟨c, cs, rfl⟩ := List.exists_cons_of_ne_nil (hn t (by simp))
    simp [List.flatMap_append, List.getLast?_append, List.getLast?_cons]

/-- A node whose icon ends with a brace, with nothing written after the icon. -/
def BraceLast (n : Node Binary64) : Prop :=
  (∃ i ∈ n.icon, i.toList.getLast? = some '{') ∧ n.frame.values = [] ∧ filled? n.parent = none

/-- No coordinate ends with a brace. -/
theorem last_of_mem_writeFrame {f : Frame Binary64} {t : List Char} (h : t ∈ writeFrame f) :
    t.getLast? ≠ some '{' := by
  obtain ⟨key, -, v, rfl⟩ := mem_writeFrame h
  rw [List.append_cons, List.getLast?_append_of_ne_nil _ v.plain_ne_nil]
  intro hl
  exact (Binary64.apart_of_mem_plain (List.mem_of_getLast? hl)).2.2 rfl

theorem last_parent {p : String} (hp : isIdentifier p.toList = true) :
    ("parent=".toList ++ p.toList).getLast? ≠ some '{' := by
  rw [List.getLast?_append_of_ne_nil _ (ne_nil_of_isIdentifier hp)]
  intro hl
  exact not_mem_identifier hp rfl (List.mem_of_getLast? hl)

/-- An icon that is not written ends with nothing. -/
theorem last_icon_iff (icon : Option String) :
    ((filled? icon).map fun i => "icon=".toList ++ i.toList).toList.getLast?.bind List.getLast? =
        some '{' ↔ ∃ i ∈ icon, i.toList.getLast? = some '{' := by
  cases hi : filled? icon with
  | none =>
    simp only [Option.map_none, Option.toList_none, List.getLast?_nil, Option.bind_none,
      reduceCtorEq, false_iff]
    rintro ⟨i, hmem, hlast⟩
    have hne : i ≠ "" := by
      rintro rfl
      cases hlast
    rw [filled?_eq_some_iff.mpr ⟨hmem, hne⟩] at hi
    cases hi
  | some i =>
    obtain ⟨hsome, hne⟩ := filled?_eq_some_iff.mp hi
    have hnil : i.toList ≠ [] := by simpa using hne
    rw [Option.map_some, Option.toList_some, List.getLast?_singleton, Option.bind_some,
      List.getLast?_append_of_ne_nil _ hnil]
    simp [hsome]

/-- Only such a node has a brace at the end of its line. -/
theorem last_attributeTokens {item : Item Binary64} {icon : Option String}
    (hw : WritableItem item icon) :
    ((attributeTokens item icon).flatMap (' ' :: ·)).getLast? = some '{' ↔
      BraceLast { item with icon } := by
  rw [getLast?_flatMap fun t ht => (of_mem_attributeTokens hw ht).1, attributeTokens]
  -- the last attribute is the parent, or else a coordinate, or else the icon
  cases hp : filled? item.parent with
  | some p =>
    rw [Option.map_some, Option.toList_some, List.getLast?_concat, Option.bind_some]
    simp only [last_parent (hw.parent p hp), BraceLast, hp, reduceCtorEq, and_false]
  | none =>
    rw [Option.map_none, Option.toList_none, List.append_nil]
    rcases List.eq_nil_or_concat (writeFrame item.frame) with hnil | ⟨us, t, ht⟩
    · rw [hnil, List.append_nil, last_icon_iff]
      simp only [BraceLast, (writeFrame_eq_nil_iff item.frame).mp hnil, hp, and_true]
    · have hlast : t.getLast? ≠ some '{' := last_of_mem_writeFrame (f := item.frame) (by simp [ht])
      have hsome : ¬BraceLast { item with icon } := by
        rintro ⟨-, hvalues, -⟩
        rw [(writeFrame_eq_nil_iff item.frame).mpr hvalues] at ht
        simp at ht
      rw [ht, List.concat_eq_append, ← List.append_assoc, List.getLast?_concat, Option.bind_some]
      simp only [hlast, hsome]

/-- What is written after the label of an item. -/
def itemTail (item : Item Binary64) (icon : Option String) : List Char :=
  (attributeTokens item icon).flatMap (' ' :: ·)

theorem last_itemTail {item : Item Binary64} {icon : Option String} (hw : WritableItem item icon) :
    ∀ c ∈ (itemTail item icon).getLast?, isBlank c = false := by
  intro c hc
  rw [itemTail, getLast?_flatMap fun t ht => (of_mem_attributeTokens hw ht).1, Option.mem_def] at hc
  obtain ⟨t, ht, hct⟩ := Option.bind_eq_some_iff.mp hc
  exact ((of_mem_attributeTokens hw (List.mem_of_getLast? ht)).2 c (List.mem_of_getLast? hct)).1

theorem quote_not_mem_itemTail {item : Item Binary64} {icon : Option String}
    (hw : WritableItem item icon) : '"' ∉ itemTail item icon := by
  intro hc
  obtain ⟨t, ht, hct⟩ := List.mem_flatMap.mp hc
  rcases List.mem_cons.mp hct with h | h
  · cases h
  · exact ((of_mem_attributeTokens hw ht).2 _ h).2 rfl

/-- A written item seems to open a block only when a brace comes last. -/
theorem opensBlock_itemTail_iff {item : Item Binary64} {icon : Option String}
    (hw : WritableItem item icon) :
    opensBlock (itemTail item icon) = true ↔ BraceLast { item with icon } := by
  rw [opensBlock_iff, trimRight_of_last (last_itemTail hw), ← last_attributeTokens hw]
  constructor
  · rintro ⟨before, he, -⟩
    change (itemTail item icon).getLast? = _
    rw [he, List.getLast?_concat]
  · intro hlast
    obtain ⟨before, he⟩ := List.getLast?_eq_some_iff.mp hlast
    refine ⟨before, he, ?_⟩
    have hquote : '"' ∉ before := fun hc =>
      quote_not_mem_itemTail hw (by rw [itemTail, he]; simp [hc])
    rw [List.count_eq_zero.mpr hquote]

theorem splitOpening_itemTail {item : Item Binary64} {icon : Option String}
    (hw : WritableItem item icon) (hb : ¬BraceLast { item with icon }) :
    splitOpening (itemTail item icon) = (itemTail item icon, false) := by
  apply splitOpening_of_no_brace
  intro before he
  rw [← opensBlock_itemTail_iff hw, opensBlock_iff] at hb
  exact fun hq => hb ⟨before, he, hq⟩

theorem words_itemTail {item : Item Binary64} {icon : Option String} (hw : WritableItem item icon) :
    words (itemTail item icon) = attributeTokens item icon :=
  words_flatMap (fun _ ht => (of_mem_attributeTokens hw ht).1)
    fun _ ht c hc => ((of_mem_attributeTokens hw ht).2 c hc).1

/-- What is written after the keyword of an item. -/
def itemBody (item : Item Binary64) (icon : Option String) : List Char :=
  item.id.toList ++ ':' :: ([' '] ++ '"' :: (item.label.toList ++ '"' :: itemTail item icon))

theorem itemText_eq (keyword : String) (item : Item Binary64) (icon : Option String) :
    itemText keyword item icon = keyword.toList ++ ' ' :: itemBody item icon := by
  simp [itemText, itemBody, itemTail, quoted]

theorem trimmed_itemBody {item : Item Binary64} {icon : Option String}
    (hw : WritableItem item icon) : Trimmed (itemBody item icon) := by
  constructor
  · obtain ⟨c, cs, hid⟩ := List.exists_cons_of_ne_nil (ne_nil_of_isIdentifier hw.id)
    rw [itemBody, hid]
    rintro d ⟨⟩
    exact isBlank_of_mem_identifier hw.id c (by simp [hid])
  · have hlast : (itemBody item icon).getLast? = some ((itemTail item icon).getLast?.getD '"') := by
      rw [show itemBody item icon = (item.id.toList ++ ':' :: [' '] ++ '"' :: item.label.toList) ++
        '"' :: itemTail item icon by simp [itemBody], List.getLast?_append_cons, List.getLast?_cons]
    rw [hlast]
    rintro c ⟨⟩
    cases ht : (itemTail item icon).getLast? with
    | none => rfl
    | some c => exact last_itemTail hw c ht

theorem itemBody_ne_nil (item : Item Binary64) (icon : Option String) :
    itemBody item icon ≠ [] := by
  simp [itemBody]

theorem trimmed_itemText {keyword : String} (hk : IsKeyword keyword) {item : Item Binary64}
    {icon : Option String} (hw : WritableItem item icon) :
    Trimmed (itemText keyword item icon) := by
  rw [itemText_eq]
  exact trimmed_append hk.apart.1 (fun c hc => (hk.apart.2 c hc).1) (itemBody_ne_nil item icon)
    (trimmed_itemBody hw)

theorem newline_not_mem_itemText {keyword : String} (hk : IsKeyword keyword)
    {item : Item Binary64} {icon : Option String} (hw : WritableItem item icon) :
    '\n' ∉ itemText keyword item icon := by
  have htail : '\n' ∉ itemTail item icon := by
    intro hc
    obtain ⟨t, ht, hct⟩ := List.mem_flatMap.mp hc
    rcases List.mem_cons.mp hct with h | h
    · cases h
    · exact newline_not_mem (fun c hc => ((of_mem_attributeTokens hw ht).2 c hc).1) h
  have hkeyword := newline_not_mem fun c hc => (hk.apart.2 c hc).1
  have hid := newline_not_mem (isBlank_of_mem_identifier hw.id)
  simp [itemText_eq, itemBody, htail, hkeyword, hid, hw.label.2]

/-- A written item is a declaration. -/
theorem classify_itemText {keyword : String} (hk : IsKeyword keyword) (item : Item Binary64)
    (icon : Option String) : classify (itemText keyword item icon) = .declaration := by
  obtain ⟨hn, hword⟩ := hk.apart
  rw [itemText_eq, classify_append hn (fun c hc => (hword c hc).1) fun hs => (hword _ hs).2 rfl,
    if_pos]
  rcases hk with rfl | rfl <;> rfl

theorem kind_ofText_item {keyword : String} (hk : IsKeyword keyword) {item : Item Binary64}
    {icon : Option String} (hw : WritableItem item icon) (n : Int) :
    (Line.ofText n (itemText keyword item icon)).kind = .declaration := by
  rw [Line.kind_ofText, (trimmed_itemText hk hw).trim_eq, classify_itemText hk]

/-- Reading a declaration after its head: a brace on a node is refused, attributes are applied. -/
theorem toOption_read {l : Line} {word rest id label tail : List Char}
    (hword : splitWord? l.text = some (word, rest))
    (hhead : readHead (String.ofList word) (trim rest) = .ok (id, label, tail)) :
    (Declaration.read l).toOption =
      if opensBlock tail && !(String.ofList word == "container") then none
      else (Attributes.applyAll (String.ofList id) (String.ofList word == "container") {}
        (words (splitOpening tail).1)).toOption.map fun a =>
          { a with
            keyword := String.ofList word
            id := String.ofList id
            label := String.ofList label
            line := l.number
            opensBlock := opensBlock tail } := by
  have hopens : (splitOpening tail).2 = opensBlock tail := rfl
  unfold Declaration.read
  rw [hword]
  dsimp only
  rw [hhead]
  dsimp only
  rw [hopens]
  split
  · rfl
  · cases Attributes.applyAll (String.ofList id) (String.ofList word == "container") {}
      (words (splitOpening tail).1) <;> rfl

/-- The head of a written item is read back, and its tail decides the rest. -/
theorem declaration?_ofText_item {keyword : String} (hk : IsKeyword keyword)
    {item : Item Binary64} {icon : Option String} (hw : WritableItem item icon) (n : Int) :
    (Line.ofText n (itemText keyword item icon)).declaration? =
      if opensBlock (itemTail item icon) && !(keyword == "container") then none
      else (Attributes.applyAll item.id (keyword == "container") {}
        (words (splitOpening (itemTail item icon)).1)).toOption.map fun a =>
          { a with
            keyword := keyword
            id := item.id
            label := item.label
            line := n
            opensBlock := opensBlock (itemTail item icon) } := by
  obtain ⟨hn, hword⟩ := hk.apart
  have htext : (Line.ofText n (itemText keyword item icon)).text = itemText keyword item icon :=
    (trimmed_itemText hk hw).trim_eq
  have hbody := trimmed_itemBody hw
  have hsplit : splitWord? (Line.ofText n (itemText keyword item icon)).text =
      some (keyword.toList, itemBody item icon) := by
    rw [htext, itemText_eq, splitWord?_append hn fun c hc => (hword c hc).1,
      trimLeft_of_head hbody.head]
  -- the name runs up to the colon that is written after it
  have hcolon : ∀ c ∈ item.id.toList, isBeforeColon c = true := by
    intro c hc
    unfold isBeforeColon
    rw [Bool.and_eq_true, bne_iff_ne, bne_iff_ne]
    constructor
    · rintro rfl
      exact not_mem_identifier hw.id rfl hc
    · rintro rfl
      exact not_mem_identifier hw.id rfl hc
  have hread : readHead (String.ofList keyword.toList) (trim (itemBody item icon)) =
      .ok (item.id.toList, item.label.toList, itemTail item icon) := by
    rw [hbody.trim_eq]
    exact readHead_eq_ok_iff.mpr ⟨_, [' '], hcolon, forall_mem_of_all (by decide), hw.label.1,
      (trimmed_identifier hw.id).trim_eq, hw.id, rfl⟩
  rw [Line.declaration?, if_pos (kind_ofText_item hk hw n), toOption_read hsplit hread]
  simp only [String.ofList_toList]
  rfl

/-- What a written item is read as. -/
theorem declaration?_itemText {keyword : String} (hk : IsKeyword keyword) {item : Item Binary64}
    {icon : Option String} (hw : WritableItem item icon) (hc : keyword = "container" → icon = none)
    (hb : ¬BraceLast { item with icon }) (n : Int) :
    (Line.ofText n (itemText keyword item icon)).declaration? =
      item.frame.respelled?.map fun g =>
        { icon := filled? icon
          frame := g
          parent := filled? item.parent
          keyword := keyword
          id := item.id
          label := item.label
          line := n
          opensBlock := false } := by
  have hcontainer : (keyword == "container") = true → icon = none := fun h => hc (by simpa using h)
  have hopens : opensBlock (itemTail item icon) = false := by
    rw [← Bool.not_eq_true, opensBlock_itemTail_iff hw]
    exact hb
  rw [declaration?_ofText_item hk hw, splitOpening_itemTail hw hb, words_itemTail hw,
    applyAll_attributeTokens item.id hw hcontainer, hopens, Bool.false_and, if_neg (by simp)]
  cases item.frame.respelled? <;> rfl

/-- A node with a brace at the end of its line is not read. -/
theorem declaration?_of_braceLast {m : Node Binary64} (hw : WritableItem m.toItem m.icon)
    (hb : BraceLast m) (n : Int) :
    (Line.ofText n (itemText "node" m.toItem m.icon)).declaration? = none := by
  rw [declaration?_ofText_item (.inl rfl) hw, (opensBlock_itemTail_iff hw).mpr hb]
  rfl

end ArchDiagram.Source
