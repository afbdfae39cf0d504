import ArchDiagram.Proofs.Forms
import ArchDiagram.Source.Writer

/-!
What the writer writes. A document is written statement by statement, and each statement has one
text, unless a name, a label or an icon in it has no place in a source.
-/

namespace ArchDiagram.Source

open Text

/-- A text that can stand between quotes on one line. -/
def Quotable (s : String) : Prop :=
  '"' ∉ s.toList ∧ '\n' ∉ s.toList

/-- A single word without quotes. -/
def Bare (s : String) : Prop :=
  s ≠ "" ∧ ∀ c ∈ s.toList, isBlank c = false ∧ c ≠ '"'

/-- The keywords of declarations. -/
def IsKeyword (word : String) : Prop :=
  word = "node" ∨ word = "container"

instance (word : String) : Decidable (IsKeyword word) :=
  inferInstanceAs (Decidable (_ ∨ _))

theorem IsKeyword.apart {word : String} (h : IsKeyword word) :
    word.toList ≠ [] ∧ ∀ c ∈ word.toList, isBlank c = false ∧ c ≠ '/' := by
  rcases h with rfl | rfl <;> exact ⟨by decide, forall_mem_of_all (by decide)⟩

theorem writeIdentifier_eq_ok_iff {value : String} {cs : List Char} :
    writeIdentifier value = .ok cs ↔ isIdentifier value.toList = true ∧ cs = value.toList := by
  unfold writeIdentifier
  split
  · rename_i h
    simp [h, eq_comm]
  · rename_i h
    simp [h]

/-- A text between quotes. -/
def quoted (s : String) : List Char :=
  '"' :: (s.toList ++ ['"'])

theorem newline_not_mem {cs : List Char} (h : ∀ c ∈ cs, isBlank c = false) : '\n' ∉ cs :=
  fun hn => absurd (h _ hn) (by decide)

theorem newline_not_mem_quoted {s : String} (h : Quotable s) : '\n' ∉ quoted s := by
  simp [quoted, h.2]

theorem writeQuoted_eq_ok_iff {owner value : String} {cs : List Char} :
    writeQuoted owner value = .ok cs ↔ Quotable value ∧ cs = quoted value := by
  have hany : (value.toList.any fun c => c == '"' || c == '\n') = true ↔ ¬Quotable value := by
    simp only [List.any_eq_true, Bool.or_eq_true, beq_iff_eq, Quotable]
    constructor
    · rintro ⟨c, hc, rfl | rfl⟩ ⟨hq, hn⟩
      · exact hq hc
      · exact hn hc
    · intro h
      by_contra hnone
      exact h ⟨fun hq => hnone ⟨_, hq, .inl rfl⟩, fun hn => hnone ⟨_, hn, .inr rfl⟩⟩
  unfold writeQuoted
  split
  · rename_i h
    simp [hany.mp h]
  · rename_i h
    have hq : Quotable value := not_not.mp (mt hany.mpr h)
    simp [hq, quoted, eq_comm]

theorem writeBare_eq_ok_iff {owner value : String} {cs : List Char} :
    writeBare owner value = .ok cs ↔ Bare value ∧ cs = value.toList := by
  have hany : (value.isEmpty || value.toList.any fun c => isBlank c || c == '"') = true ↔
      ¬Bare value := by
    simp only [Bool.or_eq_true, String.isEmpty_iff, List.any_eq_true, beq_iff_eq, Bare, ne_eq,
      not_and_or, not_not, not_forall, Bool.not_eq_false, exists_prop]
  unfold writeBare
  split
  · rename_i h
    simp [hany.mp h]
  · rename_i h
    have hb : Bare value := not_not.mp (mt hany.mpr h)
    simp [hb, eq_comm]

/-- The attributes of an item, each a word. -/
def attributeTokens (item : Item Binary64) (icon : Option String) : List (List Char) :=
  ((filled? icon).map fun i => "icon=".toList ++ i.toList).toList ++ writeFrame item.frame ++
    ((filled? item.parent).map fun p => "parent=".toList ++ p.toList).toList

def itemText (keyword : String) (item : Item Binary64) (icon : Option String) : List Char :=
  keyword.toList ++ ' ' :: (item.id.toList ++ ':' :: ' ' ::
    (quoted item.label ++ (attributeTokens item icon).flatMap (' ' :: ·)))

/-- The parts of an item that the writer checks. -/
structure WritableItem (item : Item Binary64) (icon : Option String) : Prop where
  id : isIdentifier item.id.toList = true
  label : Quotable item.label
  icon : ∀ i ∈ filled? icon, Bare i
  parent : ∀ p ∈ filled? item.parent, isIdentifier p.toList = true

theorem map_eq_ok_iff {ε α β : Type} {x : Except ε α} {f : α → β} {b : β} :
    x.map f = .ok b ↔ ∃ a, x = .ok a ∧ f a = b := by
  cases x <;> simp [Except.map]

/-- An optional attribute, which is left out or written after its key. -/
def writeOptional (key : String) (w : String → Except Unwritable (List Char)) (o : Option String) :
    Except Unwritable (List (List Char)) :=
  match o with
  | some s => (w s).map fun cs => [key.toList ++ cs]
  | none => .ok []

theorem writeOptional_eq_ok_iff {key : String} {w : String → Except Unwritable (List Char)}
    {P : String → Prop} (hw : ∀ s cs, w s = .ok cs ↔ P s ∧ cs = s.toList) {o : Option String}
    {ts : List (List Char)} :
    writeOptional key w o = .ok ts ↔
      (∀ s ∈ o, P s) ∧ ts = (o.map fun s => key.toList ++ s.toList).toList := by
  cases o with
  | none => simp [writeOptional, eq_comm]
  | some s =>
    simp only [writeOptional, map_eq_ok_iff, hw, Option.mem_def, Option.some.injEq, forall_eq',
      Option.map_some, Option.toList_some]
    constructor
    · rintro ⟨_, ⟨hp, rfl⟩, rfl⟩
      exact ⟨hp, rfl⟩
    · rintro ⟨hp, rfl⟩
      exact ⟨_, ⟨hp, rfl⟩, rfl⟩

theorem writeItem_eq (keyword : String) (item : Item Binary64) (icon : Option String) :
    writeItem keyword item icon = do
      let id ← writeIdentifier item.id
      let label ← writeQuoted item.id item.label
      let icon ← writeOptional "icon=" (writeBare item.id) (filled? icon)
      let parent ← writeOptional "parent=" writeIdentifier (filled? item.parent)
      return joinWith [' '] ((keyword.toList ++ ' ' :: id ++ ": ".toList ++ label) ::
        (icon ++ writeFrame item.frame ++ parent)) := by
  unfold writeItem
  cases filled? icon <;> cases filled? item.parent <;> rfl

/-- Part by part, in the order of the checks. -/
theorem writeItem_eq_ok_iff {keyword : String} {item : Item Binary64} {icon : Option String}
    {cs : List Char} :
    writeItem keyword item icon = .ok cs ↔
      WritableItem item icon ∧ cs = itemText keyword item icon := by
  -- attributes are joined with single spaces, so each has a space in front
  have hjoin : joinWith [' '] ((keyword.toList ++ ' ' :: item.id.toList ++ ": ".toList ++
      quoted item.label) :: attributeTokens item icon) = itemText keyword item icon := by
    rw [joinWith_cons]
    simp [itemText]
  rw [writeItem_eq]
  constructor
  · intro h
    obtain ⟨_, h₁, h⟩ := bind_eq_ok_iff.mp h
    obtain ⟨_, h₂, h⟩ := bind_eq_ok_iff.mp h
    obtain ⟨_, h₃, h⟩ := bind_eq_ok_iff.mp h
    obtain ⟨_, h₄, h⟩ := bind_eq_ok_iff.mp h
    obtain ⟨hid, rfl⟩ := writeIdentifier_eq_ok_iff.mp h₁
    obtain ⟨hlabel, rfl⟩ := writeQuoted_eq_ok_iff.mp h₂
    obtain ⟨hicon, rfl⟩ := (writeOptional_eq_ok_iff fun _ _ => writeBare_eq_ok_iff).mp h₃
    obtain ⟨hparent, rfl⟩ := (writeOptional_eq_ok_iff fun _ _ => writeIdentifier_eq_ok_iff).mp h₄
    exact ⟨⟨hid, hlabel, hicon, hparent⟩, (Except.ok.inj h).symm.trans hjoin⟩
  · rintro ⟨⟨hid, hlabel, hicon, hparent⟩, rfl⟩
    rw [writeIdentifier_eq_ok_iff.mpr ⟨hid, rfl⟩, writeQuoted_eq_ok_iff.mpr ⟨hlabel, rfl⟩,
      (writeOptional_eq_ok_iff fun _ _ => writeBare_eq_ok_iff).mpr ⟨hicon, rfl⟩,
      (writeOptional_eq_ok_iff fun _ _ => writeIdentifier_eq_ok_iff).mpr ⟨hparent, rfl⟩, ← hjoin]
    rfl

/-- The arrow of a link. -/
def arrowOf (l : Link) : Arrow :=
  if l.bidirectional then .twoWay else .oneWay

/-- What follows the ends of a link. -/
def labelText : Option String → List Char
  | none => []
  | some label => ':' :: ' ' :: quoted label

def linkText (l : Link) : List Char :=
  l.source.toList ++ ' ' :: ((arrowOf l).chars ++ ' ' :: (l.target.toList ++ labelText l.label))

/-- The parts of a link that the writer checks. -/
structure WritableLink (l : Link) : Prop where
  source : isIdentifier l.source.toList = true
  target : isIdentifier l.target.toList = true
  label : ∀ label ∈ l.label, Quotable label

/-- An optional label after the ends of a link. -/
def writeLabel (owner : String) (o : Option String) : Except Unwritable (List Char) :=
  match o with
  | some label => (writeQuoted owner label).map fun cs => ": ".toList ++ cs
  | none => .ok []

theorem writeLabel_eq_ok_iff {owner : String} {o : Option String} {cs : List Char} :
    writeLabel owner o = .ok cs ↔ (∀ label ∈ o, Quotable label) ∧ cs = labelText o := by
  cases o with
  | none => simp [writeLabel, labelText, eq_comm]
  | some label =>
    simp only [writeLabel, map_eq_ok_iff, writeQuoted_eq_ok_iff, Option.mem_def, Option.some.injEq,
      forall_eq', labelText]
    constructor
    · rintro ⟨_, ⟨hq, rfl⟩, rfl⟩
      exact ⟨hq, rfl⟩
    · rintro ⟨hq, rfl⟩
      exact ⟨_, ⟨hq, rfl⟩, rfl⟩

theorem writeLink_eq (l : Link) :
    writeLink l = do
      let source ← writeIdentifier l.source
      let target ← writeIdentifier l.target
      let label ← writeLabel l.id l.label
      return source ++ ' ' :: (arrowOf l).chars ++ ' ' :: target ++ label := by
  unfold writeLink
  cases l.label <;> rfl

theorem writeLink_eq_ok_iff {l : Link} {cs : List Char} :
    writeLink l = .ok cs ↔ WritableLink l ∧ cs = linkText l := by
  have hjoin : l.source.toList ++ ' ' :: (arrowOf l).chars ++ ' ' :: l.target.toList ++
      labelText l.label = linkText l := by
    simp [linkText]
  rw [writeLink_eq]
  constructor
  · intro h
    obtain ⟨_, h₁, h⟩ := bind_eq_ok_iff.mp h
    obtain ⟨_, h₂, h⟩ := bind_eq_ok_iff.mp h
    obtain ⟨_, h₃, h⟩ := bind_eq_ok_iff.mp h
    obtain ⟨hsource, rfl⟩ := writeIdentifier_eq_ok_iff.mp h₁
    obtain ⟨htarget, rfl⟩ := writeIdentifier_eq_ok_iff.mp h₂
    obtain ⟨hlabel, rfl⟩ := writeLabel_eq_ok_iff.mp h₃
    exact ⟨⟨hsource, htarget, hlabel⟩, (Except.ok.inj h).symm.trans hjoin⟩
  · rintro ⟨⟨hsource, htarget, hlabel⟩, rfl⟩
    rw [writeIdentifier_eq_ok_iff.mpr ⟨hsource, rfl⟩, writeIdentifier_eq_ok_iff.mpr ⟨htarget, rfl⟩,
      writeLabel_eq_ok_iff.mpr ⟨hlabel, rfl⟩, ← hjoin]
    rfl

def titleText (t : String) : List Char :=
  "title".toList ++ ' ' :: quoted t

/-- What a written line holds. -/
inductive Statement where
  | title (text : String)
  | gap
  | container (c : Item Binary64)
  | node (n : Node Binary64)
  | link (l : Link)

namespace Statement

def text : Statement → List Char
  | title t => titleText t
  | gap => []
  | container c => itemText "container" c none
  | node n => itemText "node" n.toItem n.icon
  | link l => linkText l

/-- A statement that the writer does not refuse. -/
def Writable : Statement → Prop
  | title t => Quotable t
  | gap => True
  | container c => WritableItem c none
  | node n => WritableItem n.toItem n.icon
  | link l => WritableLink l

end Statement

/-- A title is written unless it is the default one. -/
def titleStatements (defaultTitle : String) (d : Document Binary64) : List Statement :=
  if d.title = defaultTitle then [] else [.title d.title, .gap]

/-- Links are set apart from items. -/
def gapStatements (d : Document Binary64) : List Statement :=
  if d.links.isEmpty || (d.containers.isEmpty && d.nodes.isEmpty) then [] else [.gap]

/-- The statements of a document. -/
def statements (defaultTitle : String) (d : Document Binary64) : List Statement :=
  titleStatements defaultTitle d ++ d.containers.map .container ++ d.nodes.map .node ++
    gapStatements d ++ d.links.map .link

/-- A property of all statements, part by part. -/
theorem forall_statements {P : Statement → Prop} (hg : P .gap) (defaultTitle : String)
    (d : Document Binary64) :
    (∀ s ∈ statements defaultTitle d, P s) ↔
      (d.title = defaultTitle ∨ P (.title d.title)) ∧ (∀ c ∈ d.containers, P (.container c)) ∧
        (∀ n ∈ d.nodes, P (.node n)) ∧ ∀ l ∈ d.links, P (.link l) := by
  have htitle : (∀ s ∈ titleStatements defaultTitle d, P s) ↔
      d.title = defaultTitle ∨ P (.title d.title) := by
    unfold titleStatements
    split
    · rename_i h
      simp [h]
    · rename_i h
      simp [h, hg]
  have hgaps : ∀ s ∈ gapStatements d, P s := by
    unfold gapStatements
    split <;> simp [hg]
  simp only [statements, List.forall_mem_append, List.forall_mem_map, htitle]
  tauto

theorem mapM_eq_ok_iff {ε α β : Type} {f : α → Except ε β} {P : α → Prop} {g : α → β}
    (hf : ∀ a b, f a = .ok b ↔ P a ∧ b = g a) {as : List α} {bs : List β} :
    as.mapM f = .ok bs ↔ (∀ a ∈ as, P a) ∧ bs = as.map g := by
  induction as generalizing bs with
  | nil => simp [pure, Except.pure, eq_comm]
  | cons a as ih =>
    rw [List.mapM_cons, bind_eq_ok_iff, List.forall_mem_cons]
    constructor
    · rintro ⟨b, hb, h⟩
      obtain ⟨bs', hbs, h⟩ := bind_eq_ok_iff.mp h
      obtain ⟨hp, rfl⟩ := (hf a b).mp hb
      obtain ⟨hps, rfl⟩ := ih.mp hbs
      exact ⟨⟨hp, hps⟩, (Except.ok.inj h).symm⟩
    · rintro ⟨⟨hp, hps⟩, rfl⟩
      refine ⟨g a, (hf a _).mpr ⟨hp, rfl⟩, bind_eq_ok_iff.mpr ⟨as.map g, ih.mpr ⟨hps, rfl⟩, rfl⟩⟩

def writeTitle (defaultTitle : String) (d : Document Binary64) :
    Except Unwritable (List (List Char)) :=
  if d.title = defaultTitle then .ok []
  else (writeQuoted "title" d.title).map fun cs => ["title ".toList ++ cs, []]

theorem writeTitle_eq_ok_iff {defaultTitle : String} {d : Document Binary64}
    {ls : List (List Char)} :
    writeTitle defaultTitle d = .ok ls ↔
      (d.title = defaultTitle ∨ Quotable d.title) ∧
        ls = (titleStatements defaultTitle d).map Statement.text := by
  unfold writeTitle titleStatements
  split
  · rename_i h
    simp [h, eq_comm]
  · rename_i h
    simp only [map_eq_ok_iff, writeQuoted_eq_ok_iff, h, false_or, List.map_cons, List.map_nil,
      Statement.text]
    constructor
    · rintro ⟨_, ⟨hq, rfl⟩, rfl⟩
      exact ⟨hq, rfl⟩
    · rintro ⟨hq, rfl⟩
      exact ⟨_, ⟨hq, rfl⟩, rfl⟩

theorem writeLines_eq (defaultTitle : String) (d : Document Binary64) :
    writeLines defaultTitle d = do
      let title ← writeTitle defaultTitle d
      let containers ← d.containers.mapM fun c => writeItem "container" c none
      let nodes ← d.nodes.mapM fun n => writeItem "node" n.toItem n.icon
      let links ← d.links.mapM writeLink
      return title ++ containers ++ nodes ++
        (if links.isEmpty || (containers.isEmpty && nodes.isEmpty) then [] else [[]]) ++ links := by
  unfold writeLines writeTitle
  split <;> rfl

/-- All lines are written exactly when each statement can be. -/
theorem writeLines_eq_ok_iff {defaultTitle : String} {d : Document Binary64}
    {ls : List (List Char)} :
    writeLines defaultTitle d = .ok ls ↔
      (∀ s ∈ statements defaultTitle d, s.Writable) ∧
        ls = (statements defaultTitle d).map Statement.text := by
  -- the gap is decided on written lines, and there are as many as statements
  have hgap : (if (d.links.map linkText).isEmpty ||
      ((d.containers.map fun c => itemText "container" c none).isEmpty &&
        (d.nodes.map fun n => itemText "node" n.toItem n.icon).isEmpty) then [] else [[]]) =
      (gapStatements d).map Statement.text := by
    unfold gapStatements
    simp only [List.isEmpty_map]
    split <;> rfl
  have hmap : (statements defaultTitle d).map Statement.text =
      (titleStatements defaultTitle d).map Statement.text ++
        d.containers.map (fun c => itemText "container" c none) ++
        d.nodes.map (fun n => itemText "node" n.toItem n.icon) ++
        (gapStatements d).map Statement.text ++ d.links.map linkText := by
    simp [statements, Statement.text, Function.comp_def]
  rw [writeLines_eq, hmap, ← hgap, forall_statements (P := Statement.Writable) trivial]
  constructor
  · intro h
    obtain ⟨_, h₁, h⟩ := bind_eq_ok_iff.mp h
    obtain ⟨_, h₂, h⟩ := bind_eq_ok_iff.mp h
    obtain ⟨_, h₃, h⟩ := bind_eq_ok_iff.mp h
    obtain ⟨_, h₄, h⟩ := bind_eq_ok_iff.mp h
    obtain ⟨htitle, rfl⟩ := writeTitle_eq_ok_iff.mp h₁
    obtain ⟨hcontainers, rfl⟩ := (mapM_eq_ok_iff fun _ _ => writeItem_eq_ok_iff).mp h₂
    obtain ⟨hnodes, rfl⟩ := (mapM_eq_ok_iff fun _ _ => writeItem_eq_ok_iff).mp h₃
    obtain ⟨hlinks, rfl⟩ := (mapM_eq_ok_iff fun _ _ => writeLink_eq_ok_iff).mp h₄
    exact ⟨⟨htitle, hcontainers, hnodes, hlinks⟩, (Except.ok.inj h).symm⟩
  · rintro ⟨⟨htitle, hcontainers, hnodes, hlinks⟩, rfl⟩
    rw [writeTitle_eq_ok_iff.mpr ⟨htitle, rfl⟩,
      (mapM_eq_ok_iff fun _ _ => writeItem_eq_ok_iff).mpr ⟨hcontainers, rfl⟩,
      (mapM_eq_ok_iff fun _ _ => writeItem_eq_ok_iff).mpr ⟨hnodes, rfl⟩,
      (mapM_eq_ok_iff fun _ _ => writeLink_eq_ok_iff).mpr ⟨hlinks, rfl⟩]
    rfl

/-- A document is written exactly when each of its statements can be, one line for each. -/
theorem write_eq_ok_iff {defaultTitle : String} {d : Document Binary64} {source : String} :
    write defaultTitle d = .ok source ↔
      (∀ s ∈ statements defaultTitle d, s.Writable) ∧
        source = String.ofList
          (((statements defaultTitle d).map Statement.text).flatMap (· ++ ['\n'])) := by
  unfold write
  rw [map_eq_ok_iff]
  constructor
  · rintro ⟨ls, hls, rfl⟩
    obtain ⟨hw, rfl⟩ := writeLines_eq_ok_iff.mp hls
    exact ⟨hw, rfl⟩
  · rintro ⟨hw, rfl⟩
    exact ⟨_, writeLines_eq_ok_iff.mpr ⟨hw, rfl⟩, rfl⟩

end ArchDiagram.Source
