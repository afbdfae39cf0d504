import ArchDiagram.Proofs.ItemLine
import ArchDiagram.Proofs.LinkLine
import ArchDiagram.Proofs.WellFormed

/-!
How written statements are read. Every line of a written document holds its statement again, up to
the spelling of coordinates and empty icons and parents, unless the statement is one of the two
kinds that are mistaken for something else.
-/

namespace ArchDiagram

/-- References lead where they should: items have different identifiers, parents are containers and
do not form a cycle, and both ends of a link are items. -/
structure Document.Resolved {α : Type} (d : Document α) : Prop where
  distinct : (d.items.map (·.id)).Nodup
  parents : ∀ i ∈ d.items, ∀ p ∈ i.parent, p ∈ d.containerIds
  acyclic : Acyclic d.containers
  ends : ∀ l ∈ d.links, l.source ∈ d.items.map (·.id) ∧ l.target ∈ d.items.map (·.id)

/-- Containers and nodes are told apart by their identifiers. -/
theorem Document.Resolved.nodup_ids {α : Type} {d : Document α} (hd : d.Resolved) :
    (d.containerIds ++ d.nodes.map (·.id)).Nodup := by
  have hids := hd.distinct
  rwa [Document.items, List.map_append, List.map_map] at hids

theorem Document.Resolved.nodup_containerIds {α : Type} {d : Document α} (hd : d.Resolved) :
    d.containerIds.Nodup :=
  (List.nodup_append.mp hd.nodup_ids).1

theorem Document.toItem_mem_items {α : Type} {d : Document α} {n : Node α} (h : n ∈ d.nodes) :
    n.toItem ∈ d.items :=
  List.mem_append_right _ (List.mem_map_of_mem h)

/-- An item as its text is read. -/
def Item.reread (i : Item Binary64) : Item Binary64 :=
  { i with
    frame := i.frame.respelled?.getD {}
    parent := Source.filled? i.parent }

def Node.reread (n : Node Binary64) : Node Binary64 :=
  { n.toItem.reread with icon := Source.filled? n.icon }

/-- A document as its text is read, if it is. -/
def Document.reread (d : Document Binary64) : Document Binary64 :=
  { title := d.title
    nodes := d.nodes.map Node.reread
    containers := d.containers.map Item.reread
    links := d.links.mapIdx fun i l => { l with id := "l" ++ toString (i + 1) } }

namespace Source

open Text

theorem wellFormed_iff_of_declaration {l : Line} (hk : l.kind = .declaration) :
    l.WellFormed ↔ l.declaration? ≠ none := by
  unfold Line.WellFormed Line.declaration?
  rw [hk]
  cases Declaration.read l <;> simp [Except.toOption]

namespace Statement

/-- A statement whose line is taken for what it is. -/
def Readable : Statement → Prop
  | title _ => True
  | gap => True
  | container c => c.frame.respelled? ≠ none
  | node n => n.frame.respelled? ≠ none ∧ ¬BraceLast n
  | link l => ¬IsKeyword l.source

/-- The kind of line that a statement is written on. -/
def kind : Statement → LineKind
  | title _ => .title
  | gap => .blank
  | container _ => .declaration
  | node _ => .declaration
  | link _ => .link

/-- The declaration of an item, by its own line. -/
def declarationOf (keyword : String) (n : Node Binary64) (line : Int) : Declaration :=
  { icon := n.reread.icon
    frame := n.reread.frame
    parent := n.reread.parent
    keyword := keyword
    id := n.id
    label := n.label
    line := line }

def declaration? (line : Int) : Statement → Option Declaration
  | container c => some (declarationOf "container" { c with } line)
  | node n => some (declarationOf "node" n line)
  | _ => none

def link? (line : Int) : Statement → Option LinkStatement
  | link l =>
    some
      { source := l.source
        target := l.target
        line := line
        bidirectional := l.bidirectional
        label := l.label }
  | _ => none

theorem kind_ofText {s : Statement} (hw : s.Writable) (hr : s.Readable) (n : Int) :
    (Line.ofText n s.text).kind = s.kind := by
  cases s with
  | title t =>
    change (Line.ofText n (titleText t)).kind = .title
    rw [Line.kind_ofText, (trimmed_titleText t).trim_eq, classify_titleText hw]
  | gap => rfl
  | container c => exact kind_ofText_item (.inr rfl) hw n
  | node m => exact kind_ofText_item (.inl rfl) hw n
  | link l => exact (kind_ofText_link hw n).trans (if_neg hr)

theorem not_braceLast_container (c : Item Binary64) : ¬BraceLast { c with icon := none } := by
  rintro ⟨⟨i, hi, -⟩, -⟩
  cases hi

/-- The declaration on the line of a statement. -/
theorem declaration?_ofText {s : Statement} (hw : s.Writable) (hr : s.Readable) (n : Int) :
    (Line.ofText n s.text).declaration? = s.declaration? n := by
  cases s with
  | title t => simp [Line.declaration?, kind_ofText hw hr, kind, declaration?]
  | gap => simp [Line.declaration?, kind_ofText hw hr, kind, declaration?]
  | container c =>
    obtain ⟨g, hg⟩ := Option.ne_none_iff_exists'.mp hr
    change (Line.ofText n (itemText "container" c none)).declaration? = _
    rw [declaration?_itemText (.inr rfl) hw (fun _ => rfl) (not_braceLast_container c), hg]
    simp [declaration?, declarationOf, Node.reread, Item.reread, hg]
  | node m =>
    obtain ⟨g, hg⟩ := Option.ne_none_iff_exists'.mp hr.1
    change (Line.ofText n (itemText "node" m.toItem m.icon)).declaration? = _
    rw [declaration?_itemText (.inl rfl) hw (fun h => absurd h (by decide)) hr.2, hg]
    simp [declaration?, declarationOf, Node.reread, Item.reread, hg]
  | link l => exact declaration?_linkText hw n

theorem link?_ofText {s : Statement} (hw : s.Writable) (hr : s.Readable) (n : Int) :
    (Line.ofText n s.text).link? = s.link? n := by
  cases s with
  | title t => simp [Line.link?, kind_ofText hw hr, kind, link?]
  | gap => simp [Line.link?, kind_ofText hw hr, kind, link?]
  | container c => simp [Line.link?, kind_ofText hw hr, kind, link?]
  | node m => simp [Line.link?, kind_ofText hw hr, kind, link?]
  | link l => exact link?_linkText hw hr n

/-- A line is acceptable exactly when its statement is taken for what it is. -/
theorem wellFormed_ofText_iff {s : Statement} (hw : s.Writable) (n : Int) :
    (Line.ofText n s.text).WellFormed ↔ s.Readable := by
  cases s with
  | title t =>
    have hform : TitleForm ((Line.ofText n (titleText t)).text.drop 5) t.toList := by
      rw [Line.text_ofText, (trimmed_titleText t).trim_eq]
      exact form_titleText hw
    have hkind := kind_ofText (s := .title t) hw trivial n
    simp only [Line.WellFormed, hkind, kind, Readable, iff_true]
    exact ⟨_, hform⟩
  | gap => exact ⟨fun _ => trivial, fun _ => trivial⟩
  | container c =>
    change (Line.ofText n (itemText "container" c none)).WellFormed ↔ _
    rw [wellFormed_iff_of_declaration (kind_ofText_item (.inr rfl) hw n),
      declaration?_itemText (.inr rfl) hw (fun _ => rfl) (not_braceLast_container c)]
    simp [Readable]
  | node m =>
    change (Line.ofText n (itemText "node" m.toItem m.icon)).WellFormed ↔ _
    rw [wellFormed_iff_of_declaration (kind_ofText_item (.inl rfl) hw n)]
    -- with a brace at the end no declaration is read, whatever the coordinates are
    by_cases hb : BraceLast m
    · simp [declaration?_of_braceLast hw hb, Readable, hb]
    · rw [declaration?_itemText (.inl rfl) hw (fun h => absurd h (by decide)) hb]
      simp [Readable, hb]
  | link l =>
    change (Line.ofText n (linkText l)).WellFormed ↔ _
    have hkind := kind_ofText_link hw n
    by_cases hs : IsKeyword l.source
    · rw [if_pos hs] at hkind
      rw [wellFormed_iff_of_declaration hkind, declaration?_linkText hw]
      simp [Readable, hs]
    · rw [if_neg hs] at hkind
      have hread := read_linkText hw (Line.ofText n (linkText l)) (trimmed_linkText hw).trim_eq
      simp [Line.WellFormed, hkind, hread, Readable, hs]

/-- No line of a statement opens a block. -/
theorem opens_ofText {s : Statement} (hw : s.Writable) (hr : s.Readable) (n : Int) :
    (Line.ofText n s.text).opens = false := by
  have hnone {e : Declaration} (he : s.declaration? n = some e) (hopen : e.opensBlock = false) :
      (Line.ofText n s.text).opens = false := by
    rw [← declaration?_ofText hw hr n] at he
    obtain ⟨hk, hread⟩ := History.declaration?_eq_some_iff.mp he
    -- the line opens a block only when the declaration on it says so
    have hflag := Declaration.opensBlock_of_read (Line.classified_ofText n s.text) hk hread
    rw [Line.opens, ← hflag, hopen, Bool.and_false]
  cases s with
  | title t => simp [Line.opens, kind_ofText hw hr, kind]
  | gap => simp [Line.opens, kind_ofText hw hr, kind]
  | container c => exact hnone rfl rfl
  | node m => exact hnone rfl rfl
  | link l => simp [Line.opens, kind_ofText hw hr, kind]

theorem closes_ofText {s : Statement} (hw : s.Writable) (hr : s.Readable) (n : Int) :
    (Line.ofText n s.text).closes = false := by
  rw [Line.closes, kind_ofText hw hr]
  cases s <;> rfl

theorem newline_not_mem_text {s : Statement} (hw : s.Writable) : '\n' ∉ s.text := by
  cases s with
  | title t => exact newline_not_mem_titleText hw
  | gap => simp [text]
  | container c => exact newline_not_mem_itemText (.inr rfl) hw
  | node m => exact newline_not_mem_itemText (.inl rfl) hw
  | link l => exact newline_not_mem_linkText hw

end Statement

end Source

end ArchDiagram
