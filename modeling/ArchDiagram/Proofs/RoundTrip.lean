import ArchDiagram.Proofs.WrittenText

/-!
Documents that writing and reading leave as they are. Such a document is one that the writer does
not refuse, whose lines are not mistaken for something else, whose references lead where they
should, and in which nothing is lost: no coordinate is changed by its spelling, no icon or parent is
empty, and links are numbered in order.
-/

namespace ArchDiagram

theorem Frame.beq_iff {f g : Frame Binary64} :
    (f == g) = true ↔ (f.x == g.x) = true ∧ (f.y == g.y) = true ∧
      (f.width == g.width) = true ∧ (f.height == g.height) = true := by
  cases f
  cases g
  change (_ && (_ && (_ && _))) = true ↔ _
  simp only [Bool.and_eq_true]

theorem Item.beq_iff {a b : Item Binary64} :
    (a == b) = true ↔
      a.id = b.id ∧ a.label = b.label ∧ (a.frame == b.frame) = true ∧ a.parent = b.parent := by
  cases a
  cases b
  change (_ && (_ && (_ && _))) = true ↔ _
  simp only [Bool.and_eq_true, beq_iff_eq]

theorem Node.beq_iff {a b : Node Binary64} :
    (a == b) = true ↔ (a.toItem == b.toItem) = true ∧ a.icon = b.icon := by
  cases a
  cases b
  change (_ && _) = true ↔ _
  simp only [Bool.and_eq_true, beq_iff_eq]

instance : LawfulBEq Link where
  rfl {a} := by
    cases a
    change (_ && (_ && (_ && (_ && _)))) = true
    simp
  eq_of_beq {a b} h := by
    cases a
    cases b
    change (_ && (_ && (_ && (_ && _)))) = true at h
    simpa only [Bool.and_eq_true, beq_iff_eq, Link.mk.injEq] using h

theorem Document.beq_iff {a b : Document Binary64} :
    (a == b) = true ↔ a.title = b.title ∧ (a.nodes == b.nodes) = true ∧
      (a.containers == b.containers) = true ∧ a.links = b.links := by
  cases a
  cases b
  change (_ && (_ && (_ && _))) = true ↔ _
  simp only [Bool.and_eq_true, beq_iff_eq]

theorem map_beq_iff {α : Type} [BEq α] (f : α → α) (as : List α) :
    (as.map f == as) = true ↔ ∀ a ∈ as, (f a == a) = true := by
  induction as with
  | nil => simp
  | cons a as ih =>
    rw [List.map_cons, List.cons_beq_cons, Bool.and_eq_true, ih, List.forall_mem_cons]

/-- A finite number whose spelling is a coordinate and denotes the number. -/
structure Binary64.Spelled (v : Binary64) : Prop where
  finite : v.isFinite = true
  numeral : Numeral.isNumeral v.plain = true
  read : ∃ w, Numeral.real? v.plain = some w ∧ (w == v) = true

theorem Binary64.spelled_iff (v : Binary64) :
    v.Spelled ↔ ∃ w, v.respelled? = some w ∧ (w == v) = true := by
  unfold respelled?
  constructor
  · rintro ⟨hfinite, hnumeral, w, hw, he⟩
    refine ⟨w, ?_, he⟩
    rw [if_pos hnumeral, hw, Option.filter_some, if_pos ((isFinite_eq_of_beq he).trans hfinite)]
  · rintro ⟨w, hw, he⟩
    split at hw
    · rename_i hnumeral
      obtain ⟨hreal, hfinite⟩ := Option.filter_eq_some_iff.mp hw
      exact ⟨(isFinite_eq_of_beq he).symm.trans hfinite, hnumeral, w, hreal, he⟩
    · cases hw

/-- A part of a frame is read back when it is absent or its number is. -/
theorem mapM_respelled?_iff (o : Option Binary64) :
    (∃ p, o.mapM Binary64.respelled? = some p ∧ (p == o) = true) ↔ ∀ v ∈ o.toList, v.Spelled := by
  cases o with
  | none => simp
  | some v =>
    simp only [Option.toList_some, List.mem_singleton, forall_eq, Binary64.spelled_iff,
      Option.mapM_some]
    constructor
    · rintro ⟨p, hp, he⟩
      obtain ⟨w, hw, rfl⟩ := Option.map_eq_some_iff.mp hp
      exact ⟨w, hw, he⟩
    · rintro ⟨w, hw, he⟩
      exact ⟨some w, by rw [hw]; rfl, he⟩

/-- A frame is read back when all its coordinates are. -/
theorem Frame.respelled?_iff (f : Frame Binary64) :
    (∃ g, f.respelled? = some g ∧ (g == f) = true) ↔ ∀ v ∈ f.values, v.Spelled := by
  simp only [Frame.values, List.forall_mem_append, ← mapM_respelled?_iff, Frame.respelled?,
    Option.bind_eq_bind, Option.bind_eq_some_iff, Frame.beq_iff]
  constructor
  · rintro ⟨g, ⟨x, hx, y, hy, w, hw, h, hh, ⟨⟩⟩, hex, hey, hew, heh⟩
    exact ⟨⟨⟨⟨x, hx, hex⟩, ⟨y, hy, hey⟩⟩, ⟨w, hw, hew⟩⟩, ⟨h, hh, heh⟩⟩
  · rintro ⟨⟨⟨⟨x, hx, hex⟩, ⟨y, hy, hey⟩⟩, ⟨w, hw, hew⟩⟩, ⟨h, hh, heh⟩⟩
    exact ⟨⟨x, y, w, h⟩, ⟨x, hx, y, hy, w, hw, h, hh, rfl⟩, hex, hey, hew, heh⟩

namespace Document

theorem forall_items {α : Type} {P : Item α → Prop} (d : Document α) :
    (∀ i ∈ d.items, P i) ↔ (∀ c ∈ d.containers, P c) ∧ ∀ n ∈ d.nodes, P n.toItem := by
  rw [items, List.forall_mem_append, List.forall_mem_map]

theorem items_reread (d : Document Binary64) : d.reread.items = d.items.map Item.reread := by
  simp [items, reread, Node.reread]

theorem containerIds_reread (d : Document Binary64) : d.reread.containerIds = d.containerIds := by
  simp [containerIds, reread, Item.reread]

theorem parentOf_reread {d : Document Binary64}
    (hp : ∀ i ∈ d.items, Source.filled? i.parent = i.parent) :
    ParentOf d.reread.containers = ParentOf d.containers := by
  have hparent (c : Item Binary64) (hc : c ∈ d.containers) : c.reread.parent = c.parent :=
    hp c (List.mem_append_left _ hc)
  funext a b
  apply propext
  constructor
  · rintro ⟨_, hmem, rfl, hb⟩
    obtain ⟨c, hc, rfl⟩ := List.mem_map.mp hmem
    exact ⟨c, hc, rfl, (hparent c hc).symm.trans hb⟩
  · rintro ⟨c, hc, rfl, hb⟩
    exact ⟨c.reread, List.mem_map_of_mem hc, rfl, (hparent c hc).trans hb⟩

/-- Reading again changes no reference when no parent is empty. -/
theorem resolved_reread_iff {d : Document Binary64}
    (hp : ∀ i ∈ d.items, Source.filled? i.parent = i.parent) :
    d.reread.Resolved ↔ d.Resolved := by
  have hids : d.reread.items.map (·.id) = d.items.map (·.id) := by
    rw [items_reread, List.map_map]
    rfl
  have hparents : (∀ i ∈ d.reread.items, ∀ p ∈ i.parent, p ∈ d.reread.containerIds) ↔
      ∀ i ∈ d.items, ∀ p ∈ i.parent, p ∈ d.containerIds := by
    rw [items_reread, containerIds_reread, List.forall_mem_map]
    refine forall₂_congr fun i hi => ?_
    rw [show i.reread.parent = i.parent from hp i hi]
  have hacyclic : Acyclic d.reread.containers ↔ Acyclic d.containers := by
    unfold Acyclic
    rw [parentOf_reread hp]
    exact List.forall_mem_map
  -- numbering leaves the ends of links alone
  have hends : (∀ l ∈ d.reread.links,
      l.source ∈ d.items.map (·.id) ∧ l.target ∈ d.items.map (·.id)) ↔
      ∀ l ∈ d.links, l.source ∈ d.items.map (·.id) ∧ l.target ∈ d.items.map (·.id) := by
    constructor
    · intro h l hl
      obtain ⟨i, hi, rfl⟩ := List.mem_iff_getElem.mp hl
      exact h { d.links[i] with id := "l" ++ toString (i + 1) } (List.mem_mapIdx.mpr ⟨i, hi, rfl⟩)
    · intro h l hl
      obtain ⟨i, hi, rfl⟩ := List.mem_mapIdx.mp hl
      exact h d.links[i] (List.getElem_mem hi)
  constructor
  · rintro ⟨h₁, h₂, h₃, h₄⟩
    rw [hids] at h₁ h₄
    exact ⟨h₁, hparents.mp h₂, hacyclic.mp h₃, hends.mp h₄⟩
  · rintro ⟨h₁, h₂, h₃, h₄⟩
    rw [← hends, ← hids] at h₄
    exact ⟨hids ▸ h₁, hparents.mpr h₂, hacyclic.mpr h₃, h₄⟩

/-- Nothing is lost when a document is read again: coordinates are those of the document, no icon
or parent is empty, and links are numbered in order. -/
theorem reread_beq_iff (d : Document Binary64) :
    (d.reread == d) = true ↔
      (∀ i ∈ d.items, (i.frame.respelled?.getD {} == i.frame) = true ∧
        Source.filled? i.parent = i.parent) ∧
      (∀ n ∈ d.nodes, Source.filled? n.icon = n.icon) ∧
      ∀ i (h : i < d.links.length), d.links[i].id = "l" ++ toString (i + 1) := by
  have hlinks : d.reread.links = d.links ↔
      ∀ i (h : i < d.links.length), d.links[i].id = "l" ++ toString (i + 1) := by
    constructor
    · intro he i h
      have hi := congrArg (fun ls : List Link => ls[i]?.map (·.id)) he
      simpa [reread, h, eq_comm] using hi
    · intro hid
      apply List.ext_getElem
      · simp [reread]
      · intro i h₁ h₂
        have hget : d.reread.links[i] = { d.links[i] with id := "l" ++ toString (i + 1) } := by
          simp [reread]
        rw [hget, ← hid i h₂]
  have hitem (i : Item Binary64) : (i.reread == i) = true ↔
      (i.frame.respelled?.getD {} == i.frame) = true ∧ Source.filled? i.parent = i.parent := by
    simp [Item.beq_iff, Item.reread]
  have hnode (n : Node Binary64) : (n.reread == n) = true ↔
      (n.toItem.reread == n.toItem) = true ∧ Source.filled? n.icon = n.icon := by
    simp [Node.beq_iff, Node.reread]
  rw [Document.beq_iff, hlinks]
  change d.title = d.title ∧ (d.nodes.map Node.reread == d.nodes) = true ∧
    (d.containers.map Item.reread == d.containers) = true ∧ _ ↔ _
  rw [map_beq_iff, map_beq_iff]
  simp only [hnode, hitem, items, List.forall_mem_append, List.forall_mem_map, forall_and,
    true_and]
  tauto

end Document

namespace Source

open Text

/-- Writing a document and reading the text gives an equal document exactly when it can be written,
is taken for what it is, leads where it should and loses nothing. -/
theorem reads_back_iff (defaultTitle : String) (d : Document Binary64) :
    (∃ source e, write defaultTitle d = .ok source ∧ parse defaultTitle source = .success e ∧
      (e == d) = true) ↔
      (∀ s ∈ statements defaultTitle d, s.Writable) ∧
        (∀ s ∈ statements defaultTitle d, s.Readable) ∧ d.reread.Resolved ∧
          (d.reread == d) = true := by
  constructor
  · rintro ⟨source, e, hwrite, hparse, he⟩
    obtain ⟨hr, hresolved, rfl⟩ := (parse_write_iff hwrite).mp hparse
    exact ⟨(write_eq_ok_iff.mp hwrite).1, hr, hresolved, he⟩
  · rintro ⟨hw, hr, hresolved, he⟩
    have hwrite := write_eq_ok_iff.mpr ⟨hw, rfl⟩
    exact ⟨_, d.reread, hwrite, (parse_write_iff hwrite).mpr ⟨hr, hresolved, rfl⟩, he⟩

/-- The statements of a document are taken for what they are when its coordinates are read, no link
starts with a keyword and no node ends with a brace. -/
theorem readable_iff (defaultTitle : String) (d : Document Binary64) :
    (∀ s ∈ statements defaultTitle d, s.Readable) ↔
      (∀ i ∈ d.items, i.frame.respelled? ≠ none) ∧ (∀ l ∈ d.links, ¬IsKeyword l.source) ∧
        ∀ n ∈ d.nodes, ¬BraceLast n := by
  rw [forall_statements (P := Statement.Readable) trivial, d.forall_items]
  simp only [Statement.Readable, forall_and]
  tauto

/-- A document whose names and texts have a place in a source, and whose references lead to names
of its own. -/
structure Plain (defaultTitle : String) (d : Document Binary64) : Prop where
  ids : ∀ i ∈ d.items, isIdentifier i.id.toList = true
  title : d.title = defaultTitle ∨ Quotable d.title
  labels : ∀ i ∈ d.items, Quotable i.label
  link_labels : ∀ l ∈ d.links, ∀ label ∈ l.label, Quotable label
  icons : ∀ n ∈ d.nodes, ∀ i ∈ n.icon, Bare i
  parents : ∀ i ∈ d.items, ∀ p ∈ i.parent, p ∈ d.containerIds
  ends : ∀ l ∈ d.links, l.source ∈ d.items.map (·.id) ∧ l.target ∈ d.items.map (·.id)

namespace Plain

variable {defaultTitle : String} {d : Document Binary64}

theorem isIdentifier_of_mem (h : Plain defaultTitle d) {a : String}
    (ha : a ∈ d.items.map (·.id)) : isIdentifier a.toList = true := by
  obtain ⟨i, hi, rfl⟩ := List.mem_map.mp ha
  exact h.ids i hi

theorem isIdentifier_parent (h : Plain defaultTitle d) {i : Item Binary64}
    (hi : i ∈ d.items) {p : String} (hp : p ∈ i.parent) : isIdentifier p.toList = true := by
  obtain ⟨c, hc, rfl⟩ := List.mem_map.mp (h.parents i hi p hp)
  exact h.ids c (List.mem_append_left _ hc)

/-- The writer refuses nothing in a plain document. -/
theorem writable (h : Plain defaultTitle d) : ∀ s ∈ statements defaultTitle d, s.Writable := by
  have hitem {i : Item Binary64} (hi : i ∈ d.items) {icon : Option String}
      (hicon : ∀ s ∈ icon, Bare s) : WritableItem i icon := by
    refine ⟨h.ids i hi, h.labels i hi, fun s hs => hicon s (filled?_eq_some_iff.mp hs).1, ?_⟩
    intro p hp
    exact h.isIdentifier_parent hi (filled?_eq_some_iff.mp hp).1
  rw [forall_statements (P := Statement.Writable) trivial]
  refine ⟨h.title, fun c hc => ?_, fun n hn => ?_, fun l hl => ?_⟩
  · exact hitem (List.mem_append_left _ hc) (by simp)
  · exact hitem (List.mem_append_right _ (List.mem_map_of_mem hn)) (h.icons n hn)
  · exact ⟨h.isIdentifier_of_mem (h.ends l hl).1, h.isIdentifier_of_mem (h.ends l hl).2,
      h.link_labels l hl⟩

end Plain

/-- A document that can be written and whose text tells all of it. -/
structure Presentable (defaultTitle : String) (d : Document Binary64) : Prop where
  ids : ∀ i ∈ d.items, isIdentifier i.id.toList = true
  distinct : (d.items.map (·.id)).Nodup
  title : d.title = defaultTitle ∨ Quotable d.title
  labels : ∀ i ∈ d.items, Quotable i.label
  link_labels : ∀ l ∈ d.links, ∀ label ∈ l.label, Quotable label
  icons : ∀ n ∈ d.nodes, ∀ i ∈ n.icon, Bare i
  coordinates : ∀ i ∈ d.items, ∀ v ∈ i.frame.values, v.Spelled
  parents : ∀ i ∈ d.items, ∀ p ∈ i.parent, p ∈ d.containerIds
  acyclic : Acyclic d.containers
  numbered : ∀ i (h : i < d.links.length), d.links[i].id = "l" ++ toString (i + 1)
  ends : ∀ l ∈ d.links, l.source ∈ d.items.map (·.id) ∧ l.target ∈ d.items.map (·.id)

namespace Presentable

variable {defaultTitle : String} {d : Document Binary64}

theorem plain (h : Presentable defaultTitle d) : Plain defaultTitle d :=
  ⟨h.ids, h.title, h.labels, h.link_labels, h.icons, h.parents, h.ends⟩

theorem filled?_parent (h : Presentable defaultTitle d) {i : Item Binary64} (hi : i ∈ d.items) :
    filled? i.parent = i.parent := by
  cases hp : i.parent with
  | none => rfl
  | some p =>
    have hne : p ≠ "" := fun he =>
      ne_nil_of_isIdentifier (h.plain.isIdentifier_parent hi hp) (by simp [he])
    exact filled?_eq_some_iff.mpr ⟨rfl, hne⟩

theorem filled?_icon (h : Presentable defaultTitle d) {n : Node Binary64} (hn : n ∈ d.nodes) :
    filled? n.icon = n.icon := by
  cases hi : n.icon with
  | none => rfl
  | some i => exact filled?_eq_some_iff.mpr ⟨rfl, (h.icons n hn i hi).1⟩

end Presentable

/-- Presentable documents are those that can be written, with coordinates that are read, references
that lead where they should and nothing lost. -/
theorem presentable_iff (defaultTitle : String) (d : Document Binary64) :
    Presentable defaultTitle d ↔
      (∀ s ∈ statements defaultTitle d, s.Writable) ∧ (∀ i ∈ d.items, i.frame.respelled? ≠ none) ∧
        d.reread.Resolved ∧ (d.reread == d) = true := by
  -- a frame that is not read would be taken for an empty one, hence the first part
  have hframe (i : Item Binary64) : (∀ v ∈ i.frame.values, v.Spelled) ↔
      i.frame.respelled? ≠ none ∧ (i.frame.respelled?.getD {} == i.frame) = true := by
    rw [← i.frame.respelled?_iff]
    cases i.frame.respelled? <;> simp
  rw [Document.reread_beq_iff]
  constructor
  · intro h
    have hparents : ∀ i ∈ d.items, filled? i.parent = i.parent := fun i hi => h.filled?_parent hi
    refine ⟨h.plain.writable, fun i hi => ((hframe i).mp (h.coordinates i hi)).1,
      (Document.resolved_reread_iff hparents).mpr ⟨h.distinct, h.parents, h.acyclic, h.ends⟩, ?_,
      fun n hn => h.filled?_icon hn, h.numbered⟩
    exact fun i hi => ⟨((hframe i).mp (h.coordinates i hi)).2, hparents i hi⟩
  · rintro ⟨hwritable, hread, hresolved, hitems, hicons, hnumbered⟩
    rw [Document.resolved_reread_iff fun i hi => (hitems i hi).2] at hresolved
    obtain ⟨htitle, hwc, hwn, hwl⟩ :=
      (forall_statements (P := Statement.Writable) trivial defaultTitle d).mp hwritable
    exact {
      ids := d.forall_items.mpr ⟨fun c hc => (hwc c hc).id, fun n hn => (hwn n hn).id⟩
      distinct := hresolved.distinct
      title := htitle
      labels := d.forall_items.mpr ⟨fun c hc => (hwc c hc).label, fun n hn => (hwn n hn).label⟩
      link_labels := fun l hl => (hwl l hl).label
      icons := fun n hn i hi => (hwn n hn).icon i (by rwa [hicons n hn])
      coordinates := fun i hi => (hframe i).mpr ⟨hread i hi, (hitems i hi).1⟩
      parents := hresolved.parents
      acyclic := hresolved.acyclic
      numbered := hnumbered
      ends := hresolved.ends }

/-- A node whose icon ends with a brace, without coordinates or a parent. -/
def EndsWithBrace (n : Node Binary64) : Prop :=
  (∃ i ∈ n.icon, i.toList.getLast? = some '{') ∧ n.frame.values = [] ∧ n.parent = none

/-- A presentable document that is not mistaken for something else: no link has a keyword as its
source, and no node has a brace at the end. -/
structure Expressible (defaultTitle : String) (d : Document Binary64) : Prop extends
    Presentable defaultTitle d where
  sources : ∀ l ∈ d.links, l.source ≠ "node" ∧ l.source ≠ "container"
  braces : ∀ n ∈ d.nodes, ¬EndsWithBrace n

theorem not_isKeyword_iff (word : String) :
    ¬IsKeyword word ↔ word ≠ "node" ∧ word ≠ "container" :=
  not_or

theorem Presentable.braceLast_iff {defaultTitle : String} {d : Document Binary64}
    (h : Presentable defaultTitle d) {n : Node Binary64} (hn : n ∈ d.nodes) :
    BraceLast n ↔ EndsWithBrace n := by
  have hitem : n.toItem ∈ d.items := List.mem_append_right _ (List.mem_map_of_mem hn)
  rw [BraceLast, h.filled?_parent hitem, EndsWithBrace]

/-- The documents that writing and reading leave as they are. -/
theorem write_parse_fixed_iff (defaultTitle : String) (d : Document Binary64) :
    (∃ source e, write defaultTitle d = .ok source ∧ parse defaultTitle source = .success e ∧
      (e == d) = true) ↔ Expressible defaultTitle d := by
  rw [reads_back_iff, readable_iff]
  constructor
  · rintro ⟨hwritable, ⟨hread, hsources, hbraces⟩, hresolved, he⟩
    have hp := (presentable_iff defaultTitle d).mpr ⟨hwritable, hread, hresolved, he⟩
    exact ⟨hp, fun l hl => (not_isKeyword_iff _).mp (hsources l hl),
      fun n hn hb => hbraces n hn ((hp.braceLast_iff hn).mpr hb)⟩
  · rintro ⟨hp, hsources, hbraces⟩
    obtain ⟨hwritable, hread, hresolved, he⟩ := (presentable_iff defaultTitle d).mp hp
    exact ⟨hwritable, ⟨hread, fun l hl => (not_isKeyword_iff _).mpr (hsources l hl),
      fun n hn hb => hbraces n hn ((hp.braceLast_iff hn).mp hb)⟩, hresolved, he⟩

end Source

end ArchDiagram
