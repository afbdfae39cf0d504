import ArchDiagram.Proofs.D2Paths
import ArchDiagram.Proofs.Parsed

/-!
What D2 diagrams draw. The lines of a diagram are read again as strokes: they show every item of a
document that was read once, right inside its parent, and the path at the end of a link names the
blocks that are open where the item is shown, and the item.
-/

namespace ArchDiagram.Render.D2

open Text Source

/-- The characters of keys and paths. -/
def isKeyChar (c : Char) : Bool :=
  !isBlank c && c != ':'

/-- What a line of a diagram does. A closing brace alone ends a block and an opening brace at the
end of a line starts one; otherwise a colon or an arrow follows the first key. -/
def readLine (line : List Char) : Stroke (List Char) :=
  let text := trim line
  let key := text.takeWhile isKeyChar
  let rest := text.dropWhile isKeyChar
  if text = ['}'] then .closed
  else if text.getLast? = some '{' then .opened key
  else if rest.head? = some ':' then .item key
  else match arrowAt? (trimLeft rest) with
    | some a =>
      let target := trimLeft ((trimLeft rest).drop a.chars.length)
      .link key (target.takeWhile isKeyChar) (a = .twoWay)
    | none => .other

theorem ne_of_isKeyChar {c : Char} (h : isKeyChar c = true) : isBlank c = false ∧ c ≠ ':' := by
  simpa [isKeyChar] using h

/-- A line that gives a key some text. -/
theorem readLine_keyed {gap k : List Char} {last : Char} (hgap : ∀ c ∈ gap, isBlank c = true)
    (hn : k ≠ []) (hk : ∀ c ∈ k, isKeyChar c = true) (rest : List Char)
    (hlast : isBlank last = false) :
    readLine (gap ++ (k ++ ':' :: (rest ++ [last]))) =
      if last = '{' then .opened k else .item k := by
  set text := k ++ ':' :: (rest ++ [last]) with htext
  have hspan : text.takeWhile isKeyChar = k ∧ text.dropWhile isKeyChar = ':' :: (rest ++ [last]) :=
    (span_eq_iff rfl).mpr ⟨htext, hk⟩
  have hend : text.getLast? = some last := by
    rw [htext, ← List.cons_append, ← List.append_assoc, List.getLast?_concat]
  have htrim : trim (gap ++ text) = text :=
    (trimmed_concat hn (fun c hc => (ne_of_isKeyChar (hk c hc)).1) (':' :: rest)
      hlast).trim_append hgap
  have hbrace : text ≠ ['}'] :=
    ne_of_mem_of_not_mem' (a := ':') (by simp [htext]) (by decide)
  simp [readLine, htrim, hspan, hbrace, hend]

/-- A line that joins two paths. -/
theorem readLine_link {p q tail : List Char} (a : Arrow) (hp : p ≠ [])
    (hpc : ∀ c ∈ p, isKeyChar c = true) (hq : q ≠ [])
    (hqc : ∀ c ∈ q, isKeyChar c = true ∧ c ≠ '{')
    (htail : tail = [] ∨ ∃ mid, tail = ':' :: (mid ++ ['"'])) :
    readLine (p ++ ' ' :: (a.chars ++ ' ' :: (q ++ tail))) = .link p q (a = .twoWay) := by
  set text := p ++ ' ' :: (a.chars ++ ' ' :: (q ++ tail)) with htext
  have hspan : text.takeWhile isKeyChar = p ∧
      text.dropWhile isKeyChar = ' ' :: (a.chars ++ ' ' :: (q ++ tail)) :=
    (span_eq_iff rfl).mpr ⟨htext, hpc⟩
  -- the last character is a quote, or belongs to the second path
  obtain ⟨rest, last, hend, hblank, hopen⟩ :
      ∃ rest last, q ++ tail = rest ++ [last] ∧ isBlank last = false ∧ last ≠ '{' := by
    rcases htail with rfl | ⟨mid, rfl⟩
    · obtain ⟨rest, last, rfl⟩ := (List.eq_nil_or_concat' q).resolve_left hq
      obtain ⟨hkey, hopen⟩ := hqc last (by simp)
      exact ⟨rest, last, List.append_nil _, (ne_of_isKeyChar hkey).1, hopen⟩
    · exact ⟨q ++ ':' :: mid, '"', by simp, by decide, by decide⟩
  have hconcat : text = p ++ (' ' :: (a.chars ++ ' ' :: rest) ++ [last]) := by
    simp [htext, hend]
  have htrim : trim text = text := by
    rw [hconcat]
    exact (trimmed_concat hp (fun c hc => (ne_of_isKeyChar (hpc c hc)).1) _ hblank).trim_eq
  have hlast : text.getLast? ≠ some '{' := by
    rw [hconcat, ← List.append_assoc, List.getLast?_concat]
    simpa using hopen
  have hbrace : text ≠ ['}'] :=
    ne_of_mem_of_not_mem' (a := ' ') (by simp [htext]) (by decide)
  have harrow : trimLeft (' ' :: (a.chars ++ ' ' :: (q ++ tail))) =
      a.chars ++ ' ' :: (q ++ tail) := by
    cases a <;> rfl
  have htarget : trimLeft (' ' :: (q ++ tail)) = q ++ tail := by
    obtain ⟨c, q, rfl⟩ := List.exists_cons_of_ne_nil hq
    exact trimLeft_of_not_blank (ne_of_isKeyChar (hqc c (by simp)).1).1 _
  have hstop : (q ++ tail).takeWhile isKeyChar = q := by
    rw [List.takeWhile_append_of_pos fun c hc => (hqc c hc).1]
    rcases htail with rfl | ⟨mid, rfl⟩
    · simp
    · simp [isKeyChar]
  simp only [readLine, htrim, hspan, hbrace, hlast, harrow, arrowAt?_append, if_false,
    List.head?_cons, List.drop_left, htarget, hstop]
  simp

theorem isKeyChar_of_isPathChar {c : Char} (h : IsPathChar c) :
    isKeyChar c = true ∧ c ≠ '{' ∧ c ≠ '\n' := by
  rcases h with h | rfl | rfl
  · have hne {m : Char} (hm : isIdentifierChar m = false) : c ≠ m := by
      intro heq
      rw [heq, hm] at h
      cases h
    refine ⟨?_, hne (by decide), hne (by decide)⟩
    simp [isKeyChar, isBlank_of_isIdentifierChar h, hne (m := ':') (by decide)]
  · decide
  · decide

theorem newline_not_mem_key {id : String} (h : isIdentifier id.toList = true) : '\n' ∉ key id :=
  fun hmem => (isKeyChar_of_isPathChar (isPathChar_of_mem_key h hmem)).2.2 rfl

theorem newline_not_mem_quoted {s : String} (h : '\n' ∉ s.toList) : '\n' ∉ quoted s := by
  have hescape : '\n' ∉ escape s.toList := by
    intro hmem
    obtain ⟨c, hc, hin⟩ := List.mem_flatMap.mp hmem
    -- an escaped character is the character, with a backslash before it or not
    have hor : '\n' = '\\' ∨ '\n' = c := by
      unfold escapeChar at hin
      split at hin <;> simpa using hin
    rcases hor with heq | rfl
    · exact absurd heq (by decide)
    · exact h hc
  simp [quoted, hescape]

/-- An icon is drawn under its own name or as the generic one. -/
theorem resolveIcon_eq {α : Type} (r : Icon.Registry) (n : Node α) {icon : String}
    (h : icon ∈ (resolveIcon r n).1) : icon = Icon.generic ∨ n.icon = some icon := by
  unfold resolveIcon at h
  cases htag : n.icon.filter (!·.isEmpty) with
  | none => simp [htag] at h
  | some tag =>
    obtain ⟨hicon, -⟩ := Option.filter_eq_some_iff.mp htag
    simp only [htag, Option.mem_def, Option.some.injEq, Icon.Registry.resolve,
      Icon.Status.resolve] at h
    subst h
    split
    · exact .inr hicon
    · exact .inl rfl

theorem isIdentifier_shape {icon s : String} (h : shape? icon = some s) :
    isIdentifier s.toList = true := by
  obtain ⟨before, after, htable, -⟩ := List.lookup_eq_some_iff.mp h
  have hmem : (icon, s) ∈ before ++ (icon, s) :: after := by simp
  rw [← htable] at hmem
  simp only [List.mem_cons, List.not_mem_nil, Prod.mk.injEq, or_false] at hmem
  rcases hmem with ⟨-, rfl⟩ | ⟨-, rfl⟩ | ⟨-, rfl⟩ | ⟨-, rfl⟩ | ⟨-, rfl⟩ | ⟨-, rfl⟩ | ⟨-, rfl⟩ <;>
    decide

/-- The parts of a node's style, for an icon whose name is on one line. -/
theorem newline_not_mem_styles {icon : Option String} (h : ∀ i ∈ icon, '\n' ∉ i.toList)
    {part : List Char} (hpart : part ∈ styles icon) : '\n' ∉ part := by
  simp only [styles, List.mem_append, Option.mem_toList, Option.map_eq_some_iff,
    Option.bind_eq_some_iff, Option.filter_eq_some_iff] at hpart
  rcases hpart with ⟨s, ⟨i, -, hs⟩, rfl⟩ | ⟨i, ⟨hi, -⟩, rfl⟩
  · have := not_mem_identifier (isIdentifier_shape hs) (m := '\n') (by decide)
    simp [this]
  · have := h i hi
    simp [this]

theorem newline_not_mem_nodeText {α : Type} {n : Node α} {icon : Option String}
    (hid : isIdentifier n.id.toList = true) (hlabel : '\n' ∉ n.label.toList)
    (hicon : ∀ i ∈ icon, '\n' ∉ i.toList) : '\n' ∉ nodeText n icon := by
  have hkey := newline_not_mem_key hid
  have hquoted := newline_not_mem_quoted hlabel
  have hstyles : '\n' ∉ joinWith [';', ' '] (styles icon) := by
    intro hmem
    rcases mem_of_mem_joinWith hmem with hmem | ⟨part, hpart, hmem⟩
    · simp at hmem
    · exact newline_not_mem_styles hicon hpart hmem
  simp only [nodeText]
  split <;> simp [hkey, hquoted, hstyles]

/-- The text of a node is a key, a colon and more, up to a quote or a closing brace. -/
theorem exists_nodeText {α : Type} (n : Node α) (icon : Option String) :
    ∃ rest last, nodeText n icon = key n.id ++ ':' :: (rest ++ [last]) ∧
      (last = '"' ∨ last = '}') := by
  simp only [nodeText]
  split
  · exact ⟨' ' :: '"' :: escape n.label.toList, '"', by simp [quoted], .inl rfl⟩
  · exact ⟨' ' :: quoted n.label ++ " \x7b ".toList ++ joinWith "; ".toList (styles icon) ++ [' '],
      '}', by simp, .inr rfl⟩

/-- The text of a link is two paths with an arrow between them, and perhaps a label. -/
theorem exists_linkLine {α : Type} (d : Document α) (l : Link) :
    ∃ tail, linkLine d l =
        path d l.source ++ ' ' :: ((arrowOf l).chars ++ ' ' :: (path d l.target ++ tail)) ∧
      (tail = [] ∨ ∃ label, l.label = some label ∧ tail = ':' :: ' ' :: quoted label) := by
  have harrow : (if l.bidirectional then ['<', '-', '>'] else ['-', '>']) = (arrowOf l).chars := by
    rw [arrowOf]
    split <;> rfl
  cases hlabel : l.label.filter (!·.isEmpty) with
  | none => exact ⟨[], by simp [linkLine, hlabel, harrow], .inl rfl⟩
  | some label =>
    obtain ⟨hsome, -⟩ := Option.filter_eq_some_iff.mp hlabel
    exact ⟨':' :: ' ' :: quoted label, by simp [linkLine, hlabel, harrow], .inr ⟨label, hsome, rfl⟩⟩

section Lines

variable {defaultTitle : String} {d : Document Binary64} (hp : Plain defaultTitle d)
include hp

/-- Every mark of an outline is read from its line. -/
theorem readLine_entryLine {e : Entry Binary64} (he : e.mark.Shows d) (r : Icon.Registry) :
    readLine (entryLine r e).1 = e.mark.stroke key := by
  have hkey {i : Item Binary64} (hi : i ∈ d.items) : ∀ c ∈ key i.id, isKeyChar c = true :=
    fun c hc => (isKeyChar_of_isPathChar (isPathChar_of_mem_key (hp.ids i hi) hc)).1
  obtain ⟨depth, mark⟩ := e
  have hgap : ∀ c ∈ indent depth, isBlank c = true := fun c => isBlank_of_mem_indent
  cases mark with
  | opened c =>
    have hc : c ∈ d.items := List.mem_append_left _ he
    have hread := readLine_keyed hgap (key_ne_nil (hp.ids c hc)) (hkey hc)
      (' ' :: quoted c.label ++ [' ']) (show isBlank '{' = false by decide)
    simpa [entryLine, Mark.stroke] using hread
  | node n =>
    have hn := Document.toItem_mem_items he
    obtain ⟨rest, last, htext, hlast⟩ := exists_nodeText n (resolveIcon r n).1
    have hend : isBlank last = false ∧ last ≠ '{' := by
      rcases hlast with rfl | rfl <;> decide
    have hread := readLine_keyed hgap (key_ne_nil (hp.ids _ hn)) (hkey hn) rest hend.1
    rw [if_neg hend.2, ← htext] at hread
    exact hread
  | closed =>
    have htrim : trim (indent depth ++ ['}']) = ['}'] :=
      Trimmed.trim_append (trimmed_of_no_blank (forall_mem_of_all (by decide))) hgap
    simp [entryLine, Mark.stroke, readLine, htrim]

theorem newline_not_mem_entryLine {e : Entry Binary64} (he : e.mark.Shows d) (r : Icon.Registry) :
    '\n' ∉ (entryLine r e).1 := by
  obtain ⟨depth, mark⟩ := e
  have hgap := newline_not_mem_indent depth
  cases mark with
  | opened c =>
    have hc : c ∈ d.items := List.mem_append_left _ he
    have hkey := newline_not_mem_key (hp.ids c hc)
    have hquoted := newline_not_mem_quoted (hp.labels c hc).2
    simp [entryLine, hgap, hkey, hquoted]
  | node n =>
    have hn := Document.toItem_mem_items he
    have hicon : ∀ i ∈ (resolveIcon r n).1, '\n' ∉ i.toList := by
      intro i hi
      rcases resolveIcon_eq r n hi with rfl | htag
      · decide
      · intro hmem
        have hblank := ((hp.icons n he i htag).2 _ hmem).1
        exact absurd hblank (by decide)
    have htext := newline_not_mem_nodeText (hp.ids _ hn) (hp.labels _ hn).2 hicon
    simp only [entryLine, List.mem_append, not_or]
    exact ⟨hgap, htext⟩
  | closed => simp [entryLine, hgap]

/-- The lines of an outline, whatever the registry does in between. -/
theorem map_readLine_entryLines {es : List (Entry Binary64)} (hes : ∀ e ∈ es, e.mark.Shows d)
    (r : Icon.Registry) :
    (entryLines r es).1.map readLine = es.map (·.mark.stroke key) ∧
      ∀ l ∈ (entryLines r es).1, '\n' ∉ l := by
  induction es generalizing r with
  | nil => simp [entryLines]
  | cons e es ih =>
    obtain ⟨hread, hline⟩ := ih (fun e he => hes e (by simp [he])) (entryLine r e).2
    have he := hes e (by simp)
    refine ⟨?_, ?_⟩
    · simp only [entryLines, List.map_cons, hread, readLine_entryLine hp he]
    · exact List.forall_mem_cons.mpr ⟨newline_not_mem_entryLine hp he r, hline⟩

variable (hd : d.Resolved)
include hd

/-- Every link is read from its line. -/
theorem readLine_linkLine {l : Link} (hl : l ∈ d.links) :
    readLine (linkLine d l) = .link (path d l.source) (path d l.target) l.bidirectional ∧
      '\n' ∉ linkLine d l := by
  have hends {id : String} (hid : id ∈ d.items.map (·.id)) : path d id ≠ [] ∧
      ∀ c ∈ path d id, isKeyChar c = true ∧ c ≠ '{' ∧ c ≠ '\n' := by
    obtain ⟨i, hi, rfl⟩ := List.mem_map.mp hid
    exact ⟨path_ne_nil hd hp.ids hi,
      fun c hc => isKeyChar_of_isPathChar (isPathChar_of_mem_path hd hp.ids hi hc)⟩
  obtain ⟨hsource, hsourceChar⟩ := hends (hd.ends l hl).1
  obtain ⟨htarget, htargetChar⟩ := hends (hd.ends l hl).2
  obtain ⟨tail, htext, htail⟩ := exists_linkLine d l
  rw [htext]
  constructor
  · have hlast : tail = [] ∨ ∃ mid, tail = ':' :: (mid ++ ['"']) := by
      rcases htail with rfl | ⟨label, -, rfl⟩
      · exact .inl rfl
      · exact .inr ⟨' ' :: '"' :: escape label.toList, by simp [quoted]⟩
    have htwo : decide (arrowOf l = .twoWay) = l.bidirectional := by
      cases hb : l.bidirectional <;> simp [arrowOf, hb]
    rw [readLine_link (arrowOf l) hsource (fun c hc => (hsourceChar c hc).1) htarget
      (fun c hc => ⟨(htargetChar c hc).1, (htargetChar c hc).2.1⟩) hlast, htwo]
  · have harrow : '\n' ∉ (arrowOf l).chars := by
      cases arrowOf l <;> decide
    have hline : '\n' ∉ tail := by
      rcases htail with rfl | ⟨label, hlabel, rfl⟩
      · simp
      · have hquoted := newline_not_mem_quoted (hp.link_labels l hl label hlabel).2
        simp [hquoted]
    have hsourceLine : '\n' ∉ path d l.source := fun hmem => (hsourceChar _ hmem).2.2 rfl
    have htargetLine : '\n' ∉ path d l.target := fun hmem => (htargetChar _ hmem).2.2 rfl
    simp [hsourceLine, htargetLine, harrow, hline]

end Lines

/-- The keys that are set before the items. -/
def headKeys {α : Type} (d : Document α) : List (List Char) :=
  "direction".toList :: if d.title.isEmpty then [] else ["title".toList]

/-- The line of the title gives its key some text. -/
theorem readLine_title (title : String) :
    readLine ("title: ".toList ++ quoted title ++
      " \x7b near: top-center; shape: text \x7d".toList) = .item "title".toList := by
  have htext : "title: ".toList ++ quoted title ++
      " \x7b near: top-center; shape: text \x7d".toList =
        "title".toList ++ ':' :: ((' ' :: quoted title ++
          " \x7b near: top-center; shape: text ".toList) ++ ['}']) := by
    simp
  rw [htext]
  exact readLine_keyed (k := "title".toList) (List.forall_mem_nil _) (by decide)
    (forall_mem_of_all (by decide)) _ (show isBlank '}' = false by decide)

/-- The lines before the items, with an empty line after each. -/
theorem readLine_head {α : Type} (d : Document α) :
    (["direction: right".toList, []] ++ titleLines d.title).map readLine =
      (headKeys d).flatMap fun k => [.item k, .other] := by
  have hdirection : ["direction: right".toList, []].map readLine =
      [.item "direction".toList, .other] := by
    decide
  have hblank : readLine [] = .other := by decide
  rw [List.map_append, hdirection]
  by_cases hempty : d.title.isEmpty
  · rw [titleLines, if_pos hempty, headKeys, if_pos hempty]
    rfl
  · rw [titleLines, if_neg hempty, headKeys, if_neg hempty, List.map_cons, readLine_title,
      List.map_singleton, hblank]
    rfl

theorem newline_not_mem_head {α : Type} {d : Document α} (htitle : '\n' ∉ d.title.toList) :
    ∀ l ∈ ["direction: right".toList, []] ++ titleLines d.title, '\n' ∉ l := by
  have hquoted := newline_not_mem_quoted htitle
  by_cases hempty : d.title.isEmpty
  · simp [titleLines, hempty]
  · simp [titleLines, hempty, hquoted]

/-- The strokes before the links: the keys set first, the outline, and an empty line. -/
def shapes (d : Document Binary64) (es : List (Entry Binary64)) : List (Stroke (List Char)) :=
  (headKeys d).flatMap (fun k => [.item k, .other]) ++ es.map (·.mark.stroke key) ++ [.other]

/-- Each line of a diagram is read as its stroke. -/
theorem map_readLine {defaultTitle : String} {d : Document Binary64} (hp : Plain defaultTitle d)
    (hd : d.Resolved) {es : List (Entry Binary64)} (hes : ∀ e ∈ es, e.mark.Shows d)
    (r : Icon.Registry) :
    (lines d (entryLines r es).1).map readLine =
      shapes d es ++ d.links.map fun l =>
        .link (path d l.source) (path d l.target) l.bidirectional := by
  have hlinks : d.links.map (readLine ∘ linkLine d) = d.links.map fun l =>
      .link (path d l.source) (path d l.target) l.bidirectional :=
    List.map_congr_left fun l hl => (readLine_linkLine hp hd hl).1
  rw [← hlinks, shapes, ← readLine_head, ← (map_readLine_entryLines hp hes r).1]
  simp only [lines, List.map_append, List.map_map]
  rfl

/-- No line of a diagram is broken in two, and each is read as its stroke. -/
theorem map_readLine_lines {defaultTitle : String} {d : Document Binary64}
    (hp : Plain defaultTitle d) (hd : d.Resolved) (htitle : '\n' ∉ d.title.toList)
    {es : List (Entry Binary64)} (hes : ∀ e ∈ es, e.mark.Shows d) (r : Icon.Registry) :
    (Text.lines (unlines (lines d (entryLines r es).1))).map readLine =
      shapes d es ++ d.links.map fun l =>
        .link (path d l.source) (path d l.target) l.bidirectional := by
  have hlines : Text.lines (unlines (lines d (entryLines r es).1)) =
      lines d (entryLines r es).1 := by
    apply splitOn_joinWith (by simp [lines])
    intro l hl
    simp only [lines, List.mem_append, List.mem_map] at hl
    rcases hl with ((hl | hl) | hl) | ⟨k, hk, rfl⟩
    · exact newline_not_mem_head htitle l (List.mem_append.mpr hl)
    · exact (map_readLine_entryLines hp hes r).2 l hl
    · rw [List.mem_singleton.mp hl]
      exact List.not_mem_nil
    · exact (readLine_linkLine hp hd hk).2
  rw [hlines, map_readLine hp hd hes r]

theorem reads_shapes {parentOf : Item Binary64 → Option String} {d : Document Binary64}
    {es : List (Entry Binary64)} (hes : outline? parentOf d = some es) :
    Reads [] (shapes d es) ((headKeys d).map (⟨[], ·, false⟩) ++
      (held parentOf d (d.containers.length + 1) []).map (Place.named key)) := by
  have hhead : Reads [] ((headKeys d).flatMap fun k => [.item k, .other])
      ((headKeys d).map (⟨[], ·, false⟩)) := by
    rw [List.map_eq_flatMap]
    apply Reads.flatMap
    intro k _ rest
    simp [places?]
  have hgap : Reads [] [Stroke.other] ([] : List (Place (List Char))) := .of_silent (by simp)
  have hall := (hhead.append (reads_of_outline? key hes)).append hgap
  rwa [List.append_nil] at hall

theorem isLink_of_mem_shapes {d : Document Binary64} {es : List (Entry Binary64)}
    {st : Stroke (List Char)} (h : st ∈ shapes d es) : st.isLink = false := by
  simp only [shapes, List.mem_append, List.mem_flatMap, List.mem_map, List.mem_cons,
    List.not_mem_nil, or_false] at h
  rcases h with (⟨k, -, rfl | rfl⟩ | ⟨e, -, rfl⟩) | rfl
  · rfl
  · rfl
  · exact e.mark.isLink_stroke key
  · rfl

/-- A document that was read is drawn by its diagram, whatever icons are known. The path of an item
names the blocks that are open where it is drawn, and itself, and different items have different
paths. -/
theorem draws_diagram {defaultTitle source : String} {d : Document Binary64}
    (hparse : parse defaultTitle source = .success d) (htitle : '\n' ∉ defaultTitle.toList)
    (r : Icon.Registry) :
    ∃ text after around items, render? r d = some (text, after) ∧
      Draws d key (path d) around ((headKeys d).map (⟨[], ·, false⟩)) items
        ((Text.lines text.toList).map readLine) ∧
      (∀ i ∈ d.items, path d i.id = joinWith ['.'] ((around i.id).reverse ++ [key i.id])) ∧
      (d.items.map fun i => path d i.id).Nodup := by
  have hp := plain_of_parse hparse
  have hd := resolved_of_parse hparse
  have hparent : ∀ i ∈ d.items, parentOfId d i.id = i.parent := fun i hi => parentOfId_eq hd hi
  obtain ⟨trail, htrail⟩ := exists_trails hd hparent
  obtain ⟨es, hes⟩ := Option.isSome_iff_exists.mp
    (isSome_outline? (fun i => parentOfId d i.id) hd.nodup_containerIds)
  have hline : '\n' ∉ d.title.toList := by
    rcases hp.title with heq | hquotable
    · rwa [heq]
    · exact hquotable.2
  have hnames : ∀ i ∈ d.items, ∀ j ∈ d.items, key i.id = key j.id → i.id = j.id :=
    fun i hi j hj => key_injective (hp.ids i hi) (hp.ids j hj)
  have hdraws := draws_of_reads hd hparent htrail hnames (reads_shapes hes)
    (fun st => isLink_of_mem_shapes) (path d)
  -- the text is read as these strokes
  rw [← map_readLine_lines hp hd hline (shows_of_outlineWithin? hes) r,
    ← String.toList_ofList (l := unlines _)] at hdraws
  refine ⟨_, (entryLines r es).2, _, _, ?_, hdraws, ?_, nodup_paths hd hp.ids⟩
  · rw [render?, hes]
    rfl
  · intro i hi
    exact path_eq hd hi (htrail i hi).1 (htrail i hi).2

/-- A node two blocks deep, one of them with a quoted key, and a link to it from outside. -/
theorem draws_diagram_nested :
    ∃ d text after around items,
      parse "Plan" ("container a: \"A\" \x7b\ncontainer b-1: \"B\" \x7b\n" ++
          "node n: \"N\"\n\x7d\n\x7d\nnode m: \"M\" icon=Database\nm -> n") = .success d ∧
        render? {} d = some (text, after) ∧
        Draws d key (path d) around ((headKeys d).map (⟨[], ·, false⟩)) items
          ((Text.lines text.toList).map readLine) ∧
        d.items.map (fun i => joinWith ['.'] ((around i.id).reverse ++ [key i.id])) =
          ["a".toList, "a.\"b-1\"".toList, "a.\"b-1\".n".toList, "m".toList] := by
  have hcheck : (parse "Plan"
      ("container a: \"A\" \x7b\ncontainer b-1: \"B\" \x7b\n" ++
        "node n: \"N\"\n\x7d\n\x7d\nnode m: \"M\" icon=Database\nm -> n")).document?.any (fun d =>
          d.items.map (fun i => path d i.id) =
            ["a".toList, "a.\"b-1\"".toList, "a.\"b-1\".n".toList, "m".toList]) = true := by
    decide +kernel
  obtain ⟨d, hd, hpaths⟩ := (Option.any_eq_true _ _).mp hcheck
  rw [decide_eq_true_eq] at hpaths
  have hread := parse_eq_success_of_document? hd
  obtain ⟨text, after, around, items, hrender, hdraws, hpath, -⟩ :=
    draws_diagram hread (by decide) {}
  refine ⟨d, text, after, around, items, hread, hrender, hdraws, ?_⟩
  rw [← hpaths]
  exact List.map_congr_left fun i hi => (hpath i hi).symm

end ArchDiagram.Render.D2
