import ArchDiagram.Proofs.Drawing
import ArchDiagram.Proofs.Parsed
import ArchDiagram.Render.Mermaid

/-!
What Mermaid flowcharts draw. The lines of a flowchart are read again as strokes: they show every
item of a document that was read once, right inside its parent, under the short names `nd1`, `nd2`
and so on in the order of the lines, and join the names of the ends of each link.
-/

namespace ArchDiagram.Render.Mermaid

open Text Source

/-- The characters of names. -/
def isNameChar (c : Char) : Bool :=
  !isBlank c && c != '['

def arrow (twoWay : Bool) : List Char :=
  if twoWay then "<-->".toList else "-->".toList

/-- The arrow at the start of a text, and what follows it. -/
def splitArrow? (cs : List Char) : Option (Bool × List Char) :=
  if (arrow true).isPrefixOf cs then some (true, cs.drop 4)
  else if (arrow false).isPrefixOf cs then some (false, cs.drop 3)
  else none

/-- What follows a label between bars, if there is one. -/
def dropLabel : List Char → List Char
  | '|' :: cs => (cs.dropWhile (· != '|')).drop 1
  | cs => cs

/-- What a line of a flowchart does: the word `end` ends a block and the word `subgraph` starts one;
otherwise a box or an arrow follows the first name. -/
def readLine (line : List Char) : Stroke (List Char) :=
  let text := trim line
  let name := text.takeWhile isNameChar
  let rest := text.dropWhile isNameChar
  if text = "end".toList then .closed
  else if name = "subgraph".toList then .opened ((trimLeft rest).takeWhile isNameChar)
  else if rest.head? = some '[' then .item name
  else match splitArrow? (trimLeft rest) with
    | some (twoWay, after) =>
      .link name ((trimLeft (dropLabel after)).takeWhile isNameChar) twoWay
    | none => .other

theorem isNameChar_of_mem_identifier {cs : List Char} (h : isIdentifier cs = true) {c : Char}
    (hc : c ∈ cs) : isNameChar c = true := by
  have hbracket : c ≠ '[' := fun heq => not_mem_identifier h (by decide) (heq ▸ hc)
  simp [isNameChar, isBlank_of_mem_identifier h c hc, hbracket]

/-- A name with a box after it. -/
theorem readLine_boxed {gap name : List Char} (hgap : ∀ c ∈ gap, isBlank c = true)
    (hname : isIdentifier name = true) (hword : name ≠ "subgraph".toList) (rest : List Char) :
    readLine (gap ++ (name ++ '[' :: (rest ++ [']']))) = .item name := by
  set text := name ++ '[' :: (rest ++ [']']) with htext
  have hspan : text.takeWhile isNameChar = name ∧
      text.dropWhile isNameChar = '[' :: (rest ++ [']']) :=
    (span_eq_iff rfl).mpr ⟨htext, fun c => isNameChar_of_mem_identifier hname⟩
  have htrim : trim (gap ++ text) = text :=
    (trimmed_concat (ne_nil_of_isIdentifier hname) (isBlank_of_mem_identifier hname) ('[' :: rest)
      (by decide)).trim_append hgap
  have hend : text ≠ "end".toList :=
    ne_of_mem_of_not_mem' (a := '[') (by simp [htext]) (by decide)
  simp only [readLine, htrim, hspan, hend, hword, if_false, List.head?_cons, if_true]

/-- The opening of a block. -/
theorem readLine_subgraph {gap name : List Char} (hgap : ∀ c ∈ gap, isBlank c = true)
    (hname : isIdentifier name = true) (rest : List Char) :
    readLine (gap ++ ("subgraph".toList ++ ' ' :: (name ++ '[' :: (rest ++ [']'])))) =
      .opened name := by
  set text := "subgraph".toList ++ ' ' :: (name ++ '[' :: (rest ++ [']'])) with htext
  have hspan : text.takeWhile isNameChar = "subgraph".toList ∧
      text.dropWhile isNameChar = ' ' :: (name ++ '[' :: (rest ++ [']'])) :=
    (span_eq_iff rfl).mpr ⟨htext, forall_mem_of_all (by decide)⟩
  have htrim : trim (gap ++ text) = text := by
    have htrimmed := trimmed_concat (w := "subgraph".toList) (by decide)
      (forall_mem_of_all (by decide)) (' ' :: (name ++ '[' :: rest))
      (show isBlank ']' = false by decide)
    rw [List.cons_append, List.append_assoc, List.cons_append] at htrimmed
    exact htrimmed.trim_append hgap
  have hend : text ≠ "end".toList :=
    ne_of_mem_of_not_mem' (a := '[') (by simp [htext]) (by decide)
  have hfirst : trimLeft (' ' :: (name ++ '[' :: (rest ++ [']']))) =
      name ++ '[' :: (rest ++ [']']) := by
    obtain ⟨c, cs, rfl⟩ := List.exists_cons_of_ne_nil (ne_nil_of_isIdentifier hname)
    exact trimLeft_of_not_blank (isBlank_of_mem_identifier hname c (by simp)) _
  have hstop : (name ++ '[' :: (rest ++ [']'])).takeWhile isNameChar = name :=
    ((span_eq_iff rfl).mpr ⟨rfl, fun c => isNameChar_of_mem_identifier hname⟩).1
  simp only [readLine, htrim, hspan, hend, if_false, if_true, hfirst, hstop]

theorem readLine_end {gap : List Char} (hgap : ∀ c ∈ gap, isBlank c = true) :
    readLine (gap ++ "end".toList) = .closed := by
  have htrim : trim (gap ++ "end".toList) = "end".toList :=
    Trimmed.trim_append (trimmed_of_no_blank (forall_mem_of_all (by decide))) hgap
  simp only [readLine, htrim, if_true]

theorem splitArrow?_append (twoWay : Bool) (rest : List Char) :
    splitArrow? (arrow twoWay ++ rest) = some (twoWay, rest) := by
  cases twoWay <;> rfl

theorem dropLabel_append {label rest : List Char} (h : '|' ∉ label) :
    dropLabel ('|' :: label ++ '|' :: rest) = rest := by
  have hspan := (span_eq_iff (p := (· != '|')) (m := '|') rfl).mpr
    ⟨(rfl : label ++ '|' :: rest = label ++ '|' :: rest), fun c hc => by
      simpa using fun heq : c = '|' => h (heq ▸ hc)⟩
  rw [List.cons_append, dropLabel, hspan.2]
  rfl

/-- A line that joins two names. -/
theorem readLine_link {gap p q label : List Char} (hgap : ∀ c ∈ gap, isBlank c = true)
    (hp : isIdentifier p = true) (hword : p ≠ "subgraph".toList) (hq : isIdentifier q = true)
    (hlabel : label = [] ∨ ∃ text, '|' ∉ text ∧ label = '|' :: text ++ ['|']) (twoWay : Bool) :
    readLine (gap ++ (p ++ ' ' :: (arrow twoWay ++ (label ++ ' ' :: q)))) = .link p q twoWay := by
  set text := p ++ ' ' :: (arrow twoWay ++ (label ++ ' ' :: q)) with htext
  have hspan : text.takeWhile isNameChar = p ∧
      text.dropWhile isNameChar = ' ' :: (arrow twoWay ++ (label ++ ' ' :: q)) :=
    (span_eq_iff rfl).mpr ⟨htext, fun c => isNameChar_of_mem_identifier hp⟩
  have htrim : trim (gap ++ text) = text := by
    obtain ⟨q', last, rfl⟩ : ∃ q' last, q = q' ++ [last] :=
      (List.eq_nil_or_concat' q).resolve_left (ne_nil_of_isIdentifier hq)
    have htrimmed := trimmed_concat (ne_nil_of_isIdentifier hp) (isBlank_of_mem_identifier hp)
      (' ' :: (arrow twoWay ++ (label ++ ' ' :: q')))
      (isBlank_of_mem_identifier hq last (by simp))
    apply Trimmed.trim_append _ hgap
    simpa [htext] using htrimmed
  have hend : text ≠ "end".toList :=
    ne_of_mem_of_not_mem' (a := ' ') (by simp [htext]) (by decide)
  have hfirst : trimLeft (' ' :: (arrow twoWay ++ (label ++ ' ' :: q))) =
      arrow twoWay ++ (label ++ ' ' :: q) := by
    cases twoWay <;> rfl
  have hskip : dropLabel (label ++ ' ' :: q) = ' ' :: q := by
    rcases hlabel with rfl | ⟨text, hbar, rfl⟩
    · rfl
    · rw [List.append_assoc, List.singleton_append]
      exact dropLabel_append hbar
  have htarget : (trimLeft (' ' :: q)).takeWhile isNameChar = q := by
    have hblank : trimLeft (' ' :: q) = q := by
      obtain ⟨c, cs, rfl⟩ := List.exists_cons_of_ne_nil (ne_nil_of_isIdentifier hq)
      exact trimLeft_of_not_blank (isBlank_of_mem_identifier hq c (by simp)) _
    rw [hblank]
    exact takeWhile_of_all (List.all_eq_true.mpr fun c => isNameChar_of_mem_identifier hq)
  simp only [readLine, htrim, hspan, hend, hword, if_false, List.head?_cons, hfirst,
    splitArrow?_append, hskip, htarget]
  simp

section Names

/-- The `n`-th name, counted from zero. -/
def nth (n : Nat) : List Char :=
  "nd".toList ++ Nat.toDigits 10 (n + 1)

theorem nth_injective : Function.Injective nth := by
  intro m n h
  have hdigits : Nat.toDigits 10 (m + 1) = Nat.toDigits 10 (n + 1) := List.append_cancel_left h
  have hvalue : m + 1 = n + 1 :=
    calc m + 1
      _ = Nat.ofDigitChars 10 (Nat.toDigits 10 (m + 1)) 0 := Nat.ofDigitChars_ten_toDigits.symm
      _ = Nat.ofDigitChars 10 (Nat.toDigits 10 (n + 1)) 0 := by rw [hdigits]
      _ = n + 1 := Nat.ofDigitChars_ten_toDigits
  omega

theorem isIdentifier_nth (n : Nat) : isIdentifier (nth n) = true := by
  refine (isIdentifier_iff _).mpr ⟨⟨'n', rfl, by decide⟩, fun c hc => ?_⟩
  rcases List.mem_append.mp hc with hc | hc
  · have hword : ∀ c ∈ "nd".toList, isIdentifierChar c = true :=
      forall_mem_of_all (by decide)
    exact hword c hc
  · have hdigit := Nat.isDigit_of_mem_toDigits (by decide) (by decide) hc
    simp [isIdentifierChar, Char.isAlphanum, hdigit]

/-- No name is the word that opens blocks. -/
theorem nth_ne_subgraph (n : Nat) : nth n ≠ "subgraph".toList := by
  intro h
  have hhead := congrArg List.head? h
  exact absurd hhead (by simp [nth])

theorem shortName_eq_nth (ids : List String) (id : String) :
    shortName ids id = nth (ids.idxOf id) :=
  rfl

theorem eraseDups_of_nodup {ids : List String} (h : ids.Nodup) : ids.eraseDups = ids := by
  induction ids with
  | nil => rfl
  | cons a ids ih =>
    obtain ⟨ha, hids⟩ := List.nodup_cons.mp h
    have hfilter : ids.filter (fun b => !b == a) = ids := by
      rw [List.filter_eq_self]
      intro b hb
      simpa using fun heq : b = a => ha (heq ▸ hb)
    rw [List.eraseDups_cons, hfilter, ih hids]

/-- Identifiers are first mentioned where their items are, when all links are between items. -/
theorem mentioned_eq {α : Type} {es : List (Entry α)} {links : List Link}
    (hnodup : (es.filterMap (·.mark.id?)).Nodup)
    (hends : ∀ l ∈ links, l.source ∈ es.filterMap (·.mark.id?) ∧
      l.target ∈ es.filterMap (·.mark.id?)) :
    mentioned es links = es.filterMap (·.mark.id?) := by
  -- links mention no identifier for the first time
  have hrest : (links.flatMap fun l => [l.source, l.target]).removeAll
      (es.filterMap (·.mark.id?)) = [] := by
    rw [List.removeAll, List.filter_eq_nil_iff]
    intro id hid
    obtain ⟨l, hl, hid⟩ := List.mem_flatMap.mp hid
    have hmem : id ∈ es.filterMap (·.mark.id?) := by
      rcases List.mem_cons.mp hid with rfl | hid
      · exact (hends l hl).1
      · rw [List.mem_singleton.mp hid]
        exact (hends l hl).2
    simpa using hmem
  rw [mentioned, List.eraseDups_append, hrest, eraseDups_of_nodup hnodup, List.eraseDups_nil,
    List.append_nil]

/-- In the order of the identifiers the names count up from one. -/
theorem map_shortName {ids : List String} (h : ids.Nodup) :
    ids.map (shortName ids) = (List.range ids.length).map nth := by
  apply List.ext_getElem (by simp)
  intro i hi hi'
  rw [List.length_map] at hi
  simp [shortName_eq_nth, h.idxOf_getElem i hi]

end Names

/-- A box in brackets, on one line when its label is. -/
theorem exists_boxed (label : String) :
    ∃ rest, boxed label = '[' :: (rest ++ [']']) ∧ ('\n' ∉ label.toList → '\n' ∉ rest) := by
  refine ⟨'"' :: label.toList.map (fun c => if c = '"' then '\'' else c) ++ ['"'], ?_, ?_⟩
  · simp [boxed]
  · intro hlabel hmem
    simp only [List.cons_append, List.mem_cons, List.mem_append, List.mem_map, List.not_mem_nil,
      or_false] at hmem
    rcases hmem with h | ⟨c, hc, h⟩ | h
    · exact absurd h (by decide)
    · split at h
      · exact absurd h (by decide)
      · exact hlabel (h ▸ hc)
    · exact absurd h (by decide)

theorem mem_of_mem_squeeze {cs : List Char} {c : Char} (h : c ∈ squeeze cs) : c = ' ' ∨ c ∈ cs := by
  induction cs with
  | nil => cases h
  | cons d cs ih =>
    have htail (h : c ∈ squeeze cs) : c = ' ' ∨ c ∈ d :: cs :=
      (ih h).imp_right (List.mem_cons_of_mem d)
    rw [squeeze] at h
    split at h
    · split at h
      · exact htail h
      · rcases List.mem_cons.mp h with h | h
        · exact .inl h
        · exact htail h
    · rcases List.mem_cons.mp h with h | h
      · exact .inr (h ▸ List.mem_cons_self)
      · exact htail h

/-- A label on a link keeps characters of the label, but none that ends it. -/
theorem mem_cleanLabel {label : List Char} {c : Char} (h : c ∈ cleanLabel label) :
    c = ' ' ∨ c ∈ label ∧ isReserved c = false := by
  refine (mem_of_mem_squeeze (mem_of_mem_trim h)).imp_right fun hmem => ?_
  simpa using List.mem_filter.mp hmem

/-- The text of a link is two names with an arrow between them, and perhaps a label. -/
theorem exists_linkLine (ids : List String) (l : Link) :
    ∃ label, linkLine ids l = "  ".toList ++ (shortName ids l.source ++
        ' ' :: (arrow l.bidirectional ++ (label ++ ' ' :: shortName ids l.target))) ∧
      (label = [] ∨ label = '|' :: cleanLabel (l.label.getD "").toList ++ ['|']) := by
  by_cases hempty : (cleanLabel (l.label.getD "").toList).isEmpty
  · exact ⟨[], by simp [linkLine, arrow, hempty], .inl rfl⟩
  · exact ⟨_, by simp [linkLine, arrow, hempty], .inr rfl⟩

theorem newline_not_mem_shortName (ids : List String) (id : String) : '\n' ∉ shortName ids id :=
  not_mem_identifier (isIdentifier_nth (ids.idxOf id)) (by decide)

section Lines

variable {defaultTitle : String} {d : Document Binary64} (hp : Plain defaultTitle d)
include hp

/-- Every mark of an outline is read from its line. -/
theorem readLine_entryLine (ids : List String) {e : Entry Binary64} (he : e.mark.Shows d) :
    readLine (entryLine ids e) = e.mark.stroke (shortName ids) ∧ '\n' ∉ entryLine ids e := by
  obtain ⟨depth, mark⟩ := e
  have hgap : ∀ c ∈ indent (depth + 1), isBlank c = true := fun c => isBlank_of_mem_indent
  have hline := newline_not_mem_indent (depth + 1)
  cases mark with
  | opened c =>
    have hlabel := (hp.labels c (List.mem_append_left _ he)).2
    obtain ⟨rest, hbox, hrest⟩ := exists_boxed c.label
    have hread := readLine_subgraph hgap (isIdentifier_nth (ids.idxOf c.id)) rest
    have hname := newline_not_mem_shortName ids c.id
    refine ⟨?_, ?_⟩
    · simpa [entryLine, hbox, Mark.stroke, shortName_eq_nth] using hread
    · simp [entryLine, hbox, hline, hname, hrest hlabel]
  | node n =>
    have hlabel := (hp.labels _ (List.mem_append_right _ (List.mem_map_of_mem he))).2
    obtain ⟨rest, hbox, hrest⟩ := exists_boxed n.label
    have hread := readLine_boxed hgap (isIdentifier_nth (ids.idxOf n.id)) (nth_ne_subgraph _) rest
    have hname := newline_not_mem_shortName ids n.id
    refine ⟨?_, ?_⟩
    · simpa [entryLine, hbox, Mark.stroke, shortName_eq_nth] using hread
    · simp [entryLine, hbox, hline, hname, hrest hlabel]
  | closed =>
    refine ⟨readLine_end hgap, ?_⟩
    simp [entryLine, hline]

/-- Every link is read from its line. -/
theorem readLine_linkLine (ids : List String) {l : Link} (hl : l ∈ d.links) :
    readLine (linkLine ids l) =
        .link (shortName ids l.source) (shortName ids l.target) l.bidirectional ∧
      '\n' ∉ linkLine ids l := by
  obtain ⟨label, htext, hlabel⟩ := exists_linkLine ids l
  -- a bar in the label would end it early
  have hclean : '|' ∉ cleanLabel (l.label.getD "").toList := by
    intro hmem
    rcases mem_cleanLabel hmem with h | ⟨-, h⟩
    · exact absurd h (by decide)
    · exact absurd h (by decide)
  have hbars : label = [] ∨ ∃ text, '|' ∉ text ∧ label = '|' :: text ++ ['|'] :=
    hlabel.imp_right fun h => ⟨_, hclean, h⟩
  have hlabelLine : '\n' ∉ label := by
    have hcleanLine : '\n' ∉ cleanLabel (l.label.getD "").toList := by
      intro hmem
      rcases mem_cleanLabel hmem with h | ⟨h, -⟩
      · exact absurd h (by decide)
      · cases hsome : l.label with
        | none => simp [hsome] at h
        | some text => exact (hp.link_labels l hl text hsome).2 (by simpa [hsome] using h)
    rcases hlabel with rfl | rfl
    · simp
    · simp [hcleanLine]
  rw [htext]
  constructor
  · exact readLine_link (forall_mem_of_all (by decide)) (isIdentifier_nth _) (nth_ne_subgraph _)
      (isIdentifier_nth _) hbars l.bidirectional
  · have hsource := newline_not_mem_shortName ids l.source
    have htarget := newline_not_mem_shortName ids l.target
    have harrow : '\n' ∉ arrow l.bidirectional := by
      cases l.bidirectional <;> decide
    simp [hsource, htarget, harrow, hlabelLine]

end Lines

/-- The lines after the header. -/
def body (ids : List String) (d : Document Binary64) (es : List (Entry Binary64)) :
    List (List Char) :=
  es.map (entryLine ids) ++ d.links.map (linkLine ids)

/-- No line of a flowchart is broken in two. -/
theorem lines_unlines {defaultTitle : String} {d : Document Binary64} (hp : Plain defaultTitle d)
    {es : List (Entry Binary64)} (hes : ∀ e ∈ es, e.mark.Shows d) :
    Text.lines (unlines (lines d es)) =
      "flowchart TD".toList :: body (mentioned es d.links) d es := by
  apply splitOn_joinWith (by simp [lines])
  intro l hl
  simp only [lines, List.cons_append, List.mem_cons, List.mem_append, List.mem_map] at hl
  rcases hl with rfl | ⟨e, he, rfl⟩ | ⟨k, hk, rfl⟩
  · decide
  · exact (readLine_entryLine hp _ (hes e he)).2
  · exact (readLine_linkLine hp _ hk).2

/-- Each line after the header is read as its stroke. -/
theorem map_readLine_body {defaultTitle : String} {d : Document Binary64}
    (hp : Plain defaultTitle d) {es : List (Entry Binary64)} (hes : ∀ e ∈ es, e.mark.Shows d)
    (ids : List String) :
    (body ids d es).map readLine = es.map (·.mark.stroke (shortName ids)) ++ d.links.map fun l =>
      .link (shortName ids l.source) (shortName ids l.target) l.bidirectional := by
  rw [body, List.map_append, List.map_map, List.map_map]
  congr 1
  · exact List.map_congr_left fun e he => (readLine_entryLine hp ids (hes e he)).1
  · exact List.map_congr_left fun l hl => (readLine_linkLine hp ids hl).1

/-- An outline mentions every identifier before the links do. -/
theorem mentioned_outline {d : Document Binary64} (hd : d.Resolved)
    {es : List (Entry Binary64)} (hperm : (es.filterMap (·.mark.id?)).Perm (d.items.map (·.id))) :
    mentioned es d.links = es.filterMap (·.mark.id?) :=
  mentioned_eq (hperm.nodup_iff.mpr hd.distinct) fun l hl =>
    ⟨hperm.mem_iff.mpr (hd.ends l hl).1, hperm.mem_iff.mpr (hd.ends l hl).2⟩

/-- Different identifiers have different names. -/
theorem shortName_inj {ids : List String} {a b : String} (ha : a ∈ ids)
    (h : shortName ids a = shortName ids b) : a = b :=
  (List.idxOf_inj ha).mp (nth_injective h)

/-- A document that was read is drawn by its flowchart. The names of its items count up from one in
the order of the lines, links join such names, and there are no lines but the header, two for each
container, and one for each node and each link. -/
theorem draws_flowchart {defaultTitle source : String} {d : Document Binary64}
    (hparse : parse defaultTitle source = .success d) :
    ∃ text rest name around items, render? d = some text ∧
      Text.lines text.toList = "flowchart TD".toList :: rest ∧
      Draws d name name around [] items (rest.map readLine) ∧
      items.map (·.key) = (List.range (d.containers.length + d.nodes.length)).map nth ∧
      (∀ l ∈ d.links,
        name l.source ∈ items.map (·.key) ∧ name l.target ∈ items.map (·.key)) ∧
      (Text.lines text.toList).length =
        1 + 2 * d.containers.length + d.nodes.length + d.links.length := by
  have hp := plain_of_parse hparse
  have hd := resolved_of_parse hparse
  have hparent : ∀ i ∈ d.items, parentOf d i = i.parent := fun i hi => filter_parent hd hi
  obtain ⟨trail, htrail⟩ := exists_trails hd hparent
  obtain ⟨es, hes⟩ := Option.isSome_iff_exists.mp
    (isSome_outline? (parentOf d) hd.nodup_containerIds)
  have hshown := shows_of_outlineWithin? hes
  have hperm := ids_perm hd htrail hes
  set ids := es.filterMap (·.mark.id?) with hids
  have hlines := lines_unlines hp hshown
  rw [mentioned_outline hd hperm, ← String.toList_ofList (l := unlines _), ← hids] at hlines
  -- the outline is read as strokes with short names
  have hnames : ∀ i ∈ d.items, ∀ j ∈ d.items,
      shortName ids i.id = shortName ids j.id → i.id = j.id :=
    fun i hi j _ => shortName_inj (hperm.mem_iff.mpr (List.mem_map_of_mem hi))
  have hlinkless : ∀ st ∈ es.map (·.mark.stroke (shortName ids)), st.isLink = false := by
    intro st hst
    obtain ⟨e, -, rfl⟩ := List.mem_map.mp hst
    exact e.mark.isLink_stroke _
  have hreads : Reads [] (es.map (·.mark.stroke (shortName ids)))
      ([] ++ (held (parentOf d) d (d.containers.length + 1) []).map
        (Place.named (shortName ids))) := reads_of_outline? _ hes
  have hdraws := draws_of_reads hd hparent htrail hnames hreads hlinkless (shortName ids)
  rw [← map_readLine_body hp hshown ids] at hdraws
  have hkeys := map_key_held (shortName ids) hes
  have hcount : ids.length = d.containers.length + d.nodes.length := by
    rw [hperm.length_eq, List.length_map, Document.items, List.length_append, List.length_map]
  refine ⟨_, _, shortName ids, _, _, ?_, hlines, hdraws, ?_, ?_, ?_⟩
  · rw [render?, hes]
    rfl
  · rw [hkeys, map_shortName (hperm.nodup_iff.mpr hd.distinct), hcount]
  · intro l hl
    rw [hkeys]
    exact ⟨List.mem_map_of_mem (hperm.mem_iff.mpr (hd.ends l hl).1),
      List.mem_map_of_mem (hperm.mem_iff.mpr (hd.ends l hl).2)⟩
  · have hlength := length_of_outline? hd htrail hes
    rw [hlines, List.length_cons, body, List.length_append, List.length_map, List.length_map]
    omega

/-- A node two blocks deep, and a link to it that goes both ways, with a bar in its label. -/
theorem draws_flowchart_nested :
    ∃ d text rest name around items,
      parse "Plan" ("container a: \"A\" \x7b\ncontainer b-1: \"B\" \x7b\n" ++
          "node n: \"N\"\n\x7d\n\x7d\nnode m: \"M\"\nm <-> n: \"x | y\"") = .success d ∧
        render? d = some text ∧
        Text.lines text.toList = "flowchart TD".toList :: rest ∧
        Draws d name name around [] items (rest.map readLine) ∧
        items.map (·.key) = ["nd1".toList, "nd2".toList, "nd3".toList, "nd4".toList] ∧
        (Text.lines text.toList).length = 8 := by
  have hcheck : (parse "Plan"
      ("container a: \"A\" \x7b\ncontainer b-1: \"B\" \x7b\n" ++
        "node n: \"N\"\n\x7d\n\x7d\nnode m: \"M\"\nm <-> n: \"x | y\"")).document?.any (fun d =>
          d.containers.length = 2 ∧ d.nodes.length = 2 ∧ d.links.length = 1) = true := by
    decide +kernel
  obtain ⟨d, hd, hlengths⟩ := (Option.any_eq_true _ _).mp hcheck
  rw [decide_eq_true_eq] at hlengths
  obtain ⟨hcontainers, hnodes, hlinks⟩ := hlengths
  have hread := parse_eq_success_of_document? hd
  obtain ⟨text, rest, name, around, items, hrender, hlines, hdraws, hkeys, -, hlength⟩ :=
    draws_flowchart hread
  refine ⟨d, text, rest, name, around, items, hread, hrender, hlines, hdraws, ?_, ?_⟩
  · rw [hkeys, hcontainers, hnodes]
    decide
  · rw [hlength, hcontainers, hnodes, hlinks]

end ArchDiagram.Render.Mermaid
