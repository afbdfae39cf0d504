import ArchDiagram.Proofs.D2Statements
import ArchDiagram.Proofs.SettledIcons

/-!
Diagrams and advice agree on icons. Both look up the icons of the nodes in a registry that either of
them may load, so each finds the registry as the other left it. That makes no difference to what
they say, and a node has advice on its icon exactly when it is drawn without one.
-/

namespace ArchDiagram

open Text Source Icon

section Nodes

variable {α : Type} {d : Document α} {n : Node α}

/-- A node is given by its identifier. -/
theorem Document.Resolved.node_eq (hd : d.Resolved) (hn : n ∈ d.nodes) {n' : Node α}
    (hn' : n' ∈ d.nodes) (hid : n'.id = n.id) : n' = n :=
  List.inj_on_of_nodup_map (List.nodup_append.mp hd.nodup_ids).2.1 hn' hn hid

namespace Render

/-- The only mark with the identifier of a node shows the node. -/
theorem Mark.id?_eq_iff (hd : d.Resolved) (hn : n ∈ d.nodes) {m : Mark α} (hm : m.Shows d) :
    m.id? = some n.id ↔ m = .node n := by
  refine ⟨fun hid => ?_, fun hnode => by rw [hnode, id?]⟩
  cases m with
  | opened c =>
    have hapart := (List.nodup_append.mp hd.nodup_ids).2.2 _ (List.mem_map_of_mem hm) _
      (List.mem_map_of_mem hn)
    exact absurd (Option.some.inj hid) hapart
  | node n' => rw [hd.node_eq hn hm (Option.some.inj hid)]
  | closed => cases hid

/-- The mark of a node is the only one that draws its name. -/
theorem Mark.stroke_eq_item_iff {κ : Type} {name : String → κ} (hd : d.Resolved) (hn : n ∈ d.nodes)
    (hname : ∀ i ∈ d.items, name i.id = name n.id → i.id = n.id) {m : Mark α} (hm : m.Shows d) :
    m.stroke name = .item (name n.id) ↔ m = .node n := by
  refine ⟨fun hstroke => ?_, fun hnode => by rw [hnode, stroke]⟩
  cases m with
  | opened => cases hstroke
  | node n' =>
    have hid := hname n'.toItem (Document.toItem_mem_items hm) (Stroke.item.inj hstroke)
    rw [hd.node_eq hn hm hid]
  | closed => cases hstroke

/-- An outline shows every node once. -/
theorem exists_entry {parentOf : Item α → Option String} (hd : d.Resolved)
    (hparent : ∀ i ∈ d.items, parentOf i = i.parent) {es : List (Entry α)}
    (hes : outline? parentOf d = some es) (hn : n ∈ d.nodes) :
    ∃ depth, es.filter (·.mark.id? == some n.id) = [⟨depth, .node n⟩] := by
  obtain ⟨trail, htrail⟩ := exists_trails hd hparent
  have hids := ids_perm hd htrail hes
  have hmem : n.id ∈ d.items.map (·.id) :=
    List.mem_map.mpr ⟨n.toItem, Document.toItem_mem_items hn, rfl⟩
  -- identifiers are shown once each, so one mark has that of the node
  have hcount : (es.filterMap (·.mark.id?)).count n.id = 1 :=
    List.count_eq_one_of_mem (hids.nodup_iff.mpr hd.distinct) (hids.mem_iff.mpr hmem)
  rw [List.count_filterMap, List.countP_eq_length_filter, List.length_eq_one_iff] at hcount
  obtain ⟨⟨depth, mark⟩, he⟩ := hcount
  have hentry : (⟨depth, mark⟩ : Entry α) ∈ es.filter (·.mark.id? == some n.id) := by
    rw [he]
    exact List.mem_singleton_self _
  obtain ⟨hshown, hid⟩ := List.mem_filter.mp hentry
  have hshows := shows_of_outlineWithin? hes _ hshown
  obtain rfl : mark = .node n := (Mark.id?_eq_iff hd hn hshows).mp (beq_iff_eq.mp hid)
  exact ⟨depth, he⟩

/-- An outline shows a node with some property exactly when the document has one. -/
theorem all_node?_eq {parentOf : Item α → Option String} (hd : d.Resolved)
    (hparent : ∀ i ∈ d.items, parentOf i = i.parent) {es : List (Entry α)}
    (hes : outline? parentOf d = some es) (p : Node α → Bool) :
    (es.all fun e => !e.mark.node?.any p) = d.nodes.all (!p ·) := by
  rw [Bool.eq_iff_iff, List.all_eq_true, List.all_eq_true]
  constructor
  · intro h n hn
    obtain ⟨depth, hentry⟩ := exists_entry hd hparent hes hn
    have hmem : (⟨depth, .node n⟩ : Entry α) ∈ es :=
      List.mem_of_mem_filter (hentry ▸ List.mem_singleton_self _)
    exact h _ hmem
  · intro h e he
    have hshows := shows_of_outlineWithin? hes e he
    obtain ⟨depth, mark⟩ := e
    cases mark with
    | opened => rfl
    | node n => exact h n hshows
    | closed => rfl

end Render

end Nodes

namespace Render.D2

/-- The icons among the parts in braces, each of which is a name and a value. -/
def iconValues : List (List Char) → List (List Char)
  | name :: value :: ws =>
    if name = "icon:".toList then value :: iconValues ws else iconValues ws
  | _ => []

/-- What follows the label in a line. -/
def afterLabel (line : List Char) : List Char :=
  afterQuote .inside ((((trim line).dropWhile isKeyChar).dropWhile (· != '"')).drop 1)

/-- The icons in a line: they stand in the braces after its label. -/
def iconParts (line : List Char) : List (List Char) :=
  iconValues ((words (afterLabel line)).drop 1)

section Line

variable {α : Type} {n : Node α} {icon : Option String}

/-- What follows the label of a node. -/
def styleText (icon : Option String) : List Char :=
  if (styles icon).isEmpty then []
  else " \x7b ".toList ++ joinWith "; ".toList (styles icon) ++ " \x7d".toList

theorem nodeText_eq (n : Node α) (icon : Option String) :
    nodeText n icon =
      key n.id ++ ':' :: ' ' :: '"' :: (escape n.label.toList ++ '"' :: styleText icon) := by
  dsimp only [nodeText, styleText]
  split <;> simp [quoted]

theorem afterLabel_nodeText (hid : isIdentifier n.id.toList = true) (depth : Nat) :
    afterLabel (indent depth ++ nodeText n icon) = styleText icon := by
  have hkey : ∀ c ∈ key n.id, isKeyChar c = true :=
    fun c hc => (isKeyChar_of_isPathChar (isPathChar_of_mem_key hid hc)).1
  obtain ⟨rest, last, htext, hlast⟩ := exists_nodeText n icon
  have htrim : trim (indent depth ++ nodeText n icon) = nodeText n icon := by
    have hend : isBlank last = false := by
      rcases hlast with rfl | rfl <;> decide
    have htrimmed := trimmed_concat (key_ne_nil hid)
      (fun c hc => (ne_of_isKeyChar (hkey c hc)).1) (':' :: rest) hend
    rw [htext]
    exact htrimmed.trim_append fun c => isBlank_of_mem_indent
  have hdrop := ((span_eq_iff rfl).mpr ⟨nodeText_eq n icon, hkey⟩).2
  rw [afterLabel, htrim, hdrop]
  exact afterQuote_escape n.label.toList (styleText icon)

/-- A text that is one word. -/
def IsWord (w : List Char) : Prop :=
  w ≠ [] ∧ ∀ c ∈ w, isBlank c = false

/-- A node is drawn with its icon, unless that is the generic one. -/
theorem iconParts_nodeText (hid : isIdentifier n.id.toList = true) (hicon : ∀ i ∈ icon, Bare i)
    (depth : Nat) :
    iconParts (indent depth ++ nodeText n icon) =
      ((icon.filter (· != Icon.generic)).map (·.toList)).toList := by
  have hread (ws : List (List Char)) (htext : styleText icon = ws.flatMap (' ' :: ·))
      (hws : ws.Forall IsWord) :
      iconParts (indent depth ++ nodeText n icon) = iconValues (ws.drop 1) := by
    rw [List.forall_iff_forall_mem] at hws
    rw [iconParts, afterLabel_nodeText hid, htext,
      words_flatMap (fun w hw => (hws w hw).1) fun w hw => (hws w hw).2]
  have hopen : IsWord ['{'] := ⟨by decide, forall_mem_of_all (by decide)⟩
  have hclose : IsWord ['}'] := ⟨by decide, forall_mem_of_all (by decide)⟩
  have hshape : IsWord "shape:".toList := ⟨by decide, forall_mem_of_all (by decide)⟩
  have himage : IsWord "icon:".toList := ⟨by decide, forall_mem_of_all (by decide)⟩
  have hvalue {i : String} (hi : icon.filter (· != Icon.generic) = some i) : IsWord i.toList := by
    obtain ⟨hn, hbare⟩ := hicon i (Option.filter_eq_some_iff.mp hi).1
    exact ⟨by simpa using hn, fun c hc => (hbare c hc).1⟩
  have hform {s : String} (hs : icon.bind shape? = some s) : IsWord s.toList ∧
      IsWord (s.toList ++ [';']) := by
    obtain ⟨i, -, hs⟩ := Option.bind_eq_some_iff.mp hs
    have hn := ne_nil_of_isIdentifier (isIdentifier_shape hs)
    have hblank := isBlank_of_mem_identifier (isIdentifier_shape hs)
    exact ⟨⟨hn, hblank⟩, List.append_ne_nil_of_left_ne_nil hn _,
      List.forall_mem_append.mpr ⟨hblank, forall_mem_of_all (by decide)⟩⟩
  -- either part may be missing, and what is left is a list of words in each case
  cases hs : icon.bind shape? with
  | none =>
    cases hi : icon.filter (· != Icon.generic) with
    | none => exact hread [] (by simp [styleText, styles, hs, hi]) trivial
    | some i =>
      exact hread [['{'], "icon:".toList, i.toList, ['}']]
        (by simp [styleText, styles, hs, hi, joinWith]) ⟨hopen, himage, hvalue hi, hclose⟩
  | some s =>
    cases hi : icon.filter (· != Icon.generic) with
    | none =>
      exact hread [['{'], "shape:".toList, s.toList, ['}']]
        (by simp [styleText, styles, hs, hi, joinWith]) ⟨hopen, hshape, (hform hs).1, hclose⟩
    | some i =>
      exact hread [['{'], "shape:".toList, s.toList ++ [';'], "icon:".toList, i.toList, ['}']]
        (by simp [styleText, styles, hs, hi, joinWith])
        ⟨hopen, hshape, (hform hs).2, himage, hvalue hi, hclose⟩

end Line

/-- The lines that show an item, among those after the keys set first. Each of these keys has a line
and an empty one below. -/
def linesOf {α : Type} (d : Document α) (text id : String) : List (List Char) :=
  ((statements text.toList).drop (2 * (headKeys d).length)).filter (readLine · == .item (key id))

theorem drop_lines {α : Type} (d : Document α) (body : List (List Char)) :
    (lines d body).drop (2 * (headKeys d).length) = body ++ [[]] ++ d.links.map (linkLine d) := by
  have hlength : (["direction: right".toList, []] ++ titleLines d.title).length =
      2 * (headKeys d).length := by
    unfold titleLines headKeys
    split <;> rfl
  rw [lines, List.append_assoc, List.append_assoc, ← hlength, List.drop_left, List.append_assoc]

section Read

variable {defaultTitle source : String} {d : Document Binary64} {l : Loader}

/-- A node is shown on one line, with the icon that the loader gives it. -/
theorem linesOf_node (hparse : parse defaultTitle source = .success d)
    {es : List (Entry Binary64)} (hes : outline? (fun i => parentOfId d i.id) d = some es)
    {text : String} (htext : statements text.toList = lines d (entryLines l.ready es).1)
    {n : Node Binary64} (hn : n ∈ d.nodes) :
    ∃ depth, linesOf d text n.id = [indent depth ++ nodeText n (resolveIcon l.ready n).1] := by
  have hp := plain_of_parse hparse
  have hd := resolved_of_parse hparse
  have hshows := shows_of_outlineWithin? hes
  obtain ⟨depth, hentry⟩ := exists_entry hd (fun i hi => parentOfId_eq hd hi) hes hn
  have hitem := Document.toItem_mem_items hn
  have hlines : (entryLines l.ready es).1 = es.map fun e => (entryLine l.ready e).1 :=
    (entryLines_of_settled l.settled_ready es).1
  have hbody : (es.map fun e => (entryLine l.ready e).1).filter (readLine · == .item (key n.id)) =
      [indent depth ++ nodeText n (resolveIcon l.ready n).1] := by
    rw [List.filter_map, List.filter_congr (q := (·.mark.id? == some n.id)), hentry]
    · rfl
    · intro e he
      rw [Function.comp_apply, readLine_entryLine hp (hshows e he), Bool.eq_iff_iff, beq_iff_eq,
        beq_iff_eq, Mark.id?_eq_iff hd hn (hshows e he)]
      exact Mark.stroke_eq_item_iff hd hn (fun i hi => key_injective (hp.ids i hi) (hp.ids _ hitem))
        (hshows e he)
  have hlinks : (d.links.map (linkLine d)).filter (readLine · == .item (key n.id)) = [] := by
    rw [List.filter_eq_nil_iff]
    intro line hline
    obtain ⟨k, hk, rfl⟩ := List.mem_map.mp hline
    rw [(readLine_linkLine hp hd hk).1]
    exact Bool.false_ne_true
  have hblank : [([] : List Char)].filter (readLine · == .item (key n.id)) = [] := rfl
  refine ⟨depth, ?_⟩
  rw [linesOf, htext, drop_lines, List.filter_append, List.filter_append, hlinks, hblank, hlines,
    hbody]
  rfl

/-- The line of a node has its icon, or the icon is doubted and the line has none. -/
theorem iconParts_line (hparse : parse defaultTitle source = .success d)
    {es : List (Entry Binary64)} (hes : outline? (fun i => parentOfId d i.id) d = some es)
    {text : String} (htext : statements text.toList = lines d (entryLines l.ready es).1)
    (strict : Bool) {n : Node Binary64} (hn : n ∈ d.nodes) {tag : String}
    (hicon : n.icon = some tag) (htag : tag ≠ "") (hgeneric : tag ≠ Icon.generic) :
    ∃ line, linesOf d text n.id = [line] ∧
      ((Lint.check strict l.ready d).1.Doubts n.id ↔ iconParts line = []) ∧
      (iconParts line ≠ [] → iconParts line = [tag.toList]) := by
  have hp := plain_of_parse hparse
  have hd := resolved_of_parse hparse
  have hitem := Document.toItem_mem_items hn
  obtain ⟨depth, hline⟩ := linesOf_node hparse hes htext hn
  have hbare : ∀ i ∈ (resolveIcon l.ready n).1, Bare i := by
    intro i hi
    rcases resolveIcon_eq l.ready n hi with rfl | hown
    · exact ⟨by decide, forall_mem_of_all (by decide)⟩
    · exact hp.icons n hn i hown
  have hdrawn : (resolveIcon l.ready n).1 = some (l.ready.resolve tag).1 := by
    have hfilled : n.icon.filter (!·.isEmpty) = some tag :=
      Option.filter_eq_some_iff.mpr ⟨hicon, by simpa using htag⟩
    rw [resolveIcon, hfilled]
  have hdoubts : (Lint.check strict l.ready d).1.Doubts n.id ↔ (l.ready.resolve tag).1 ≠ tag := by
    rw [Lint.doubts_iff l.settled_ready]
    constructor
    · rintro ⟨n', hn', hid, tag', hicon', -, hne⟩
      obtain rfl := hd.node_eq hn hn' hid
      obtain rfl : tag' = tag := Option.some.inj (hicon'.symm.trans hicon)
      exact hne
    · exact fun hne => ⟨n, hn, rfl, tag, hicon, htag, hne⟩
  refine ⟨_, hline, ?_⟩
  rw [hdoubts, iconParts_nodeText (hp.ids _ hitem) hbare, hdrawn, l.resolve_ready htag]
  cases (Status.loaded l.catalog).knows tag <;> simp [hgeneric, Ne.symm hgeneric]

/-- The registry after drawing a document or looking for advice on it. It is loaded if it was, or if
some node has an icon that is not a base icon. -/
structure Leaves (l : Loader) (d : Document Binary64) (r after : Registry) : Prop where
  settled : Settled l after
  loaded : after.status = .loaded l.catalog ↔ r.status = .loaded l.catalog ∨
    ∃ n ∈ d.nodes, ∃ tag, n.icon = some tag ∧ tag ≠ "" ∧ isBase tag = false

theorem Leaves.trans {r between after : Registry} (h : Leaves l d r between)
    (h' : Leaves l d between after) : Leaves l d r after :=
  ⟨h'.settled, by rw [h'.loaded, h.loaded, or_assoc, or_self]⟩

theorem leaves_of_isUnloaded {r after : Registry} (h : Settled l r) (hafter : Settled l after)
    (hunloaded : after.status.isUnloaded =
      (r.status.isUnloaded && d.nodes.all (!asksCatalog ·))) : Leaves l d r after := by
  refine ⟨hafter, ?_⟩
  rw [← hafter.isUnloaded_eq_false_iff, hunloaded, Bool.and_eq_false_iff, h.isUnloaded_eq_false_iff,
    List.all_eq_false]
  simp only [Bool.not_eq_true', Bool.not_eq_false, asksCatalog_iff]

/-- The diagram and the advice that a registry leads to, whichever comes first. -/
structure EitherOrder (l : Loader) (d : Document Binary64) (strict : Bool) (text : String)
    (report : Lint.Report) (r : Registry) : Prop where
  diagramFirst : ∃ between after, render? r d = some (text, between) ∧ Leaves l d r between ∧
    Lint.check strict between d = (report, after) ∧ Leaves l d r after
  adviceFirst : ∃ between after, Lint.check strict r d = (report, between) ∧ Leaves l d r between ∧
    render? between d = some (text, after) ∧ Leaves l d r after

/-- What is drawn and advised does not depend on what the registry has gone through. A node has
advice on its icon exactly when its line has no icon, and otherwise the line has that icon. -/
theorem icons_of_diagram (hparse : parse defaultTitle source = .success d) (l : Loader)
    (strict : Bool) :
    ∃ text report, (∀ r, Settled l r → EitherOrder l d strict text report r) ∧
      ∀ n ∈ d.nodes, ∀ tag, n.icon = some tag → tag ≠ "" → tag ≠ Icon.generic →
        ∃ line, linesOf d text n.id = [line] ∧ (report.Doubts n.id ↔ iconParts line = []) ∧
          (iconParts line ≠ [] → iconParts line = [tag.toList]) := by
  have hd := resolved_of_parse hparse
  obtain ⟨es, hes, -, hstatements⟩ := exists_outline hparse
  set text := String.ofList (unlines (lines d (entryLines l.ready es).1)) with htext
  have hdraw {r : Registry} (h : Settled l r) :
      ∃ after, render? r d = some (text, after) ∧ Leaves l d r after := by
    obtain ⟨hlines, hsettled, hunloaded⟩ := entryLines_of_settled h es
    have hready := (entryLines_of_settled l.settled_ready es).1
    rw [all_node?_eq hd (fun i hi => parentOfId_eq hd hi) hes] at hunloaded
    refine ⟨_, ?_, leaves_of_isUnloaded h hsettled hunloaded⟩
    rw [render?, hes, Option.map_some, htext, hready, ← hlines]
  have hadvise {r : Registry} (h : Settled l r) : ∃ after,
      Lint.check strict r d = ((Lint.check strict l.ready d).1, after) ∧ Leaves l d r after := by
    obtain ⟨hreport, hsettled, hunloaded⟩ := Lint.check_of_settled h strict d
    exact ⟨(Lint.check strict r d).2, Prod.ext hreport rfl,
      leaves_of_isUnloaded h hsettled hunloaded⟩
  -- each pass leaves a settled registry, so the other can come after it
  refine ⟨text, (Lint.check strict l.ready d).1, fun r h => ⟨?_, ?_⟩, ?_⟩
  · obtain ⟨between, hrender, hbetween⟩ := hdraw h
    obtain ⟨after, hcheck, hafter⟩ := hadvise hbetween.settled
    exact ⟨between, after, hrender, hbetween, hcheck, hbetween.trans hafter⟩
  · obtain ⟨between, hcheck, hbetween⟩ := hadvise h
    obtain ⟨after, hrender, hafter⟩ := hdraw hbetween.settled
    exact ⟨between, after, hcheck, hbetween, hrender, hbetween.trans hafter⟩
  · have hlines : statements text.toList = lines d (entryLines l.ready es).1 := by
      rw [htext, String.toList_ofList, hstatements]
    exact fun n hn tag hicon htag hgeneric =>
      iconParts_line hparse hes hlines strict hn hicon htag hgeneric

end Read

/-- A base icon, an icon of the catalog and one that no registry knows. -/
theorem icons_of_diagram_unknown :
    ∃ d text report,
      parse "Plan" "node a: \"A\" icon=User\nnode b: \"B\" icon=AwsS3\nnode c: \"C\" icon=Nope" =
          .success d ∧
        (∀ r, Settled .builtin r → EitherOrder .builtin d true text report r) ∧
        d.nodes.map (fun n => (linesOf d text n.id).map iconParts) =
          [[["User".toList]], [["AwsS3".toList]], [[]]] ∧
        report.Doubts "c" := by
  let c : Node Binary64 := { id := "c", label := "C", icon := some "Nope" }
  let d : Document Binary64 :=
    { title := "Plan"
      nodes := [{ id := "a", label := "A", icon := some "User" },
        { id := "b", label := "B", icon := some "AwsS3" }, c] }
  have hparse : parse "Plan"
      "node a: \"A\" icon=User\nnode b: \"B\" icon=AwsS3\nnode c: \"C\" icon=Nope" =
        .success d := by
    rfl
  obtain ⟨text, report, hregistries, hnodes⟩ := icons_of_diagram hparse .builtin true
  have hdrawn : (render? {} d).any (fun drawn =>
      d.nodes.map (fun n => (linesOf d drawn.1 n.id).map iconParts) =
        [[["User".toList]], [["AwsS3".toList]], [[]]]) = true := by
    decide +kernel
  obtain ⟨between, -, hrender, -⟩ := (hregistries {} ⟨rfl, .inl rfl⟩).diagramFirst
  rw [hrender, Option.any_some, decide_eq_true_eq] at hdrawn
  obtain ⟨line, hline, hdoubts, -⟩ := hnodes c (by simp [d]) "Nope" rfl (by decide) (by decide)
  have hnone : (linesOf d text "c").map iconParts = [[]] := by
    simp only [d, c, List.map_cons, List.cons.injEq] at hdrawn
    exact hdrawn.2.2.1
  refine ⟨d, text, report, hparse, hregistries, hdrawn, hdoubts.mpr ?_⟩
  rw [hline] at hnone
  simpa using hnone

end Render.D2

end ArchDiagram
