import ArchDiagram.Proofs.Forms
import ArchDiagram.Proofs.Search
import ArchDiagram.Text.Run

/-!
The grammar of links: an identifier, an arrow, an identifier, and possibly a colon and a quoted
label. An identifier may end with the hyphen that an arrow begins with, and a label may hold arrows
and colons; still a text has at most one decomposition of this form, a link is read if and only if
its text has one, and what is read comes from there.
-/

namespace ArchDiagram.Source

open Text

theorem chars_twoWay : Arrow.twoWay.chars = ['<', '-', '>'] :=
  rfl

theorem chars_oneWay : Arrow.oneWay.chars = ['-', '>'] :=
  rfl

theorem arrowAt?_eq_none {c : Char} {cs : List Char} (hc : c ≠ '<')
    (hn : c ≠ '-' ∨ cs.head? ≠ some '>') : arrowAt? (c :: cs) = none := by
  have htwo : Arrow.twoWay.chars.isPrefixOf (c :: cs) = false := by
    rw [chars_twoWay, List.isPrefixOf, beq_eq_false_iff_ne.mpr hc.symm, Bool.false_and]
  have hone : Arrow.oneWay.chars.isPrefixOf (c :: cs) = false := by
    rw [chars_oneWay, List.isPrefixOf]
    rcases hn with hn | hn
    · rw [beq_eq_false_iff_ne.mpr hn.symm, Bool.false_and]
    · cases cs with
      | nil => exact Bool.and_false _
      | cons d cs =>
        have hd : d ≠ '>' := fun h => hn (by simp [h])
        rw [List.isPrefixOf, beq_eq_false_iff_ne.mpr hd.symm, Bool.false_and, Bool.and_false]
  unfold arrowAt?
  rw [htwo, hone]
  rfl

/-- An arrow is found where it stands. -/
theorem exists_of_findArrow {cs : List Char} {i : Nat} {r : Arrow}
    (h : findArrow cs = some (i, r)) :
    ∃ before after, cs = before ++ (r.chars ++ after) ∧ before.length = i := by
  obtain ⟨m, rest, hr, -⟩ := exists_cons_chars r
  have hhere := (findArrow_eq_some_iff.mp h).1
  rw [hr] at hhere ⊢
  exact exists_of_prefix_drop hhere

/-- No arrow begins in a text without quotes and without the characters `<` and `>`, unless its last
hyphen belongs to one. -/
theorem findArrow_append {cs rest : List Char} (hcs : ∀ c ∈ cs, c ≠ '"' ∧ c ≠ '<' ∧ c ≠ '>')
    (hrest : rest.head? ≠ some '>') :
    findArrow (cs ++ rest) = (findArrow rest).map fun (i, r) => (i + cs.length, r) := by
  unfold findArrow
  induction cs with
  | nil => simp
  | cons c cs ih =>
    obtain ⟨hq, hlt, -⟩ := hcs c (by simp)
    have htail : ∀ d ∈ cs, d ≠ '"' ∧ d ≠ '<' ∧ d ≠ '>' := fun d hd => hcs d (by simp [hd])
    -- even if this character is a hyphen, no `>` comes next
    have hnext : (cs ++ rest).head? ≠ some '>' := by
      cases cs with
      | nil => exact hrest
      | cons d cs => simpa using (htail d (by simp)).2.2
    rw [List.cons_append, findArrow.search, if_neg hq, if_neg (by decide),
      arrowAt?_eq_none hlt (.inr hnext), ih htail]
    simp [findArrow.later, Function.comp_def, Nat.add_assoc]

theorem findArrow_arrow (r : Arrow) (rest : List Char) :
    findArrow (r.chars ++ rest) = some (0, r) := by
  cases r <;> rfl

theorem exists_of_findColon {cs : List Char} {i : Nat} (h : findOutsideQuotes [':'] cs = some i) :
    ∃ before after, cs = before ++ ':' :: after ∧ before.length = i :=
  exists_of_prefix_drop ((findOutsideQuotes_eq_some_iff (by decide)).mp h).here

/-- There is no colon in a text without one. -/
theorem findColon_append {cs : List Char} (hcs : ∀ c ∈ cs, c ≠ '"' ∧ c ≠ ':')
    (rest : List Char) :
    findOutsideQuotes [':'] (cs ++ rest) =
      (findOutsideQuotes [':'] rest).map (· + cs.length) := by
  unfold findOutsideQuotes
  induction cs with
  | nil => simp
  | cons c cs ih =>
    obtain ⟨hq, hcolon⟩ := hcs c (by simp)
    rw [List.cons_append, findOutsideQuotes.search, if_neg hq, ih fun d hd => hcs d (by simp [hd])]
    simp [hcolon.symm, Function.comp_def, Nat.add_assoc]

theorem readEnd_eq_ok_iff {which : LinkEnd} {r : Arrow} {cs : List Char} {id : String} :
    readEnd which r cs = .ok id ↔
      isIdentifier (trim cs) = true ∧ id = String.ofList (trim cs) := by
  unfold readEnd
  dsimp only
  constructor
  · intro h
    split at h
    · cases h
    · split at h
      · cases h
      · rename_i hid
        cases h
        exact ⟨by simpa using hid, rfl⟩
  · rintro ⟨hid, rfl⟩
    have hne : (trim cs).isEmpty = false := by simpa using ne_nil_of_isIdentifier hid
    rw [hne, hid]
    rfl

theorem readEnd_of_trim {which : LinkEnd} {r : Arrow} {cs id : List Char} (ht : trim cs = id)
    (hid : isIdentifier id = true) : readEnd which r cs = .ok (String.ofList id) :=
  readEnd_eq_ok_iff.mpr ⟨ht.symm ▸ hid, by rw [ht]⟩

/-- The label after a colon: a quoted text between blanks. -/
theorem readLinkLabel_eq_ok_iff {source target label : String} {r : Arrow} {cs : List Char} :
    readLinkLabel source r target cs = .ok label ↔
      ∃ gap text after : List Char, (∀ c ∈ gap, isBlank c = true) ∧ '"' ∉ text ∧
        (∀ c ∈ after, isBlank c = true) ∧ cs = gap ++ '"' :: (text ++ '"' :: after) ∧
          label = String.ofList text := by
  constructor
  · intro h
    obtain ⟨gap, hgap, hcs⟩ := exists_margin_left cs
    unfold readLinkLabel at h
    split at h
    · cases h
    · rename_i body hbody
      split at h
      · cases h
      · rename_i text after hclose
        obtain ⟨hbody', hq⟩ := closeQuote?_eq_some_iff.mp hclose
        split at h
        · rename_i hafter
          cases h
          refine ⟨gap, text, after, hgap, hq, ?_, ?_, rfl⟩
          · exact (trim_eq_nil_iff after).mp (by simpa using hafter)
          · rw [← hbody', ← hbody, ← hcs]
        · cases h
    · cases h
  · rintro ⟨gap, text, after, hgap, hq, hafter, rfl, rfl⟩
    have hclose : closeQuote? (text ++ '"' :: after) = some (text, after) :=
      closeQuote?_eq_some_iff.mpr ⟨rfl, hq⟩
    have hend : trim after = [] := (trim_eq_nil_iff after).mpr hafter
    unfold readLinkLabel
    simp [trimLeft_append_cons hgap (m := '"') rfl, hclose, hend]

/-- The pieces of a label, from the end of the target on. -/
structure LabelParts where
  beforeColon : List Char
  beforeText : List Char
  text : List Char

structure LabelParts.Grammatical (l : LabelParts) : Prop where
  beforeColon : ∀ c ∈ l.beforeColon, isBlank c = true
  beforeText : ∀ c ∈ l.beforeText, isBlank c = true
  text : '"' ∉ l.text

/-- The pieces of a link, in their order, with the margins of its line. -/
structure LinkParts where
  before : List Char
  source : List Char
  beforeArrow : List Char
  arrow : Arrow
  afterArrow : List Char
  target : List Char
  label : Option LabelParts
  after : List Char

namespace LinkParts

/-- What stands before the arrow. -/
def left (p : LinkParts) : List Char :=
  p.before ++ (p.source ++ p.beforeArrow)

/-- What stands behind the target. -/
def fromLabel (p : LinkParts) : List Char :=
  match p.label with
  | none => p.after
  | some l => l.beforeColon ++ ':' :: (l.beforeText ++ '"' :: (l.text ++ '"' :: p.after))

def text (p : LinkParts) : List Char :=
  p.left ++ (p.arrow.chars ++ (p.afterArrow ++ (p.target ++ p.fromLabel)))

/-- The grammar of links. -/
structure Grammatical (p : LinkParts) : Prop where
  before : ∀ c ∈ p.before, isBlank c = true
  source : isIdentifier p.source = true
  beforeArrow : ∀ c ∈ p.beforeArrow, isBlank c = true
  afterArrow : ∀ c ∈ p.afterArrow, isBlank c = true
  target : isIdentifier p.target = true
  label : ∀ l ∈ p.label, l.Grammatical
  after : ∀ c ∈ p.after, isBlank c = true

/-- The link that a decomposition stands for. -/
def statement (p : LinkParts) (line : Int) : LinkStatement :=
  { source := String.ofList p.source
    target := String.ofList p.target
    line := line
    bidirectional := p.arrow = .twoWay
    label := p.label.map fun l => String.ofList l.text }

variable {p q : LinkParts}

/-- Identifiers and blanks hold no marks. -/
theorem ne_of_identifier_or_blank {id gap : List Char} (hid : isIdentifier id = true)
    (hgap : ∀ c ∈ gap, isBlank c = true) {m : Char} (hchar : isIdentifierChar m = false)
    (hblank : isBlank m = false) : ∀ c ∈ id ++ gap, c ≠ m := by
  rintro c hc rfl
  rcases List.mem_append.mp hc with hc | hc
  · exact not_mem_identifier hid hchar hc
  · rw [hgap c hc] at hblank
    cases hblank

/-- Before the arrow of a link there is no other. -/
theorem Grammatical.findArrow_eq (h : p.Grammatical) :
    findArrow p.text = some (p.left.length, p.arrow) := by
  have hleft : ∀ c ∈ p.left, c ≠ '"' ∧ c ≠ '<' ∧ c ≠ '>' := by
    intro c hc
    rcases List.mem_append.mp hc with hc | hc
    · have hblank := h.before c hc
      refine ⟨?_, ?_, ?_⟩ <;> rintro rfl <;> cases hblank
    · have hne {m : Char} := @ne_of_identifier_or_blank _ _ h.source h.beforeArrow m
      exact ⟨hne rfl rfl c hc, hne rfl rfl c hc, hne rfl rfl c hc⟩
  have hhead : (p.arrow.chars ++ (p.afterArrow ++ (p.target ++ p.fromLabel))).head? ≠ some '>' := by
    cases p.arrow <;> simp [chars_oneWay, chars_twoWay]
  rw [text, findArrow_append hleft hhead, findArrow_arrow]
  simp

theorem Grammatical.head_fromLabel (h : p.Grammatical) :
    ∀ c ∈ p.fromLabel.head?, isIdentifierChar c = false := by
  unfold fromLabel
  split
  · exact fun c hc => not_isIdentifierChar_of_blank (h.after c (List.mem_of_mem_head? hc))
  · rename_i l hl
    exact head_append_of_blank (h.label l hl).beforeColon (by simp [isIdentifierChar])

/-- A label begins with a colon, which no margin holds. -/
theorem Grammatical.label_unique (hp : p.Grammatical) (hq : q.Grammatical)
    (h : p.fromLabel = q.fromLabel) : p.label = q.label ∧ p.after = q.after := by
  have hcolon {p q : LinkParts} (hp : p.Grammatical) {l : LabelParts} (hnone : p.label = none)
      (hsome : q.label = some l) : p.fromLabel ≠ q.fromLabel := by
    intro h
    have hmem : ':' ∈ p.after := by
      simp only [fromLabel, hnone, hsome] at h
      simp [h]
    cases hp.after _ hmem
  have hquote {l : LabelParts} (hl : l.Grammatical) : ∀ c ∈ l.text, (c != '"') = true := by
    intro c hc
    simpa using fun he : c = '"' => hl.text (he ▸ hc)
  cases hpl : p.label with
  | none =>
    cases hql : q.label with
    | none => exact ⟨rfl, by simpa only [fromLabel, hpl, hql] using h⟩
    | some l => exact absurd h (hcolon hp hpl hql)
  | some k =>
    cases hql : q.label with
    | none => exact absurd h.symm (hcolon hq hql hpl)
    | some l =>
      have hk := hp.label k hpl
      have hl := hq.label l hql
      simp only [fromLabel, hpl, hql] at h
      obtain ⟨hbefore, h⟩ := cut_unique hk.beforeColon (by simp [isBlank]) hl.beforeColon
        (by simp [isBlank]) h
      obtain ⟨hgap, h⟩ := cut_unique hk.beforeText (by simp [isBlank]) hl.beforeText
        (by simp [isBlank]) (List.cons.inj h).2
      obtain ⟨htext, h⟩ := cut_unique (p := (· != '"')) (hquote hk) (by simp) (hquote hl) (by simp)
        (List.cons.inj h).2
      cases k
      cases l
      simp_all

/-- A text has one decomposition. The arrow is found from the left, and around it each piece ends
where the next cannot be part of it. -/
theorem Grammatical.eq_of_text (hp : p.Grammatical) (hq : q.Grammatical) (h : p.text = q.text) :
    p = q := by
  have harrow := hp.findArrow_eq
  rw [h, hq.findArrow_eq, Option.some.injEq, Prod.mk.injEq] at harrow
  obtain ⟨hlen, harrow⟩ := harrow
  obtain ⟨hleft, hright⟩ := List.append_inj h hlen.symm
  -- before the arrow
  obtain ⟨hbefore, hleft⟩ := cut_unique hp.before (head_identifier_append hp.source _) hq.before
    (head_identifier_append hq.source _) hleft
  have hends {p : LinkParts} (hp : p.Grammatical) :
      ∀ c ∈ p.beforeArrow.head?, isIdentifierChar c = false := fun c hc =>
    not_isIdentifierChar_of_blank (hp.beforeArrow c (List.mem_of_mem_head? hc))
  obtain ⟨hsource, hbeforeArrow⟩ := cut_unique ((isIdentifier_iff _).mp hp.source).2 (hends hp)
    ((isIdentifier_iff _).mp hq.source).2 (hends hq) hleft
  -- behind it
  rw [harrow] at hright
  obtain ⟨hafterArrow, hright⟩ := cut_unique hp.afterArrow (head_identifier_append hp.target _)
    hq.afterArrow (head_identifier_append hq.target _) (List.append_cancel_left hright)
  obtain ⟨htarget, hright⟩ := cut_unique ((isIdentifier_iff _).mp hp.target).2 hp.head_fromLabel
    ((isIdentifier_iff _).mp hq.target).2 hq.head_fromLabel hright
  obtain ⟨hlabel, hafter⟩ := hp.label_unique hq hright
  cases p
  cases q
  simp_all

/-- The target of a link and its label, without the margin behind them. -/
def body (p : LinkParts) : List Char :=
  p.target ++ match p.label with
    | none => []
    | some l => l.beforeColon ++ ':' :: (l.beforeText ++ '"' :: (l.text ++ ['"']))

theorem body_append_after (p : LinkParts) : p.target ++ p.fromLabel = p.body ++ p.after := by
  cases hl : p.label <;> simp [body, fromLabel, hl]

theorem Grammatical.trimmed_body (h : p.Grammatical) : Trimmed p.body := by
  refine ⟨head_identifier_append h.target _, ?_⟩
  cases hl : p.label with
  | none => simpa [body, hl] using (trimmed_identifier h.target).last
  | some l =>
    have hlast : p.body = p.target ++ l.beforeColon ++ ':' :: (l.beforeText ++ '"' :: l.text) ++
        ['"'] := by simp [body, hl]
    rw [hlast, List.getLast?_concat]
    rintro c ⟨⟩
    rfl

/-- A text of this form is read, and the pieces are where the link comes from. -/
theorem Grammatical.read_eq (h : p.Grammatical) {l : Line} (htext : l.text = p.text) :
    LinkStatement.read l = .ok (p.statement l.number) := by
  have hsource : readEnd .source p.arrow (l.text.take p.left.length) =
      .ok (String.ofList p.source) := by
    have htrim : trim p.left = p.source := by
      rw [left, ← List.append_assoc, trim_append_margins h.before h.beforeArrow,
        (trimmed_identifier h.source).trim_eq]
    rw [htext, text, List.take_left' rfl]
    exact readEnd_of_trim htrim h.source
  have hdrop : l.text.drop (p.left.length + p.arrow.chars.length) =
      p.afterArrow ++ p.body ++ p.after := by
    rw [htext, text, body_append_after, ← List.append_assoc, List.drop_left' List.length_append,
      List.append_assoc]
  have hrest : trim (l.text.drop (p.left.length + p.arrow.chars.length)) = p.body := by
    rw [hdrop, trim_append_margins h.afterArrow h.after, h.trimmed_body.trim_eq]
  have htarget {gap : List Char} (hgap : ∀ c ∈ gap, isBlank c = true) :
      readEnd .target p.arrow (p.target ++ gap) = .ok (String.ofList p.target) := by
    have hmargin := trim_append_margins (List.forall_mem_nil _) hgap p.target
    rw [List.nil_append, (trimmed_identifier h.target).trim_eq] at hmargin
    exact readEnd_of_trim hmargin h.target
  have hmarks {gap : List Char} (hgap : ∀ c ∈ gap, isBlank c = true) :
      ∀ c ∈ p.target ++ gap, c ≠ '"' ∧ c ≠ ':' := fun c hc =>
    ⟨ne_of_identifier_or_blank h.target hgap rfl rfl c hc,
      ne_of_identifier_or_blank h.target hgap rfl rfl c hc⟩
  -- the arrow is found first, and the colon only in what stands behind it
  unfold LinkStatement.read
  rw [htext, h.findArrow_eq, ← htext]
  refine bind_eq_ok_iff.mpr ⟨_, hsource, ?_⟩
  simp only [hrest]
  cases hl : p.label with
  | none =>
    have hbody : p.body = p.target ++ [] := by simp [body, hl]
    have hcolon : findOutsideQuotes [':'] p.body = none := by
      rw [hbody, findColon_append (by simpa using hmarks (List.forall_mem_nil _))]
      rfl
    rw [hcolon, hbody]
    refine bind_eq_ok_iff.mpr ⟨_, htarget (List.forall_mem_nil _), ?_⟩
    simp [statement, hl, pure, Except.pure]
  | some k =>
    have hk := h.label k hl
    have hbody : p.body = (p.target ++ k.beforeColon) ++
        ':' :: (k.beforeText ++ '"' :: (k.text ++ ['"'])) := by simp [body, hl]
    have hcolon : findOutsideQuotes [':'] p.body = some (p.target ++ k.beforeColon).length := by
      rw [hbody, findColon_append (hmarks hk.beforeColon)]
      simp [findOutsideQuotes, findOutsideQuotes.search]
    have hlabel : readLinkLabel (String.ofList p.source) p.arrow (String.ofList p.target)
        (k.beforeText ++ '"' :: (k.text ++ ['"'])) = .ok (String.ofList k.text) :=
      readLinkLabel_eq_ok_iff.mpr
        ⟨k.beforeText, k.text, [], hk.beforeText, hk.text, List.forall_mem_nil _, rfl, rfl⟩
    rw [hcolon]
    dsimp only
    rw [hbody, List.take_left' rfl, List.append_cons,
      List.drop_left' (by rw [List.length_append, List.length_singleton])]
    refine bind_eq_ok_iff.mpr ⟨_, htarget hk.beforeColon, bind_eq_ok_iff.mpr ⟨_, hlabel, ?_⟩⟩
    simp [statement, hl, pure, Except.pure]

/-- A text from which a link is read has a decomposition. -/
theorem exists_of_read {l : Line} {k : LinkStatement} (h : LinkStatement.read l = .ok k) :
    ∃ p : LinkParts, p.Grammatical ∧ l.text = p.text := by
  unfold LinkStatement.read at h
  split at h
  · rename_i i r hfound
    obtain ⟨left, right, htext, rfl⟩ := exists_of_findArrow hfound
    obtain ⟨source, hsource, h⟩ := bind_eq_ok_iff.mp h
    rw [htext, List.take_left' rfl] at hsource
    obtain ⟨before, beforeArrow, hbefore, hbeforeArrow, hleft⟩ := exists_margins left
    obtain ⟨hsource, -⟩ := readEnd_eq_ok_iff.mp hsource
    obtain ⟨gap, after, hgap, hafter, hright⟩ := exists_margins right
    have hdrop : l.text.drop (left.length + r.chars.length) = right := by
      rw [htext, ← List.append_assoc, List.drop_left' List.length_append]
    simp only [hdrop] at h
    split at h
    · -- without a colon the target is all that follows the arrow
      obtain ⟨target, htarget, -⟩ := bind_eq_ok_iff.mp h
      have hrest := (readEnd_eq_ok_iff.mp htarget).1
      rw [(trimmed_trim right).trim_eq] at hrest
      refine ⟨{ before, source := trim left, beforeArrow, arrow := r, afterArrow := gap,
                target := trim right, label := none, after },
        ⟨hbefore, hsource, hbeforeArrow, hgap, hrest, by simp, hafter⟩, ?_⟩
      rw [htext]
      conv_lhs => rw [hleft, hright]
      simp [text, LinkParts.left, fromLabel]
    · rename_i colon hcolon
      obtain ⟨first, second, hrest, rfl⟩ := exists_of_findColon hcolon
      obtain ⟨target, htarget, h⟩ := bind_eq_ok_iff.mp h
      obtain ⟨label, hlabel, -⟩ := bind_eq_ok_iff.mp h
      rw [hrest, List.take_left' rfl] at htarget
      rw [hrest, List.append_cons,
        List.drop_left' (by rw [List.length_append, List.length_singleton])] at hlabel
      obtain ⟨htarget, -⟩ := readEnd_eq_ok_iff.mp htarget
      obtain ⟨a, beforeColon, ha, hbeforeColon, hfirst⟩ := exists_margins first
      obtain ⟨beforeText, words, b, hbeforeText, hwords, hb, hsecond, -⟩ :=
        readLinkLabel_eq_ok_iff.mp hlabel
      -- what the trim before the search for the colon has left are blanks of the two gaps
      refine ⟨{ before, source := trim left, beforeArrow, arrow := r, afterArrow := gap ++ a,
                target := trim first, label := some ⟨beforeColon, beforeText, words⟩,
                after := b ++ after },
        ⟨hbefore, hsource, hbeforeArrow, List.forall_mem_append.mpr ⟨hgap, ha⟩, htarget, ?_,
          List.forall_mem_append.mpr ⟨hb, hafter⟩⟩, ?_⟩
      · rintro _ ⟨⟩
        exact ⟨hbeforeColon, hbeforeText, hwords⟩
      · rw [htext]
        conv_lhs => rw [hleft, hright, hrest, hfirst, hsecond]
        simp [text, LinkParts.left, fromLabel]
  · cases h

end LinkParts

/-- What reading a link does, by the grammar. -/
structure LinkReadByGrammar (l : Line) : Prop where
  unique : ∀ p q : LinkParts, p.Grammatical → q.Grammatical → l.text = p.text → l.text = q.text →
    p = q
  accepted : (∃ k, LinkStatement.read l = .ok k) ↔
    ∃ p : LinkParts, p.Grammatical ∧ l.text = p.text
  /-- The ends, the direction and the label are the pieces of the text. -/
  parts : ∀ p : LinkParts, p.Grammatical → l.text = p.text →
    LinkStatement.read l = .ok
      { source := String.ofList p.source
        target := String.ofList p.target
        line := l.number
        bidirectional := p.arrow = .twoWay
        label := p.label.map fun k => String.ofList k.text }

/-- Reading a link follows the grammar on every text. -/
theorem linkReadByGrammar (l : Line) : LinkReadByGrammar l where
  unique := by
    intro p q hp hq hptext hqtext
    exact hp.eq_of_text hq (hptext.symm.trans hqtext)
  accepted := by
    constructor
    · rintro ⟨k, hk⟩
      exact LinkParts.exists_of_read hk
    · rintro ⟨p, hp, htext⟩
      exact ⟨p.statement l.number, hp.read_eq htext⟩
  parts := fun p hp htext => hp.read_eq htext

/-- A hyphen before the arrow belongs to the source, and quotes keep arrows, colons and braces. -/
example : LinkStatement.read (Line.ofText 2 " a--> b_ :\"c <-> d: \x7b\" ".toList) =
    .ok { source := "a-", target := "b_", line := 2, label := some "c <-> d: \x7b" } := by
  rfl

end ArchDiagram.Source
