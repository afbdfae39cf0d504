import ArchDiagram.Data.Document
import Mathlib.Tactic.Common

/-!
Written documents are read back. A written record is known by what each name leads to: the value of
the part of that name, or nothing when the part is absent. Reading gives the part again in the first
case and its default in the second, so a record comes back when it comes back part by part.
-/

namespace ArchDiagram.Data

variable {α β : Type}

@[simp] theorem Checked.map_valid (f : α → β) (a : α) : f <$> Checked.valid a = .valid (f a) :=
  rfl

@[simp] theorem Checked.seq_valid (f : α → β) (a : α) :
    Checked.valid f <*> Checked.valid a = .valid (f a) :=
  rfl

@[simp] theorem field?_nil (name : String) : field? [] name = none :=
  rfl

/-- A later field of the same name is the one that counts. -/
@[simp] theorem field?_append (fs gs : List (String × Value)) (name : String) :
    field? (fs ++ gs) name = (field? gs name).or (field? fs name) := by
  rw [field?, List.reverse_append, List.find?_append, Option.map_or]
  rfl

@[simp] theorem field?_cons (f : String × Value) (fs : List (String × Value)) (name : String) :
    field? (f :: fs) name = (field? fs name).or (if f.1 = name then some f.2 else none) := by
  rw [← List.singleton_append, field?_append]
  by_cases h : f.1 = name <;> simp [field?, h]

/-- A part that may be absent is written under its own name, and only when it is there. -/
@[simp] theorem field?_present (name' : String) (write : α → Value) (o : Option α) (name : String) :
    field? (present name' write o) name = if name' = name then o.map write else none := by
  cases o with
  | none => simp [present]
  | some a => simp [present]

/-- What is written is read back. -/
def ReadsBack (write : α → Value) (read : Value → Checked α) : Prop :=
  ∀ a, read (write a) = .valid a

theorem readsBack_text : ReadsBack .text readText :=
  fun _ => rfl

theorem readsBack_real : ReadsBack .real readReal :=
  fun _ => rfl

theorem readsBack_bool : ReadsBack .bool readBool :=
  fun _ => rfl

section

variable {write : α → Value} {read : Value → Checked α} {fields : List (String × Value)}
  {name : String}

theorem ReadsBack.elements (h : ReadsBack write read) (i : Nat) (as : List α) :
    readElements read i (as.map write) = .valid as := by
  induction as generalizing i with
  | nil => rfl
  | cons a as ih =>
    rw [List.map_cons, readElements, h a, ih]
    rfl

/-- A list is read back element by element. -/
theorem ReadsBack.list (h : ReadsBack write read) :
    ReadsBack (fun as => .list (as.map write)) (readList read) :=
  fun as => h.elements 0 as

/-- A value that is not written as `null` is not taken for an absent one. -/
theorem ReadsBack.optional (h : ReadsBack write read) (hnull : ∀ a, write a ≠ .null) (a : α) :
    readOptional read (write a) = .valid (some a) := by
  have hread := h a
  have hne := hnull a
  cases hv : write a with
  | null => exact absurd hv hne
  | bool | int | real | text | list | record =>
    rw [hv] at hread
    rw [readOptional, hread]
    · rfl
    · rintro ⟨⟩

theorem ReadsBack.field (h : ReadsBack write read) {a : α}
    (hfield : field? fields name = some (write a)) : readField fields name read = .valid a := by
  rw [readField, hfield]
  exact congrArg (Checked.below _) (h a)

theorem ReadsBack.fieldOr (h : ReadsBack write read) {a : α} (default : α)
    (hfield : field? fields name = some (write a)) :
    readFieldOr fields name default read = .valid a := by
  rw [readFieldOr, hfield]
  exact congrArg (Checked.below _) (h a)

/-- A part that is left out when it is absent is absent again when it is read. -/
theorem ReadsBack.present (h : ReadsBack write read) (hnull : ∀ a, write a ≠ .null)
    {o : Option α} (hfield : field? fields name = o.map write) :
    readFieldOr fields name none (readOptional read) = .valid o := by
  cases o with
  | none => rw [readFieldOr, hfield, Option.map_none]
  | some a =>
    rw [readFieldOr, hfield, Option.map_some]
    exact congrArg (Checked.below _) (h.optional hnull a)

end

theorem readOptionalText {fields : List (String × Value)} {name : String} {o : Option String}
    (h : field? fields name = o.map .text) :
    readFieldOr fields name none (readOptional readText) = .valid o :=
  readsBack_text.present (by simp) h

theorem readOptionalReal {fields : List (String × Value)} {name : String} {o : Option Binary64}
    (h : field? fields name = o.map .real) :
    readFieldOr fields name none (readOptional readReal) = .valid o :=
  readsBack_real.present (by simp) h

/-- An item is read from every record that agrees with its own on all names but that of the icon. -/
theorem readItem_of_agree {c : Item Binary64} {fields : List (String × Value)}
    (h : ∀ name, name ≠ "icon" → field? fields name = field? (itemFields c) name) :
    readItem fields = .valid c := by
  have hid : readField fields "id" readText = .valid c.id :=
    readsBack_text.field (by simp [h, itemFields])
  have hlabel : readField fields "label" readText = .valid c.label :=
    readsBack_text.field (by simp [h, itemFields])
  have hx : readFieldOr fields "x" none (readOptional readReal) = .valid c.frame.x :=
    readOptionalReal (by simp [h, itemFields])
  have hy : readFieldOr fields "y" none (readOptional readReal) = .valid c.frame.y :=
    readOptionalReal (by simp [h, itemFields])
  have hwidth : readFieldOr fields "width" none (readOptional readReal) = .valid c.frame.width :=
    readOptionalReal (by simp [h, itemFields])
  have hheight : readFieldOr fields "height" none (readOptional readReal) = .valid c.frame.height :=
    readOptionalReal (by simp [h, itemFields])
  have hparent : readFieldOr fields "parent" none (readOptional readText) = .valid c.parent :=
    readOptionalText (by simp [h, itemFields])
  simp only [readItem, hid, hlabel, hx, hy, hwidth, hheight, hparent, Checked.map_valid,
    Checked.seq_valid]

theorem readsBack_container : ReadsBack ofContainer (readRecord readItem) :=
  fun _ => readItem_of_agree fun _ _ => rfl

theorem readsBack_node : ReadsBack ofNode (readRecord readNode) := by
  intro n
  have hitem : readItem (itemFields n.toItem ++ present "icon" .text n.icon) = .valid n.toItem := by
    apply readItem_of_agree
    intro name hname
    rw [field?_append, field?_present, if_neg (Ne.symm hname), Option.none_or]
  have hicon : readFieldOr (itemFields n.toItem ++ present "icon" .text n.icon) "icon" none
      (readOptional readText) = .valid n.icon :=
    readOptionalText (by simp [itemFields])
  simp only [ofNode, readRecord, readNode, hitem, hicon, Checked.map_valid, Checked.seq_valid]

theorem readsBack_link : ReadsBack ofLink (readRecord readLink) := by
  intro l
  set fields := [("id", Value.text l.id), ("source", .text l.source), ("target", .text l.target),
    ("bidirectional", .bool l.bidirectional)] ++ present "label" .text l.label with hfields
  have hid : readField fields "id" readText = .valid l.id :=
    readsBack_text.field (by simp [hfields])
  have hsource : readField fields "source" readText = .valid l.source :=
    readsBack_text.field (by simp [hfields])
  have htarget : readField fields "target" readText = .valid l.target :=
    readsBack_text.field (by simp [hfields])
  have hboth : readFieldOr fields "bidirectional" false readBool = .valid l.bidirectional :=
    readsBack_bool.fieldOr false (by simp [hfields])
  have hlabel : readFieldOr fields "label" none (readOptional readText) = .valid l.label :=
    readOptionalText (by simp [hfields])
  change readLink fields = .valid l
  simp only [readLink, hid, hsource, htarget, hboth, hlabel, Checked.map_valid, Checked.seq_valid]

/-- Every document is read back from its data, whatever title a document without one would have. -/
theorem readsBack_document (defaultTitle : String) :
    ReadsBack ofDocument (readDocument defaultTitle) := by
  intro d
  set fields := [("title", Value.text d.title), ("nodes", .list (d.nodes.map ofNode)),
    ("containers", .list (d.containers.map ofContainer)), ("links", .list (d.links.map ofLink))]
    with hfields
  have htitle : readFieldOr fields "title" defaultTitle readText = .valid d.title :=
    readsBack_text.fieldOr defaultTitle (by simp [hfields])
  have hnodes : readFieldOr fields "nodes" [] (readList (readRecord readNode)) = .valid d.nodes :=
    readsBack_node.list.fieldOr [] (by simp [hfields])
  have hcontainers : readFieldOr fields "containers" [] (readList (readRecord readItem)) =
      .valid d.containers :=
    readsBack_container.list.fieldOr [] (by simp [hfields])
  have hlinks : readFieldOr fields "links" [] (readList (readRecord readLink)) = .valid d.links :=
    readsBack_link.list.fieldOr [] (by simp [hfields])
  change readDocument defaultTitle (.record fields) = .valid d
  simp only [readDocument, readRecord, htitle, hnodes, hcontainers, hlinks, Checked.map_valid,
    Checked.seq_valid]

/-- The data that other data becomes when it is read as a document and written again. -/
def rewritten (defaultTitle : String) (v : Value) : Checked Value :=
  ofDocument <$> readDocument defaultTitle v

/-- Documents are read back from their data. So data that is accepted as a document, whatever its
form, is rewritten once and stays as it is from then on, also where the default title is another. -/
theorem rewritten_settles (defaultTitle : String) :
    (∀ d, readDocument defaultTitle (ofDocument d) = .valid d) ∧
      ∀ v w, rewritten defaultTitle v = .valid w →
        ∀ otherTitle, rewritten otherTitle w = .valid w := by
  refine ⟨readsBack_document defaultTitle, fun v w hw otherTitle => ?_⟩
  cases hread : readDocument defaultTitle v with
  | invalid problems =>
    rw [rewritten, hread] at hw
    cases hw
  | valid d =>
    rw [rewritten, hread, Checked.map_valid] at hw
    cases hw
    rw [rewritten, readsBack_document otherTitle d, Checked.map_valid]

/-- Switches in words, numbers from switches, `null` and missing parts are all spelled out. -/
theorem rewritten_settles_words :
    ∃ w, rewritten "Plan" (.record [
        ("nodes", .list [.record [("id", .text "a"), ("label", .text "A"), ("x", .bool true),
          ("y", .null)]]),
        ("links", .list [.record [("id", .text "l1"), ("source", .text "a"), ("target", .text "a"),
          ("bidirectional", .text "Yes")]])]) = .valid w ∧
      rewritten "Other" w = .valid w := by
  refine ⟨ofDocument {
      title := "Plan"
      nodes := [{ id := "a", label := "A", frame := { x := some (.ofNat 1) } }]
      links := [{ id := "l1", source := "a", target := "a", bidirectional := true }] },
    ?read, (rewritten_settles "Plan").2 _ _ ?read "Other"⟩
  with_unfolding_all rfl

end ArchDiagram.Data
