import ArchDiagram.Proofs.Outline
import ArchDiagram.Proofs.Parsed
import ArchDiagram.Proofs.Unframed
import ArchDiagram.Service.Request

/-!
Export of sources. A document that was read has no text that a writer refuses and no two containers
of one name, and a layout changes neither. So every source that can be read is exported in every
format, and no request for an export is refused.
-/

namespace ArchDiagram

namespace Source

/-- The writer does not look at frames when it refuses. -/
theorem writable_unframed_iff (defaultTitle : String) (d : Document Binary64) :
    (∀ s ∈ statements defaultTitle d.unframed, s.Writable) ↔
      ∀ s ∈ statements defaultTitle d, s.Writable := by
  have hitem (i : Item Binary64) (icon : Option String) :
      WritableItem i.unframed icon ↔ WritableItem i icon :=
    ⟨fun h => ⟨h.id, h.label, h.icon, h.parent⟩, fun h => ⟨h.id, h.label, h.icon, h.parent⟩⟩
  rw [forall_statements (P := Statement.Writable) trivial,
    forall_statements (P := Statement.Writable) trivial]
  change (_ ∧ (∀ c ∈ d.containers.map Item.unframed, WritableItem c none) ∧
    (∀ n ∈ d.nodes.map Node.unframed, WritableItem n.toItem n.icon) ∧ _) ↔ _
  rw [List.forall_mem_map, List.forall_mem_map]
  refine and_congr_right fun _ => and_congr ?_ (and_congr_left fun _ => ?_)
  · exact forall₂_congr fun c _ => hitem c none
  · exact forall₂_congr fun n _ => hitem n.toItem n.icon

/-- No text of a document that was read is refused, and filling in geometry changes no text. -/
theorem writable_of_parse {defaultTitle source : String} {d : Document Binary64}
    (h : parse defaultTitle source = .success d) (g : Grid Binary64) (applyLayout : Bool) :
    ∀ s ∈ statements defaultTitle (if applyLayout then Layout.apply g d else d), s.Writable := by
  have hwritable := (plain_of_parse h).writable
  cases applyLayout with
  | false => exact hwritable
  | true =>
    change ∀ s ∈ statements defaultTitle (Layout.apply g d), s.Writable
    rw [← writable_unframed_iff, Layout.unframed_apply, writable_unframed_iff]
    exact hwritable

/-- Containers of a document that was read have names of their own, laid out or not. -/
theorem nodup_containerIds_of_parse {defaultTitle source : String} {d : Document Binary64}
    (h : parse defaultTitle source = .success d) (g : Grid Binary64) (applyLayout : Bool) :
    (if applyLayout then Layout.apply g d else d).containerIds.Nodup := by
  have hids := (resolved_of_parse h).nodup_containerIds
  cases applyLayout with
  | false => exact hids
  | true =>
    change (Layout.apply g d).containerIds.Nodup
    rwa [← Document.containerIds_unframed, Layout.unframed_apply, Document.containerIds_unframed]

end Source

namespace Render

theorem ofName?_name (f : Format) : Format.ofName? f.name = some f := by
  cases f <;> decide

theorem writeNamed_name (defaultTitle : String) (r : Icon.Registry) (d : Document Binary64)
    (f : Format) : writeNamed defaultTitle r d f.name = write defaultTitle r d f := by
  rw [writeNamed, ofName?_name]

/-- A document is written in every format when no text in it is refused and no container is
repeated. -/
theorem exists_write {defaultTitle : String} {d : Document Binary64}
    (hw : ∀ s ∈ Source.statements defaultTitle d, s.Writable) (hids : d.containerIds.Nodup)
    (r : Icon.Registry) (f : Format) : ∃ text r', write defaultTitle r d f = .ok (text, r') := by
  cases f with
  | dsl =>
    have hwrite := Source.write_eq_ok_iff.mpr ⟨hw, rfl⟩
    exact ⟨_, r, by rw [write, hwrite]⟩
  | mermaid =>
    obtain ⟨entries, hentries⟩ :=
      Option.isSome_iff_exists.mp (isSome_outline? (Mermaid.parentOf d) hids)
    exact ⟨_, r, by rw [write, Mermaid.render?, hentries, Option.map_some]⟩
  | d2 =>
    obtain ⟨entries, hentries⟩ :=
      Option.isSome_iff_exists.mp (isSome_outline? (fun i => D2.parentOfId d i.id) hids)
    exact ⟨_, _, by rw [write, D2.render?, hentries, Option.map_some]⟩

end Render

namespace Data.Checked

variable {α β : Type}

theorem map_eq_valid_iff {f : α → β} {x : Checked α} {b : β} :
    f <$> x = .valid b ↔ ∃ a, x = .valid a ∧ f a = b := by
  change x.map f = _ ↔ _
  cases x <;> simp [Checked.map]

theorem seq_eq_valid_iff {f : Checked (α → β)} {x : Checked α} {b : β} :
    f <*> x = .valid b ↔ ∃ g a, f = .valid g ∧ x = .valid a ∧ g a = b := by
  change f.apply x = _ ↔ _
  cases f <;> cases x <;> simp [Checked.apply]

theorem below_eq_valid_iff {step : PathStep} {x : Checked α} {a : α} :
    x.below step = .valid a ↔ x = .valid a := by
  cases x <;> simp [below]

end Data.Checked

namespace Service

open Data

/-- The source, the format and whether to fill in geometry, from the body of an export. -/
def readExport (body : Option Value) : Checked (String × String × Bool) :=
  readBody (fun fields =>
    (fun source format applyLayout => (source, format, applyLayout))
      <$> readField fields "source" readText
      <*> readFieldOr fields "format" "mermaid" readFormat
      <*> readFieldOr fields "apply_layout" false readBool) body

/-- A format that is read, or left out, is one of the known ones. -/
theorem exists_format {fields : List (String × Value)} {name : String}
    (h : readFieldOr fields "format" "mermaid" readFormat = .valid name) :
    ∃ f : Render.Format, f.name = name := by
  unfold readFieldOr at h
  split at h
  · rename_i v _
    rw [Checked.below_eq_valid_iff] at h
    unfold readFormat at h
    split at h
    · split at h
      · rename_i hsome
        cases h
        obtain ⟨f, hf⟩ := Option.isSome_iff_exists.mp hsome
        exact ⟨f, by simpa using List.find?_some hf⟩
      · cases h
    · cases h
  · -- the default is a known name as well
    cases h
    exact ⟨.mermaid, rfl⟩

theorem exists_format_of_readExport {body : Option Value} {source format : String}
    {applyLayout : Bool} (h : readExport body = .valid (source, format, applyLayout)) :
    ∃ f : Render.Format, f.name = format := by
  unfold readExport readBody at h
  rw [Checked.below_eq_valid_iff] at h
  split at h
  · cases h
  · cases h
  · obtain ⟨g, _, hg, -, heq⟩ := Checked.seq_eq_valid_iff.mp h
    obtain ⟨g', format', hg', hformat, rfl⟩ := Checked.seq_eq_valid_iff.mp hg
    obtain ⟨source', -, rfl⟩ := Checked.map_eq_valid_iff.mp hg'
    cases heq
    exact exists_format hformat
  · cases h

namespace Session

/-- The outcome of a source, and a session that differs in its log only. -/
theorem parse_eq (s : Session) (source : String) :
    s.parse source = (Source.parse s.settings.defaultTitle source,
      s.record (.ofScanner (Source.scanned source).close)) :=
  rfl

theorem write_name {s : Session} {d : Document Binary64} {f : Render.Format} {text : String}
    {r : Icon.Registry}
    (h : Render.write s.settings.defaultTitle s.registry d f = .ok (text, r)) :
    s.write d f.name = (.ok text, s.advance r) := by
  rw [Session.write, Render.writeNamed_name, h]

/-- The data for an export: what is wrong with the source, or its document, laid out on request, in
the format that was asked for. Whatever the format, no text of the document is refused. -/
inductive Exported (s : Session) (source : String) (f : Render.Format) (applyLayout : Bool) :
    Value → Prop
  | invalid {es : List Source.Diagnostic}
      (parsed : Source.parse s.settings.defaultTitle source = .invalid es) :
      Exported s source f applyLayout (ofOutcome (.invalid es))
  | success {d : Document Binary64} {text : String} {r : Icon.Registry}
      (parsed : Source.parse s.settings.defaultTitle source = .success d)
      (writable : ∀ st ∈ Source.statements s.settings.defaultTitle
        (if applyLayout then s.layout d else d), st.Writable)
      (written : Render.write s.settings.defaultTitle s.registry
        (if applyLayout then s.layout d else d) f = .ok (text, r)) :
      Exported s source f applyLayout
        (.record [("status", .text "success"), ("format", .text f.name), ("output", .text text)])

/-- A source is exported in each format, whether or not geometry is filled in. -/
theorem exists_exported (s : Session) (source : String) (f : Render.Format) (applyLayout : Bool) :
    ∃ v, (s.answerExport source f.name applyLayout).1 = .ok v ∧
      Exported s source f applyLayout v := by
  cases hp : Source.parse s.settings.defaultTitle source with
  | invalid es =>
    refine ⟨_, ?_, .invalid hp⟩
    rw [answerExport, parse_eq, hp]
  | success d =>
    have hwritable := Source.writable_of_parse hp s.settings.grid applyLayout
    have hids := Source.nodup_containerIds_of_parse hp s.settings.grid applyLayout
    obtain ⟨text, r, hwrite⟩ := Render.exists_write hwritable hids s.registry f
    refine ⟨_, ?_, .success hp hwritable hwrite⟩
    -- reading adds to the log only, so the document is written with the settings of `s`
    let s' := s.record (.ofScanner (Source.scanned source).close)
    have hwrite' : s'.write (if applyLayout then s'.layout d else d) f.name =
        (.ok text, s'.advance r) := write_name hwrite
    rw [answerExport, parse_eq, hp]
    dsimp only
    rw [hwrite']

theorem answer_of_invalid (s : Session) {r : Request} {ps : List Problem}
    (h : readExport r.body = .invalid ps) :
    s.answer .exportSource r = ((422, .problems ps), s) := by
  unfold answer
  dsimp only
  rw [← readExport, h]

theorem answer_of_valid {s : Session} {r : Request} {source format : String} {applyLayout : Bool}
    {v : Value} (h : readExport r.body = .valid (source, format, applyLayout))
    (hv : (s.answerExport source format applyLayout).1 = .ok v) :
    (s.answer .exportSource r).1 = (200, .data v) := by
  unfold answer
  dsimp only
  rw [← readExport, h]
  dsimp only
  generalize s.answerExport source format applyLayout = result at hv
  obtain ⟨_, s'⟩ := result
  cases hv
  rfl

/-- An export is never refused. For every source, format and choice of layout there is data to
answer with, and every request is answered with it, unless its body does not fit. -/
theorem answer_exported (s : Session) :
    (∀ (source : String) (f : Render.Format) (applyLayout : Bool),
      ∃ v, (s.answerExport source f.name applyLayout).1 = .ok v ∧
        Exported s source f applyLayout v) ∧
    ∀ r : Request,
      (∃ ps, readExport r.body = .invalid ps ∧
        (s.answer .exportSource r).1 = (422, .problems ps)) ∨
      ∃ (source : String) (f : Render.Format) (applyLayout : Bool) (v : Value),
        readExport r.body = .valid (source, f.name, applyLayout) ∧
          Exported s source f applyLayout v ∧ (s.answer .exportSource r).1 = (200, .data v) := by
  refine ⟨exists_exported s, fun r => ?_⟩
  cases h : readExport r.body with
  | invalid ps => exact .inl ⟨ps, rfl, by rw [answer_of_invalid s h]⟩
  | valid q =>
    obtain ⟨source, format, applyLayout⟩ := q
    obtain ⟨f, rfl⟩ := exists_format_of_readExport h
    obtain ⟨v, hv, hexported⟩ := exists_exported s source f applyLayout
    exact .inr ⟨source, f, applyLayout, v, rfl, hexported, answer_of_valid h hv⟩

end Session

end Service

end ArchDiagram
