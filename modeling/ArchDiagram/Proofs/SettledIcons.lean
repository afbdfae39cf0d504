import ArchDiagram.Lint
import ArchDiagram.Proofs.IconTimeline
import ArchDiagram.Proofs.Outline
import ArchDiagram.Render.D2

/-!
Registries between loads. What a look-up gives depends on the loader alone: a name that is not known
before the load makes it happen, so nobody sees the icons without the catalog. Drawing a document
and looking for advice on it pass the registry from node to node, and each leaves it loaded exactly
when it was, or some node has an icon that is not a base icon.
-/

namespace ArchDiagram

namespace Icon

/-- A registry of a loader that is not in the middle of a load. -/
structure Settled (l : Loader) (r : Registry) : Prop where
  loader : r.loader = l
  status : r.status = .unloaded ∨ r.status = .loaded l.catalog

/-- The registry of a loader after its load. -/
def Loader.ready (l : Loader) : Registry :=
  { loader := l, status := .loaded l.catalog }

theorem Loader.settled_ready (l : Loader) : Settled l l.ready :=
  ⟨rfl, .inr rfl⟩

/-- What a look-up does to a registry. -/
theorem Registry.resolve_eq {tag : String} (htag : tag ≠ "") (r : Registry) :
    r.resolve tag =
      let after := if r.status.isUnloaded && !r.status.knows tag then r.load else r
      (if after.status.knows tag then tag else generic, after) := by
  have hneeds : (Call.resolve (some tag) true).needsLoad r.status =
      (r.status.isUnloaded && !r.status.knows tag) := by
    have hfilled : tag.isEmpty = false := by simpa using htag
    simp [Call.needsLoad, hfilled]
  rw [resolve, perform, performWith, hneeds]
  dsimp only
  rw [Status.resolve_some htag]

theorem Loader.resolve_ready (l : Loader) {tag : String} (htag : tag ≠ "") :
    l.ready.resolve tag =
      (if (Status.loaded l.catalog).knows tag then tag else generic, l.ready) := by
  rw [Registry.resolve_eq htag]
  rfl

/-- A registry between loads, with the catalog that it has or is going to have. -/
structure Steady (l : Loader) (c : Catalog) (r : Registry) : Prop where
  loader : r.loader = l
  status : r.status = .unloaded ∧ l.catalog = c ∨ r.status = .loaded c

theorem settled_iff {l : Loader} {r : Registry} : Settled l r ↔ Steady l l.catalog r := by
  constructor
  · rintro ⟨hloader, hstatus⟩
    exact ⟨hloader, hstatus.imp_left fun hs => ⟨hs, rfl⟩⟩
  · rintro ⟨hloader, hstatus⟩
    exact ⟨hloader, hstatus.imp_left And.left⟩

/-- What is found depends on the catalog alone. -/
theorem Steady.resolve {l : Loader} {c : Catalog} {r : Registry} (h : Steady l c r) {tag : String}
    (htag : tag ≠ "") :
    (r.resolve tag).1 = (if (Status.loaded c).knows tag then tag else generic) ∧
      Steady l c (r.resolve tag).2 ∧
      (r.resolve tag).2.status.isUnloaded = (r.status.isUnloaded && isBase tag) := by
  rw [Registry.resolve_eq htag]
  rcases h.status with ⟨hs, hc⟩ | hs
  · -- a base icon is found without the catalog, and any other name loads it
    have hknows : Status.unloaded.knows tag = isBase tag := by
      simp [Status.knows, Status.catalog]
    cases hbase : isBase tag with
    | true =>
      have hready : (Status.loaded c).knows tag = true := by simp [Status.knows, hbase]
      simp [hs, hknows, hbase, hready, Status.isUnloaded, h]
    | false =>
      have hload : r.load.status = .loaded c := by rw [r.load_eq, h.loader, hc]
      have hloader : r.load.loader = l := by rw [r.load_eq, h.loader]
      have hsteady : Steady l c r.load := ⟨hloader, .inr hload⟩
      simp [hs, hknows, hbase, hload, Status.isUnloaded, hsteady]
  · simp [hs, Status.isUnloaded, h]

/-- What is found does not depend on whether the catalog has been loaded yet. -/
theorem Settled.resolve {l : Loader} {r : Registry} (h : Settled l r) {tag : String}
    (htag : tag ≠ "") :
    (r.resolve tag).1 = (l.ready.resolve tag).1 ∧ Settled l (r.resolve tag).2 ∧
      (r.resolve tag).2.status.isUnloaded = (r.status.isUnloaded && isBase tag) := by
  obtain ⟨hfound, hsteady, hunloaded⟩ := (settled_iff.mp h).resolve htag
  exact ⟨by rw [hfound, l.resolve_ready htag], settled_iff.mpr hsteady, hunloaded⟩

theorem Settled.isUnloaded_eq_false_iff {l : Loader} {r : Registry} (h : Settled l r) :
    r.status.isUnloaded = false ↔ r.status = .loaded l.catalog := by
  rcases h.status with hs | hs <;> simp [hs, Status.isUnloaded]

/-- Whether a node has an icon that is not a base icon. -/
def asksCatalog {α : Type} (n : Node α) : Bool :=
  (n.icon.filter (!·.isEmpty)).any (!isBase ·)

theorem asksCatalog_iff {α : Type} (n : Node α) :
    asksCatalog n = true ↔ ∃ tag, n.icon = some tag ∧ tag ≠ "" ∧ isBase tag = false := by
  simp [asksCatalog, Option.any_eq_true]

end Icon

open Icon

variable {α : Type} {l : Loader} {r : Registry}

namespace Lint

/-- The advice on the icon of one node, once the catalog has been loaded. -/
def unknownIcon? (l : Loader) (n : Node α) : Option Finding :=
  (n.icon.filter (!·.isEmpty)).bind fun tag =>
    if (l.ready.resolve tag).1 = tag then none else some (.unknownIcon tag n.id)

theorem unknownIcon?_congr {m : Loader} (h : l.catalog = m.catalog) :
    unknownIcon? (α := α) l = unknownIcon? m := by
  funext n
  refine Option.bind_congr fun tag hicon => ?_
  have htag : tag ≠ "" := by simpa using (Option.filter_eq_some_iff.mp hicon).2
  rw [l.resolve_ready htag, m.resolve_ready htag, h]

/-- Advice on icons depends on the catalog alone. -/
theorem unknownIcons_of_steady {c : Catalog} (h : Steady l c r) (ns : List (Node α)) :
    (unknownIcons r ns).1 = ns.filterMap (unknownIcon? { outcome := .ok c }) ∧
      Steady l c (unknownIcons r ns).2 ∧
      (unknownIcons r ns).2.status.isUnloaded =
        (r.status.isUnloaded && ns.all (!asksCatalog ·)) := by
  induction ns generalizing r with
  | nil => exact ⟨rfl, h, (Bool.and_true _).symm⟩
  | cons n ns ih =>
    cases hicon : n.icon.filter (!·.isEmpty) with
    | none =>
      have hunknown : unknownIcon? { outcome := .ok c } n = none := by
        rw [unknownIcon?, hicon, Option.bind_none]
      have hasks : asksCatalog n = false := by rw [asksCatalog, hicon, Option.any_none]
      simp only [unknownIcons, hicon, List.filterMap_cons, hunknown, List.all_cons, hasks,
        Bool.not_false, Bool.true_and]
      exact ih h
    | some tag =>
      have htag : tag ≠ "" := by simpa using (Option.filter_eq_some_iff.mp hicon).2
      have hasks : asksCatalog n = !isBase tag := by rw [asksCatalog, hicon, Option.any_some]
      -- the other nodes meet the registry as this look-up has left it
      obtain ⟨hfound, hsteady, hunloaded⟩ := h.resolve htag
      obtain ⟨hrest, hlast, hload⟩ := ih hsteady
      have hready : (({ outcome := .ok c } : Loader).ready.resolve tag).1 = (r.resolve tag).1 := by
        rw [Loader.resolve_ready _ htag, hfound]
        rfl
      rw [hunloaded, Bool.and_assoc] at hload
      simp only [unknownIcons, hicon, List.filterMap_cons, unknownIcon?, Option.bind_some, hready,
        List.all_cons, hasks, Bool.not_not]
      by_cases heq : (r.resolve tag).1 = tag
      · rw [if_pos heq, if_pos heq]
        exact ⟨hrest, hlast, hload⟩
      · rw [if_neg heq, if_neg heq]
        exact ⟨congrArg (_ :: ·) hrest, hlast, hload⟩

/-- Advice on icons does not depend on whether the catalog has been loaded yet. -/
theorem unknownIcons_of_settled (h : Settled l r) (ns : List (Node α)) :
    (unknownIcons r ns).1 = ns.filterMap (unknownIcon? l) ∧ Settled l (unknownIcons r ns).2 ∧
      (unknownIcons r ns).2.status.isUnloaded =
        (r.status.isUnloaded && ns.all (!asksCatalog ·)) := by
  obtain ⟨hfound, hsteady, hunloaded⟩ := unknownIcons_of_steady (settled_iff.mp h) ns
  have hsame : unknownIcon? (α := α) { outcome := .ok l.catalog } = unknownIcon? l :=
    unknownIcon?_congr rfl
  rw [hsame] at hfound
  exact ⟨hfound, settled_iff.mpr hsteady, hunloaded⟩

/-- Advice does not depend on whether the catalog has been loaded yet. -/
theorem check_of_settled (h : Settled l r) (strict : Bool) (d : Document α) :
    (check strict r d).1 = (check strict l.ready d).1 ∧ Settled l (check strict r d).2 ∧
      (check strict r d).2.status.isUnloaded =
        (r.status.isUnloaded && d.nodes.all (!asksCatalog ·)) := by
  obtain ⟨hicons, hsettled, hunloaded⟩ := unknownIcons_of_settled h d.nodes
  have hready := (unknownIcons_of_settled l.settled_ready d.nodes).1
  exact ⟨by simp only [check, hicons, hready], hsettled, hunloaded⟩

theorem mem_filterMap_unknownIcon? {ns : List (Node α)} {tag id : String} :
    Finding.unknownIcon tag id ∈ ns.filterMap (unknownIcon? l) ↔
      ∃ n ∈ ns, n.id = id ∧ n.icon = some tag ∧ tag ≠ "" ∧ (l.ready.resolve tag).1 ≠ tag := by
  rw [List.mem_filterMap]
  refine exists_congr fun n => and_congr_right fun _ => ?_
  rw [unknownIcon?, Option.bind_eq_some_iff]
  constructor
  · rintro ⟨tag', hicon, hfinding⟩
    obtain ⟨htag, hfilled⟩ := Option.filter_eq_some_iff.mp hicon
    split at hfinding
    · cases hfinding
    · rename_i hne
      obtain ⟨rfl, rfl⟩ := Finding.unknownIcon.inj (Option.some.inj hfinding)
      exact ⟨rfl, htag, by simpa using hfilled, hne⟩
  · rintro ⟨rfl, htag, hfilled, hne⟩
    exact ⟨tag, Option.filter_eq_some_iff.mpr ⟨htag, by simpa using hfilled⟩, if_neg hne⟩

/-- Only looking up icons leads to advice on them. -/
theorem mem_findings_check {strict : Bool} {d : Document α} {tag id : String} :
    .unknownIcon tag id ∈ (check strict r d).1.findings ↔
      .unknownIcon tag id ∈ (unknownIcons r d.nodes).1 := by
  have hempty : Finding.unknownIcon tag id ∉ emptiness d := by
    unfold emptiness
    split
    · simp
    · split <;> simp
  have horphans : Finding.unknownIcon tag id ∉ orphanedNodes d := by
    unfold orphanedNodes
    split <;> simp
  have hloops : Finding.unknownIcon tag id ∉ selfLoops d := by simp [selfLoops]
  have hcontainers : Finding.unknownIcon tag id ∉ emptyContainers d := by simp [emptyContainers]
  have hlinks : Finding.unknownIcon tag id ∉ duplicateLinks d := by
    intro hmem
    obtain ⟨k, -, hk⟩ := List.mem_filterMap.mp hmem
    dsimp only at hk
    split at hk <;> cases hk
  simp [check, hempty, horphans, hloops, hlinks, hcontainers]

/-- Whether a report says of an item that its icon is unknown. -/
def Report.Doubts (r : Report) (id : String) : Prop :=
  ∃ f ∈ r.findings, f.code = "UNKNOWN_ICON" ∧ f.itemId? = some id

/-- The icon of an item is doubted when the loader has none of that name. -/
theorem doubts_iff (h : Settled l r) {strict : Bool} {d : Document α} {id : String} :
    (check strict r d).1.Doubts id ↔
      ∃ n ∈ d.nodes, n.id = id ∧
        ∃ tag, n.icon = some tag ∧ tag ≠ "" ∧ (l.ready.resolve tag).1 ≠ tag := by
  have hmem {tag : String} : .unknownIcon tag id ∈ (check strict r d).1.findings ↔
      ∃ n ∈ d.nodes, n.id = id ∧ n.icon = some tag ∧ tag ≠ "" ∧ (l.ready.resolve tag).1 ≠ tag := by
    rw [mem_findings_check, (unknownIcons_of_settled h d.nodes).1, mem_filterMap_unknownIcon?]
  constructor
  · rintro ⟨f, hf, hcode, hid⟩
    cases f with
    | unknownIcon tag id' =>
      obtain rfl : id' = id := Option.some.inj hid
      obtain ⟨n, hn, hid, hicon⟩ := hmem.mp hf
      exact ⟨n, hn, hid, tag, hicon⟩
    | _ => simp [Finding.code] at hcode
  · rintro ⟨n, hn, hid, tag, hicon⟩
    exact ⟨.unknownIcon tag id, hmem.mpr ⟨n, hn, hid, hicon⟩, rfl, rfl⟩

end Lint

namespace Render

namespace D2

/-- The icon of a node does not depend on whether the catalog has been loaded yet. -/
theorem resolveIcon_of_settled (h : Settled l r) (n : Node α) :
    (resolveIcon r n).1 = (resolveIcon l.ready n).1 ∧ Settled l (resolveIcon r n).2 ∧
      (resolveIcon r n).2.status.isUnloaded = (r.status.isUnloaded && !asksCatalog n) := by
  unfold resolveIcon asksCatalog
  cases hicon : n.icon.filter (!·.isEmpty) with
  | none => exact ⟨rfl, h, (Bool.and_true _).symm⟩
  | some tag =>
    have htag : tag ≠ "" := by simpa using (Option.filter_eq_some_iff.mp hicon).2
    obtain ⟨hfound, hsettled, hunloaded⟩ := h.resolve htag
    refine ⟨congrArg some hfound, hsettled, ?_⟩
    rwa [Option.any_some, Bool.not_not]

theorem entryLine_of_settled (h : Settled l r) (e : Entry α) :
    (entryLine r e).1 = (entryLine l.ready e).1 ∧ Settled l (entryLine r e).2 ∧
      (entryLine r e).2.status.isUnloaded =
        (r.status.isUnloaded && !e.mark.node?.any asksCatalog) := by
  obtain ⟨depth, mark⟩ := e
  cases mark with
  | opened c => exact ⟨rfl, h, (Bool.and_true _).symm⟩
  | closed => exact ⟨rfl, h, (Bool.and_true _).symm⟩
  | node n =>
    obtain ⟨hicon, hsettled, hunloaded⟩ := resolveIcon_of_settled h n
    exact ⟨congrArg (fun icon => indent depth ++ nodeText n icon) hicon, hsettled, hunloaded⟩

/-- The lines of an outline do not depend on whether the catalog has been loaded yet. -/
theorem entryLines_of_settled (h : Settled l r) (es : List (Entry α)) :
    (entryLines r es).1 = es.map (fun e => (entryLine l.ready e).1) ∧
      Settled l (entryLines r es).2 ∧
      (entryLines r es).2.status.isUnloaded =
        (r.status.isUnloaded && es.all fun e => !e.mark.node?.any asksCatalog) := by
  induction es generalizing r with
  | nil => exact ⟨rfl, h, (Bool.and_true _).symm⟩
  | cons e es ih =>
    obtain ⟨hline, hsettled, hunloaded⟩ := entryLine_of_settled h e
    obtain ⟨hrest, hlast, hload⟩ := ih hsettled
    rw [hunloaded, Bool.and_assoc] at hload
    refine ⟨?_, hlast, hload⟩
    rw [List.map_cons, ← hline, ← hrest]
    rfl

end D2

end Render

end ArchDiagram
