import ArchDiagram.Proofs.SettledIcons
import Mathlib.Data.List.Forall2

/-!
Advice on documents. What is found does not depend on how strictly a document is judged, nor on
whether the catalog has been loaded before. Without strictness every document is valid; with it a
document is valid exactly when nothing in it deserves a warning. Of repeated links there is one
finding for each group of equal ones.
-/

namespace ArchDiagram

open Icon

namespace Icon

/-- The catalog that a registry has, or gets when it first needs one. -/
def Registry.catalog (r : Registry) : Catalog :=
  match r.status with
  | .loaded c => c
  | _ => r.loader.catalog

theorem steady_of_ne_loading {r : Registry} (h : r.status ≠ .loading) :
    Steady r.loader r.catalog r := by
  refine ⟨rfl, ?_⟩
  unfold Registry.catalog
  cases hs : r.status with
  | unloaded => exact .inl ⟨rfl, rfl⟩
  | loading => exact absurd hs h
  | loaded c => exact .inr rfl

theorem Steady.status_ne {l : Loader} {c : Catalog} {r : Registry} (h : Steady l c r) :
    r.status ≠ .loading := by
  rcases h.status with ⟨hs, -⟩ | hs <;> simp [hs]

theorem Steady.catalog_eq {l : Loader} {c : Catalog} {r : Registry} (h : Steady l c r) :
    r.catalog = c := by
  rcases h.status with ⟨hs, hc⟩ | hs
  · simp [Registry.catalog, hs, h.loader, hc]
  · simp [Registry.catalog, hs]

end Icon

namespace Lint

variable {α : Type} {d : Document α} {f : Finding} {r : Registry}

/-- Whether an item is not an end of any link. -/
def Unlinked (d : Document α) (id : String) : Prop :=
  ∀ l ∈ d.links, l.source ≠ id ∧ l.target ≠ id

instance (d : Document α) (id : String) : Decidable (Unlinked d id) :=
  inferInstanceAs (Decidable (∀ l ∈ d.links, l.source ≠ id ∧ l.target ≠ id))

theorem isConnected_eq_false_iff {id : String} : isConnected d id = false ↔ Unlinked d id := by
  simp [isConnected, Unlinked]

theorem severity_ne_error (f : Finding) : f.severity ≠ .error := by
  cases f <;> simp [Finding.severity]

theorem isValid_false (fs : List Finding) : isValid false fs = true := by
  simp [isValid, severity_ne_error]

theorem isValid_true_iff (fs : List Finding) :
    isValid true fs = true ↔ ∀ f ∈ fs, f.severity = .info := by
  rw [isValid, List.all_eq_true]
  refine forall₂_congr fun f _ => ?_
  cases h : f.severity with
  | error => exact absurd h (severity_ne_error f)
  | warning | info => decide

theorem findings_check (strict : Bool) (r : Registry) (d : Document α) :
    (check strict r d).1.findings = emptiness d ++ orphanedNodes d ++ selfLoops d ++
      duplicateLinks d ++ (unknownIcons r d.nodes).1 ++ emptyContainers d :=
  rfl

/-- Between loads the advice on icons depends on the catalog alone, which stays the same. -/
theorem unknownIcons_of_ne_loading (h : r.status ≠ .loading) (ns : List (Node α)) :
    (unknownIcons r ns).1 = ns.filterMap (unknownIcon? { outcome := .ok r.catalog }) ∧
      (unknownIcons r ns).2.status ≠ .loading ∧ (unknownIcons r ns).2.catalog = r.catalog := by
  obtain ⟨hfound, hsteady, -⟩ := unknownIcons_of_steady (steady_of_ne_loading h) ns
  exact ⟨hfound, hsteady.status_ne, hsteady.catalog_eq⟩

theorem unknownIcon?_eq_none_iff {l : Loader} {n : Node α} :
    unknownIcon? l n = none ↔
      ∀ tag ∈ n.icon, tag ≠ "" → isBase tag = true ∨ tag ∈ l.catalog.names := by
  rw [unknownIcon?, Option.bind_eq_none_iff]
  constructor
  · intro h tag hicon htag
    have hfound := h tag (Option.filter_eq_some_iff.mpr ⟨hicon, by simpa using htag⟩)
    rw [l.resolve_ready htag] at hfound
    by_contra hknown
    have hknows : (Status.loaded l.catalog).knows tag = false := by
      simpa [Status.knows, Status.catalog] using hknown
    have hgeneric : generic ≠ tag := by
      rintro rfl
      exact hknown (.inl (by decide))
    simp [hknows, hgeneric] at hfound
  · intro h tag hicon
    obtain ⟨hicon, htag⟩ := Option.filter_eq_some_iff.mp hicon
    have hne : tag ≠ "" := by simpa using htag
    have hknows : (Status.loaded l.catalog).knows tag = true := by
      simpa [Status.knows, Status.catalog] using h tag hicon hne
    rw [l.resolve_ready hne, hknows]
    simp

theorem exists_of_mem_unknownIcons {l : Loader} {ns : List (Node α)}
    (h : f ∈ ns.filterMap (unknownIcon? l)) : ∃ tag node, f = .unknownIcon tag node := by
  obtain ⟨n, -, hn⟩ := List.mem_filterMap.mp h
  obtain ⟨tag, -, htag⟩ := Option.bind_eq_some_iff.mp hn
  split at htag
  · cases htag
  · exact ⟨tag, n.id, (Option.some.inj htag).symm⟩

theorem of_mem_emptiness (h : f ∈ emptiness d) :
    f = .emptyDiagram ∧ d.nodes = [] ∧ d.containers = [] ∨ f = .noLinks d.nodes.length := by
  unfold emptiness at h
  split at h
  · rename_i he
    obtain ⟨hnodes, hcontainers⟩ := Bool.and_eq_true_iff.mp he
    exact .inl ⟨List.mem_singleton.mp h, List.isEmpty_iff.mp hnodes,
      List.isEmpty_iff.mp hcontainers⟩
  · split at h
    · exact .inr (List.mem_singleton.mp h)
    · cases h

theorem exists_of_mem_orphanedNodes (h : f ∈ orphanedNodes d) :
    ∃ label id, f = .orphanedNode label id := by
  unfold orphanedNodes at h
  split at h
  · cases h
  · obtain ⟨n, -, rfl⟩ := List.mem_map.mp h
    exact ⟨n.label, n.id, rfl⟩

theorem exists_of_mem_selfLoops (h : f ∈ selfLoops d) : ∃ id link, f = .selfLoop id link := by
  obtain ⟨l, -, rfl⟩ := List.mem_map.mp h
  exact ⟨l.source, l.id, rfl⟩

theorem exists_of_mem_duplicateLinks (h : f ∈ duplicateLinks d) :
    ∃ source target bidirectional count second,
      f = .duplicateLink source target bidirectional count second := by
  obtain ⟨k, -, hk⟩ := List.mem_filterMap.mp h
  dsimp only at hk
  split at hk
  · exact ⟨_, _, _, _, _, (Option.some.inj hk).symm⟩
  · cases hk

theorem exists_of_mem_emptyContainers (h : f ∈ emptyContainers d) :
    ∃ label id, f = .emptyContainer label id := by
  obtain ⟨c, -, rfl⟩ := List.mem_map.mp h
  exact ⟨c.label, c.id, rfl⟩

/-- Findings of one kind are looked for in one place. -/
theorem filter_code_check (h : r.status ≠ .loading) (strict : Bool) (d : Document α) :
    (check strict r d).1.findings.filter (·.code = "ORPHANED_NODE") = orphanedNodes d ∧
      (check strict r d).1.findings.filter (·.code = "DUPLICATE_LINK") = duplicateLinks d := by
  have hnone {fs : List Finding} {code : String} (hfs : ∀ f ∈ fs, f.code ≠ code) :
      fs.filter (·.code = code) = [] := by simpa using hfs
  have hall {fs : List Finding} {code : String} (hfs : ∀ f ∈ fs, f.code = code) :
      fs.filter (·.code = code) = fs := by simpa using hfs
  have hempty : ∀ f ∈ emptiness d, f.code ≠ "ORPHANED_NODE" ∧ f.code ≠ "DUPLICATE_LINK" := by
    intro f hf
    rcases of_mem_emptiness hf with ⟨rfl, -⟩ | rfl <;> simp [Finding.code]
  have horphaned : ∀ f ∈ orphanedNodes d, f.code = "ORPHANED_NODE" := by
    intro f hf
    obtain ⟨_, _, rfl⟩ := exists_of_mem_orphanedNodes hf
    rfl
  have hloops : ∀ f ∈ selfLoops d, f.code = "SELF_LOOP" := by
    intro f hf
    obtain ⟨_, _, rfl⟩ := exists_of_mem_selfLoops hf
    rfl
  have hduplicates : ∀ f ∈ duplicateLinks d, f.code = "DUPLICATE_LINK" := by
    intro f hf
    obtain ⟨_, _, _, _, _, rfl⟩ := exists_of_mem_duplicateLinks hf
    rfl
  have hicons : ∀ f ∈ (unknownIcons r d.nodes).1, f.code = "UNKNOWN_ICON" := by
    intro f hf
    rw [(unknownIcons_of_ne_loading h d.nodes).1] at hf
    obtain ⟨_, _, rfl⟩ := exists_of_mem_unknownIcons hf
    rfl
  have hcontainers : ∀ f ∈ emptyContainers d, f.code = "EMPTY_CONTAINER" := by
    intro f hf
    obtain ⟨_, _, rfl⟩ := exists_of_mem_emptyContainers hf
    rfl
  simp only [findings_check, List.filter_append]
  constructor
  · rw [hall horphaned, hnone fun f hf => (hempty f hf).1,
      hnone fun f hf => by rw [hloops f hf]; decide,
      hnone fun f hf => by rw [hduplicates f hf]; decide,
      hnone fun f hf => by rw [hicons f hf]; decide,
      hnone fun f hf => by rw [hcontainers f hf]; decide]
    simp
  · rw [hall hduplicates, hnone fun f hf => (hempty f hf).2,
      hnone fun f hf => by rw [horphaned f hf]; decide,
      hnone fun f hf => by rw [hloops f hf]; decide,
      hnone fun f hf => by rw [hicons f hf]; decide,
      hnone fun f hf => by rw [hcontainers f hf]; decide]
    simp

/-- A document in which nothing deserves a warning. -/
structure Faultless (c : Catalog) (d : Document α) : Prop where
  declares : d.nodes ≠ [] ∨ d.containers ≠ []
  /-- A single node needs no links. -/
  linked : d.nodes.length < 2 ∨ ∀ n ∈ d.nodes, ∃ l ∈ d.links, l.source = n.id ∨ l.target = n.id
  straight : ∀ l ∈ d.links, l.source ≠ l.target
  icons : ∀ n ∈ d.nodes, ∀ tag ∈ n.icon, tag ≠ "" → isBase tag = true ∨ tag ∈ c.names

theorem emptiness_info_iff :
    (∀ f ∈ emptiness d, f.severity = .info) ↔ d.nodes ≠ [] ∨ d.containers ≠ [] := by
  constructor
  · intro h
    by_contra hnone
    push Not at hnone
    have hwarning := h .emptyDiagram (by simp [emptiness, hnone])
    cases hwarning
  · intro h f hf
    rcases of_mem_emptiness hf with ⟨-, hnodes, hcontainers⟩ | rfl
    · simp [hnodes, hcontainers] at h
    · rfl

/-- Of warnings only none at all is no fault. -/
theorem info_iff_of_warnings {fs : List Finding} (h : ∀ f ∈ fs, f.severity = .warning) :
    (∀ f ∈ fs, f.severity = .info) ↔ fs = [] := by
  constructor
  · intro hinfo
    by_contra hsome
    obtain ⟨f, rest, rfl⟩ := List.exists_cons_of_ne_nil hsome
    have hwarning := h f (by simp)
    rw [hinfo f (by simp)] at hwarning
    cases hwarning
  · rintro rfl
    exact List.forall_mem_nil _

theorem orphanedNodes_info_iff :
    (∀ f ∈ orphanedNodes d, f.severity = .info) ↔
      d.nodes.length < 2 ∨ ∀ n ∈ d.nodes, ∃ l ∈ d.links, l.source = n.id ∨ l.target = n.id := by
  have hwarnings : ∀ f ∈ orphanedNodes d, f.severity = .warning := by
    intro f hf
    obtain ⟨_, _, rfl⟩ := exists_of_mem_orphanedNodes hf
    rfl
  rw [info_iff_of_warnings hwarnings, orphanedNodes]
  split
  · rename_i hfew
    simp [hfew]
  · rename_i hmany
    simp [hmany, orphans, isConnected, or_iff_not_imp_left]

theorem selfLoops_info_iff :
    (∀ f ∈ selfLoops d, f.severity = .info) ↔ ∀ l ∈ d.links, l.source ≠ l.target := by
  have hwarnings : ∀ f ∈ selfLoops d, f.severity = .warning := by
    intro f hf
    obtain ⟨_, _, rfl⟩ := exists_of_mem_selfLoops hf
    rfl
  rw [info_iff_of_warnings hwarnings, selfLoops]
  simp

theorem unknownIcons_info_iff {l : Loader} {ns : List (Node α)} :
    (∀ f ∈ ns.filterMap (unknownIcon? l), f.severity = .info) ↔
      ∀ n ∈ ns, ∀ tag ∈ n.icon, tag ≠ "" → isBase tag = true ∨ tag ∈ l.catalog.names := by
  have hwarnings : ∀ f ∈ ns.filterMap (unknownIcon? l), f.severity = .warning := by
    intro f hf
    obtain ⟨_, _, rfl⟩ := exists_of_mem_unknownIcons hf
    rfl
  rw [info_iff_of_warnings hwarnings, List.filterMap_eq_nil_iff]
  exact forall₂_congr fun _ _ => unknownIcon?_eq_none_iff

theorem isValid_strict_iff (h : r.status ≠ .loading) :
    (check true r d).1.isValid = true ↔ Faultless r.catalog d := by
  -- these two parts of the report never spoil the verdict
  have hduplicates : ∀ f ∈ duplicateLinks d, f.severity = .info := by
    intro f hf
    obtain ⟨_, _, _, _, _, rfl⟩ := exists_of_mem_duplicateLinks hf
    rfl
  have hcontainers : ∀ f ∈ emptyContainers d, f.severity = .info := by
    intro f hf
    obtain ⟨_, _, rfl⟩ := exists_of_mem_emptyContainers hf
    rfl
  change isValid true (check true r d).1.findings = true ↔ _
  rw [isValid_true_iff, findings_check, (unknownIcons_of_ne_loading h d.nodes).1]
  simp only [List.forall_mem_append, emptiness_info_iff, orphanedNodes_info_iff,
    selfLoops_info_iff, unknownIcons_info_iff]
  constructor
  · rintro ⟨⟨⟨⟨⟨hdeclares, hlinked⟩, hstraight⟩, -⟩, hicons⟩, -⟩
    exact ⟨hdeclares, hlinked, hstraight, hicons⟩
  · rintro ⟨hdeclares, hlinked, hstraight, hicons⟩
    exact ⟨⟨⟨⟨⟨hdeclares, hlinked⟩, hstraight⟩, hduplicates⟩, hicons⟩, hcontainers⟩

/-- A finding on a repeated link names the second link of the key and counts all of them. -/
inductive Repeats (ls : List Link) (k : LinkKey) : Finding → Prop
  | intro {before between after : List Link} {first second : Link}
      (links : ls = before ++ first :: (between ++ second :: after))
      (first_key : linkKey first = k) (second_key : linkKey second = k)
      (none_before : ∀ l ∈ before ++ between, linkKey l ≠ k) :
      Repeats ls k (.duplicateLink k.source k.target k.bidirectional
        ((ls.map linkKey).count k) second.id)

/-- The keys that occur more than once, in the order of their first occurrence. -/
structure RepeatedKeys (ls : List Link) (ks : List LinkKey) : Prop where
  mem_iff : ∀ k, k ∈ ks ↔ 2 ≤ (ls.map linkKey).count k
  ordered : ks.Pairwise fun k k' => (ls.map linkKey).idxOf k < (ls.map linkKey).idxOf k'

/-- Duplicates are dropped from behind, so the rest stands in the order of first occurrence. -/
theorem pairwise_idxOf_eraseDups (ks : List LinkKey) :
    ks.eraseDups.Pairwise fun k k' => ks.idxOf k < ks.idxOf k' := by
  induction ks using List.reverseRecOn with
  | nil => simp
  | append_singleton ks k ih =>
    have hold {k' : LinkKey} (hk' : k' ∈ ks) : (ks ++ [k]).idxOf k' = ks.idxOf k' :=
      List.idxOf_append_of_mem hk'
    have hbefore : ks.eraseDups.Pairwise fun a b => (ks ++ [k]).idxOf a < (ks ++ [k]).idxOf b := by
      -- a key at the end does not move the first occurrence of any other
      refine ih.imp_of_mem fun ha hb hab => ?_
      rwa [hold (List.mem_eraseDups.mp ha), hold (List.mem_eraseDups.mp hb)]
    rw [List.eraseDups_append]
    by_cases hk : k ∈ ks
    · have hnothing : [k].removeAll ks = [] := by simp [List.removeAll, hk]
      rwa [hnothing, List.eraseDups_nil, List.append_nil]
    · have hnew : [k].removeAll ks = [k] := by simp [List.removeAll, hk]
      rw [hnew, List.pairwise_append]
      refine ⟨hbefore, by simp [List.eraseDups_cons], fun a ha b hb => ?_⟩
      obtain rfl : b = k := by simpa [List.eraseDups_cons] using hb
      have ha := List.mem_eraseDups.mp ha
      rw [hold ha, List.idxOf_append_of_notMem hk]
      exact Nat.lt_add_right _ (List.idxOf_lt_length_of_mem ha)

/-- The finding on one key, if it occurs more than once. -/
def repeated? (ls : List Link) (k : LinkKey) : Option Finding :=
  let same := ls.filter (linkKey · == k)
  match same with
  | _ :: second :: _ =>
    some (.duplicateLink k.source k.target k.bidirectional same.length second.id)
  | _ => none

theorem duplicateLinks_eq (d : Document α) :
    duplicateLinks d = (d.links.map linkKey).eraseDups.filterMap (repeated? d.links) :=
  rfl

theorem length_filter_linkKey (ls : List Link) (k : LinkKey) :
    (ls.filter (linkKey · == k)).length = (ls.map linkKey).count k := by
  rw [List.count, List.countP_map, List.countP_eq_length_filter]
  rfl

theorem isSome_repeated?_iff {ls : List Link} {k : LinkKey} :
    (repeated? ls k).isSome = true ↔ 2 ≤ (ls.map linkKey).count k := by
  rw [← length_filter_linkKey, repeated?]
  split
  · rename_i hsame
    simp [hsame]
  · rename_i hsame
    match hlinks : ls.filter (linkKey · == k) with
    | [] => simp
    | [_] => simp
    | first :: second :: rest => exact absurd hlinks (hsame first second rest)

theorem repeats_of_repeated? {ls : List Link} {k : LinkKey} (h : repeated? ls k = some f) :
    Repeats ls k f := by
  unfold repeated? at h
  dsimp only at h
  split at h
  · rename_i first second rest hsame
    cases h
    obtain ⟨before, more, rfl, hbefore, hfirst, hmore⟩ := List.filter_eq_cons_iff.mp hsame
    obtain ⟨between, after, rfl, hbetween, hsecond, -⟩ := List.filter_eq_cons_iff.mp hmore
    rw [length_filter_linkKey]
    refine .intro rfl (by simpa using hfirst) (by simpa using hsecond) fun l hl => ?_
    rcases List.mem_append.mp hl with hl | hl
    · simpa using hbefore l hl
    · simpa using hbetween l hl
  · cases h

theorem forall₂_filterMap {β γ : Type} (g : β → Option γ) (bs : List β) :
    List.Forall₂ (fun b c => g b = some c) (bs.filter fun b => (g b).isSome) (bs.filterMap g) := by
  induction bs with
  | nil => exact .nil
  | cons b bs ih =>
    cases hb : g b with
    | none => simpa [hb] using ih
    | some c => simpa [hb] using ih

theorem exists_repeatedKeys (d : Document α) :
    ∃ ks, RepeatedKeys d.links ks ∧ List.Forall₂ (Repeats d.links) ks (duplicateLinks d) := by
  rw [duplicateLinks_eq]
  refine ⟨_, ⟨fun k => ?_, ?_⟩, (forall₂_filterMap (repeated? d.links) _).imp
    fun _ _ => repeats_of_repeated?⟩
  · rw [List.mem_filter, List.mem_eraseDups, isSome_repeated?_iff]
    refine ⟨And.right, fun h => ⟨?_, h⟩⟩
    exact List.count_pos_iff.mp (Nat.lt_of_lt_of_le Nat.zero_lt_two h)
  · exact (pairwise_idxOf_eraseDups _).filter _

/-- What is true of the reports on a document. -/
structure Judged (r : Registry) (d : Document α) : Prop where
  /-- Strictness does not change what is found, nor what is counted. -/
  same : ∀ first second,
    (check second r d).1.findings = (check first r d).1.findings ∧
      (check second r d).1.stats = (check first r d).1.stats
  /-- The registry that one report leaves gives the next one the same findings. -/
  again : ∀ first second, let after := (check first r d).2
    (check second after d).1.findings = (check first r d).1.findings ∧
      (check second after d).1.stats = (check first r d).1.stats
  lenient : (check false r d).1.isValid = true
  strict : (check true r d).1.isValid = true ↔ Faultless r.catalog d
  /-- Nodes without links are reported unless there is only one node. -/
  orphaned : ∀ strict, (check strict r d).1.findings.countP (·.code = "ORPHANED_NODE") =
    if 2 ≤ d.nodes.length then (check strict r d).1.stats.orphanedNodes else 0
  counted : ∀ strict, (check strict r d).1.stats.orphanedNodes =
    d.nodes.countP fun n => Unlinked d n.id
  /-- There is one finding for each repeated key. -/
  duplicates : ∀ strict, ∃ ks, RepeatedKeys d.links ks ∧
    List.Forall₂ (Repeats d.links) ks
      ((check strict r d).1.findings.filter (·.code = "DUPLICATE_LINK"))

end Lint

end ArchDiagram
