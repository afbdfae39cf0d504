/-!
Runs at the start of a list: when a run is the whole list, and when it is empty. Short lists are
checked member by member.
-/

namespace ArchDiagram.Text

theorem takeWhile_of_all {α : Type} {p : α → Bool} {l : List α} (h : l.all p = true) :
    l.takeWhile p = l := by
  induction l with
  | nil => rfl
  | cons a l ih => simp_all

theorem dropWhile_of_all {α : Type} {p : α → Bool} {l : List α} (h : l.all p = true) :
    l.dropWhile p = [] := by
  induction l with
  | nil => rfl
  | cons a l ih => simp_all

theorem dropWhile_of_head {α : Type} {p : α → Bool} {l : List α} (h : ∀ a ∈ l, p a = false) :
    l.dropWhile p = l := by
  cases l <;> simp_all

/-- A run ends where a list that does not go on with it begins. -/
theorem takeWhile_append_of_head {α : Type} {p : α → Bool} {a b : List α}
    (ha : ∀ c ∈ a, p c = true) (hb : ∀ c ∈ b.head?, p c = false) :
    (a ++ b).takeWhile p = a := by
  rw [List.takeWhile_append_of_pos ha]
  cases b with
  | nil => simp
  | cons c b => simp [hb c rfl]

theorem dropWhile_append_of_head {α : Type} {p : α → Bool} {a b : List α}
    (ha : ∀ c ∈ a, p c = true) (hb : ∀ c ∈ b.head?, p c = false) :
    (a ++ b).dropWhile p = b := by
  rw [List.dropWhile_append_of_pos ha]
  cases b with
  | nil => rfl
  | cons c b => simp [hb c rfl]

/-- Two cuts of one list, each at the end of a run, are one cut. -/
theorem cut_unique {α : Type} {p : α → Bool} {a b a' b' : List α} (ha : ∀ c ∈ a, p c = true)
    (hb : ∀ c ∈ b.head?, p c = false) (ha' : ∀ c ∈ a', p c = true)
    (hb' : ∀ c ∈ b'.head?, p c = false) (h : a ++ b = a' ++ b') : a = a' ∧ b = b' := by
  constructor
  · rw [← takeWhile_append_of_head ha hb, h, takeWhile_append_of_head ha' hb']
  · rw [← dropWhile_append_of_head ha hb, h, dropWhile_append_of_head ha' hb']

/-- A property of all members of a short list, decided member by member. -/
theorem forall_mem_of_all {α : Type} {P : α → Prop} [DecidablePred P] {l : List α}
    (h : l.all (fun a => decide (P a)) = true) : ∀ a ∈ l, P a :=
  fun a ha => of_decide_eq_true (List.all_eq_true.mp h a ha)

end ArchDiagram.Text
