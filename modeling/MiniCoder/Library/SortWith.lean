import Mathlib.Data.List.Sort

/-!
# Sorting with a comparison that may throw

A stable sort that is given its comparison, and ends where the comparison throws.

* `sort_ok`: where no comparison of two members throws, it is the plain sort.
* `sort_error`: where every comparison throws, it throws as soon as there are two members.
* `sort_short`: with at most one member it compares nothing.
-/

namespace SortWith

variable {α ε : Type*}

/-- Puts an item before the first one that it does not come after. -/
def insert (compare : α → α → Except ε Ordering) (a : α) : List α → Except ε (List α)
  | [] => .ok [a]
  | b :: l =>
    match compare a b with
    | .error e => .error e
    | .ok .gt =>
      match insert compare a l with
      | .error e => .error e
      | .ok l' => .ok (b :: l')
    | .ok _ => .ok (a :: b :: l)

def sort (compare : α → α → Except ε Ordering) : List α → Except ε (List α)
  | [] => .ok []
  | a :: l =>
    match sort compare l with
    | .error e => .error e
    | .ok l' => insert compare a l'

variable {compare : α → α → Except ε Ordering} {order : α → α → Ordering} {l : List α}

theorem insert_ok {a : α} (h : ∀ b ∈ l, compare a b = .ok (order a b)) :
    insert compare a l = .ok (l.orderedInsert (fun a b => order a b ≠ .gt) a) := by
  induction l with
  | nil => rfl
  | cons b l ih =>
    obtain ⟨hb, hl⟩ := List.forall_mem_cons.mp h
    rw [insert, hb, List.orderedInsert_cons, ih hl]
    rcases order a b <;> rfl

/-- **A sort that is not thrown out** is the plain one. -/
theorem sort_ok (h : ∀ a ∈ l, ∀ b ∈ l, compare a b = .ok (order a b)) :
    sort compare l = .ok (l.insertionSort fun a b => order a b ≠ .gt) := by
  induction l with
  | nil => rfl
  | cons a l ih =>
    have hl : ∀ b ∈ l, ∀ c ∈ l, compare b c = .ok (order b c) := fun b hb c hc =>
      h b (List.mem_cons_of_mem a hb) c (List.mem_cons_of_mem a hc)
    rw [sort, ih hl]
    apply insert_ok
    intro b hb
    exact h a List.mem_cons_self b
      (List.mem_cons_of_mem a ((List.mem_insertionSort _).mp hb))

/-- **A comparison that always throws** throws as soon as there is something to compare. -/
theorem sort_error {e : ε} (h : ∀ a ∈ l, ∀ b, compare a b = .error e) (hlength : 2 ≤ l.length) :
    sort compare l = .error e := by
  induction l with
  | nil => simp at hlength
  | cons a l ih =>
    rw [sort]
    rcases l with _ | ⟨b, _ | ⟨c, l⟩⟩
    · simp at hlength
    · simp only [sort, insert, h a List.mem_cons_self b]
    · rw [ih (fun x hx => h x (List.mem_cons_of_mem a hx)) (by simp)]

theorem sort_short (h : l.length ≤ 1) : sort compare l = .ok l := by
  rcases l with _ | ⟨a, _ | ⟨b, l⟩⟩
  · rfl
  · rfl
  · simp at h

end SortWith
