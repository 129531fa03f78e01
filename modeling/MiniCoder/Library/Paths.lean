import Mathlib.Data.List.Infix
import Mathlib.Data.List.Basic

/-!
# Paths

A path is a list of moves through a tree of names: each of its segments stays where it is, goes up,
or goes down to a name.  A location is the list of the names on the way from the root, so the parent
of the root is the root.

* `stays_cons_up`, `stays_cons_down`: how far the rest of a path may climb after its first move.
* `follow_downs`: a location, read as a path, names itself.
* `splitOnP_intercalate`: the segments of a location that was written down.
-/

namespace Paths

variable {α : Type*}

/-- What one segment of a path does. -/
inductive Move (α : Type*)
  | stay
  | up
  | down (name : α)
  deriving DecidableEq, Repr

namespace Move

/-- Where a move leads from a location. -/
def apply : List α → Move α → List α
  | l, stay => l
  | l, up => l.dropLast
  | l, down name => l ++ [name]

def isUp : Move α → Bool
  | up => true
  | _ => false

def isDown : Move α → Bool
  | down _ => true
  | _ => false

end Move

open Move

/-- Where a path leads from a location. -/
def follow (l : List α) (path : List (Move α)) : List α := path.foldl apply l

/-- No initial part of a path climbs above the root, from a location at a depth. -/
def Stays (depth : ℕ) (path : List (Move α)) : Prop :=
  ∀ initial, initial <+: path → initial.countP isUp ≤ depth + initial.countP isDown

@[simp] theorem follow_nil (l : List α) : follow l [] = l := rfl

@[simp] theorem follow_cons (l : List α) (move : Move α) (path : List (Move α)) :
    follow l (move :: path) = follow (move.apply l) path := rfl

/-! ### Climbing -/

variable {depth : ℕ} {path : List (Move α)}

theorem stays_nil : Stays depth ([] : List (Move α)) := by
  intro initial h
  simp [List.prefix_nil.mp h]

/-- A path stays when its empty part does and every part that begins with its first move does. -/
theorem stays_cons {move : Move α} :
    Stays depth (move :: path) ↔ ∀ initial, initial <+: path →
      (move :: initial).countP isUp ≤ depth + (move :: initial).countP isDown := by
  constructor
  · intro h initial hinitial
    exact h _ (List.cons_prefix_cons.mpr ⟨rfl, hinitial⟩)
  · intro h initial hinitial
    rcases initial with _ | ⟨first, initial⟩
    · simp
    · obtain ⟨rfl, hrest⟩ := List.cons_prefix_cons.mp hinitial
      exact h initial hrest

theorem stays_cons_stay : Stays depth (stay :: path) ↔ Stays depth path := by
  rw [stays_cons]
  unfold Stays
  simp [isUp, isDown]

theorem stays_cons_down {name : α} :
    Stays depth (down name :: path) ↔ Stays (depth + 1) path := by
  rw [stays_cons]
  unfold Stays
  simp only [List.countP_cons, isUp, isDown]
  refine forall₂_congr fun initial _ => ?_
  constructor <;> intro h <;> simp at h ⊢ <;> omega

theorem stays_cons_up : Stays (depth + 1) (up :: path) ↔ Stays depth path := by
  rw [stays_cons]
  unfold Stays
  simp only [List.countP_cons, isUp, isDown]
  refine forall₂_congr fun initial _ => ?_
  constructor <;> intro h <;> simp at h ⊢ <;> omega

theorem not_stays_up : ¬Stays 0 (up :: path) := by
  intro h
  have hfirst := stays_cons.mp h [] List.nil_prefix
  simp [isUp, isDown] at hfirst

/-- A path that only goes down stays. -/
theorem stays_downs (names : List α) : Stays depth (names.map down) := by
  intro initial h
  have hnone : initial.countP isUp = 0 := by
    refine List.countP_eq_zero.mpr fun move hmove => ?_
    obtain ⟨name, -, rfl⟩ := List.mem_map.mp (h.subset hmove)
    exact Bool.false_ne_true
  omega

/-! ### Locations -/

theorem follow_downs (l names : List α) : follow l (names.map down) = l ++ names := by
  induction names generalizing l with
  | nil => simp
  | cons name names ih =>
    rw [List.map_cons, follow_cons, ih]
    simp [apply]

/-- What holds of the names a path goes down to holds of the location it leads to. -/
theorem forall_follow {p : α → Prop} {l : List α} (hl : ∀ name ∈ l, p name)
    (hpath : ∀ name, down name ∈ path → p name) : ∀ name ∈ follow l path, p name := by
  induction path generalizing l with
  | nil => exact hl
  | cons move path ih =>
    rw [follow_cons]
    refine ih ?_ fun name hname => hpath name (List.mem_cons_of_mem _ hname)
    cases move with
    | stay => exact hl
    | up => exact fun name hname => hl name (List.mem_of_mem_dropLast hname)
    | down first =>
      intro name hname
      rcases List.mem_append.mp hname with hname | hname
      · exact hl name hname
      · obtain rfl := List.mem_singleton.mp hname
        exact hpath name List.mem_cons_self

/-! ### Segments -/

/-- The names of a location that was written down with a separator between them, as long as no name
has a separator in it. -/
theorem splitOnP_intercalate {p : α → Bool} {separator : α} (hseparator : p separator = true)
    {names : List (List α)} (hnames : ∀ name ∈ names, ∀ a ∈ name, p a = false)
    (hne : names ≠ []) : ([separator].intercalate names).splitOnP p = names := by
  induction names with
  | nil => exact absurd rfl hne
  | cons name names ih =>
    have hname := hnames name List.mem_cons_self
    rcases names with _ | ⟨second, rest⟩
    · rw [List.intercalate_singleton]
      exact List.splitOnP_eq_singleton hname
    · rw [List.intercalate_cons_cons, List.append_assoc, List.singleton_append,
        List.splitOnP_append_cons_of_forall_mem hname _ hseparator,
        ih (fun other hother => hnames other (List.mem_cons_of_mem _ hother))
          (List.cons_ne_nil _ _)]

/-- What was written down is the names and the separators. -/
theorem mem_intercalate {separator a : α} {names : List (List α)}
    (h : a ∈ [separator].intercalate names) : a = separator ∨ ∃ name ∈ names, a ∈ name := by
  induction names with
  | nil => simp at h
  | cons name names ih =>
    rcases names with _ | ⟨second, rest⟩
    · rw [List.intercalate_singleton] at h
      exact Or.inr ⟨name, List.mem_cons_self, h⟩
    · rw [List.intercalate_cons_cons, List.append_assoc, List.mem_append, List.mem_append,
        List.mem_singleton] at h
      rcases h with h | h | h
      · exact Or.inr ⟨name, List.mem_cons_self, h⟩
      · exact Or.inl h
      · refine (ih h).imp_right ?_
        rintro ⟨other, hother, ha⟩
        exact ⟨other, List.mem_cons_of_mem _ hother, ha⟩

/-- A segment is of the text, without a separator. -/
theorem of_mem_splitOnP {p : α → Bool} {l segment : List α} (h : segment ∈ l.splitOnP p) :
    ∀ a ∈ segment, a ∈ l ∧ p a = false := by
  induction l generalizing segment with
  | nil =>
    obtain rfl := List.mem_singleton.mp h
    simp
  | cons b l ih =>
    rw [List.splitOnP_cons_eq_if_modifyHead] at h
    by_cases hb : p b = true
    · rw [if_pos hb] at h
      rcases List.mem_cons.mp h with rfl | h
      · simp
      · exact fun a ha => (ih h a ha).imp_left (List.mem_cons_of_mem _)
    · rw [if_neg hb] at h
      rcases hsplit : l.splitOnP p with _ | ⟨first, rest⟩
      · exact absurd hsplit (List.splitOnP_ne_nil _ _)
      · rw [hsplit] at h ih
        rcases List.mem_cons.mp h with rfl | h
        · intro a ha
          rcases List.mem_cons.mp ha with rfl | ha
          · exact ⟨List.mem_cons_self, Bool.eq_false_iff.mpr hb⟩
          · exact (ih List.mem_cons_self a ha).imp_left (List.mem_cons_of_mem _)
        · exact fun a ha => (ih (List.mem_cons_of_mem _ h) a ha).imp_left (List.mem_cons_of_mem _)

end Paths
