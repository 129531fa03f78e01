import Mathlib.Data.List.AList
import Mathlib.Data.List.Sort

/-!
# Items in the order of time

Where the items of a list are written under keys in the order of their times, the last write of a key
is the latest one.

* `any_entries`: the values of a map are what it has under its keys.
* `sortBy_pairwise`: items of distinct times are sorted strictly.
* `sortBy_eq_of_perm`: lists with the same items of distinct times are sorted alike.
-/

namespace LastWrite

/-! ### Values of a map -/

/-- A value of a map is what it has under a key. -/
theorem any_entries {κ ν : Type*} [DecidableEq κ] {m : AList fun _ : κ => ν} {p : ν → Bool} :
    (m.entries.any fun entry => p entry.2) = true ↔
      ∃ key value, m.lookup key = some value ∧ p value = true := by
  rw [List.any_eq_true]
  constructor
  · rintro ⟨⟨key, value⟩, hentry, hp⟩
    exact ⟨key, value, AList.mem_lookup_iff.mpr hentry, hp⟩
  · rintro ⟨key, value, hlookup, hp⟩
    exact ⟨⟨key, value⟩, AList.mem_lookup_iff.mp hlookup, hp⟩

/-! ### Times -/

section Times

variable {α τ : Type*} [LinearOrder τ] {time : α → τ} {l l' : List α}

/-- The items in the order of their times; those of one time stay in their order. -/
def sortBy (time : α → τ) (l : List α) : List α := l.insertionSort fun a b => time a ≤ time b

/-- No two items have one time. -/
def Distinct (time : α → τ) (l : List α) : Prop := l.Pairwise fun a b => time a ≠ time b

/-- The latest of the items that have a property. -/
def Latest (time : α → τ) (l : List α) (p : α → Prop) (a : α) : Prop :=
  (a ∈ l ∧ p a) ∧ ∀ b ∈ l, p b → time b ≤ time a

theorem sortBy_perm (time : α → τ) (l : List α) : (sortBy time l).Perm l :=
  List.perm_insertionSort _ l

omit [LinearOrder τ] in
theorem Distinct.perm (h : Distinct time l) (hperm : l.Perm l') : Distinct time l' :=
  hperm.pairwise h fun hne => hne.symm

theorem sortBy_pairwise (h : Distinct time l) :
    (sortBy time l).Pairwise fun a b => time a < time b := by
  have hle : (sortBy time l).Pairwise fun a b => time a ≤ time b := by
    have : Std.Total fun a b : α => time a ≤ time b := ⟨fun a b => le_total _ _⟩
    have : IsTrans α fun a b : α => time a ≤ time b := ⟨fun _ _ _ => le_trans⟩
    exact List.pairwise_insertionSort _ l
  have hne := h.perm (sortBy_perm time l).symm
  exact (hle.and hne).imp fun hab => lt_of_le_of_ne hab.1 hab.2

/-- **Lists with the same items are sorted alike.** -/
theorem sortBy_eq_of_perm (h : Distinct time l) (hperm : l.Perm l') :
    sortBy time l = sortBy time l' := by
  have hsame : (sortBy time l).Perm (sortBy time l') :=
    ((sortBy_perm time l).trans hperm).trans (sortBy_perm time l').symm
  refine hsame.eq_of_pairwise (fun a b _ _ hab hba => ?_) (sortBy_pairwise h)
    (sortBy_pairwise (h.perm hperm))
  exact absurd hab (lt_asymm hba)

theorem Latest.congr {p : α → Prop} {a : α} (hperm : ∀ b, b ∈ l ↔ b ∈ l') :
    Latest time l p a ↔ Latest time l' p a := by
  unfold Latest
  simp only [hperm]

end Times

end LastWrite
