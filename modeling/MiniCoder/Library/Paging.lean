import Mathlib.Data.List.Basic
import Mathlib.Tactic.Ring

/-!
# Reading a list page by page

A server holds a list and gives it out in pages.  A reader asks for one page after the other, and
stops at a page that is shorter than what it has asked for, or after a number of pages.

* `readPages_ok_iff`: **what a reader gets**, and when it gets anything.
-/

namespace Paging

variable {α ε : Type*}

/-! ### Servers -/

/-- A server; it gives out at most `limit` items in a page, and may fail on any of them. -/
structure Server (α ε : Type*) where
  items : List α
  limit : ℕ
  limit_pos : 0 < limit
  failure : ℕ → Option ε
  /-- An empty page may come without a body. -/
  bodiless : Bool := false

namespace Server

variable (s : Server α ε) (size : ℕ)

/-- The items of a page; pages count from 1. -/
def batch (page : ℕ) : List α :=
  (s.items.drop ((page - 1) * min size s.limit)).take (min size s.limit)

/-- The answer for a page of a size. -/
def answer (page : ℕ) : Except ε (Option (List α)) :=
  match s.failure page with
  | some e => .error e
  | none =>
    if (s.batch size page).isEmpty && s.bodiless then .ok none else .ok (some (s.batch size page))

/-- How many items a reader of at most `pages` pages gets. -/
def reach (pages : ℕ) : ℕ := if s.limit < size then s.limit else pages * size

/-- How many pages it asks for. -/
def asked (pages : ℕ) : ℕ :=
  if s.limit < size then 1 else min pages (s.items.length / size + 1)

end Server

/-! ### Readers -/

/-- A reader that has at most `pages` pages left, and has read `all`. -/
def readPages (size : ℕ) (answer : ℕ → Except ε (Option (List α))) :
    ℕ → ℕ → List α → Except ε (List α)
  | 0, _, all => .ok all
  | pages + 1, page, all =>
    match answer page with
    | .error e => .error e
    | .ok data =>
      let batch := data.getD []
      if batch.length < size then .ok (all ++ batch)
      else readPages size answer pages (page + 1) (all ++ batch)

section Read

variable {s : Server α ε} {size : ℕ}

/-- An answer has the items of its page, with a body or without. -/
theorem Server.answer_ok (s : Server α ε) (size : ℕ) {page : ℕ} (h : s.failure page = none) :
    ∃ data, s.answer size page = .ok data ∧ data.getD [] = s.batch size page := by
  rw [Server.answer, h]
  by_cases hempty : ((s.batch size page).isEmpty && s.bodiless) = true
  · rw [Bool.and_eq_true, List.isEmpty_iff] at hempty
    refine ⟨none, ?_, hempty.1.symm⟩
    simp [hempty.1, hempty.2]
  · exact ⟨some (s.batch size page), by simp only [if_neg hempty], rfl⟩

theorem readPages_answer (pages page : ℕ) (all : List α) :
    readPages size (s.answer size) (pages + 1) page all =
      match s.failure page with
      | some e => .error e
      | none =>
        if (s.batch size page).length < size then .ok (all ++ s.batch size page)
        else readPages size (s.answer size) pages (page + 1) (all ++ s.batch size page) := by
  rw [readPages]
  rcases hfailure : s.failure page with _ | e
  · obtain ⟨data, hanswer, hdata⟩ := s.answer_ok size hfailure
    rw [hanswer]
    simp only [hdata]
  · rw [Server.answer, hfailure]

/-- Where the pages are as long as asked for, after `k` full ones. -/
theorem readPages_full (hsize : 0 < size) (hlimit : size ≤ s.limit) {pages k : ℕ}
    (hfull : k * size ≤ s.items.length) {all : List α} :
    readPages size (s.answer size) pages (k + 1) (s.items.take (k * size)) = .ok all ↔
      (∀ page, k < page → page ≤ min (k + pages) (s.items.length / size + 1) →
        s.failure page = none) ∧ all = s.items.take ((k + pages) * size) := by
  induction pages generalizing k with
  | zero =>
    rw [readPages, Nat.add_zero]
    constructor
    · intro h
      exact ⟨fun page hlt hle => by omega, (Except.ok.inj h).symm⟩
    · rintro ⟨-, rfl⟩
      rfl
  | succ pages ih =>
    have hdiv : k ≤ s.items.length / size := (Nat.le_div_iff_mul_le hsize).mpr hfull
    have hbatch : s.batch size (k + 1) = (s.items.drop (k * size)).take size := by
      rw [Server.batch, Nat.add_sub_cancel, Nat.min_eq_left hlimit]
    have hjoin : s.items.take (k * size) ++ s.batch size (k + 1) =
        s.items.take ((k + 1) * size) := by
      rw [hbatch, Nat.succ_mul, List.take_add]
    have hlength : (s.batch size (k + 1)).length = min size (s.items.length - k * size) := by
      rw [hbatch, List.length_take, List.length_drop]
    rw [readPages_answer, hjoin]
    rcases hfailure : s.failure (k + 1) with _ | e
    · simp only
      by_cases hshort : (s.batch size (k + 1)).length < size
      · -- a short page is the last one
        have hend : s.items.length < (k + 1) * size := by
          rw [Nat.succ_mul]
          omega
        have hlast : s.items.length / size < k + 1 := (Nat.div_lt_iff_lt_mul hsize).mpr hend
        have hmore : (k + 1) * size ≤ (k + (pages + 1)) * size :=
          Nat.mul_le_mul_right size (by omega)
        rw [if_pos hshort, List.take_of_length_le hend.le, List.take_of_length_le (by omega)]
        constructor
        · intro h
          refine ⟨fun page hlt hle => ?_, (Except.ok.inj h).symm⟩
          have hpage : page = k + 1 := by omega
          rw [hpage, hfailure]
        · rintro ⟨-, rfl⟩
          rfl
      · have hnext : (k + 1) * size ≤ s.items.length := by
          rw [Nat.succ_mul]
          omega
        have hsum : k + 1 + pages = k + (pages + 1) := by omega
        rw [if_neg hshort, ih hnext, hsum]
        refine and_congr_left fun _ => ⟨fun h page hlt hle => ?_, fun h page hlt hle => ?_⟩
        · rcases Nat.lt_or_ge (k + 1) page with hlater | hfirst
          · exact h page hlater hle
          · have hpage : page = k + 1 := by omega
            rw [hpage, hfailure]
        · exact h page (by omega) hle
    · simp only [reduceCtorEq, false_iff, not_and]
      intro h
      have hnone := h (k + 1) (Nat.lt_succ_self k) (by omega)
      rw [hfailure] at hnone
      cases hnone

/-- **What a reader gets**: the first items, as many as it reaches, unless one of the pages that it
asks for fails. -/
theorem readPages_ok_iff (hsize : 0 < size) {pages : ℕ} (hpages : 0 < pages) {all : List α} :
    readPages size (s.answer size) pages 1 [] = .ok all ↔
      (∀ page, 0 < page → page ≤ s.asked size pages → s.failure page = none) ∧
        all = s.items.take (s.reach size pages) := by
  rw [Server.asked, Server.reach]
  by_cases hlimit : s.limit < size
  · obtain ⟨pages, rfl⟩ := Nat.exists_eq_succ_of_ne_zero hpages.ne'
    have hbatch : s.batch size 1 = s.items.take s.limit := by
      rw [Server.batch, Nat.min_eq_right hlimit.le]
      simp
    have hshort : (s.batch size 1).length < size := by
      rw [hbatch, List.length_take]
      omega
    rw [readPages_answer, if_pos hlimit, if_pos hlimit]
    rcases hfailure : s.failure 1 with _ | e
    · simp only
      rw [if_pos hshort, hbatch, List.nil_append]
      constructor
      · intro h
        refine ⟨fun page hlt hle => ?_, (Except.ok.inj h).symm⟩
        have hpage : page = 1 := by omega
        rw [hpage, hfailure]
      · rintro ⟨-, rfl⟩
        rfl
    · simp only [reduceCtorEq, false_iff, not_and]
      intro h
      have hnone := h 1 Nat.one_pos (Nat.le_refl 1)
      rw [hfailure] at hnone
      cases hnone
  · have hfull : readPages size (s.answer size) pages (0 + 1) (s.items.take (0 * size)) = .ok all ↔
        (∀ page, 0 < page → page ≤ min (0 + pages) (s.items.length / size + 1) →
          s.failure page = none) ∧ all = s.items.take ((0 + pages) * size) :=
      readPages_full hsize (Nat.le_of_not_lt hlimit) (by omega)
    rw [if_neg hlimit, if_neg hlimit]
    simpa using hfull

end Read

end Paging
