import MiniCoder.Library.LastWrite
import Mathlib.Data.List.Basic
import Mathlib.Data.List.Nodup

/-!
# Reading rows past a position

Rows have positions in a linear order, no two of them the same one.  A reader remembers the position
of the last row that it has been given, its cursor, and asks for the next ones past it: a batch is
the first rows past the cursor, in order.

* `batch_pairwise`, `mem_of_mem_batch`, `past_of_mem_batch`: what a batch consists of.
* `batch_closed`: a batch skips no row.
* `batch_ne_nil`, `mem_batch_of_short`: when it is empty, and when it has all the rows.
* `reached_next`: **the rows that a reader has reached are those it had before, and its batch**.
* `ahead_next_lt`: every batch brings a reader closer to a row that it may see.
* `walk_pairwise`, `walk_has`, `walk_eq_left`: **what a reader gets that follows the cursors**, of
  rows that change in the meantime, and of rows that do not.
* `countP_mem_flatMap`: what stands once in all the batches stands in one of them.
-/

namespace Keyset

open LastWrite

variable {ρ κ : Type*} [LinearOrder κ]

/-! ### Positions -/

/-- A position is past a cursor; every one is past none. -/
def Past (cursor : Option κ) (k : κ) : Prop := ∀ c ∈ cursor, c < k

instance (cursor : Option κ) (k : κ) : Decidable (Past cursor k) :=
  match cursor with
  | none => isTrue (by simp [Past])
  | some c => decidable_of_iff (c < k) (by simp [Past])

@[simp] theorem past_none (k : κ) : Past none k := by simp [Past]

@[simp] theorem past_some {c k : κ} : Past (some c) k ↔ c < k := by simp [Past]

theorem Past.trans_lt {cursor : Option κ} {k k' : κ} (h : Past cursor k) (hlt : k < k') :
    Past cursor k' :=
  fun c hc => (h c hc).trans hlt

/-! ### Batches -/

variable (key : ρ → κ) (p : ρ → Bool)

/-- The rows past a cursor, in order. -/
def left (cursor : Option κ) (rows : List ρ) : List ρ :=
  sortBy key (rows.filter fun r => p r && decide (Past cursor (key r)))

/-- The first rows past a cursor, at most `limit` of them. -/
def batch (cursor : Option κ) (limit : ℕ) (rows : List ρ) : List ρ :=
  (left key p cursor rows).take limit

/-- The rows up to a cursor, in order. -/
def reached (cursor : Option κ) (rows : List ρ) : List ρ :=
  sortBy key (rows.filter fun r => p r && !decide (Past cursor (key r)))

variable {key p} {cursor : Option κ} {limit : ℕ} {rows : List ρ} {r r' : ρ}

theorem mem_reached :
    r ∈ reached key p cursor rows ↔ r ∈ rows ∧ p r = true ∧ ¬ Past cursor (key r) := by
  rw [reached, (sortBy_perm key _).mem_iff, List.mem_filter, Bool.and_eq_true, Bool.not_eq_true',
    decide_eq_false_iff_not]

@[simp] theorem reached_none : reached key p none rows = [] := by
  apply List.eq_nil_iff_forall_not_mem.mpr
  intro r hr
  exact (mem_reached.mp hr).2.2 (past_none (key r))

theorem reached_pairwise (hdistinct : Distinct key rows) :
    (reached key p cursor rows).Pairwise fun a b => key a < key b :=
  sortBy_pairwise (hdistinct.filter _)

/-- A row that is past the cursor is not one of those up to it. -/
theorem reached_append_past (hpast : Past cursor (key r)) :
    reached key p cursor (rows ++ [r]) = reached key p cursor rows := by
  have hnot : (p r && !decide (Past cursor (key r))) = false := by simp [hpast]
  rw [reached, reached, List.filter_append, List.filter_singleton, hnot]
  simp

theorem mem_left :
    r ∈ left key p cursor rows ↔ r ∈ rows ∧ p r = true ∧ Past cursor (key r) := by
  rw [left, (sortBy_perm key _).mem_iff, List.mem_filter, Bool.and_eq_true, decide_eq_true_iff]

theorem left_pairwise (hdistinct : Distinct key rows) :
    (left key p cursor rows).Pairwise fun a b => key a < key b :=
  sortBy_pairwise (hdistinct.filter _)

theorem of_mem_batch (h : r ∈ batch key p cursor limit rows) :
    r ∈ rows ∧ p r = true ∧ Past cursor (key r) :=
  mem_left.mp (List.mem_of_mem_take h)

/-- A batch is in order. -/
theorem batch_pairwise (hdistinct : Distinct key rows) :
    (batch key p cursor limit rows).Pairwise fun a b => key a < key b :=
  (left_pairwise hdistinct).sublist (List.take_sublist _ _)

/-- **A batch skips no row**: what is past the cursor and not past a row of the batch is in it. -/
theorem batch_closed (hdistinct : Distinct key rows) (hr : r ∈ rows) (hp : p r = true)
    (hpast : Past cursor (key r)) (hr' : r' ∈ batch key p cursor limit rows)
    (hle : key r ≤ key r') : r ∈ batch key p cursor limit rows := by
  have hmem : r ∈ left key p cursor rows := mem_left.mpr ⟨hr, hp, hpast⟩
  have hsorted : (left key p cursor rows).Pairwise fun a b => key a < key b :=
    left_pairwise hdistinct
  rw [← List.take_append_drop limit (left key p cursor rows)] at hmem hsorted
  rcases List.mem_append.mp hmem with hin | hout
  · exact hin
  · -- the rows that are left out come after all of the batch
    have hlt := (List.pairwise_append.mp hsorted).2.2 r' hr' r hout
    exact absurd hle (not_le.mpr hlt)

theorem batch_ne_nil (hlimit : 0 < limit) (hr : r ∈ rows) (hp : p r = true)
    (hpast : Past cursor (key r)) : batch key p cursor limit rows ≠ [] := by
  have hmem : r ∈ left key p cursor rows := mem_left.mpr ⟨hr, hp, hpast⟩
  intro hnil
  rcases List.take_eq_nil_iff.mp hnil with hzero | hempty
  · omega
  · rw [hempty] at hmem
    cases hmem

/-- A batch that is shorter than it may be has all the rows past the cursor. -/
theorem mem_batch_of_short (hshort : (batch key p cursor limit rows).length < limit)
    (hr : r ∈ rows) (hp : p r = true) (hpast : Past cursor (key r)) :
    r ∈ batch key p cursor limit rows := by
  have hmem : r ∈ left key p cursor rows := mem_left.mpr ⟨hr, hp, hpast⟩
  rw [batch, List.length_take] at hshort
  rw [batch, List.take_of_length_le (by omega)]
  exact hmem

/-- Two lists in order with the same rows are the same. -/
theorem eq_of_mem_iff {l l' : List ρ} (hl : l.Pairwise fun a b => key a < key b)
    (hl' : l'.Pairwise fun a b => key a < key b) (hmem : ∀ a, a ∈ l ↔ a ∈ l') : l = l' := by
  have : Std.Irrefl fun a b : ρ => key a < key b := ⟨fun a => lt_irrefl (key a)⟩
  have : Std.Antisymm fun a b : ρ => key a < key b := ⟨fun a b hab hba => absurd hab (lt_asymm hba)⟩
  exact hl.eq_of_mem_iff hl' hmem

/-- The rows of a batch are up to its last one. -/
theorem le_last {l : List ρ} {a last : ρ} (hl : l.Pairwise fun a b => key a < key b)
    (hlast : l.getLast? = some last) (ha : a ∈ l) : key a ≤ key last := by
  obtain ⟨init, rfl⟩ := List.getLast?_eq_some_iff.mp hlast
  rcases List.mem_append.mp ha with hinit | hsame
  · exact ((List.pairwise_append.mp hl).2.2 a hinit last (List.mem_singleton_self last)).le
  · rw [List.mem_singleton.mp hsame]

/-- **What a reader has reached** with its next batch: the rows that it had reached before, followed
by the batch.  A row that `q` lets it see counts among those that `p` counts, and where `q` shows it
a row it shows it those before. -/
theorem reached_next {q : ρ → Bool} {last : ρ} (hdistinct : Distinct key rows)
    (hsub : ∀ r, q r = true → p r = true)
    (hclosed : ∀ r r', p r = true → q r' = true → key r ≤ key r' → q r = true)
    (hlast : (batch key q cursor limit rows).getLast? = some last) :
    reached key p (some (key last)) rows =
      reached key p cursor rows ++ batch key q cursor limit rows := by
  have hbatch : (batch key q cursor limit rows).Pairwise fun a b => key a < key b :=
    batch_pairwise hdistinct
  have hreached : (reached key p (some (key last)) rows).Pairwise fun a b => key a < key b :=
    reached_pairwise hdistinct
  have hlastMem := List.mem_of_getLast? hlast
  obtain ⟨hlastRow, hlastSeen, hlastPast⟩ := of_mem_batch hlastMem
  apply eq_of_mem_iff hreached
  · refine List.pairwise_append.mpr ⟨reached_pairwise hdistinct, hbatch, ?_⟩
    intro a ha b hb
    obtain ⟨c, hc, hca⟩ : ∃ c, cursor = some c ∧ key a ≤ c := by
      simpa [Past] using (mem_reached.mp ha).2.2
    exact hca.trans_lt ((of_mem_batch hb).2.2 c hc)
  · intro a
    rw [List.mem_append, mem_reached, mem_reached, past_some, not_lt]
    constructor
    · rintro ⟨ha, hpa, hle⟩
      by_cases hpast : Past cursor (key a)
      · have hqa := hclosed a last hpa hlastSeen hle
        exact Or.inr (batch_closed hdistinct ha hqa hpast hlastMem hle)
      · exact Or.inl ⟨ha, hpa, hpast⟩
    · rintro (⟨ha, hpa, hpast⟩ | hb)
      · -- a row up to the old cursor is before the new one
        refine ⟨ha, hpa, ?_⟩
        by_contra hgt
        exact hpast (hlastPast.trans_lt (not_le.mp hgt))
      · obtain ⟨ha, hqa, -⟩ := of_mem_batch hb
        exact ⟨ha, hsub a hqa, le_last hbatch hlast hb⟩

/-! ### Progress -/

/-- How many rows there are past a cursor and up to a position. -/
def ahead (key : ρ → κ) (cursor : Option κ) (k : κ) (rows : List ρ) : ℕ :=
  rows.countP fun r => decide (key r ≤ k) && decide (Past cursor (key r))

theorem not_past_of_ahead_eq_zero {k : κ} (h : ahead key cursor k rows = 0) (hr : r ∈ rows)
    (hle : key r ≤ k) : ¬ Past cursor (key r) := by
  intro hpast
  have hnot := List.countP_eq_zero.mp h r hr
  simp [hle, hpast] at hnot

theorem countP_lt_countP {α : Type*} {p q : α → Bool} {l : List α} {a : α}
    (himp : ∀ x, p x = true → q x = true) (ha : a ∈ l) (hp : p a = false) (hq : q a = true) :
    l.countP p < l.countP q := by
  obtain ⟨before, after, rfl⟩ := List.append_of_mem ha
  have hbefore : before.countP p ≤ before.countP q := List.countP_mono_left fun x _ => himp x
  have hafter : after.countP p ≤ after.countP q := List.countP_mono_left fun x _ => himp x
  rw [List.countP_append, List.countP_append, List.countP_cons_of_neg (by simp [hp]),
    List.countP_cons_of_pos hq]
  omega

/-- A batch brings no reader further from a position. -/
theorem ahead_next_le {last : ρ} (k : κ)
    (hlast : (batch key p cursor limit rows).getLast? = some last) :
    ahead key (some (key last)) k rows ≤ ahead key cursor k rows := by
  have hlastPast := (of_mem_batch (List.mem_of_getLast? hlast)).2.2
  refine List.countP_mono_left fun x _ hx => ?_
  rw [Bool.and_eq_true, decide_eq_true_iff, decide_eq_true_iff, past_some] at hx
  simp [hx.1, hlastPast.trans_lt hx.2]

/-- A batch leaves fewer rows between the cursor and a position, where one of them may be seen. -/
theorem ahead_next_lt {last : ρ} {k : κ} (hdistinct : Distinct key rows) (hr : r ∈ rows)
    (hp : p r = true) (hpast : Past cursor (key r)) (hle : key r ≤ k)
    (hlast : (batch key p cursor limit rows).getLast? = some last) :
    ahead key (some (key last)) k rows < ahead key cursor k rows := by
  have hlastMem := List.mem_of_getLast? hlast
  -- one of the rows of the batch is up to the position
  obtain ⟨b, hb, hbk⟩ : ∃ b ∈ batch key p cursor limit rows, key b ≤ k := by
    rcases le_or_gt (key r) (key last) with hbefore | hafter
    · exact ⟨r, batch_closed hdistinct hr hp hpast hlastMem hbefore, hle⟩
    · exact ⟨last, hlastMem, hafter.le.trans hle⟩
  obtain ⟨hbRow, -, hbPast⟩ := of_mem_batch hb
  have hble := le_last (batch_pairwise hdistinct) hlast hb
  have hlastPast := (of_mem_batch hlastMem).2.2
  refine countP_lt_countP ?_ hbRow (by simp [hble]) (by simp [hbk, hbPast])
  intro x hx
  rw [Bool.and_eq_true, decide_eq_true_iff, decide_eq_true_iff, past_some] at hx
  simp [hx.1, hlastPast.trans_lt hx.2]

/-! ### Pages -/

section Pages

variable (key p)

/-- A page, and the cursor of the next one where there are rows behind it. -/
def page (cursor : Option κ) (limit : ℕ) (rows : List ρ) : List ρ × Option κ :=
  (batch key p cursor limit rows,
    if limit < (batch key p cursor (limit + 1) rows).length then
      (batch key p cursor limit rows).getLast?.map key
    else none)

/-- The pages that a reader gets who follows the cursors, one for a request.  The rows may be others
for every request. -/
def walk : Option κ → List (List ρ × ℕ) → List (List ρ × Option κ)
  | _, [] => []
  | cursor, (rows, limit) :: requests =>
    page key p cursor limit rows ::
      match (page key p cursor limit rows).2 with
      | none => []
      | some next => walk (some next) requests

variable {key p}

/-- The last page has no cursor. -/
def Finished (pages : List (List ρ × Option κ)) : Prop :=
  ∃ last, pages.getLast? = some last ∧ last.2 = none

theorem batch_eq_left_of_next (hlimit : 0 < limit) (h : (page key p cursor limit rows).2 = none) :
    batch key p cursor limit rows = left key p cursor rows := by
  have hshort : (left key p cursor rows).length ≤ limit := by
    by_contra hlong
    have hmore : limit < (batch key p cursor (limit + 1) rows).length := by
      rw [batch, List.length_take]
      omega
    rw [page, if_pos hmore, Option.map_eq_none_iff, List.getLast?_eq_none_iff, batch,
      List.take_eq_nil_iff] at h
    rcases h with hzero | hempty
    · omega
    · rw [hempty] at hlong
      simp at hlong
  rw [batch, List.take_of_length_le hshort]

theorem last_of_next {k : κ} (h : (page key p cursor limit rows).2 = some k) :
    ∃ last, (batch key p cursor limit rows).getLast? = some last ∧ key last = k := by
  unfold page at h
  split at h
  · exact Option.map_eq_some_iff.mp h
  · cases h

/-- There are rows behind a page with a cursor. -/
theorem length_lt_of_next {k : κ} (h : (page key p cursor limit rows).2 = some k) :
    limit < (left key p cursor rows).length := by
  unfold page at h
  split at h
  · rename_i hmore
    rw [batch, List.length_take] at hmore
    omega
  · cases h

/-- The rows that are left are a batch, and those that are left after it. -/
theorem left_eq_append {last : ρ} (hdistinct : Distinct key rows)
    (hlast : (batch key p cursor limit rows).getLast? = some last) :
    left key p cursor rows =
      batch key p cursor limit rows ++ left key p (some (key last)) rows := by
  have hbatch : (batch key p cursor limit rows).Pairwise fun a b => key a < key b :=
    batch_pairwise hdistinct
  have hlastMem := List.mem_of_getLast? hlast
  have hlastPast := (of_mem_batch hlastMem).2.2
  apply eq_of_mem_iff (left_pairwise hdistinct)
  · refine List.pairwise_append.mpr ⟨hbatch, left_pairwise hdistinct, ?_⟩
    intro a ha b hb
    exact (le_last hbatch hlast ha).trans_lt (past_some.mp (mem_left.mp hb).2.2)
  · intro a
    rw [List.mem_append, mem_left, mem_left, past_some]
    constructor
    · rintro ⟨ha, hpa, hpast⟩
      rcases le_or_gt (key a) (key last) with hle | hlt
      · exact Or.inl (batch_closed hdistinct ha hpa hpast hlastMem hle)
      · exact Or.inr ⟨ha, hpa, hlt⟩
    · rintro (hb | ⟨ha, hpa, hlt⟩)
      · exact of_mem_batch hb
      · exact ⟨ha, hpa, hlastPast.trans_lt hlt⟩

/-- **A reader gets no row twice**, and all of them in order, whatever happens to the rows. -/
theorem walk_pairwise {requests : List (List ρ × ℕ)}
    (hdistinct : ∀ request ∈ requests, Distinct key request.1) :
    ((walk key p cursor requests).flatMap Prod.fst).Pairwise (fun a b => key a < key b) ∧
      ∀ a ∈ (walk key p cursor requests).flatMap Prod.fst, Past cursor (key a) := by
  induction requests generalizing cursor with
  | nil => simp [walk]
  | cons request requests ih =>
    obtain ⟨rows, limit⟩ := request
    obtain ⟨hfirst, hrest⟩ := List.forall_mem_cons.mp hdistinct
    have hbatch : (batch key p cursor limit rows).Pairwise fun a b => key a < key b :=
      batch_pairwise hfirst
    rw [walk, List.flatMap_cons]
    rcases hnext : (page key p cursor limit rows).2 with _ | next
    · simp only [List.flatMap_nil, List.append_nil]
      exact ⟨hbatch, fun a ha => (of_mem_batch ha).2.2⟩
    · obtain ⟨last, hlast, rfl⟩ := last_of_next hnext
      obtain ⟨hsorted, hpast⟩ := @ih (some (key last)) hrest
      have hlastPast := (of_mem_batch (List.mem_of_getLast? hlast)).2.2
      refine ⟨List.pairwise_append.mpr ⟨hbatch, hsorted, ?_⟩, ?_⟩
      · intro a ha b hb
        exact (le_last hbatch hlast ha).trans_lt (past_some.mp (hpast b hb))
      · intro a ha
        rcases List.mem_append.mp ha with hin | hlater
        · exact (of_mem_batch hin).2.2
        · exact hlastPast.trans_lt (past_some.mp (hpast a hlater))

omit [LinearOrder κ] in
/-- A page with a cursor is not the last one. -/
theorem Finished.of_cons {first : List ρ × Option κ} {pages : List (List ρ × Option κ)}
    (h : Finished (first :: pages)) (hmore : first.2 ≠ none) : Finished pages := by
  obtain ⟨last, hlast, hnone⟩ := h
  rw [List.getLast?_cons] at hlast
  rcases htail : pages.getLast? with _ | last'
  · rw [htail] at hlast
    obtain rfl := Option.some.inj hlast
    exact absurd hnone hmore
  · rw [htail] at hlast
    obtain rfl := Option.some.inj hlast
    exact ⟨last', htail, hnone⟩

/-- **A reader who finishes has got every row** that was there at every request. -/
theorem walk_has {requests : List (List ρ × ℕ)}
    (hdistinct : ∀ request ∈ requests, Distinct key request.1 ∧ 0 < request.2)
    (hfinished : Finished (walk key p cursor requests)) {k : κ} (hpast : Past cursor k)
    (hthere : ∀ request ∈ requests, ∃ r ∈ request.1, p r = true ∧ key r = k) :
    ∃ a ∈ (walk key p cursor requests).flatMap Prod.fst, key a = k := by
  induction requests generalizing cursor with
  | nil =>
    obtain ⟨last, hlast, -⟩ := hfinished
    cases hlast
  | cons request requests ih =>
    obtain ⟨rows, limit⟩ := request
    obtain ⟨⟨hfirst, hlimit⟩, hrest⟩ := List.forall_mem_cons.mp hdistinct
    obtain ⟨⟨r, hr, hp, hk⟩, hlater⟩ := List.forall_mem_cons.mp hthere
    subst hk
    rw [walk] at hfinished ⊢
    rw [List.flatMap_cons]
    rcases hnext : (page key p cursor limit rows).2 with _ | next
    · have hin : r ∈ batch key p cursor limit rows := by
        rw [batch_eq_left_of_next hlimit hnext]
        exact mem_left.mpr ⟨hr, hp, hpast⟩
      exact ⟨r, List.mem_append_left _ hin, rfl⟩
    · obtain ⟨last, hlast, rfl⟩ := last_of_next hnext
      rcases le_or_gt (key r) (key last) with hle | hlt
      · have hin := batch_closed hfirst hr hp hpast (List.mem_of_getLast? hlast) hle
        exact ⟨r, List.mem_append_left _ hin, rfl⟩
      · rw [hnext] at hfinished
        have hmore : (page key p cursor limit rows).2 ≠ none := by
          rw [hnext]
          exact Option.some_ne_none _
        obtain ⟨a, ha, hka⟩ := ih hrest (hfinished.of_cons hmore) (past_some.mpr hlt) hlater
        exact ⟨a, List.mem_append_right _ ha, hka⟩

/-- **A reader gets the rows that are left**, in few pages, none of which is empty unless there are
no such rows. -/
theorem walk_eq_left (hdistinct : Distinct key rows) {limits : List ℕ}
    (hlimits : ∀ limit ∈ limits, 0 < limit)
    (henough : (left key p cursor rows).length < limits.length) :
    Finished (walk key p cursor (limits.map fun limit => (rows, limit))) ∧
      (walk key p cursor (limits.map fun limit => (rows, limit))).flatMap Prod.fst =
        left key p cursor rows ∧
      (walk key p cursor (limits.map fun limit => (rows, limit))).length ≤
        max 1 (left key p cursor rows).length ∧
      ∀ page ∈ walk key p cursor (limits.map fun limit => (rows, limit)),
        page.1 = [] → left key p cursor rows = [] := by
  induction limits generalizing cursor with
  | nil => exact absurd henough (Nat.not_lt_zero _)
  | cons limit limits ih =>
    obtain ⟨hlimit, hrest⟩ := List.forall_mem_cons.mp hlimits
    rw [List.map_cons, walk, List.flatMap_cons]
    rcases hnext : (page key p cursor limit rows).2 with _ | next
    · have hall := batch_eq_left_of_next hlimit hnext
      refine ⟨⟨_, rfl, hnext⟩, ?_, ?_, ?_⟩
      · simp only [List.flatMap_nil, List.append_nil]
        exact hall
      · simp
      · intro page hpage hempty
        rw [List.mem_singleton.mp hpage] at hempty
        rw [← hall]
        exact hempty
    · obtain ⟨last, hlast, rfl⟩ := last_of_next hnext
      have hmore := length_lt_of_next hnext
      have hsplit := left_eq_append hdistinct hlast
      have hlength := congrArg List.length hsplit
      have hpage : (batch key p cursor limit rows).length = limit := by
        rw [batch, List.length_take]
        omega
      rw [List.length_append, hpage] at hlength
      rw [List.length_cons] at henough
      have hafter : left key p (some (key last)) rows ≠ [] := by
        intro hnil
        rw [hnil, List.length_nil] at hlength
        omega
      obtain ⟨⟨final, hfinal, hnone⟩, hflat, hpages, hempty⟩ :=
        @ih (some (key last)) hrest (by omega)
      refine ⟨⟨final, ?_, hnone⟩, ?_, ?_, ?_⟩
      · rw [List.getLast?_cons]
        simp only [hfinal, Option.getD_some]
      · simp only [hflat]
        exact hsplit.symm
      · have hpos := List.length_pos_iff.mpr hafter
        simp only [List.length_cons]
        omega
      · intro page' hpage' hnil
        rcases List.mem_cons.mp hpage' with rfl | hlater
        · have hzero := congrArg List.length hnil
          rw [page, hpage, List.length_nil] at hzero
          omega
        · exact absurd (hempty page' hlater hnil) hafter

end Pages

/-! ### Batches without a common row -/

/-- What stands at most once in a row of lists stands in at most one of them. -/
theorem countP_mem_flatMap {α β : Type*} [DecidableEq β] {f : α → List β} {l : List α}
    (h : (l.flatMap f).Nodup) (b : β) :
    l.countP (fun a => decide (b ∈ f a)) = if b ∈ l.flatMap f then 1 else 0 := by
  induction l with
  | nil => simp
  | cons a l ih =>
    rw [List.flatMap_cons] at h ⊢
    obtain ⟨-, hrest, hdisjoint⟩ := List.nodup_append.mp h
    have ih' := ih hrest
    by_cases ha : b ∈ f a
    · have hnot : b ∉ l.flatMap f := fun hl => hdisjoint b ha b hl rfl
      rw [if_neg hnot] at ih'
      rw [List.countP_cons_of_pos (by simp [ha]), ih', if_pos (List.mem_append_left _ ha)]
    · have hsame : b ∈ f a ++ l.flatMap f ↔ b ∈ l.flatMap f := by simp [ha]
      rw [List.countP_cons_of_neg (by simp [ha]), ih']
      simp only [hsame]

end Keyset
