import Mathlib.Data.List.Basic
import Mathlib.Data.List.Forall2
import Mathlib.Data.List.Pairwise
import Mathlib.Data.List.Sort

/-!
# Tables with uniqueness constraints

A relational table as the list of its rows, carrying the proof that no two of its rows agree on a
unique key.  A row type says through `Row.clash` when two rows may not stand in one table (one
primary key, one `UNIQUE (a, b)` constraint, or several of them), so a table that breaks a
constraint cannot be built: `insert?` refuses a clashing row, `update` only takes a rewriting that
leaves every unique key alone (`KeyFree`), and `delete` removes rows.

* `eq_of_clash`: two clashing rows of a table are the same row.
* `find?_eq_some`: a row that a search for its own key matches is the row the search returns.
* `mem_insert?`, `mem_update`, `mem_delete`: the rows of a table after each statement.
* `mem_insertAll`: the rows of a table after insertions that do nothing on a conflict.
* `selectBy`: `SELECT … WHERE … ORDER BY`, a stable sort of the matching rows.
* `TableOf`: a table as part of a database.
* `Rewritten R t t'`: row by row, `t'` is `t` rewritten along `R`; updates compose by
  `Rewritten.trans`, and a row of either table has its counterpart (`exists_of_mem`, `exists_mem_of`).
-/

universe u

namespace Storage

/-- A row type with its uniqueness constraints: `clash r r'` when `r` and `r'` agree on some
unique key. -/
class Row (ρ : Type u) where
  clash : ρ → ρ → Bool
  clash_self : ∀ r, clash r r = true
  clash_symm : ∀ r r', clash r r' = clash r' r

/-- The constraint of one unique key. -/
@[reducible] def Row.ofKey {ρ : Type u} {κ : Type*} [DecidableEq κ] (key : ρ → κ) : Row ρ where
  clash r r' := decide (key r = key r')
  clash_self _ := decide_eq_true rfl
  clash_symm _ _ := decide_eq_decide.mpr eq_comm

/-- The constraint of two unique keys, a primary key and an alternate one. -/
@[reducible] def Row.ofKeys {ρ : Type u} {κ κ' : Type*} [DecidableEq κ] [DecidableEq κ']
    (key : ρ → κ) (key' : ρ → κ') : Row ρ where
  clash r r' := decide (key r = key r' ∨ key' r = key' r')
  clash_self _ := decide_eq_true (Or.inl rfl)
  clash_symm _ _ := decide_eq_decide.mpr (or_congr eq_comm eq_comm)

/-- A table: its rows in insertion order, no two of which clash. -/
structure Table (ρ : Type u) [Row ρ] where
  rows : List ρ
  unique : rows.Pairwise (fun r r' => Row.clash r r' = false)

/-- A rewriting of rows that leaves every unique key as it is. -/
def KeyFree {ρ : Type u} [Row ρ] (f : ρ → ρ) : Prop :=
  ∀ r r', Row.clash (f r) r' = Row.clash r r'

namespace Table

variable {ρ : Type u} [Row ρ]

/-! ### Statements -/

/-- The table without rows. -/
def empty : Table ρ := ⟨[], List.Pairwise.nil⟩

/-- `SELECT … WHERE p`, first row only. -/
def find? (t : Table ρ) (p : ρ → Bool) : Option ρ := t.rows.find? p

/-- `SELECT … WHERE p`. -/
def select (t : Table ρ) (p : ρ → Bool) : List ρ := t.rows.filter p

/-- Of two rows, the one that an `ORDER BY … DESC` puts first. -/
def later (precedes : ρ → ρ → Bool) : Option ρ → ρ → Option ρ
  | none, r => some r
  | some best, r => if precedes best r then some r else some best

/-- `SELECT … WHERE p ORDER BY … DESC LIMIT 1`. -/
def last? (t : Table ρ) (p : ρ → Bool) (precedes : ρ → ρ → Bool) : Option ρ :=
  (t.select p).foldl (later precedes) none

/-- The number of rows a `WHERE p` matches. -/
def count (t : Table ρ) (p : ρ → Bool) : ℕ := t.rows.countP p

/-- `INSERT`: `none` when the row breaks a uniqueness constraint. -/
def insert? (t : Table ρ) (r : ρ) : Option (Table ρ) :=
  if h : ∀ r' ∈ t.rows, Row.clash r' r = false then
    some ⟨t.rows ++ [r], List.pairwise_append.mpr
      ⟨t.unique, List.pairwise_singleton _ _, fun r' hr' x hx => by
        rw [List.mem_singleton.mp hx]; exact h r' hr'⟩⟩
  else none

/-- The table of a list of rows: each is inserted unless it breaks a constraint. -/
def ofList (rows : List ρ) : Table ρ := rows.foldl (fun t r => (t.insert? r).getD t) empty

/-- The rewriting of the rows that `WHERE p` matches. -/
def updateRow (p : ρ → Bool) (f : ρ → ρ) (r : ρ) : ρ := if p r then f r else r

theorem clash_updateRow (p : ρ → Bool) {f : ρ → ρ} (hf : KeyFree f) (r r' : ρ) :
    Row.clash (updateRow p f r) r' = Row.clash r r' := by
  unfold updateRow
  split
  · exact hf r r'
  · rfl

/-- `UPDATE … SET f WHERE p`, for a `SET` list without key columns. -/
def update (t : Table ρ) (p : ρ → Bool) (f : ρ → ρ) (hf : KeyFree f) : Table ρ :=
  ⟨t.rows.map (updateRow p f), by
    refine List.pairwise_map.mpr (t.unique.imp fun {a b} hab => ?_)
    rw [clash_updateRow p hf, Row.clash_symm, clash_updateRow p hf, Row.clash_symm, hab]⟩

/-- `DELETE … WHERE p`. -/
def delete (t : Table ρ) (p : ρ → Bool) : Table ρ :=
  ⟨t.rows.filter (fun r => !p r), t.unique.filter _⟩

/-! ### Uniqueness -/

/-- Two rows of a table that clash are one row. -/
theorem eq_of_clash (t : Table ρ) {r r' : ρ} (hr : r ∈ t.rows) (hr' : r' ∈ t.rows)
    (h : Row.clash r r' = true) : r = r' := by
  have : Std.Symm (fun r r' : ρ => Row.clash r r' = false) :=
    ⟨fun x y hxy => by rw [Row.clash_symm, hxy]⟩
  by_contra hne
  have hfalse := t.unique.forall hr hr' hne
  rw [h] at hfalse
  exact Bool.noConfusion hfalse

/-- The rows of a table are distinct. -/
theorem nodup (t : Table ρ) : t.rows.Nodup := by
  refine t.unique.imp fun {r r'} hclash hsame => ?_
  subst hsame
  rw [Row.clash_self] at hclash
  cases hclash

/-- A search for a row's own unique key returns that row. -/
theorem find?_eq_some (t : Table ρ) {p : ρ → Bool} {r : ρ} (hr : r ∈ t.rows) (hp : p r = true)
    (honly : ∀ r', p r' = true → Row.clash r r' = true) : t.find? p = some r := by
  obtain ⟨r', hr'⟩ := Option.isSome_iff_exists.mp (List.find?_isSome.mpr ⟨r, hr, hp⟩)
  have hmem := List.mem_of_find?_eq_some hr'
  have hp' := List.find?_some hr'
  rw [t.eq_of_clash hr hmem (honly r' hp')]
  exact hr'

theorem mem_of_find? (t : Table ρ) {p : ρ → Bool} {r : ρ} (h : t.find? p = some r) :
    r ∈ t.rows :=
  List.mem_of_find?_eq_some h

theorem prop_of_find? (t : Table ρ) {p : ρ → Bool} {r : ρ} (h : t.find? p = some r) :
    p r = true :=
  List.find?_some h

theorem find?_eq_none (t : Table ρ) {p : ρ → Bool} :
    t.find? p = none ↔ ∀ r ∈ t.rows, p r = false := by
  simp [find?, List.find?_eq_none]

omit [Row ρ] in
/-- The last row of a list is one of its rows, or the one that was best before. -/
theorem foldl_later (precedes : ρ → ρ → Bool) (rows : List ρ) (best : Option ρ) :
    ((rows.foldl (later precedes) best).isSome = true ↔ best.isSome = true ∨ rows ≠ []) ∧
      ∀ r, rows.foldl (later precedes) best = some r → best = some r ∨ r ∈ rows := by
  induction rows generalizing best with
  | nil => simp
  | cons x rows ih =>
    have hlater : ∃ y, later precedes best x = some y ∧ (best = some y ∨ y = x) := by
      rcases best with _ | b
      · exact ⟨x, rfl, Or.inr rfl⟩
      · by_cases hb : precedes b x = true
        · exact ⟨x, by simp [later, hb], Or.inr rfl⟩
        · exact ⟨b, by simp [later, hb], Or.inl rfl⟩
    obtain ⟨y, hy, hor⟩ := hlater
    obtain ⟨hsome, hmem⟩ := ih (some y)
    rw [List.foldl_cons, hy]
    refine ⟨by simp [hsome], fun r hr => ?_⟩
    rcases hmem r hr with heq | hin
    · obtain rfl := Option.some.inj heq
      rcases hor with hbest | rfl
      · exact Or.inl hbest
      · exact Or.inr List.mem_cons_self
    · exact Or.inr (List.mem_cons_of_mem x hin)

theorem last?_eq_none (t : Table ρ) {p : ρ → Bool} {precedes : ρ → ρ → Bool} :
    t.last? p precedes = none ↔ ∀ r ∈ t.rows, p r = false := by
  have hsome := (foldl_later precedes (t.select p) none).1
  rw [← Option.not_isSome_iff_eq_none, last?, hsome]
  simp [select, List.filter_eq_nil_iff]

/-! ### The rows after a statement -/

@[simp] theorem rows_empty : (empty : Table ρ).rows = [] := rfl

theorem rows_insert? {t t' : Table ρ} {r : ρ} (h : t.insert? r = some t') :
    t'.rows = t.rows ++ [r] := by
  unfold insert? at h
  split at h
  · obtain rfl := Option.some.inj h
    rfl
  · cases h

theorem mem_insert? {t t' : Table ρ} {r x : ρ} (h : t.insert? r = some t') :
    x ∈ t'.rows ↔ x ∈ t.rows ∨ x = r := by
  rw [rows_insert? h, List.mem_append, List.mem_singleton]

/-- An inserted row clashes with no row that was there. -/
theorem clash_of_insert? {t t' : Table ρ} {r : ρ} (h : t.insert? r = some t') :
    ∀ r' ∈ t.rows, Row.clash r' r = false := by
  unfold insert? at h
  split at h
  · assumption
  · cases h

theorem insert?_isSome {t : Table ρ} {r : ρ} (h : ∀ r' ∈ t.rows, Row.clash r' r = false) :
    ∃ t', t.insert? r = some t' := by
  unfold insert?
  rw [dif_pos h]
  exact ⟨_, rfl⟩

theorem mem_update {t : Table ρ} {p : ρ → Bool} {f : ρ → ρ} {hf : KeyFree f} {x : ρ} :
    x ∈ (t.update p f hf).rows ↔ ∃ r ∈ t.rows, updateRow p f r = x :=
  List.mem_map

theorem mem_delete {t : Table ρ} {p : ρ → Bool} {x : ρ} :
    x ∈ (t.delete p).rows ↔ x ∈ t.rows ∧ p x = false := by
  simp [delete]

theorem count_eq_zero {t : Table ρ} {p : ρ → Bool} :
    t.count p = 0 ↔ ∀ r ∈ t.rows, p r = false := by
  simp [count, List.countP_eq_zero]

theorem count_pos {t : Table ρ} {p : ρ → Bool} (h : t.count p ≠ 0) : ∃ r ∈ t.rows, p r = true := by
  by_contra hne
  exact h (count_eq_zero.mpr fun r hr => by
    by_contra hp
    exact hne ⟨r, hr, by simpa using hp⟩)

/-- A search by a unique key matches one row at most. -/
theorem count_le_one (t : Table ρ) {p : ρ → Bool}
    (h : ∀ r r', p r = true → p r' = true → Row.clash r r' = true) : t.count p ≤ 1 := by
  rw [count, List.countP_eq_length_filter]
  have hunique := t.unique.filter p
  have hmatch : ∀ r ∈ t.rows.filter p, p r = true := fun r hr => (List.mem_filter.mp hr).2
  generalize t.rows.filter p = rows at hunique hmatch
  match rows, hunique with
  | [], _ => exact Nat.zero_le 1
  | [_], _ => exact Nat.le_refl 1
  | r :: r' :: _, hunique =>
    have hclash := h r r' (hmatch r (by simp)) (hmatch r' (by simp))
    have hnot := List.rel_of_pairwise_cons hunique (List.mem_cons_self (a := r'))
    rw [hclash] at hnot
    cases hnot

/-- At most one row matches exactly when any two that match are one. -/
theorem count_le_one_iff (t : Table ρ) {p : ρ → Bool} :
    t.count p ≤ 1 ↔ ∀ r ∈ t.rows, ∀ r' ∈ t.rows, p r = true → p r' = true → r' = r := by
  have hnodup : (t.rows.filter p).Nodup := t.nodup.filter p
  have hmem : ∀ r, r ∈ t.rows.filter p ↔ r ∈ t.rows ∧ p r = true := fun r => List.mem_filter
  rw [count, List.countP_eq_length_filter]
  constructor
  · intro hlength r hr r' hr' hp hp'
    have hfirst := (hmem r).mpr ⟨hr, hp⟩
    have hsecond := (hmem r').mpr ⟨hr', hp'⟩
    generalize t.rows.filter p = rows at hlength hfirst hsecond
    match rows with
    | [] => cases hfirst
    | [only] => rw [List.mem_singleton.mp hfirst, List.mem_singleton.mp hsecond]
    | _ :: _ :: _ => simp at hlength
  · intro hsame
    generalize t.rows.filter p = rows at hnodup hmem
    match rows with
    | [] => exact Nat.zero_le 1
    | [_] => exact Nat.le_refl 1
    | r :: r' :: _ =>
      have hfirst := (hmem r).mp (by simp)
      have hsecond := (hmem r').mp (by simp)
      have hone := hsame r hfirst.1 r' hsecond.1 hfirst.2 hsecond.2
      have hnot := (List.nodup_cons.mp hnodup).1
      rw [hone] at hnot
      exact absurd List.mem_cons_self hnot

omit [Row ρ] in
@[simp] theorem updateRow_of_pos {p : ρ → Bool} {f : ρ → ρ} {r : ρ} (h : p r = true) :
    updateRow p f r = f r := if_pos h

omit [Row ρ] in
@[simp] theorem updateRow_of_neg {p : ρ → Bool} {f : ρ → ρ} {r : ρ} (h : p r = false) :
    updateRow p f r = r := by
  rw [updateRow, h]
  rfl

/-- An update that rewrites every row it matches to itself changes nothing. -/
theorem update_eq_self_of_fixed {t : Table ρ} {p : ρ → Bool} {f : ρ → ρ} (hf : KeyFree f)
    (h : ∀ r ∈ t.rows, p r = true → f r = r) : t.update p f hf = t := by
  have hrows : t.rows.map (updateRow p f) = t.rows.map id := by
    refine List.map_congr_left fun r hr => ?_
    by_cases hp : p r = true
    · rw [updateRow_of_pos hp]
      exact h r hr hp
    · have hmiss : p r = false := Bool.eq_false_iff.mpr hp
      exact updateRow_of_neg hmiss
  rw [List.map_id] at hrows
  cases t
  simp only [update, Table.mk.injEq]
  exact hrows

/-- An update that matches no row changes nothing. -/
theorem update_eq_self {t : Table ρ} {p : ρ → Bool} {f : ρ → ρ} (hf : KeyFree f)
    (h : t.count p = 0) : t.update p f hf = t := by
  refine update_eq_self_of_fixed hf fun r hr hp => ?_
  have hmiss : p r = false := count_eq_zero.mp h r hr
  rw [hmiss] at hp
  cases hp

/-- A search by columns that an update does not set finds the updated row. -/
theorem find?_update {t : Table ρ} {p q : ρ → Bool} {f : ρ → ρ} {hf : KeyFree f}
    (hq : ∀ r, q (f r) = q r) :
    (t.update p f hf).find? q = (t.find? q).map (updateRow p f) := by
  have hcomp : q ∘ updateRow p f = q := by
    funext r
    show q (updateRow p f r) = q r
    unfold updateRow
    split
    · exact hq r
    · rfl
  rw [find?, update, List.find?_map, hcomp]
  rfl

/-- An update of one row changes a count by that row. -/
theorem count_update_one {t : Table ρ} {p q : ρ → Bool} {f : ρ → ρ} {hf : KeyFree f} {r : ρ}
    (hr : r ∈ t.rows) (hp : p r = true) (hone : ∀ r' ∈ t.rows, p r' = true → r' = r) :
    (t.update p f hf).count q + (if q r then 1 else 0) =
      t.count q + if q (f r) then 1 else 0 := by
  obtain ⟨before, after, hrows⟩ := List.append_of_mem hr
  have hnodup := t.nodup
  rw [hrows, List.nodup_append, List.nodup_cons] at hnodup
  -- the other rows stay
  have hsame : ∀ rows : List ρ, (∀ r' ∈ rows, r' ∈ t.rows ∧ r' ≠ r) →
      rows.map (updateRow p f) = rows := by
    intro rows hothers
    refine (List.map_congr_left fun r' hr' => ?_).trans (List.map_id rows)
    obtain ⟨hmem, hne⟩ := hothers r' hr'
    exact updateRow_of_neg (Bool.eq_false_iff.mpr fun hmatch => hne (hone r' hmem hmatch))
  have hbefore := hsame before fun r' hr' =>
    ⟨hrows ▸ List.mem_append_left _ hr', fun heq => hnodup.2.2 r' hr' r List.mem_cons_self heq⟩
  have hafter := hsame after fun r' hr' =>
    ⟨hrows ▸ List.mem_append_right _ (List.mem_cons_of_mem r hr'),
      fun heq => hnodup.2.1.1 (heq ▸ hr')⟩
  have hupdated : (t.update p f hf).rows = before ++ f r :: after := by
    show t.rows.map (updateRow p f) = _
    rw [hrows, List.map_append, List.map_cons, hbefore, hafter, updateRow_of_pos hp]
  rw [count, count, hupdated, hrows, List.countP_append, List.countP_append, List.countP_cons,
    List.countP_cons]
  omega

/-- The rows after an update that matches one row. -/
theorem mem_update_one {t : Table ρ} {p : ρ → Bool} {f : ρ → ρ} {hf : KeyFree f} {r x : ρ}
    (hr : r ∈ t.rows) (hp : p r = true) (hone : ∀ r' ∈ t.rows, p r' = true → r' = r) :
    x ∈ (t.update p f hf).rows ↔ x = f r ∨ (x ∈ t.rows ∧ x ≠ r) := by
  rw [mem_update]
  constructor
  · rintro ⟨y, hy, rfl⟩
    by_cases hmatch : p y = true
    · rw [updateRow_of_pos hmatch, hone y hy hmatch]
      exact Or.inl rfl
    · rw [updateRow_of_neg (Bool.eq_false_iff.mpr hmatch)]
      refine Or.inr ⟨hy, ?_⟩
      rintro rfl
      exact hmatch hp
  · rintro (rfl | ⟨hx, hne⟩)
    · exact ⟨r, hr, updateRow_of_pos hp⟩
    · exact ⟨x, hx, updateRow_of_neg (Bool.eq_false_iff.mpr fun h => hne (hone x hx h))⟩

/-- A deletion that matches no row changes nothing. -/
theorem delete_eq_self {t : Table ρ} {p : ρ → Bool} (h : ∀ r ∈ t.rows, p r = false) :
    t.delete p = t := by
  have hrows : t.rows.filter (fun r => !p r) = t.rows :=
    List.filter_eq_self.mpr fun r hr => by rw [h r hr]; rfl
  cases t
  simp only [delete, Table.mk.injEq]
  exact hrows

/-! ### Insertions that give way -/

/-- `INSERT … ON CONFLICT DO NOTHING`. -/
def insertNew (t : Table ρ) (r : ρ) : Table ρ := (t.insert? r).getD t

/-- The same statement, for each of a list of rows. -/
def insertAll (t : Table ρ) (rows : List ρ) : Table ρ := rows.foldl insertNew t

@[simp] theorem insertAll_nil (t : Table ρ) : t.insertAll [] = t := rfl

@[simp] theorem insertAll_cons (t : Table ρ) (r : ρ) (rows : List ρ) :
    t.insertAll (r :: rows) = (t.insertNew r).insertAll rows := rfl

/-- A row that gives way is lost: the table has it only when the row it clashes with is itself. -/
theorem mem_insertNew (t : Table ρ) {r x : ρ} :
    x ∈ (t.insertNew r).rows ↔
      x ∈ t.rows ∨ x = r ∧ ∀ r' ∈ t.rows, Row.clash r' r = false := by
  unfold insertNew
  by_cases hfree : ∀ r' ∈ t.rows, Row.clash r' r = false
  · obtain ⟨t', ht'⟩ := insert?_isSome hfree
    rw [ht', Option.getD_some, mem_insert? ht']
    exact or_congr_right (and_iff_left hfree).symm
  · have hnone : t.insert? r = none := by
      unfold insert?
      rw [dif_neg hfree]
    rw [hnone, Option.getD_none]
    constructor
    · intro hx
      exact Or.inl hx
    · rintro (hx | ⟨-, hclash⟩)
      · exact hx
      · exact absurd hclash hfree

theorem rows_insertNew (t : Table ρ) (r : ρ) :
    (t.insertNew r).rows = t.rows ++ [r] ∨ t.insertNew r = t := by
  unfold insertNew
  rcases hinsert : t.insert? r with _ | t'
  · exact Or.inr rfl
  · exact Or.inl (rows_insert? hinsert)

/-- `INSERT … ON CONFLICT DO UPDATE`. -/
def upsert (t : Table ρ) (r : ρ) (f : ρ → ρ) (hf : KeyFree f) : Table ρ :=
  (t.insert? r).getD (t.update (fun x => Row.clash x r) f hf)

/-- What is put into a table is found by its key. -/
theorem find?_upsert {t : Table ρ} {r : ρ} {f : ρ → ρ} {hf : KeyFree f} {p : ρ → Bool}
    (hp : ∀ x, p x = Row.clash x r) (hset : ∀ x, Row.clash x r = true → f x = r) :
    (t.upsert r f hf).find? p = some r := by
  have hself : p r = true := by rw [hp, Row.clash_self]
  unfold upsert
  by_cases hfree : ∀ x ∈ t.rows, Row.clash x r = false
  · obtain ⟨t', ht'⟩ := insert?_isSome hfree
    have hmiss : t.rows.find? p = none := by
      rw [List.find?_eq_none]
      intro x hx
      rw [hp, hfree x hx]
      exact Bool.false_ne_true
    rw [ht', Option.getD_some, find?, rows_insert? ht', List.find?_append, hmiss, Option.none_or,
      List.find?_singleton, if_pos hself]
  · obtain ⟨old, hold, hclash⟩ : ∃ x ∈ t.rows, p x = true := by simpa [hp] using hfree
    obtain ⟨found, hfound⟩ := Option.isSome_iff_exists.mp (List.find?_isSome.mpr ⟨old, hold, hclash⟩)
    have hfoundClash : Row.clash found r = true := by
      rw [← hp]
      exact List.find?_some hfound
    have hnone : t.insert? r = none := by
      unfold insert?
      rw [dif_neg hfree]
    have hkey : ∀ x, p (f x) = p x := by
      intro x
      rw [hp, hp, hf x r]
    rw [hnone, Option.getD_none, find?_update hkey, find?, hfound, Option.map_some, updateRow,
      if_pos hfoundClash, hset found hfoundClash]

/-- What is found by another key stays. -/
theorem find?_upsert_of_not {t : Table ρ} {r : ρ} {f : ρ → ρ} {hf : KeyFree f} {q : ρ → Bool}
    (hr : q r = false) (hq : ∀ x, Row.clash x r = true → q x = false ∧ q (f x) = false) :
    (t.upsert r f hf).find? q = t.find? q := by
  unfold upsert
  rcases hinsert : t.insert? r with _ | t'
  · have hcomp : q ∘ updateRow (fun x => Row.clash x r) f = q := by
      funext x
      show q (updateRow _ f x) = q x
      unfold updateRow
      split
      · rename_i hclash
        rw [(hq x hclash).1, (hq x hclash).2]
      · rfl
    rw [Option.getD_none, find?, update, List.find?_map, hcomp, find?]
    rcases hfound : t.rows.find? q with _ | x
    · rfl
    · -- the row that is found is not one that is set
      have hnot : ¬ Row.clash x r = true := by
        intro hclash
        have hx := List.find?_some hfound
        rw [(hq x hclash).1] at hx
        cases hx
      rw [Option.map_some, updateRow, if_neg hnot]
  · rw [Option.getD_some, find?, find?, rows_insert? hinsert, List.find?_append,
      List.find?_singleton, hr]
    simp

/-- Insertions keep the rows that were there. -/
theorem mem_insertAll_of_mem {t : Table ρ} {x : ρ} (hx : x ∈ t.rows) (rows : List ρ) :
    x ∈ (t.insertAll rows).rows := by
  induction rows generalizing t with
  | nil => exact hx
  | cons r rows ih => exact ih ((mem_insertNew t).mpr (Or.inl hx))

/-- The rows after insertions were there, or were inserted. -/
theorem mem_of_mem_insertAll {t : Table ρ} {rows : List ρ} {x : ρ}
    (hx : x ∈ (t.insertAll rows).rows) : x ∈ t.rows ∨ x ∈ rows := by
  induction rows generalizing t with
  | nil => exact Or.inl hx
  | cons r rows ih =>
    rcases ih hx with hold | hnew
    · rcases (mem_insertNew t).mp hold with hold | ⟨rfl, -⟩
      · exact Or.inl hold
      · exact Or.inr List.mem_cons_self
    · exact Or.inr (List.mem_cons_of_mem r hnew)

/-- **A row is there after insertions that clash with one another nowhere exactly when no other row
was in its place.** -/
theorem mem_insertAll {t : Table ρ} {rows : List ρ}
    (hrows : rows.Pairwise fun r r' => Row.clash r r' = false) {x : ρ} (hx : x ∈ rows) :
    x ∈ (t.insertAll rows).rows ↔ ∀ r ∈ t.rows, Row.clash r x = true → r = x := by
  induction rows generalizing t with
  | nil => cases hx
  | cons y rows ih =>
    obtain ⟨hfirst, hrest⟩ := List.pairwise_cons.mp hrows
    by_cases hxy : x = y
    · subst hxy
      have hnot : x ∉ rows := by
        intro hmem
        have hself := hfirst x hmem
        rw [Row.clash_self] at hself
        cases hself
      constructor
      · intro hin r hr hclash
        rw [insertAll_cons] at hin
        rcases mem_of_mem_insertAll hin with hold | hnew
        · rcases (mem_insertNew t).mp hold with hthere | ⟨-, hfree⟩
          · exact t.eq_of_clash hr hthere hclash
          · rw [hfree r hr] at hclash
            cases hclash
        · exact absurd hnew hnot
      · intro hfree
        refine mem_insertAll_of_mem ((mem_insertNew t).mpr ?_) rows
        by_cases hthere : x ∈ t.rows
        · exact Or.inl hthere
        · refine Or.inr ⟨rfl, fun r hr => ?_⟩
          by_contra hclash
          have heq := hfree r hr (by simpa using hclash)
          rw [heq] at hr
          exact hthere hr
    · have hmem : x ∈ rows := (List.mem_cons.mp hx).resolve_left hxy
      rw [insertAll_cons, ih hrest hmem]
      constructor
      · intro hfree r hr
        exact hfree r ((mem_insertNew t).mpr (Or.inl hr))
      · intro hfree r hr hclash
        rcases (mem_insertNew t).mp hr with hold | ⟨rfl, -⟩
        · exact hfree r hold hclash
        · -- the row that was inserted before `x` does not stand in its place
          rw [hfirst x hmem] at hclash
          cases hclash

/-! ### Tables rewritten row by row -/

/-- `t'` has the rows of `t`, each rewritten along `R`. -/
def Rewritten (R : ρ → ρ → Prop) (t t' : Table ρ) : Prop := List.Forall₂ R t.rows t'.rows

namespace Rewritten

variable {R S T : ρ → ρ → Prop} {t t' t'' : Table ρ}

theorem refl (h : ∀ r ∈ t.rows, R r r) : Rewritten R t t := List.forall₂_same.mpr h

theorem imp (h : Rewritten R t t') (hRS : ∀ r r', R r r' → S r r') : Rewritten S t t' :=
  List.Forall₂.imp hRS h

/-- A rewriting, with what is known of the rows it starts from. -/
theorem imp_of_mem (h : Rewritten R t t') (hRS : ∀ r ∈ t.rows, ∀ r', R r r' → S r r') :
    Rewritten S t t' := by
  have hand := (List.forall₂_and_left t.rows t'.rows).mpr ⟨fun r hr => hr, h⟩
  exact hand.imp fun r r' hr => hRS r hr.1 r' hr.2

theorem trans (h : Rewritten R t t') (h' : Rewritten S t' t'')
    (hcomp : ∀ r r' r'', R r r' → S r' r'' → T r r'') : Rewritten T t t'' := by
  unfold Rewritten at h h' ⊢
  generalize t.rows = rows, t'.rows = rows', t''.rows = rows'' at h h' ⊢
  induction h generalizing rows'' with
  | nil =>
    cases h'
    exact List.Forall₂.nil
  | cons hr _ ih =>
    cases h' with
    | cons hr' htail => exact List.Forall₂.cons (hcomp _ _ _ hr hr') (ih _ htail)

theorem update (p : ρ → Bool) (f : ρ → ρ) (hf : KeyFree f) :
    Rewritten (fun r r' => r' = updateRow p f r) t (t.update p f hf) :=
  List.forall₂_map_right_iff.mpr (List.forall₂_same.mpr fun _ _ => rfl)

/-- What a search reads off the row it finds, across a rewriting that keeps what it searches for. -/
theorem map_find? {α : Type*} {q : ρ → Bool} {f g : ρ → α} (h : Rewritten R t t')
    (hq : ∀ r r', R r r' → q r' = q r) (hf : ∀ r r', R r r' → q r = true → g r' = f r) :
    (t'.find? q).map g = (t.find? q).map f := by
  unfold Rewritten at h
  rw [find?, find?]
  generalize t.rows = rows, t'.rows = rows' at h ⊢
  induction h with
  | nil => rfl
  | @cons r r' _ _ hr _ ih =>
    rw [List.find?_cons, List.find?_cons, hq r r' hr]
    cases hmatch : q r with
    | true => exact congrArg some (hf r r' hr hmatch)
    | false => exact ih

/-- The rows that match `q` in the end matched it before, or matched `p`. -/
theorem count_le_add {p q : ρ → Bool} (h : Rewritten R t t')
    (hR : ∀ r r', R r r' → q r' = true → q r = true ∨ p r = true) :
    t'.count q ≤ t.count q + t.count p := by
  unfold Rewritten at h
  rw [count, count, count]
  generalize t.rows = rows, t'.rows = rows' at h ⊢
  induction h with
  | nil => exact Nat.zero_le _
  | @cons r r' _ _ hr _ ih =>
    rw [List.countP_cons, List.countP_cons, List.countP_cons]
    by_cases hq' : q r' = true
    · rcases hR r r' hr hq' with hq | hp
      · rw [if_pos hq', if_pos hq]
        omega
      · rw [if_pos hq', if_pos hp]
        omega
    · rw [if_neg hq']
      omega

theorem exists_of_mem (h : Rewritten R t t') {r : ρ} (hr : r ∈ t.rows) :
    ∃ r' ∈ t'.rows, R r r' := by
  unfold Rewritten at h
  generalize t.rows = rows, t'.rows = rows' at h hr ⊢
  induction h with
  | nil => cases hr
  | cons hab _ ih =>
    rcases List.mem_cons.mp hr with rfl | hmem
    · exact ⟨_, List.mem_cons_self, hab⟩
    · obtain ⟨r', hr', hR⟩ := ih hmem
      exact ⟨r', List.mem_cons_of_mem _ hr', hR⟩

theorem exists_mem_of (h : Rewritten R t t') {r' : ρ} (hr' : r' ∈ t'.rows) :
    ∃ r ∈ t.rows, R r r' := by
  have hflip : Rewritten (flip R) t' t := List.Forall₂.flip h
  exact hflip.exists_of_mem hr'

end Rewritten

/-! ### Sorted selections -/

/-- `SELECT … WHERE … ORDER BY …`: the matching rows, sorted by `precedes`; rows that are level stay
in insertion order. -/
def selectBy (t : Table ρ) (p : ρ → Bool) (precedes : ρ → ρ → Bool) : List ρ :=
  (t.select p).insertionSort fun r r' => precedes r' r = false

theorem mem_selectBy {t : Table ρ} {p : ρ → Bool} {precedes : ρ → ρ → Bool} {r : ρ} :
    r ∈ t.selectBy p precedes ↔ r ∈ t.rows ∧ p r = true := by
  rw [selectBy, List.mem_insertionSort, select, List.mem_filter]

/-- Rows that are sorted by a key come in the order of their keys. -/
theorem pairwise_selectBy {κ : Type*} [LinearOrder κ] (t : Table ρ) (p : ρ → Bool) (key : ρ → κ) :
    (t.selectBy p fun r r' => decide (key r < key r')).Pairwise fun r r' => key r ≤ key r' := by
  have hle : ∀ r r' : ρ, decide (key r' < key r) = false ↔ key r ≤ key r' := by
    intro r r'
    rw [decide_eq_false_iff_not, not_lt]
  have htotal : Std.Total fun r r' : ρ => decide (key r' < key r) = false :=
    ⟨fun r r' => by simpa only [hle] using le_total (key r) (key r')⟩
  have htrans : IsTrans ρ fun r r' => decide (key r' < key r) = false :=
    ⟨fun r r' r'' => by simpa only [hle] using le_trans⟩
  refine (List.pairwise_insertionSort _ (t.select p)).imp ?_
  intro r r'
  exact (hle r r').mp

end Table

/-- One table of a database `δ`: where it is read, and how it is put back. -/
structure TableOf (δ : Type*) (ρ : Type u) [Row ρ] where
  get : δ → Table ρ
  put : δ → Table ρ → δ
  get_put : ∀ d t, get (put d t) = t

end Storage
