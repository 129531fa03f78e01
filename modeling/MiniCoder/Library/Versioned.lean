import Mathlib.Data.Nat.Notation
import MiniCoder.Library.Table

/-!
# Versioned rows, snapshots and claims

A table of rows with a version column, whose statements never lower a version and change nothing
that matters of a row whose version they keep (`Advances`).  Whoever has read a row holds a
*snapshot* of it; a statement guarded by the snapshot's version (`guarded`) finds the row as it was
read, or finds nothing.

A *claim* is a snapshot of a row just after its holder has raised its version.  The ghost column
`stamps` names who raised the version of each row last.

* `Snapshot.advance`, `Snapshot.core_eq`: a snapshot stays one, and is accurate at its version.
* `Held.advance`, `Held.of_update`: a claim stays held by its holder whatever is done later.
* `Held.guarded_eq`: a statement guarded by a claim changes nothing once another has raised the
  version.
-/

universe u v w

namespace Storage

/-- Rows with a key of their own and a version. -/
class Versioned (ρ : Type u) [Row ρ] (κ : outParam (Type v)) where
  key : ρ → κ
  version : ρ → ℕ
  clash_of_key : ∀ r r', key r = key r' → Row.clash r r' = true

open Versioned

variable {ρ : Type u} [Row ρ] {κ : Type v} [Versioned ρ κ] {τ : Type w} {core : ρ → τ}
  {t t' : Table ρ} {r r' snapshot : ρ}

namespace Table

theorem eq_of_key (hr : r ∈ t.rows) (hr' : r' ∈ t.rows) (h : key r = key r') : r = r' :=
  t.eq_of_clash hr hr' (clash_of_key r r' h)

end Table

/-! ### Snapshots -/

/-- `r'` is a later state of the row that `r` was: its version is higher, or it shows the same. -/
def Later (core : ρ → τ) (r r' : ρ) : Prop :=
  key r' = key r ∧ (version r < version r' ∨ (version r' = version r ∧ core r' = core r))

theorem Later.refl (r : ρ) : Later core r r := ⟨rfl, Or.inr ⟨rfl, rfl⟩⟩

theorem Later.version_le (h : Later core r r') : version r ≤ version r' := by
  rcases h.2 with hlt | ⟨heq, -⟩
  · exact Nat.le_of_lt hlt
  · exact Nat.le_of_eq heq.symm

theorem Later.trans {r'' : ρ} (h : Later core r r') (h' : Later core r' r'') : Later core r r'' := by
  refine ⟨h'.1.trans h.1, ?_⟩
  have hle := h.version_le
  have hle' := h'.version_le
  rcases h.2 with hlt | ⟨heq, hcore⟩
  · left
    omega
  · rcases h'.2 with hlt' | ⟨heq', hcore'⟩
    · left
      omega
    · exact Or.inr ⟨heq'.trans heq, hcore'.trans hcore⟩

/-- The table holds the row of a snapshot, in a later state. -/
def Snapshot (core : ρ → τ) (t : Table ρ) (snapshot : ρ) : Prop :=
  ∃ r ∈ t.rows, Later core snapshot r

/-- Every row of `t` is in `t'`, in a later state. -/
def Advances (core : ρ → τ) (t t' : Table ρ) : Prop := ∀ r ∈ t.rows, Snapshot core t' r

theorem Snapshot.of_mem (h : r ∈ t.rows) : Snapshot core t r := ⟨r, h, Later.refl r⟩

theorem Snapshot.advance (h : Snapshot core t snapshot) (hadv : Advances core t t') :
    Snapshot core t' snapshot := by
  obtain ⟨r, hr, hlater⟩ := h
  obtain ⟨r', hr', hlater'⟩ := hadv r hr
  exact ⟨r', hr', hlater.trans hlater'⟩

/-- A row of the key of a snapshot is a later state of it. -/
theorem Snapshot.later (h : Snapshot core t snapshot) (hr : r ∈ t.rows)
    (hkey : key r = key snapshot) : Later core snapshot r := by
  obtain ⟨r', hr', hlater⟩ := h
  rw [t.eq_of_key hr hr' (hkey.trans hlater.1.symm)]
  exact hlater

/-- **A snapshot is accurate while its version is current.** -/
theorem Snapshot.core_eq (h : Snapshot core t snapshot) (hr : r ∈ t.rows)
    (hkey : key r = key snapshot) (hversion : version r = version snapshot) :
    core r = core snapshot := by
  rcases (h.later hr hkey).2 with hlt | ⟨-, hcore⟩
  · omega
  · exact hcore

namespace Advances

theorem refl (t : Table ρ) : Advances core t t := fun _ => Snapshot.of_mem

/-- An update that raises the version of a row it matches, or changes nothing that matters. -/
theorem update {p : ρ → Bool} {f : ρ → ρ} {hf : KeyFree f}
    (h : ∀ r, p r = true → Later core r (f r)) : Advances core t (t.update p f hf) := by
  intro r hr
  refine ⟨Table.updateRow p f r, Table.mem_update.mpr ⟨r, hr, rfl⟩, ?_⟩
  by_cases hp : p r = true
  · rw [Table.updateRow_of_pos hp]
    exact h r hp
  · rw [Table.updateRow_of_neg (by simpa using hp)]
    exact Later.refl r

theorem insert (h : t.insert? r = some t') : Advances core t t' :=
  fun _ hr' => Snapshot.of_mem ((Table.mem_insert? h).mpr (Or.inl hr'))

end Advances

/-! ### Statements guarded by a version -/

variable [DecidableEq κ]

/-- `WHERE id = ? AND version = ?`. -/
def guarded (k : κ) (v : ℕ) (r : ρ) : Bool := decide (key r = k) && decide (version r = v)

theorem guarded_iff {k : κ} {v : ℕ} : guarded k v r = true ↔ key r = k ∧ version r = v := by
  rw [guarded, Bool.and_eq_true, decide_eq_true_eq, decide_eq_true_eq]

/-! ### Claims -/

/-- The version of a row of the table. -/
def versionOf (t : Table ρ) (k : κ) : Option ℕ := (t.find? fun r => decide (key r = k)).map version

theorem versionOf_eq (hr : r ∈ t.rows) : versionOf t (key r) = some (version r) := by
  have hfind : t.find? (fun r' => decide (key r' = key r)) = some r :=
    t.find?_eq_some hr (decide_eq_true rfl) fun r' hkey =>
      clash_of_key r r' (of_decide_eq_true hkey).symm
  rw [versionOf, hfind]
  rfl

/-- The ghost column after a step of `who`: it names `who` for the rows whose version the step has
raised. -/
def stamp {ω : Type*} (t t' : Table ρ) (who : ω) (stamps : κ → ω) (k : κ) : ω :=
  if versionOf t' k = versionOf t k then stamps k else who

/-- `who` has claimed the row of a snapshot: while the snapshot's version is current, it is `who` who
set it. -/
structure Held {ω : Type*} (core : ρ → τ) (t : Table ρ) (stamps : κ → ω) (snapshot : ρ) (who : ω) :
    Prop where
  seen : Snapshot core t snapshot
  stamped : ∀ r ∈ t.rows, guarded (key snapshot) (version snapshot) r = true →
    stamps (key snapshot) = who

namespace Held

variable {ω : Type*} {stamps : κ → ω} {who other : ω}

/-- **A claim stays its holder's**, whatever another step does. -/
theorem advance (h : Held core t stamps snapshot who) (hadv : Advances core t t') :
    Held core t' (stamp t t' other stamps) snapshot who where
  seen := h.seen.advance hadv
  stamped r' hr' hguard := by
    obtain ⟨hkey, hversion⟩ := guarded_iff.mp hguard
    obtain ⟨r, hr, hlater⟩ := h.seen
    have hmoved := (hadv r hr).later hr' (hkey.trans hlater.1.symm)
    -- the version was the snapshot's before the step, too
    have hle := hlater.version_le
    have hle' := hmoved.version_le
    have hbefore : version r = version snapshot := by omega
    have hsame : versionOf t' (key snapshot) = versionOf t (key snapshot) := by
      rw [← hkey, versionOf_eq hr', hkey, ← hlater.1, versionOf_eq hr, hversion, hbefore]
    rw [stamp, if_pos hsame]
    exact h.stamped r hr (guarded_iff.mpr ⟨hlater.1, hbefore⟩)

/-- **A new claim**: the row that the claim's update matched is its holder's. -/
theorem of_update {p : ρ → Bool} {f : ρ → ρ} (hf : KeyFree f) (hkeys : ∀ r, key (f r) = key r)
    (hr : r ∈ t.rows) (hp : p r = true) (hraised : version r < version (f r)) :
    Held core (t.update p f hf) (stamp t (t.update p f hf) who stamps) (f r) who := by
  have hrow : f r ∈ (t.update p f hf).rows :=
    Table.mem_update.mpr ⟨r, hr, Table.updateRow_of_pos hp⟩
  refine ⟨Snapshot.of_mem hrow, fun _ _ _ => ?_⟩
  have hmoved : ¬ versionOf (t.update p f hf) (key (f r)) = versionOf t (key (f r)) := by
    rw [versionOf_eq hrow, hkeys, versionOf_eq hr]
    intro heq
    have hsame := Option.some.inj heq
    omega
  rw [stamp, if_neg hmoved]

/-- A claim is about what its snapshot shows. -/
theorem congr {snapshot' : ρ} (h : Held core t stamps snapshot who)
    (hkey : key snapshot' = key snapshot) (hversion : version snapshot' = version snapshot)
    (hcore : core snapshot' = core snapshot) : Held core t stamps snapshot' who where
  seen := by
    obtain ⟨r, hr, hrow, hlater⟩ := h.seen
    refine ⟨r, hr, hrow.trans hkey.symm, ?_⟩
    rw [hversion, hcore]
    exact hlater
  stamped := by
    rw [hkey, hversion]
    exact h.stamped

/-- **A statement guarded by a claim changes nothing** once another has raised the version. -/
theorem guarded_eq (h : Held core t stamps snapshot who) (hlost : stamps (key snapshot) ≠ who)
    {f : ρ → ρ} (hf : KeyFree f) :
    t.update (guarded (key snapshot) (version snapshot)) f hf = t := by
  refine Table.update_eq_self hf (Table.count_eq_zero.mpr fun r hr => ?_)
  by_contra hmatch
  exact hlost (h.stamped r hr (by simpa using hmatch))

end Held

end Storage
