import MiniCoder.Library.Run

/-!
# Fencing tokens

A machine with one fence counter for each key, that no step lowers, and grants: a grant for a key
carries the counter's new value, which no earlier grant for that key had reached.  A token is
*current* while its stamp is the counter of its key.

* `pairwise_stamp`: the grants of one key are stamped in strictly increasing order.
* `pairwise_current`: of two grants of one key, at most one is current.
* `last_of_current`: a current token is the last grant of its key.
-/

namespace Runs

variable {σ ε τ κ : Type*} {next : σ → ε → σ}

/-- A machine with fencing tokens, in the steps that meet `C`. -/
structure Fenced (next : σ → ε → σ) (C : σ → ε → Prop) (fence : κ → σ → ℕ)
    (grant : σ → ε → Option τ) (key : τ → κ) (stamp : τ → ℕ) : Prop where
  mono : ∀ k s e, C s e → fence k s ≤ fence k (next s e)
  granted : ∀ s e t, C s e → grant s e = some t →
    fence (key t) s < stamp t ∧ stamp t = fence (key t) (next s e)

/-- The token's stamp is the counter of its key. -/
def Current (fence : κ → σ → ℕ) (key : τ → κ) (stamp : τ → ℕ) (s : σ) (t : τ) : Prop :=
  stamp t = fence (key t) s

theorem not_current {fence : κ → σ → ℕ} {key : τ → κ} {stamp : τ → ℕ} {s : σ} {t : τ}
    (hpassed : stamp t < fence (key t) s) : ¬ Current fence key stamp s t := by
  intro hcur
  unfold Current at hcur
  omega

namespace Fenced

variable {C : σ → ε → Prop} {fence : κ → σ → ℕ} {grant : σ → ε → Option τ} {key : τ → κ}
  {stamp : τ → ℕ}

theorem counter_le_run (h : Fenced next C fence grant key stamp) (k : κ) {s : σ} {es : List ε}
    (hC : Along next C s es) : fence k s ≤ fence k (run next s es) :=
  run_rel (R := fun s s' => fence k s ≤ fence k s') (fun _ => Nat.le_refl _)
    (fun _ _ _ => Nat.le_trans) (h.mono k) hC

/-- A grant of the run was stamped above the counter its key started with, and not above the one its
key ends with. -/
theorem stamp_mem (h : Fenced next C fence grant key stamp) {s : σ} {es : List ε}
    (hC : Along next C s es) {t : τ} (ht : t ∈ outputs next grant s es) :
    fence (key t) s < stamp t ∧ stamp t ≤ fence (key t) (run next s es) := by
  induction es generalizing s with
  | nil => simp at ht
  | cons e es ih =>
    rw [outputs_cons, List.mem_append, Option.mem_toList] at ht
    rcases ht with ht | ht
    · obtain ⟨hlt, heq⟩ := h.granted s e t hC.1 ht
      exact ⟨hlt, by rw [heq]; exact h.counter_le_run _ hC.2⟩
    · obtain ⟨hlt, hle⟩ := ih hC.2 ht
      exact ⟨Nat.lt_of_le_of_lt (h.mono _ s e hC.1) hlt, hle⟩

/-- **The grants of one key are stamped in strictly increasing order.** -/
theorem pairwise_stamp (h : Fenced next C fence grant key stamp) {s : σ} {es : List ε}
    (hC : Along next C s es) :
    (outputs next grant s es).Pairwise (fun t t' => key t = key t' → stamp t < stamp t') := by
  induction es generalizing s with
  | nil => exact List.Pairwise.nil
  | cons e es ih =>
    refine List.pairwise_append.mpr ⟨?_, ih hC.2, fun t ht t' ht' hkey => ?_⟩
    · rcases grant s e with _ | t <;> simp
    · have heq := (h.granted s e t hC.1 (Option.mem_toList.mp ht)).2
      rw [heq, hkey]
      exact (h.stamp_mem hC.2 ht').1

/-- **Of two grants of one key, at most one is current.** -/
theorem pairwise_current (h : Fenced next C fence grant key stamp) (s' : σ) {s : σ}
    {es : List ε} (hC : Along next C s es) :
    (outputs next grant s es).Pairwise (fun t t' => key t = key t' →
      ¬ (Current fence key stamp s' t ∧ Current fence key stamp s' t')) := by
  refine (h.pairwise_stamp hC).imp fun {t t'} hlt hkey hcur => ?_
  have hstamp : stamp t = stamp t' := by rw [hcur.1, hcur.2, hkey]
  exact absurd (hlt hkey) (by omega)

/-- **A current token is the last grant of its key.** -/
theorem last_of_current [DecidableEq κ] (h : Fenced next C fence grant key stamp) {s : σ} {es : List ε}
    (hC : Along next C s es) {t : τ} (ht : t ∈ outputs next grant s es)
    (hcur : Current fence key stamp (run next s es) t) :
    ((outputs next grant s es).filter (fun t' => decide (key t' = key t))).getLast? = some t := by
  induction es generalizing s with
  | nil => simp at ht
  | cons e es ih =>
    rw [outputs_cons, List.filter_append, List.getLast?_append]
    rw [outputs_cons, List.mem_append, Option.mem_toList] at ht
    rcases ht with ht | ht
    · -- a later grant of the same key would have passed the counter of this one
      have heq := (h.granted s e t hC.1 ht).2
      have hnone : (outputs next grant (next s e) es).filter
          (fun t' => decide (key t' = key t)) = [] := by
        refine List.filter_eq_nil_iff.mpr fun t' ht' hkey => ?_
        have hkey' : key t' = key t := of_decide_eq_true hkey
        obtain ⟨hlt, hle⟩ := h.stamp_mem hC.2 ht'
        have hfence : fence (key t) (run next (next s e) es) = stamp t := hcur.symm
        rw [hkey'] at hlt hle
        omega
      rw [hnone, ht]
      simp
    · rw [ih hC.2 ht hcur]
      rfl

end Fenced

end Runs
