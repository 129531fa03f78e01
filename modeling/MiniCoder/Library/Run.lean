import Mathlib.Data.List.Basic

/-!
# Runs of a deterministic machine

A machine is a step function `next : σ → ε → σ`; everything its environment decides (the clock, a
generated id, which caller moves) is part of the event.  A run is a list of events.

* `run`, `Along`, `Throughout`, `outputs`: where a run ends, a condition on every step it takes, a
  property of every state it visits, and what its steps emit.
* `throughout_of_step`, `throughout_iff_along`: the invariant rule, and its converse.
* `run_rel`: a preorder that every step respects relates the two ends of a run.
* `counter_run`: a counter that steps raise when they emit counts what was emitted.
* `balance_run`: the same for what steps raise and lower.
* `outputs_once`: the two-stage rule, for a machine that emits at most once.
-/

namespace Runs

variable {σ ε τ : Type*} {next : σ → ε → σ}

/-- The state a run ends in. -/
def run (next : σ → ε → σ) : σ → List ε → σ
  | s, [] => s
  | s, e :: es => run next (next s e) es

/-- `C` holds of every step of a run, in the state the step is taken in. -/
def Along (next : σ → ε → σ) (C : σ → ε → Prop) : σ → List ε → Prop
  | _, [] => True
  | s, e :: es => C s e ∧ Along next C (next s e) es

/-- `P` holds of every state a run visits, both ends included. -/
def Throughout (next : σ → ε → σ) (P : σ → Prop) : σ → List ε → Prop
  | s, [] => P s
  | s, e :: es => P s ∧ Throughout next P (next s e) es

/-- What the steps of a run emit, in order. -/
def outputs (next : σ → ε → σ) (emit : σ → ε → Option τ) : σ → List ε → List τ
  | _, [] => []
  | s, e :: es => (emit s e).toList ++ outputs next emit (next s e) es

@[simp] theorem run_nil (s : σ) : run next s [] = s := rfl

@[simp] theorem run_cons (s : σ) (e : ε) (es : List ε) :
    run next s (e :: es) = run next (next s e) es := rfl

@[simp] theorem along_nil (C : σ → ε → Prop) (s : σ) : Along next C s [] := trivial

@[simp] theorem along_cons (C : σ → ε → Prop) (s : σ) (e : ε) (es : List ε) :
    Along next C s (e :: es) ↔ C s e ∧ Along next C (next s e) es := Iff.rfl

@[simp] theorem throughout_nil (P : σ → Prop) (s : σ) : Throughout next P s [] ↔ P s := Iff.rfl

@[simp] theorem throughout_cons (P : σ → Prop) (s : σ) (e : ε) (es : List ε) :
    Throughout next P s (e :: es) ↔ P s ∧ Throughout next P (next s e) es := Iff.rfl

@[simp] theorem outputs_nil (emit : σ → ε → Option τ) (s : σ) : outputs next emit s [] = [] := rfl

@[simp] theorem outputs_cons (emit : σ → ε → Option τ) (s : σ) (e : ε) (es : List ε) :
    outputs next emit s (e :: es) = (emit s e).toList ++ outputs next emit (next s e) es := rfl

theorem run_append (s : σ) (es fs : List ε) :
    run next s (es ++ fs) = run next (run next s es) fs := by
  induction es generalizing s with
  | nil => rfl
  | cons e es ih => exact ih (next s e)

theorem along_append {C : σ → ε → Prop} {s : σ} {es fs : List ε} :
    Along next C s (es ++ fs) ↔ Along next C s es ∧ Along next C (run next s es) fs := by
  induction es generalizing s with
  | nil => simp
  | cons e es ih => simp [ih, and_assoc]

theorem outputs_append (emit : σ → ε → Option τ) (s : σ) (es fs : List ε) :
    outputs next emit s (es ++ fs) =
      outputs next emit s es ++ outputs next emit (run next s es) fs := by
  induction es generalizing s with
  | nil => rfl
  | cons e es ih => simp [ih]

/-- What holds of everything a step emits holds of everything its run emits. -/
theorem forall_outputs {emit : σ → ε → Option τ} {P : τ → Prop} {s : σ} {es : List ε}
    (h : Along next (fun s e => ∀ t, emit s e = some t → P t) s es) :
    ∀ t ∈ outputs next emit s es, P t := by
  induction es generalizing s with
  | nil =>
    intro t ht
    cases ht
  | cons e es ih =>
    intro t ht
    rw [outputs_cons, List.mem_append, Option.mem_toList] at ht
    rcases ht with hfirst | hrest
    · exact h.1 t hfirst
    · exact ih h.2 t hrest

theorem along_of_forall_mem {C : σ → ε → Prop} {es : List ε} (h : ∀ e ∈ es, ∀ s, C s e) (s : σ) :
    Along next C s es := by
  induction es generalizing s with
  | nil => trivial
  | cons e es ih =>
    obtain ⟨he, hes⟩ := List.forall_mem_cons.mp h
    exact ⟨he s, ih hes (next s e)⟩

theorem along_of_forall {C : σ → ε → Prop} (h : ∀ s e, C s e) (s : σ) (es : List ε) :
    Along next C s es :=
  along_of_forall_mem (fun e _ s => h s e) s

instance decidableAlong {C : σ → ε → Prop} [∀ s e, Decidable (C s e)] :
    (s : σ) → (es : List ε) → Decidable (Along next C s es)
  | _, [] => isTrue trivial
  | s, e :: es =>
    have := decidableAlong (C := C) (next s e) es
    inferInstanceAs (Decidable (C s e ∧ Along next C (next s e) es))

theorem Along.imp {C D : σ → ε → Prop} (h : ∀ s e, C s e → D s e) {s : σ} {es : List ε}
    (hC : Along next C s es) : Along next D s es := by
  induction es generalizing s with
  | nil => trivial
  | cons e es ih => exact ⟨h s e hC.1, ih hC.2⟩

theorem Along.and {C D : σ → ε → Prop} {s : σ} {es : List ε} (hC : Along next C s es)
    (hD : Along next D s es) : Along next (fun s e => C s e ∧ D s e) s es := by
  induction es generalizing s with
  | nil => trivial
  | cons e es ih => exact ⟨⟨hC.1, hD.1⟩, ih hC.2 hD.2⟩

/-! ### Invariants -/

theorem Throughout.start {P : σ → Prop} {s : σ} {es : List ε} (h : Throughout next P s es) :
    P s := by
  cases es with
  | nil => exact h
  | cons e es => exact h.1

theorem Throughout.imp {P Q : σ → Prop} (h : ∀ s, P s → Q s) {s : σ} {es : List ε}
    (hP : Throughout next P s es) : Throughout next Q s es := by
  induction es generalizing s with
  | nil => exact h s hP
  | cons e es ih => exact ⟨h s hP.1, ih hP.2⟩

/-- A property of every state a run visits holds of the one it ends in. -/
theorem Throughout.last {P : σ → Prop} {s : σ} {es : List ε} (h : Throughout next P s es) :
    P (run next s es) := by
  induction es generalizing s with
  | nil => exact h
  | cons e es ih => exact ih h.2

/-- **The invariant rule**: what every step meeting `C` preserves holds in every state a run whose
steps all meet `C` visits. -/
theorem throughout_of_step {P : σ → Prop} {C : σ → ε → Prop}
    (hstep : ∀ s e, P s → C s e → P (next s e)) {s : σ} (hs : P s) {es : List ε}
    (hC : Along next C s es) : Throughout next P s es := by
  induction es generalizing s with
  | nil => exact hs
  | cons e es ih => exact ⟨hs, ih (hstep s e hs hC.1) hC.2⟩

/-- **The invariant rule, both ways**: where a step keeps the invariant if and only if it meets `C`,
a run does throughout if and only if all its steps do. -/
theorem throughout_iff_along {P : σ → Prop} {C : σ → ε → Prop}
    (hstep : ∀ s e, P s → (P (next s e) ↔ C s e)) {s : σ} (hs : P s) {es : List ε} :
    Throughout next P s es ↔ Along next C s es := by
  refine ⟨fun h => ?_, throughout_of_step (fun s e hs hC => (hstep s e hs).mpr hC) hs⟩
  induction es generalizing s with
  | nil => trivial
  | cons e es ih => exact ⟨(hstep s e hs).mp h.2.start, ih h.2.start h.2⟩

/-- Every step of a run is taken in a state that satisfies the invariant. -/
theorem along_and_of_step {P : σ → Prop} {C : σ → ε → Prop}
    (hstep : ∀ s e, P s → C s e → P (next s e)) {s : σ} (hs : P s) {es : List ε}
    (hC : Along next C s es) : Along next (fun s e => P s ∧ C s e) s es := by
  induction es generalizing s with
  | nil => trivial
  | cons e es ih => exact ⟨⟨hs, hC.1⟩, ih (hstep s e hs hC.1) hC.2⟩

/-- Two conditions that agree in the states of an invariant hold along the same runs, where a step
meeting the second one keeps the invariant. -/
theorem along_iff_of_step {P : σ → Prop} {C D : σ → ε → Prop}
    (hiff : ∀ s e, P s → (C s e ↔ D s e)) (hstep : ∀ s e, P s → D s e → P (next s e)) {s : σ}
    (hs : P s) {es : List ε} : Along next C s es ↔ Along next D s es := by
  induction es generalizing s with
  | nil => exact Iff.rfl
  | cons e es ih =>
    rw [along_cons, along_cons, hiff s e hs]
    exact and_congr_right fun hD => ih (hstep s e hs hD)

/-- A preorder that every step meeting `C` respects relates the two ends of a run. -/
theorem run_rel {R : σ → σ → Prop} (hrefl : ∀ s, R s s) (htrans : ∀ a b c, R a b → R b c → R a c)
    {C : σ → ε → Prop} (hstep : ∀ s e, C s e → R s (next s e)) {s : σ} {es : List ε}
    (hC : Along next C s es) : R s (run next s es) := by
  induction es generalizing s with
  | nil => exact hrefl s
  | cons e es ih => exact htrans _ _ _ (hstep s e hC.1) (ih hC.2)

/-- **The counting rule**: a counter that each step raises by one when it emits a token that matches
`p`, and otherwise leaves, counts these tokens. -/
theorem counter_run {emit : σ → ε → Option τ} {C : σ → ε → Prop} (count : σ → ℕ) {p : τ → Bool}
    (hstep : ∀ s e, C s e → count (next s e) = count s + (emit s e).toList.countP p)
    {s : σ} {es : List ε} (hC : Along next C s es) :
    count (run next s es) = count s + (outputs next emit s es).countP p := by
  induction es generalizing s with
  | nil => rfl
  | cons e es ih =>
    have hfirst := hstep s e hC.1
    have hrest := ih hC.2
    rw [run_cons, outputs_cons, List.countP_append]
    omega

/-- **The balance rule**: where each step changes what is held by what it emits, the one end of a run
holds what the other one does, with what was raised and without what was lowered. -/
theorem balance_run {emit : σ → ε → Option τ} {C : σ → ε → Prop} (held : σ → ℕ)
    {raises lowers : τ → Bool}
    (hstep : ∀ s e, C s e → held (next s e) + (emit s e).toList.countP lowers =
      held s + (emit s e).toList.countP raises)
    {s : σ} {es : List ε} (hC : Along next C s es) :
    held (run next s es) + (outputs next emit s es).countP lowers =
      held s + (outputs next emit s es).countP raises := by
  induction es generalizing s with
  | nil => rfl
  | cons e es ih =>
    have hfirst := hstep s e hC.1
    have hrest := ih hC.2
    rw [run_cons, outputs_cons, List.countP_append, List.countP_append]
    omega

/-! ### Machines that emit once -/

/-- **The two-stage rule**: a machine that emits nothing while `Before` holds, or emits and passes
for good to `After`, emits at most once. -/
theorem outputs_once {emit : σ → ε → Option τ} {C : σ → ε → Prop} {Before : σ → Prop}
    {After : τ → σ → Prop}
    (hbefore : ∀ s e, Before s → C s e → (emit s e = none ∧ Before (next s e)) ∨
      ∃ t, emit s e = some t ∧ After t (next s e))
    (hafter : ∀ t s e, After t s → C s e → emit s e = none ∧ After t (next s e))
    {s : σ} {es : List ε} (hs : Before s) (hC : Along next C s es) :
    (outputs next emit s es = [] ∧ Before (run next s es)) ∨
      ∃ t, outputs next emit s es = [t] ∧ After t (run next s es) := by
  -- once passed, the machine stays quiet
  have hquiet : ∀ (es : List ε) (t : τ) (s : σ), After t s → Along next C s es →
      outputs next emit s es = [] ∧ After t (run next s es) := by
    intro es
    induction es with
    | nil =>
      intro t s hs _
      exact ⟨rfl, hs⟩
    | cons e es ih =>
      intro t s hs hC
      obtain ⟨hemit, hnext⟩ := hafter t s e hs hC.1
      rw [outputs_cons, hemit]
      exact ih t (next s e) hnext hC.2
  induction es generalizing s with
  | nil => exact Or.inl ⟨rfl, hs⟩
  | cons e es ih =>
    rw [outputs_cons]
    rcases hbefore s e hs hC.1 with ⟨hemit, hnext⟩ | ⟨t, hemit, hnext⟩
    · rw [hemit]
      exact ih hnext hC.2
    · obtain ⟨hout, hend⟩ := hquiet es t (next s e) hnext hC.2
      rw [hemit, hout]
      exact Or.inr ⟨t, rfl, hend⟩

end Runs
