import Mathlib.Logic.Basic

/-!
# Fallible stateful actions and transactions

An action reads and writes a state and either returns a value or throws.  Throwing does *not* undo
the writes made so far, as on an open database connection; it is `atomically` that puts the state
back when its body throws.  `Action` is `ExceptT ε (StateM σ)`, run by `exec`.

* `exec_bind_ok`, `exec_bind_error`: what a sequence that returned, or threw, must have done.
* `Frame`: an action that leaves a given view of the state alone, whether it returns or throws,
  with one rule for each way of building an action (`frame_bind`, `frame_atomically`, …).
* `exec_atomically_error`: a transaction that throws leaves the rolled-back state.
* `Returns`: an action that does not throw, with what holds of its value and of the state it leaves;
  a sequence returns by `Returns.bind`, and what is known of every run that returned is added by
  `Returns.and_of_ok` and `Returns.and_frame`.
* `Throws`: an action that throws; a sequence throws by `Throws.bind` or `Returns.bind_throws`.
-/

namespace Storage

variable {ε σ α β τ : Type}

/-- A computation on the state `σ` that returns a value or throws an `ε`. -/
abbrev Action (ε σ : Type) := ExceptT ε (StateM σ)

namespace Action

/-- The outcome of an action and the state it leaves. -/
def exec (m : Action ε σ α) (s : σ) : Except ε α × σ := (ExceptT.run m).run s

/-- The value of a view of the state. -/
def read (f : σ → α) : Action ε σ α := fun s => (.ok (f s), s)

/-- A change of the state. -/
def write (f : σ → σ) : Action ε σ Unit := fun s => (.ok (), f s)

/-- A statement: a change of the state that returns a value or throws. -/
def statement (f : σ → Except ε (α × σ)) : Action ε σ α := fun s =>
  match f s with
  | .ok (a, s') => (.ok a, s')
  | .error e => (.error e, s)

/-- Runs `body`; when it throws, the state becomes `rollback before after`. -/
def atomically (rollback : σ → σ → σ) (body : Action ε σ α) : Action ε σ α := fun s =>
  match exec body s with
  | (.ok a, s') => (.ok a, s')
  | (.error e, s') => (.error e, rollback s s')

/-- Runs an action on a part of a larger state. -/
def within {ε' σ' : Type} (part : σ' → σ) (put : σ → σ' → σ') (wrap : ε → ε')
    (m : Action ε σ α) : Action ε' σ' α := fun w =>
  match exec m (part w) with
  | (.ok a, s) => (.ok a, put s w)
  | (.error e, s) => (.error (wrap e), put s w)

/-- `try … finally`: `last` runs after `body`, whether it returned or threw. -/
def ensuring (body : Action ε σ α) (last : Action ε σ Unit) : Action ε σ α := fun s =>
  match exec body s with
  | (r, s₁) => match exec last s₁ with
    | (.ok _, s₂) => (r, s₂)
    | (.error e, s₂) => (.error e, s₂)

/-! ### Running -/

@[simp] theorem exec_pure (a : α) (s : σ) : exec (pure a : Action ε σ α) s = (.ok a, s) := rfl

@[simp] theorem exec_throw (e : ε) (s : σ) :
    exec (throw e : Action ε σ α) s = (.error e, s) := rfl

@[simp] theorem exec_read (f : σ → α) (s : σ) :
    exec (read f : Action ε σ α) s = (.ok (f s), s) := rfl

@[simp] theorem exec_write (f : σ → σ) (s : σ) :
    exec (write f : Action ε σ Unit) s = (.ok (), f s) := rfl

theorem exec_statement (f : σ → Except ε (α × σ)) (s : σ) :
    exec (statement f) s = match f s with
      | .ok (a, s') => (.ok a, s')
      | .error e => (.error e, s) := rfl

/-- A statement that throws changes nothing. -/
theorem exec_statement_error {f : σ → Except ε (α × σ)} {s s' : σ} {e : ε}
    (h : exec (statement f) s = (.error e, s')) : s' = s := by
  rw [exec_statement] at h
  rcases hf : f s with e' | ⟨a, s₁⟩
  · rw [hf] at h
    exact (Prod.mk.inj h).2.symm
  · rw [hf] at h
    cases h

theorem exec_bind (m : Action ε σ α) (f : α → Action ε σ β) (s : σ) :
    exec (m >>= f) s = match exec m s with
      | (.ok a, s') => exec (f a) s'
      | (.error e, s') => (.error e, s') := by
  unfold exec
  simp only [ExceptT.run_bind, StateT.run_bind]
  rcases (ExceptT.run m).run s with ⟨_ | a, s'⟩ <;> rfl

@[simp] theorem exec_ite (c : Prop) [Decidable c] (m n : Action ε σ α) (s : σ) :
    exec (if c then m else n) s = if c then exec m s else exec n s := by
  split <;> rfl

/-- A sequence returns when both parts return. -/
theorem exec_bind_of {m : Action ε σ α} {f : α → Action ε σ β} {s s₁ : σ} {a : α}
    (h : exec m s = (.ok a, s₁)) : exec (m >>= f) s = exec (f a) s₁ := by
  rw [exec_bind, h]

theorem exec_bind_ok {m : Action ε σ α} {f : α → Action ε σ β} {s s' : σ} {b : β} :
    exec (m >>= f) s = (.ok b, s') ↔
      ∃ a s₁, exec m s = (.ok a, s₁) ∧ exec (f a) s₁ = (.ok b, s') := by
  rw [exec_bind]
  rcases exec m s with ⟨_ | a, s₁⟩ <;> simp [and_assoc]

/-- A sequence throws when a part throws. -/
theorem exec_bind_error {m : Action ε σ α} {f : α → Action ε σ β} {s s' : σ} {e : ε} :
    exec (m >>= f) s = (.error e, s') ↔
      exec m s = (.error e, s') ∨
        ∃ a s₁, exec m s = (.ok a, s₁) ∧ exec (f a) s₁ = (.error e, s') := by
  rw [exec_bind]
  rcases exec m s with ⟨_ | a, s₁⟩ <;> simp [and_assoc]

/-- A sequence throws at its first part, or goes on to its second. -/
theorem exec_bind_cases {m : Action ε σ α} {f : α → Action ε σ β} {s s' : σ} {r : Except ε β}
    (h : exec (m >>= f) s = (r, s')) :
    (∃ e, exec m s = (.error e, s')) ∨ ∃ a s₁, exec m s = (.ok a, s₁) ∧ exec (f a) s₁ = (r, s') := by
  rw [exec_bind] at h
  rcases hm : exec m s with ⟨e | a, s₁⟩
  · rw [hm] at h
    exact Or.inl ⟨e, by rw [(Prod.mk.inj h).2]⟩
  · rw [hm] at h
    exact Or.inr ⟨a, s₁, rfl, h⟩

theorem exec_atomically (rollback : σ → σ → σ) (body : Action ε σ α) (s : σ) :
    exec (atomically rollback body) s = match exec body s with
      | (.ok a, s') => (.ok a, s')
      | (.error e, s') => (.error e, rollback s s') := rfl

theorem exec_atomically_ok {rollback : σ → σ → σ} {body : Action ε σ α} {s s' : σ} {a : α} :
    exec (atomically rollback body) s = (.ok a, s') ↔ exec body s = (.ok a, s') := by
  rw [exec_atomically]
  rcases exec body s with ⟨_ | b, s₁⟩ <;> simp

/-- A transaction that throws leaves the rolled-back state. -/
theorem exec_atomically_error {rollback : σ → σ → σ} {body : Action ε σ α} {s s' : σ} {e : ε} :
    exec (atomically rollback body) s = (.error e, s') ↔
      ∃ s₁, exec body s = (.error e, s₁) ∧ s' = rollback s s₁ := by
  rw [exec_atomically]
  rcases exec body s with ⟨_ | b, s₁⟩ <;> simp [and_assoc, eq_comm]

theorem exec_within_ok {ε' σ' : Type} {part : σ' → σ} {put : σ → σ' → σ'} {wrap : ε → ε'}
    {m : Action ε σ α} {w w' : σ'} {a : α} :
    exec (within part put wrap m) w = (.ok a, w') ↔
      ∃ s, exec m (part w) = (.ok a, s) ∧ w' = put s w := by
  show (match exec m (part w) with
    | (.ok a, s) => (Except.ok a, put s w)
    | (.error e, s) => (.error (wrap e), put s w)) = _ ↔ _
  rcases exec m (part w) with ⟨_ | b, s⟩ <;> simp [and_assoc, eq_comm]

/-- A body with a `finally` returned: so did both. -/
theorem exec_ensuring_ok {body : Action ε σ α} {last : Action ε σ Unit} {s s' : σ} {a : α} :
    exec (ensuring body last) s = (.ok a, s') ↔
      ∃ s₁, exec body s = (.ok a, s₁) ∧ exec last s₁ = (.ok (), s') := by
  show (match exec body s with
    | (r, s₁) => match exec last s₁ with
      | (.ok _, s₂) => (r, s₂)
      | (.error e, s₂) => (.error e, s₂)) = _ ↔ _
  rcases exec body s with ⟨r, s₁⟩
  constructor
  · intro h
    rcases hlast : exec last s₁ with ⟨e | u, s₂⟩
    · simp [hlast] at h
    · simp only [hlast, Prod.mk.injEq] at h
      obtain ⟨rfl, rfl⟩ := h
      exact ⟨s₁, rfl, hlast⟩
  · rintro ⟨s₂, hbody, hlast⟩
    obtain ⟨rfl, rfl⟩ := Prod.mk.inj hbody
    simp [hlast]

theorem exec_tryCatch (m : Action ε σ α) (f : ε → Action ε σ α) (s : σ) :
    exec (tryCatch m f) s = match exec m s with
      | (.ok a, s') => (.ok a, s')
      | (.error e, s') => exec (f e) s' := by
  unfold exec
  show (ExceptT.run (ExceptT.tryCatch m f)).run s = _
  simp only [ExceptT.tryCatch, ExceptT.run, ExceptT.mk, StateT.run_bind]
  rcases (StateT.run m s) with ⟨_ | a, s'⟩ <;> rfl

theorem exec_tryCatch_ok {m : Action ε σ α} {f : ε → Action ε σ α} {s s' : σ} {a : α} :
    exec (tryCatch m f) s = (.ok a, s') ↔ exec m s = (.ok a, s') ∨
      ∃ e s₁, exec m s = (.error e, s₁) ∧ exec (f e) s₁ = (.ok a, s') := by
  rw [exec_tryCatch]
  rcases exec m s with ⟨e | b, s₁⟩ <;> simp [and_assoc]

/-! ### Frames -/

/-- `m` leaves the view `π` of the state alone, whether it returns or throws. -/
def Frame (π : σ → τ) (m : Action ε σ α) : Prop := ∀ s, π (exec m s).2 = π s

variable {π : σ → τ}

theorem Frame.of_exec {m : Action ε σ α} (h : Frame π m) {s s' : σ} {r : Except ε α}
    (hm : exec m s = (r, s')) : π s' = π s := by
  have := h s
  rwa [hm] at this

/-- What leaves a view alone leaves everything read off that view alone. -/
theorem Frame.map {υ : Type} {m : Action ε σ α} (h : Frame π m) (f : τ → υ) :
    Frame (fun s => f (π s)) m := fun s => by
  show f (π (exec m s).2) = f (π s)
  rw [h s]

@[simp] theorem frame_pure (a : α) : Frame π (pure a : Action ε σ α) := fun _ => rfl

@[simp] theorem frame_throw (e : ε) : Frame π (throw e : Action ε σ α) := fun _ => rfl

@[simp] theorem frame_read (f : σ → α) : Frame π (read f : Action ε σ α) := fun _ => rfl

theorem frame_write {f : σ → σ} (h : ∀ s, π (f s) = π s) :
    Frame π (write f : Action ε σ Unit) := h

theorem frame_statement {f : σ → Except ε (α × σ)}
    (h : ∀ s a s', f s = .ok (a, s') → π s' = π s) : Frame π (statement f) := by
  intro s
  rw [exec_statement]
  rcases hf : f s with e | ⟨a, s'⟩
  · rfl
  · exact h s a s' hf

@[simp] theorem frame_bind {m : Action ε σ α} {f : α → Action ε σ β} (hm : Frame π m)
    (hf : ∀ a, Frame π (f a)) : Frame π (m >>= f) := by
  intro s
  rw [exec_bind]
  rcases he : exec m s with ⟨e | a, s₁⟩
  · exact hm.of_exec he
  · rw [hf a s₁, hm.of_exec he]

@[simp] theorem frame_ite {c : Prop} [Decidable c] {m n : Action ε σ α} (hm : Frame π m)
    (hn : Frame π n) : Frame π (if c then m else n) := by
  split
  · exact hm
  · exact hn

theorem frame_ensuring {body : Action ε σ α} {last : Action ε σ Unit} (hbody : Frame π body)
    (hlast : Frame π last) : Frame π (ensuring body last) := by
  intro s
  show π (match exec body s with
    | (r, s₁) => match exec last s₁ with
      | (.ok _, s₂) => (r, s₂)
      | (.error e, s₂) => (.error e, s₂)).2 = π s
  rcases hb : exec body s with ⟨r, s₁⟩
  dsimp only
  rcases hl : exec last s₁ with ⟨e | u, s₂⟩
  · exact (hlast.of_exec hl).trans (hbody.of_exec hb)
  · exact (hlast.of_exec hl).trans (hbody.of_exec hb)

theorem frame_tryCatch {m : Action ε σ α} {f : ε → Action ε σ α} (hm : Frame π m)
    (hf : ∀ e, Frame π (f e)) : Frame π (tryCatch m f) := by
  intro s
  rw [exec_tryCatch]
  rcases he : exec m s with ⟨e | a, s₁⟩
  · exact (hf e s₁).trans (hm.of_exec he)
  · exact hm.of_exec he

theorem frame_atomically {rollback : σ → σ → σ} {body : Action ε σ α} (h : Frame π body)
    (hr : ∀ s s', π (rollback s s') = π s) : Frame π (atomically rollback body) := by
  intro s
  rcases he : exec (atomically rollback body) s with ⟨e | a, s'⟩
  · obtain ⟨s₁, -, rfl⟩ := exec_atomically_error.mp he
    exact hr s s₁
  · exact h.of_exec (exec_atomically_ok.mp he)

/-! ### Returning -/

/-- `m` returns from `s`, with a value and in a state that `Q` holds of. -/
def Returns (m : Action ε σ α) (s : σ) (Q : α → σ → Prop) : Prop :=
  ∃ a s', exec m s = (.ok a, s') ∧ Q a s'

namespace Returns

variable {m : Action ε σ α} {f : α → Action ε σ β} {s : σ} {Q R : α → σ → Prop}
  {P : β → σ → Prop}

theorem imp (h : Returns m s Q) (hQR : ∀ a s', Q a s' → R a s') : Returns m s R := by
  obtain ⟨a, s', hm, hQ⟩ := h
  exact ⟨a, s', hm, hQR a s' hQ⟩

theorem bind (hm : Returns m s Q) (hf : ∀ a s', Q a s' → Returns (f a) s' P) :
    Returns (m >>= f) s P := by
  obtain ⟨a, s₁, hfirst, hQ⟩ := hm
  obtain ⟨b, s', hsecond, hP⟩ := hf a s₁ hQ
  exact ⟨b, s', exec_bind_ok.mpr ⟨a, s₁, hfirst, hsecond⟩, hP⟩

/-- The outcome of an action that returns. -/
theorem of_exec (h : Returns m s Q) {r : Except ε α} {s' : σ} (hm : exec m s = (r, s')) :
    ∃ a, r = .ok a ∧ Q a s' := by
  obtain ⟨a, s₁, hok, hQ⟩ := h
  rw [hok] at hm
  obtain ⟨rfl, rfl⟩ := Prod.mk.inj hm
  exact ⟨a, rfl, hQ⟩

/-- What holds whenever the action returns holds of the run that did. -/
theorem and_of_ok (h : Returns m s Q) (hR : ∀ a s', exec m s = (.ok a, s') → R a s') :
    Returns m s fun a s' => Q a s' ∧ R a s' := by
  obtain ⟨a, s', hm, hQ⟩ := h
  exact ⟨a, s', hm, hQ, hR a s' hm⟩

theorem and_frame (h : Returns m s Q) (hπ : Frame π m) :
    Returns m s fun a s' => Q a s' ∧ π s' = π s :=
  h.and_of_ok fun _ _ hm => hπ.of_exec hm

end Returns

variable {Q : α → σ → Prop} {s : σ}

theorem returns_pure {a : α} (h : Q a s) : Returns (pure a : Action ε σ α) s Q := ⟨a, s, rfl, h⟩

theorem returns_read {f : σ → α} (h : Q (f s) s) : Returns (read f : Action ε σ α) s Q :=
  ⟨f s, s, rfl, h⟩

theorem returns_write {f : σ → σ} {P : Unit → σ → Prop} (h : P () (f s)) :
    Returns (write f : Action ε σ Unit) s P := ⟨(), f s, rfl, h⟩

theorem returns_atomically {rollback : σ → σ → σ} {body : Action ε σ α} (h : Returns body s Q) :
    Returns (atomically rollback body) s Q := by
  obtain ⟨a, s', hbody, hQ⟩ := h
  exact ⟨a, s', exec_atomically_ok.mpr hbody, hQ⟩

/-! ### Throwing -/

/-- `m` throws from `s`, an error and in a state that `E` holds of. -/
def Throws (m : Action ε σ α) (s : σ) (E : ε → σ → Prop) : Prop :=
  ∃ e s', exec m s = (.error e, s') ∧ E e s'

variable {E F : ε → σ → Prop}

theorem throws_throw {e : ε} (h : E e s) : Throws (throw e : Action ε σ α) s E := ⟨e, s, rfl, h⟩

theorem Throws.imp {m : Action ε σ α} (h : Throws m s E) (hEF : ∀ e s', E e s' → F e s') :
    Throws m s F := by
  obtain ⟨e, s', hm, hE⟩ := h
  exact ⟨e, s', hm, hEF e s' hE⟩

/-- A sequence throws what its first part throws. -/
theorem Throws.bind {m : Action ε σ α} {f : α → Action ε σ β} (h : Throws m s E) :
    Throws (m >>= f) s E := by
  obtain ⟨e, s', hm, hE⟩ := h
  exact ⟨e, s', exec_bind_error.mpr (Or.inl hm), hE⟩

/-- A sequence whose first part returns throws what its second part throws. -/
theorem Returns.bind_throws {m : Action ε σ α} {f : α → Action ε σ β} (hm : Returns m s Q)
    (hf : ∀ a s', Q a s' → Throws (f a) s' E) : Throws (m >>= f) s E := by
  obtain ⟨a, s₁, hfirst, hQ⟩ := hm
  obtain ⟨e, s', hsecond, hE⟩ := hf a s₁ hQ
  exact ⟨e, s', exec_bind_error.mpr (Or.inr ⟨a, s₁, hfirst, hsecond⟩), hE⟩

/-- An action that returns does not throw. -/
theorem Returns.not_throws {m : Action ε σ α} (h : Returns m s Q) : ¬ Throws m s E := by
  rintro ⟨e, s', hthrow, -⟩
  obtain ⟨a, hok, -⟩ := h.of_exec hthrow
  cases hok

theorem returns_tryCatch {m : Action ε σ α} {f : ε → Action ε σ α} (h : Returns m s Q) :
    Returns (tryCatch m f) s Q := by
  obtain ⟨a, s', hm, hQ⟩ := h
  exact ⟨a, s', exec_tryCatch_ok.mpr (Or.inl hm), hQ⟩

/-- A handler that returns. -/
theorem Throws.catch_returns {m : Action ε σ α} {f : ε → Action ε σ α} (h : Throws m s E)
    (hf : ∀ e s', E e s' → Returns (f e) s' Q) : Returns (tryCatch m f) s Q := by
  obtain ⟨e, s₁, hm, hE⟩ := h
  obtain ⟨a, s', hhandler, hQ⟩ := hf e s₁ hE
  exact ⟨a, s', exec_tryCatch_ok.mpr (Or.inr ⟨e, s₁, hm, hhandler⟩), hQ⟩

/-- A handler that throws. -/
theorem Throws.catch_throws {m : Action ε σ α} {f : ε → Action ε σ α} (h : Throws m s E)
    (hf : ∀ e s', E e s' → Throws (f e) s' F) : Throws (tryCatch m f) s F := by
  obtain ⟨e, s₁, hm, hE⟩ := h
  obtain ⟨e', s', hhandler, hF⟩ := hf e s₁ hE
  refine ⟨e', s', ?_, hF⟩
  rw [exec_tryCatch, hm]
  exact hhandler

theorem throws_atomically {rollback : σ → σ → σ} {body : Action ε σ α}
    (h : Throws body s fun e s' => E e (rollback s s')) : Throws (atomically rollback body) s E := by
  obtain ⟨e, s', hbody, hE⟩ := h
  exact ⟨e, rollback s s', exec_atomically_error.mpr ⟨s', hbody, rfl⟩, hE⟩

/-! ### Errors -/

/-- Every error that `m` throws is one that `p` holds of. -/
def Fails (p : ε → Prop) (m : Action ε σ α) : Prop :=
  ∀ ⦃s : σ⦄ ⦃e : ε⦄ ⦃s' : σ⦄, exec m s = (.error e, s') → p e

section Fails

variable {p : ε → Prop}

theorem fails_pure (a : α) : Fails p (pure a : Action ε σ α) := by
  intro s e s' h
  simp at h

theorem fails_read (f : σ → α) : Fails p (read f : Action ε σ α) := by
  intro s e s' h
  simp at h

theorem fails_throw {e : ε} (he : p e) : Fails p (throw e : Action ε σ α) := by
  intro s e' s' h
  obtain rfl := Except.error.inj (Prod.mk.inj h).1
  exact he

theorem fails_bind {m : Action ε σ α} {f : α → Action ε σ β} (hm : Fails p m)
    (hf : ∀ a, Fails p (f a)) : Fails p (m >>= f) := by
  intro s e s' h
  rcases exec_bind_error.mp h with hfirst | ⟨a, s₁, -, hsecond⟩
  · exact hm hfirst
  · exact hf a hsecond

theorem fails_ite {c : Prop} [Decidable c] {m n : Action ε σ α} (hm : Fails p m) (hn : Fails p n) :
    Fails p (if c then m else n) := by
  split
  · exact hm
  · exact hn

theorem fails_atomically {rollback : σ → σ → σ} {body : Action ε σ α} (h : Fails p body) :
    Fails p (atomically rollback body) := by
  intro s e s' hexec
  obtain ⟨s₁, hbody, -⟩ := exec_atomically_error.mp hexec
  exact h hbody

end Fails

end Action

end Storage
