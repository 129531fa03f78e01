import MiniCoder.Auth.MaskedTexts

/-!
# Secrets that do not show

Two values that differ in their secrets only, and what is left of the difference in their redactions.
`redactObject` masks a string under the name of a secret, and goes on into an array or an object there.
`redact` masks a string in the text of a value up to its first quote.

* `redactObject_eq_iff`: which values `redactObject` takes for the same.
* `redactObject_eq_iff_secretsMasked`: which secrets it hides.
* `redact_stringify_eq`, `redact_stringify_eq_iff`: which secrets `redact` hides in a text.
* `secrets_hidden_iff`: both.
-/

open Regex
open Json hiding Text

namespace MiniCoder

variable {ν : Type}

/-! ### What `redactObject` keeps -/

mutual

/-- The same, but for what `redact` makes of strings, for strings under the name of a secret, and for
properties that are not kept. -/
def SameRedacted : Value ν → Value ν → Prop
  | .str s, .str s' => defaultRedactor.redact s = defaultRedactor.redact s'
  | .arr items, .arr items' => sameItems items items'
  | .obj entries, .obj entries' =>
    sameEntries entries (entries'.filter fun entry => entry.1 ≠ protoKey)
  | v, v' => v = v'

def sameItems : List (Value ν) → List (Value ν) → Prop
  | [], [] => True
  | v :: items, v' :: items' => SameRedacted v v' ∧ sameItems items items'
  | _, _ => False

def sameEntries : Entries ν → Entries ν → Prop
  | [], entries' => entries' = []
  | (key, v) :: entries, entries' =>
    if key = protoKey then sameEntries entries entries'
    else
      match entries' with
      | [] => False
      | (key', v') :: entries' => key = key' ∧
        (isSecretName key = true ∧ v.isStr = true ∧ v'.isStr = true ∨ SameRedacted v v') ∧
        sameEntries entries entries'

end

section Kept

variable {key : Text} {v v' : Value ν} {items items' : List (Value ν)} {entries entries' : Entries ν}

/-- The value of a property in a result. -/
def redactField (key : Text) (v : Value ν) : Value ν :=
  if v.isStr && isSecretName key then .str defaultReplacement else defaultRedactor.redactObject v

theorem redactEntries_cons : defaultRedactor.redactEntries ((key, v) :: entries) =
    (key, redactField key v) :: defaultRedactor.redactEntries entries := rfl

theorem isStr_redactObject (v : Value ν) : (defaultRedactor.redactObject v).isStr = v.isStr := by
  cases v <;> rfl

theorem map_fst_redactEntries (entries : Entries ν) :
    (defaultRedactor.redactEntries entries).map Prod.fst = entries.map Prod.fst := by
  induction entries with
  | nil => rfl
  | cons entry entries ih =>
    rw [redactEntries_cons, List.map_cons, ih]
    rfl

theorem filter_redactEntries (entries : Entries ν) :
    (defaultRedactor.redactEntries entries).filter (fun entry => entry.1 ≠ protoKey) =
      defaultRedactor.redactEntries (entries.filter fun entry => entry.1 ≠ protoKey) := by
  induction entries with
  | nil => rfl
  | cons entry entries ih =>
    obtain ⟨key, v⟩ := entry
    rw [redactEntries_cons]
    by_cases hkey : key = protoKey
    · rw [List.filter_cons_of_neg (by simp [hkey]), List.filter_cons_of_neg (by simp [hkey]), ih]
    · rw [List.filter_cons_of_pos (by simp [hkey]), List.filter_cons_of_pos (by simp [hkey]), ih,
        redactEntries_cons]

/-- The result of an object. -/
theorem redactObject_obj (h : InOrder entries) : defaultRedactor.redactObject (.obj entries) =
    .obj (defaultRedactor.redactEntries (entries.filter fun entry => entry.1 ≠ protoKey)) := by
  have horder : InOrder (defaultRedactor.redactEntries entries) := by
    unfold InOrder at h ⊢
    rw [← List.pairwise_map (f := Prod.fst) (R := Precedes)] at h ⊢
    rwa [map_fst_redactEntries]
  rw [SecretRedactor.redactObject, assignAll_of_inOrder horder, filter_redactEntries]

/-- Two fields have the same result. -/
theorem redactField_eq_iff
    (ih : defaultRedactor.redactObject v = defaultRedactor.redactObject v' ↔ SameRedacted v v') :
    redactField key v = redactField key v' ↔
      isSecretName key = true ∧ v.isStr = true ∧ v'.isStr = true ∨ SameRedacted v v' := by
  have hstr := isStr_redactObject v
  have hstr' := isStr_redactObject v'
  rw [← ih]
  unfold redactField
  by_cases hkey : isSecretName key = true
  · rcases hv : v.isStr with _ | _
    · rcases hv' : v'.isStr with _ | _
      · simp
      · -- a string and another value
        rw [hv] at hstr
        rw [hv'] at hstr'
        have hne : defaultRedactor.redactObject v ≠ defaultRedactor.redactObject v' := by
          intro heq
          rw [heq, hstr'] at hstr
          cases hstr
        have hmask : defaultRedactor.redactObject v ≠ .str defaultReplacement := by
          intro heq
          rw [heq] at hstr
          cases hstr
        simp [hkey, hne, hmask]
    · rcases hv' : v'.isStr with _ | _
      · rw [hv] at hstr
        rw [hv'] at hstr'
        have hne : defaultRedactor.redactObject v ≠ defaultRedactor.redactObject v' := by
          intro heq
          rw [heq, hstr'] at hstr
          cases hstr
        have hmask : .str defaultReplacement ≠ defaultRedactor.redactObject v' := by
          intro heq
          rw [← heq] at hstr'
          cases hstr'
        simp [hkey, hne, hmask]
      · simp [hkey]
  · simp [hkey]

theorem sameEntries_proto (h : key = protoKey) :
    sameEntries ((key, v) :: entries) entries' ↔ sameEntries entries entries' := by
  rw [sameEntries.eq_def]
  simp [h]

theorem sameEntries_cons {key' : Text} (h : key ≠ protoKey) :
    sameEntries ((key, v) :: entries) ((key', v') :: entries') ↔ key = key' ∧
      (isSecretName key = true ∧ v.isStr = true ∧ v'.isStr = true ∨ SameRedacted v v') ∧
      sameEntries entries entries' := by
  rw [sameEntries.eq_def]
  simp only [if_neg h]

theorem redactItems_eq_iff (ih : ∀ v ∈ items, ∀ v' : Value ν, v.Ordered → v'.Ordered →
      (defaultRedactor.redactObject v = defaultRedactor.redactObject v' ↔ SameRedacted v v'))
    (h : ∀ v ∈ items, v.Ordered) (h' : ∀ v ∈ items', v.Ordered) :
    defaultRedactor.redactItems items = defaultRedactor.redactItems items' ↔
      sameItems items items' := by
  induction items generalizing items' with
  | nil => cases items' <;> simp [SecretRedactor.redactItems, sameItems]
  | cons v items ihs =>
    cases items' with
    | nil => simp [SecretRedactor.redactItems, sameItems]
    | cons v' items' =>
      have hv := ih v List.mem_cons_self v' (h v List.mem_cons_self) (h' v' List.mem_cons_self)
      have hitems := ihs (fun w hw => ih w (List.mem_cons_of_mem _ hw))
        (fun w hw => h w (List.mem_cons_of_mem _ hw)) fun w hw => h' w (List.mem_cons_of_mem _ hw)
      rw [SecretRedactor.redactItems, SecretRedactor.redactItems, sameItems, List.cons.injEq, hv,
        hitems]

/-- The properties of two results, where those of the second one are kept. -/
theorem redactEntries_eq_iff (ih : ∀ entry ∈ entries, ∀ v' : Value ν, entry.2.Ordered → v'.Ordered →
      (defaultRedactor.redactObject entry.2 = defaultRedactor.redactObject v' ↔
        SameRedacted entry.2 v'))
    (h : ∀ entry ∈ entries, entry.2.Ordered) (h' : ∀ entry ∈ entries', entry.2.Ordered) :
    defaultRedactor.redactEntries (entries.filter fun entry => entry.1 ≠ protoKey) =
        defaultRedactor.redactEntries entries' ↔ sameEntries entries entries' := by
  induction entries generalizing entries' with
  | nil => cases entries' <;> simp [SecretRedactor.redactEntries, sameEntries]
  | cons entry entries ihs =>
    obtain ⟨key, v⟩ := entry
    have hmore := fun entries' => @ihs entries' (fun w hw => ih w (List.mem_cons_of_mem _ hw))
      fun w hw => h w (List.mem_cons_of_mem _ hw)
    by_cases hkey : key = protoKey
    · rw [List.filter_cons_of_neg (by simp [hkey]), sameEntries_proto hkey, hmore entries' h']
    · rw [List.filter_cons_of_pos (by simp [hkey]), redactEntries_cons]
      cases entries' with
      | nil => simp [SecretRedactor.redactEntries, sameEntries.eq_def, hkey]
      | cons entry' entries' =>
        obtain ⟨key', v'⟩ := entry'
        have hv := ih _ List.mem_cons_self v' (h _ List.mem_cons_self) (h' _ List.mem_cons_self)
        have hentries := hmore entries' fun w hw => h' w (List.mem_cons_of_mem _ hw)
        rw [redactEntries_cons, List.cons.injEq, Prod.mk.injEq, hentries, sameEntries_cons hkey]
        constructor
        · rintro ⟨⟨rfl, hfield⟩, hrest⟩
          exact ⟨rfl, (redactField_eq_iff hv).mp hfield, hrest⟩
        · rintro ⟨rfl, hfield, hrest⟩
          exact ⟨⟨rfl, (redactField_eq_iff hv).mpr hfield⟩, hrest⟩

/-- **Which values `redactObject` takes for the same.** -/
theorem redactObject_eq_iff (v : Value ν) : ∀ v' : Value ν, v.Ordered → v'.Ordered →
    (defaultRedactor.redactObject v = defaultRedactor.redactObject v' ↔ SameRedacted v v') := by
  induction v using Value.induct with
  | null =>
    intro v' _ _
    cases v' <;> simp [SecretRedactor.redactObject, SameRedacted]
  | bool b =>
    intro v' _ _
    cases v' <;> simp [SecretRedactor.redactObject, SameRedacted]
  | num n =>
    intro v' _ _
    cases v' <;> simp [SecretRedactor.redactObject, SameRedacted]
  | str s =>
    intro v' _ _
    cases v' <;> simp [SecretRedactor.redactObject, SameRedacted]
  | arr items ih =>
    intro v' h h'
    cases v' with
    | arr items' =>
      rw [SecretRedactor.redactObject, SecretRedactor.redactObject, Value.arr.injEq, SameRedacted]
      exact redactItems_eq_iff ih (orderedItems_iff.mp h) (orderedItems_iff.mp h')
    | null => simp [SecretRedactor.redactObject, SameRedacted]
    | bool b => simp [SecretRedactor.redactObject, SameRedacted]
    | num n => simp [SecretRedactor.redactObject, SameRedacted]
    | str s => simp [SecretRedactor.redactObject, SameRedacted]
    | obj entries => simp [SecretRedactor.redactObject, SameRedacted]
  | obj entries ih =>
    intro v' h h'
    cases v' with
    | obj entries' =>
      rw [redactObject_obj h.1, redactObject_obj h'.1, Value.obj.injEq, SameRedacted]
      refine redactEntries_eq_iff ih (orderedEntries_iff.mp h.2) fun entry hentry => ?_
      exact orderedEntries_iff.mp h'.2 entry (List.mem_of_mem_filter hentry)
    | null => simp [SecretRedactor.redactObject, SameRedacted]
    | bool b => simp [SecretRedactor.redactObject, SameRedacted]
    | num n => simp [SecretRedactor.redactObject, SameRedacted]
    | str s => simp [SecretRedactor.redactObject, SameRedacted]
    | arr items => simp [SecretRedactor.redactObject, SameRedacted]

end Kept

/-! ### The secrets of objects -/

/-- They differ only in the values under the names of secrets. -/
def OnlySecretsDiffer (v v' : Value ν) : Prop :=
  v.AgreeUpTo (fun key _ _ => isSecretName key = true) v'

/-- Where a secret differs, it is a string in both of them, or what differs in it is masked. -/
def SecretsMasked (v v' : Value ν) : Prop :=
  v.AgreeUpTo (fun key w w' => key = protoKey ∨ isSecretName key = true ∧
    (w.isStr = true ∧ w'.isStr = true ∨ SameRedacted w w')) v'

section Secrets

variable {v v' : Value ν} {items items' : List (Value ν)} {entries entries' : Entries ν}

/-- Masked secrets are hidden. -/
theorem redactObject_eq_of_secretsMasked (v : Value ν) : ∀ v' : Value ν, v.Ordered → v'.Ordered →
    SecretsMasked v v' → defaultRedactor.redactObject v = defaultRedactor.redactObject v' := by
  unfold SecretsMasked
  induction v using Value.induct with
  | null => exact fun v' _ _ h => congrArg _ h
  | bool b => exact fun v' _ _ h => congrArg _ h
  | num n => exact fun v' _ _ h => congrArg _ h
  | str s => exact fun v' _ _ h => congrArg _ h
  | arr items ih =>
    intro v' h h' hagree
    cases v' with
    | arr items' =>
      rw [SecretRedactor.redactObject, SecretRedactor.redactObject, Value.arr.injEq]
      replace h := orderedItems_iff.mp h
      replace h' := orderedItems_iff.mp h'
      rw [Value.AgreeUpTo] at hagree
      induction items generalizing items' with
      | nil =>
        cases items' with
        | nil => rfl
        | cons v' items' => cases hagree
      | cons v items ihs =>
        cases items' with
        | nil => cases hagree
        | cons v' items' =>
          have hv := ih v List.mem_cons_self v' (h v List.mem_cons_self) (h' v' List.mem_cons_self)
            hagree.1
          have hitems := ihs (fun w hw => ih w (List.mem_cons_of_mem _ hw)) items'
            hagree.2 (fun w hw => h w (List.mem_cons_of_mem _ hw))
            fun w hw => h' w (List.mem_cons_of_mem _ hw)
          rw [SecretRedactor.redactItems, SecretRedactor.redactItems, hv, hitems]
    | null => cases hagree
    | bool b => cases hagree
    | num n => cases hagree
    | str s => cases hagree
    | obj entries => cases hagree
  | obj entries ih =>
    intro v' h h' hagree
    cases v' with
    | obj entries' =>
      rw [redactObject_obj h.1, redactObject_obj h'.1, Value.obj.injEq]
      replace h := orderedEntries_iff.mp h.2
      replace h' := orderedEntries_iff.mp h'.2
      rw [Value.AgreeUpTo] at hagree
      induction entries generalizing entries' with
      | nil =>
        cases entries' with
        | nil => rfl
        | cons entry' entries' => cases hagree
      | cons entry entries ihs =>
        cases entries' with
        | nil => cases hagree
        | cons entry' entries' =>
          obtain ⟨key, v⟩ := entry
          obtain ⟨key', v'⟩ := entry'
          obtain ⟨rfl, hfield, hmore⟩ := hagree
          have hv := h _ List.mem_cons_self
          have hv' := h' _ List.mem_cons_self
          have hentries := ihs (fun w hw => ih w (List.mem_cons_of_mem _ hw)) entries'
            hmore (fun w hw => h w (List.mem_cons_of_mem _ hw))
            fun w hw => h' w (List.mem_cons_of_mem _ hw)
          by_cases hkey : key = protoKey
          · rw [List.filter_cons_of_neg (by simp [hkey]), List.filter_cons_of_neg (by simp [hkey]),
              hentries]
          · rw [List.filter_cons_of_pos (by simp [hkey]), List.filter_cons_of_pos (by simp [hkey]),
              redactEntries_cons, redactEntries_cons, hentries]
            have hsame : redactField key v = redactField key v' := by
              rw [redactField_eq_iff (redactObject_eq_iff v v' hv hv')]
              rcases hfield with (hproto | ⟨hsecret, hboth | hsame⟩) | hagree
              · exact absurd hproto hkey
              · exact Or.inl ⟨hsecret, hboth⟩
              · exact Or.inr hsame
              · have heq := ih _ List.mem_cons_self v' hv hv' hagree
                exact Or.inr ((redactObject_eq_iff v v' hv hv').mp heq)
            rw [hsame]
    | null => cases hagree
    | bool b => cases hagree
    | num n => cases hagree
    | str s => cases hagree
    | arr items => cases hagree

/-- Hidden secrets are masked. -/
theorem secretsMasked_of_redactObject_eq (v : Value ν) : ∀ v' : Value ν, v.Ordered → v'.Ordered →
    OnlySecretsDiffer v v' → defaultRedactor.redactObject v = defaultRedactor.redactObject v' →
    SecretsMasked v v' := by
  unfold SecretsMasked OnlySecretsDiffer
  induction v using Value.induct with
  | null => exact fun v' _ _ h _ => h
  | bool b => exact fun v' _ _ h _ => h
  | num n => exact fun v' _ _ h _ => h
  | str s => exact fun v' _ _ h _ => h
  | arr items ih =>
    intro v' h h' hagree heq
    cases v' with
    | arr items' =>
      rw [SecretRedactor.redactObject, SecretRedactor.redactObject, Value.arr.injEq] at heq
      replace h := orderedItems_iff.mp h
      replace h' := orderedItems_iff.mp h'
      rw [Value.AgreeUpTo] at hagree ⊢
      induction items generalizing items' with
      | nil =>
        cases items' with
        | nil => trivial
        | cons v' items' => cases hagree
      | cons v items ihs =>
        cases items' with
        | nil => cases hagree
        | cons v' items' =>
          rw [SecretRedactor.redactItems, SecretRedactor.redactItems, List.cons.injEq] at heq
          refine ⟨ih v List.mem_cons_self v' (h v List.mem_cons_self) (h' v' List.mem_cons_self)
            hagree.1 heq.1, ?_⟩
          exact ihs (fun w hw => ih w (List.mem_cons_of_mem _ hw)) items' hagree.2 heq.2
            (fun w hw => h w (List.mem_cons_of_mem _ hw)) fun w hw => h' w (List.mem_cons_of_mem _ hw)
    | null => cases hagree
    | bool b => cases hagree
    | num n => cases hagree
    | str s => cases hagree
    | obj entries => cases hagree
  | obj entries ih =>
    intro v' h h' hagree heq
    cases v' with
    | obj entries' =>
      rw [redactObject_obj h.1, redactObject_obj h'.1, Value.obj.injEq] at heq
      replace h := orderedEntries_iff.mp h.2
      replace h' := orderedEntries_iff.mp h'.2
      rw [Value.AgreeUpTo] at hagree ⊢
      induction entries generalizing entries' with
      | nil =>
        cases entries' with
        | nil => trivial
        | cons entry' entries' => cases hagree
      | cons entry entries ihs =>
        cases entries' with
        | nil => cases hagree
        | cons entry' entries' =>
          obtain ⟨key, v⟩ := entry
          obtain ⟨key', v'⟩ := entry'
          obtain ⟨rfl, hfield, hmore⟩ := hagree
          have hv := h _ List.mem_cons_self
          have hv' := h' _ List.mem_cons_self
          have hentries := fun heq => ihs (fun w hw => ih w (List.mem_cons_of_mem _ hw)) entries' hmore
            heq (fun w hw => h w (List.mem_cons_of_mem _ hw))
            fun w hw => h' w (List.mem_cons_of_mem _ hw)
          by_cases hkey : key = protoKey
          · rw [List.filter_cons_of_neg (by simp [hkey]), List.filter_cons_of_neg (by simp [hkey])]
              at heq
            exact ⟨rfl, Or.inl (Or.inl hkey), hentries heq⟩
          · rw [List.filter_cons_of_pos (by simp [hkey]), List.filter_cons_of_pos (by simp [hkey]),
              redactEntries_cons, redactEntries_cons, List.cons.injEq, Prod.mk.injEq] at heq
            refine ⟨rfl, ?_, hentries heq.2⟩
            by_cases hsecret : isSecretName key = true
            · have hsame := (redactField_eq_iff (redactObject_eq_iff v v' hv hv')).mp heq.1.2
              exact Or.inl (Or.inr ⟨hsecret, hsame.imp_left And.right⟩)
            · have hagree := hfield.resolve_left hsecret
              refine Or.inr (ih _ List.mem_cons_self v' hv hv' hagree ?_)
              simpa [redactField, hsecret] using heq.1.2
    | null => cases hagree
    | bool b => cases hagree
    | num n => cases hagree
    | str s => cases hagree
    | arr items => cases hagree

/-- **Which secrets `redactObject` hides.** -/
theorem redactObject_eq_iff_secretsMasked (h : v.Ordered) (h' : v'.Ordered)
    (hagree : OnlySecretsDiffer v v') :
    defaultRedactor.redactObject v = defaultRedactor.redactObject v' ↔ SecretsMasked v v' :=
  ⟨secretsMasked_of_redactObject_eq v v' h h' hagree, redactObject_eq_of_secretsMasked v v' h h'⟩

end Secrets

/-! ### The secrets of texts -/

/-- They differ only in strings under the fields of the first rule. -/
def OnlyFieldsDiffer (v v' : Value ν) : Prop :=
  v.AgreeUpTo (fun key w w' => isFieldName key = true ∧ w.isStr = true ∧ w'.isStr = true) v'

/-- Where such a string differs, both have the same behind their first quotes, or both have no quote. -/
def SameBehindQuotes (v v' : Value ν) : Prop :=
  v.AgreeUpTo (fun key w w' => isFieldName key = true ∧
    ∃ s s', w = .str s ∧ w' = .str s' ∧ behindQuote s = behindQuote s') v'

section Texts

variable {key : Text} {v v' : Value ν}

theorem secret?_of_not_isStr (h : v.isStr = false) : secret? key v = none := by
  cases v with
  | str s => cases h
  | null => rfl
  | bool b => rfl
  | num n => rfl
  | arr items => rfl
  | obj entries => rfl

/-- A field stands behind its own name. -/
theorem secret?_of_isFieldName {s : Text} (h : isFieldName key = true) :
    secret? key (.str s : Value ν) = some (maskedSecret s) := by
  have hlast : lastName key = key := lastName_of_not_mem (quote_not_mem_of_isFieldName h)
  simp only [secret?, hlast, h, if_true]

variable [Numbers ν]

/-- **What stands behind the first quotes decides.** -/
theorem maskedText_eq_of_sameBehindQuotes (v : Value ν) :
    ∀ v' : Value ν, SameBehindQuotes v v' → maskedText v = maskedText v' := by
  unfold SameBehindQuotes
  induction v using Value.induct with
  | null => exact fun v' h => congrArg _ h
  | bool b => exact fun v' h => congrArg _ h
  | num n => exact fun v' h => congrArg _ h
  | str s => exact fun v' h => congrArg _ h
  | arr items ih =>
    intro v' hagree
    cases v' with
    | arr items' =>
      have hitems : maskedItems items = maskedItems items' := by
        rw [Value.AgreeUpTo] at hagree
        induction items generalizing items' with
        | nil =>
          cases items' with
          | nil => rfl
          | cons v' items' => cases hagree
        | cons v items ihs =>
          cases items' with
          | nil => cases hagree
          | cons v' items' =>
            have hv := ih v List.mem_cons_self v' hagree.1
            have hmore := ihs (fun w hw => ih w (List.mem_cons_of_mem _ hw)) items' hagree.2
            rw [maskedItems, maskedItems, hv, hmore]
      rw [maskedText, maskedText, hitems]
    | null => cases hagree
    | bool b => cases hagree
    | num n => cases hagree
    | str s => cases hagree
    | obj entries => cases hagree
  | obj entries ih =>
    intro v' hagree
    cases v' with
    | obj entries' =>
      have hentries : maskedEntries entries = maskedEntries entries' := by
        rw [Value.AgreeUpTo] at hagree
        induction entries generalizing entries' with
        | nil =>
          cases entries' with
          | nil => rfl
          | cons entry' entries' => cases hagree
        | cons entry entries ihs =>
          cases entries' with
          | nil => cases hagree
          | cons entry' entries' =>
            obtain ⟨key, v⟩ := entry
            obtain ⟨key', v'⟩ := entry'
            obtain ⟨rfl, hfield, hmore⟩ := hagree
            have hsame : (secret? key v).getD (maskedText v) = (secret? key v').getD (maskedText v') := by
              rcases hfield with ⟨hname, s, s', rfl, rfl, hbehind⟩ | hagree
              · rw [secret?_of_isFieldName hname, secret?_of_isFieldName hname, Option.getD_some,
                  Option.getD_some]
                unfold maskedSecret
                rw [hbehind]
              · rcases hstr : v.isStr with _ | _
                · have hstr' : v'.isStr = false := by rw [← hagree.isStr_eq, hstr]
                  rw [secret?_of_not_isStr hstr, secret?_of_not_isStr hstr']
                  exact ih _ List.mem_cons_self v' hagree
                · cases v with
                  | str s => rw [hagree.eq_of_str]
                  | null => cases hstr
                  | bool b => cases hstr
                  | num n => cases hstr
                  | arr items => cases hstr
                  | obj entries => cases hstr
            have hentries := ihs (fun w hw => ih w (List.mem_cons_of_mem _ hw)) entries' hmore
            rw [maskedEntries, maskedEntries, hsame, hentries]
      rw [maskedText, maskedText, hentries]
    | null => cases hagree
    | bool b => cases hagree
    | num n => cases hagree
    | str s => cases hagree
    | arr items => cases hagree

/-- **Secrets that are the same behind their first quotes are hidden in the text.** -/
theorem redact_stringify_eq (h : SameBehindQuotes v v') :
    defaultRedactor.redact (stringify v) = defaultRedactor.redact (stringify v') := by
  rw [redact_eq, redact_eq, replace_stringify, replace_stringify,
    maskedText_eq_of_sameBehindQuotes v v' h]

end Texts

/-! ### Secrets that show -/

/-- The white space of a text. -/
def blanks (text : Text) : ℕ := text.countP isWhiteSpace

theorem isWhiteSpace_of_isTokenText {c : Char} (h : isTokenText c = true) : isWhiteSpace c = false := by
  have hbounds : 45 ≤ c.toNat ∧ c.toNat ≤ 122 := by
    simp only [isTokenText, Char.isAlphanum, isAlpha_iff, Char.isDigit, Bool.or_eq_true,
      Bool.and_eq_true, decide_eq_true_eq] at h
    rcases h with (((hupper | hlower) | hdigit) | rfl) | rfl
    · have hnat := toNat_of_isUpper hupper
      omega
    · have hnat := toNat_of_isLower hlower
      omega
    · have hnat : 48 ≤ c.toNat ∧ c.toNat ≤ 57 := hdigit
      omega
    · decide
    · decide
  exact isWhiteSpace_of_printed (by omega) (by omega)

/-- **Behind the first rule, no white space comes or goes.** -/
theorem blanks_redact (s : Text) :
    blanks (defaultRedactor.redact s) = blanks (fieldRule.replace s) := by
  have hreplacement : defaultReplacement.countP isWhiteSpace = 0 := by decide
  have hkind : ∀ (kind : TokenKind) (s : Text), blanks (kind.rule.replace s) = blanks s := by
    intro kind s
    refine Rule.countP_replaceFrom fun prev text group hidden rest hmatch => ?_
    obtain ⟨-, -, htoken, -⟩ := TokenKind.match_iff.mp hmatch
    have hnone : hidden.countP isWhiteSpace = 0 := by
      rw [List.countP_eq_zero]
      intro c hc
      rw [isWhiteSpace_of_isTokenText (htoken.isTokenText c hc)]
      exact Bool.false_ne_true
    exact hnone.trans hreplacement.symm
  have hbearer : ∀ s : Text, blanks (bearerRule.replace s) = blanks s := by
    intro s
    refine Rule.countP_replaceFrom fun prev text group hidden rest hmatch => ?_
    obtain ⟨first, more, rfl, ⟨-, hall⟩, rfl⟩ := hmatch.hidden_takes
    have hnone : (first ++ []).countP isWhiteSpace = 0 := by
      rw [List.append_nil, List.countP_eq_zero]
      intro c hc
      simpa using hall c hc
    exact hnone.trans hreplacement.symm
  have hmask : ∀ (kinds : List TokenKind) (s : Text),
      blanks (kinds.foldl (fun result kind => kind.rule.replace result) s) = blanks s := by
    intro kinds
    induction kinds with
    | nil => exact fun _ => rfl
    | cons kind kinds ih =>
      intro s
      rw [List.foldl_cons, ih, hkind]
  rw [redact_eq, hbearer]
  exact hmask tokenKinds _

mutual

/-- Every string under a field of the first rule is set. -/
def fillFields (secret : Text) : Value ν → Value ν
  | .arr items => .arr (fillItems secret items)
  | .obj entries => .obj (fillEntries secret entries)
  | v => v

def fillItems (secret : Text) : List (Value ν) → List (Value ν)
  | [] => []
  | v :: items => fillFields secret v :: fillItems secret items

def fillEntries (secret : Text) : Entries ν → Entries ν
  | [] => []
  | (key, v) :: entries =>
    (key, if isFieldName key && v.isStr then .str secret else fillFields secret v) ::
      fillEntries secret entries

end

mutual

/-- The strings under the fields of the first rule. -/
def fieldStrings : Value ν → ℕ
  | .arr items => itemStrings items
  | .obj entries => entryStrings entries
  | _ => 0

def itemStrings : List (Value ν) → ℕ
  | [] => 0
  | v :: items => fieldStrings v + itemStrings items

def entryStrings : Entries ν → ℕ
  | [] => 0
  | (key, v) :: entries =>
    (if isFieldName key && v.isStr then 1 else fieldStrings v) + entryStrings entries

end

section Showing

variable {v v' : Value ν}

theorem isStr_fillFields (secret : Text) (v : Value ν) : (fillFields secret v).isStr = v.isStr := by
  cases v <;> rfl

/-- What is set differs in nothing else. -/
theorem onlyFieldsDiffer_fillFields (secret : Text) (v : Value ν) :
    OnlyFieldsDiffer v (fillFields secret v) := by
  unfold OnlyFieldsDiffer
  induction v using Value.induct with
  | null => rfl
  | bool b => rfl
  | num n => rfl
  | str s => rfl
  | arr items ih =>
    rw [fillFields, Value.AgreeUpTo]
    induction items with
    | nil => trivial
    | cons v items ihs =>
      exact ⟨ih v List.mem_cons_self, ihs fun w hw => ih w (List.mem_cons_of_mem _ hw)⟩
  | obj entries ih =>
    rw [fillFields, Value.AgreeUpTo]
    induction entries with
    | nil => trivial
    | cons entry entries ihs =>
      obtain ⟨key, v⟩ := entry
      refine ⟨rfl, ?_, ihs fun w hw => ih w (List.mem_cons_of_mem _ hw)⟩
      by_cases hfield : (isFieldName key && v.isStr) = true
      · rw [if_pos hfield]
        rw [Bool.and_eq_true] at hfield
        exact Or.inl ⟨hfield.1, hfield.2, rfl⟩
      · rw [if_neg hfield]
        exact Or.inr (ih _ List.mem_cons_self)

/-- Without such a string there is nothing to differ in. -/
theorem eq_of_onlyFieldsDiffer (v : Value ν) : ∀ v' : Value ν, fieldStrings v = 0 →
    OnlyFieldsDiffer v v' → v = v' := by
  unfold OnlyFieldsDiffer
  induction v using Value.induct with
  | null => exact fun v' _ h => h
  | bool b => exact fun v' _ h => h
  | num n => exact fun v' _ h => h
  | str s => exact fun v' _ h => h
  | arr items ih =>
    intro v' hnone hagree
    cases v' with
    | arr items' =>
      congr 1
      rw [fieldStrings] at hnone
      rw [Value.AgreeUpTo] at hagree
      induction items generalizing items' with
      | nil =>
        cases items' with
        | nil => rfl
        | cons v' items' => cases hagree
      | cons v items ihs =>
        cases items' with
        | nil => cases hagree
        | cons v' items' =>
          rw [itemStrings, Nat.add_eq_zero_iff] at hnone
          rw [ih v List.mem_cons_self v' hnone.1 hagree.1,
            ihs (fun w hw => ih w (List.mem_cons_of_mem _ hw)) hnone.2 items' hagree.2]
    | null => cases hagree
    | bool b => cases hagree
    | num n => cases hagree
    | str s => cases hagree
    | obj entries => cases hagree
  | obj entries ih =>
    intro v' hnone hagree
    cases v' with
    | obj entries' =>
      congr 1
      rw [fieldStrings] at hnone
      rw [Value.AgreeUpTo] at hagree
      induction entries generalizing entries' with
      | nil =>
        cases entries' with
        | nil => rfl
        | cons entry' entries' => cases hagree
      | cons entry entries ihs =>
        cases entries' with
        | nil => cases hagree
        | cons entry' entries' =>
          obtain ⟨key, v⟩ := entry
          obtain ⟨key', v'⟩ := entry'
          obtain ⟨rfl, hfield, hmore⟩ := hagree
          rw [entryStrings, Nat.add_eq_zero_iff] at hnone
          have hnot : ¬ (isFieldName key && v.isStr) = true := by
            intro hboth
            rw [if_pos hboth] at hnone
            exact absurd hnone.1 (by decide)
          rw [if_neg hnot] at hnone
          have hagree := hfield.resolve_left fun hboth => hnot (by simp [hboth.1, hboth.2.1])
          have hv : v = v' := ih _ List.mem_cons_self v' hnone.1 hagree
          rw [hv, ihs (fun w hw => ih w (List.mem_cons_of_mem _ hw)) hnone.2 entries' hmore]
    | null => cases hagree
    | bool b => cases hagree
    | num n => cases hagree
    | str s => cases hagree
    | arr items => cases hagree

variable [Numbers ν]

/-- A quote, and spaces behind it. -/
def showing (spaces : ℕ) : Text := '"' :: List.replicate spaces ' '

theorem blanks_maskedSecret (spaces : ℕ) :
    blanks (maskedSecret (showing spaces)) = spaces := by
  have hescaped : (List.replicate spaces ' ').flatMap escape = List.replicate spaces ' ' := by
    induction spaces with
    | zero => rfl
    | succ spaces ih =>
      have hspace : escape ' ' = [' '] := by decide
      rw [List.replicate_succ, List.flatMap_cons, ih, hspace]
      rfl
  have hbehind : behindQuote (showing spaces) = some (List.replicate spaces ' ') :=
    @behindQuote_append [] (List.replicate spaces ' ') List.not_mem_nil
  have hreplacement : blanks ('"' :: (defaultReplacement ++ ['"'])) = 0 := by decide
  unfold maskedSecret
  rw [hbehind, Option.elim_some, hescaped]
  have hsplit : '"' :: (defaultReplacement ++ '"' :: (List.replicate spaces ' ' ++ ['"'])) =
      '"' :: (defaultReplacement ++ ['"']) ++ (List.replicate spaces ' ' ++ ['"']) := by simp
  have hspace : isWhiteSpace ' ' = true := by decide
  have hquote : isWhiteSpace '"' = false := by decide
  rw [hsplit]
  unfold blanks at hreplacement ⊢
  rw [List.countP_append, hreplacement, List.countP_append, List.countP_replicate]
  simp [hspace, hquote]

theorem blanks_intercalate_cons (text : Text) (texts : List Text) :
    blanks ([','].intercalate (text :: texts)) = blanks text + blanks ([','].intercalate texts) := by
  have hcomma : isWhiteSpace ',' = false := by decide
  cases texts with
  | nil =>
    rw [List.intercalate_singleton]
    rfl
  | cons text' texts =>
    unfold blanks
    rw [List.intercalate_cons_cons, List.countP_append, List.countP_append]
    simp [hcomma]

/-- **The white space behind a quote shows.** -/
theorem blanks_maskedText_fillFields (spaces : ℕ) (v : Value ν) :
    blanks (maskedText (fillFields (showing spaces) v)) =
      blanks (maskedText (fillFields (showing 0) v)) + fieldStrings v * spaces := by
  have hbrackets : ∀ (c d : Char) (text : Text), isWhiteSpace c = false → isWhiteSpace d = false →
      blanks (c :: (text ++ [d])) = blanks text := by
    intro c d text hc hd
    simp [blanks, hc, hd]
  induction v using Value.induct with
  | null => simp [fillFields, fieldStrings]
  | bool b => simp [fillFields, fieldStrings]
  | num n => simp [fillFields, fieldStrings]
  | str s => simp [fillFields, fieldStrings]
  | arr items ih =>
    rw [fillFields, fillFields, maskedText, maskedText, hbrackets _ _ _ (by decide) (by decide),
      hbrackets _ _ _ (by decide) (by decide), fieldStrings]
    induction items with
    | nil => simp [fillItems, itemStrings]
    | cons v items ihs =>
      have hv := ih v List.mem_cons_self
      have hitems := ihs fun w hw => ih w (List.mem_cons_of_mem _ hw)
      rw [fillItems, fillItems, maskedItems, maskedItems, blanks_intercalate_cons,
        blanks_intercalate_cons, hv, hitems, itemStrings, Nat.add_mul]
      omega
  | obj entries ih =>
    rw [fillFields, fillFields, maskedText, maskedText, hbrackets _ _ _ (by decide) (by decide),
      hbrackets _ _ _ (by decide) (by decide), fieldStrings]
    induction entries with
    | nil => simp [fillEntries, entryStrings]
    | cons entry entries ihs =>
      obtain ⟨key, v⟩ := entry
      have hv : blanks (maskedText (fillFields (showing spaces) v)) =
          blanks (maskedText (fillFields (showing 0) v)) + fieldStrings v * spaces :=
        ih _ List.mem_cons_self
      have hentries := ihs fun w hw => ih w (List.mem_cons_of_mem _ hw)
      have hkey : ∀ text : Text, blanks (quote key ++ ':' :: text) = blanks (quote key) + blanks text := by
        have hcolon : isWhiteSpace ':' = false := by decide
        intro text
        unfold blanks
        rw [List.countP_append, List.countP_cons_of_neg (by simp [hcolon])]
      rw [fillEntries, fillEntries, maskedEntries, maskedEntries, blanks_intercalate_cons,
        blanks_intercalate_cons, hentries, hkey, hkey, entryStrings, Nat.add_mul]
      by_cases hfield : (isFieldName key && v.isStr) = true
      · rw [if_pos hfield, if_pos hfield, if_pos hfield]
        rw [Bool.and_eq_true] at hfield
        rw [secret?_of_isFieldName hfield.1, secret?_of_isFieldName hfield.1, Option.getD_some,
          Option.getD_some, blanks_maskedSecret, blanks_maskedSecret]
        omega
      · rw [if_neg hfield, if_neg hfield, if_neg hfield]
        rcases hstr : v.isStr with _ | _
        · rw [secret?_of_not_isStr (by rw [isStr_fillFields, hstr]),
            secret?_of_not_isStr (by rw [isStr_fillFields, hstr]), Option.getD_none, Option.getD_none,
            hv]
          omega
        · -- a string under another key stays
          cases v with
          | str s =>
            simp only [fillFields, fieldStrings, Nat.zero_mul]
            omega
          | null => cases hstr
          | bool b => cases hstr
          | num n => cases hstr
          | arr items => cases hstr
          | obj entries => cases hstr

/-- **The text of a value hides its fields whatever they hold, if and only if none holds a string.** -/
theorem redact_stringify_eq_iff (v : Value ν) :
    (∀ v', OnlyFieldsDiffer v v' →
      defaultRedactor.redact (stringify v) = defaultRedactor.redact (stringify v')) ↔
    fieldStrings v = 0 := by
  constructor
  · intro h
    have hshown : ∀ spaces, blanks (maskedText (fillFields (showing spaces) v)) =
        blanks (defaultRedactor.redact (stringify v)) := by
      intro spaces
      rw [h _ (onlyFieldsDiffer_fillFields (showing spaces) v), blanks_redact, replace_stringify]
    have hnone := hshown 0
    have hone := hshown 1
    rw [blanks_maskedText_fillFields, hnone] at hone
    omega
  · intro hnone v' hagree
    rw [eq_of_onlyFieldsDiffer v v' hnone hagree]

/-- **Which secrets are hidden.**  In the result of `redactObject`, those that are strings in both values,
or of which the difference is masked; in a redacted text, those that are the same behind their first
quotes.  There is no text that hides its fields whatever strings they hold, but for one without any. -/
theorem secrets_hidden_iff {v v' : Value ν} (h : v.Ordered) (h' : v'.Ordered) :
    (OnlySecretsDiffer v v' →
      (defaultRedactor.redactObject v = defaultRedactor.redactObject v' ↔ SecretsMasked v v')) ∧
    (SameBehindQuotes v v' →
      defaultRedactor.redact (stringify v) = defaultRedactor.redact (stringify v')) ∧
    ((∀ w, OnlyFieldsDiffer v w →
      defaultRedactor.redact (stringify v) = defaultRedactor.redact (stringify w)) ↔
        fieldStrings v = 0) :=
  ⟨redactObject_eq_iff_secretsMasked h h', redact_stringify_eq, redact_stringify_eq_iff v⟩

/-- A token. -/
def sampleToken (token : Value (Option Numeral)) : Value (Option Numeral) :=
  .obj [("token".toList, token)]

theorem ordered_sampleToken (token : Value (Option Numeral)) (h : token.Ordered) :
    (sampleToken token).Ordered := ⟨List.pairwise_singleton _ _, h, trivial⟩

theorem redactObject_sampleToken :
    defaultRedactor.redactObject (sampleToken (.str "abc".toList)) =
        defaultRedactor.redactObject (sampleToken (.str "xyz".toList)) ∧
      defaultRedactor.redact (stringify (sampleToken (.str "abc".toList))) =
        defaultRedactor.redact (stringify (sampleToken (.str "xyz".toList))) := by
  have hidden := secrets_hidden_iff (ordered_sampleToken (.str "abc".toList) trivial)
    (ordered_sampleToken (.str "xyz".toList) trivial)
  have hname : isSecretName "token".toList = true := by decide
  constructor
  · exact (hidden.1 ⟨rfl, Or.inl hname, trivial⟩).mpr
      ⟨rfl, Or.inl (Or.inr ⟨hname, Or.inl ⟨rfl, rfl⟩⟩), trivial⟩
  · exact hidden.2.1 ⟨rfl, Or.inl ⟨by decide, _, _, rfl, rfl, by decide⟩, trivial⟩

/-- A token in an array, and a token with a quote in it. -/
theorem not_secrets_hidden :
    (¬ ∀ v v' : Value (Option Numeral), v.Ordered → v'.Ordered → OnlySecretsDiffer v v' →
      defaultRedactor.redactObject v = defaultRedactor.redactObject v') ∧
    ¬ ∀ v v' : Value (Option Numeral), v.Ordered → v'.Ordered → OnlyFieldsDiffer v v' →
      defaultRedactor.redact (stringify v) = defaultRedactor.redact (stringify v') := by
  constructor
  · intro h
    have hname : isSecretName "token".toList = true := by decide
    have heq := h (sampleToken (.arr [.str "abc".toList])) (sampleToken (.arr [.str "xyz".toList]))
      (ordered_sampleToken _ ⟨trivial, trivial⟩) (ordered_sampleToken _ ⟨trivial, trivial⟩)
      ⟨rfl, Or.inl hname, trivial⟩
    exact absurd (congrArg stringify heq) (by decide +kernel)
  · intro h
    have hfield : isFieldName "token".toList = true := by decide
    have heq := h (sampleToken (.str "a\"bc".toList)) (sampleToken (.str "a\"xy".toList))
      (ordered_sampleToken _ trivial) (ordered_sampleToken _ trivial)
      ⟨rfl, Or.inl ⟨hfield, rfl, rfl⟩, trivial⟩
    exact absurd heq (by decide +kernel)

end Showing

end MiniCoder
