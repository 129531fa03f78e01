import Mathlib.Data.List.DropRight
import Mathlib.Data.List.Lex
import Mathlib.Data.Nat.Basic

/-!
# Text

The string operations of the source whose Lean counterparts differ.

* `trim_eq_self_iff`: a trimmed string begins and ends with no white space.
* `utf16_lt_append_iff`: where endings begin below every character, they do not change an order.
-/

namespace MiniCoder

/-- The white space of `String.prototype.trim`. -/
def isWhiteSpace (c : Char) : Bool :=
  c.toNat ∈ [9, 10, 11, 12, 13, 32, 160, 5760, 8232, 8233, 8239, 8287, 12288, 65279] ||
    (decide (8192 ≤ c.toNat) && decide (c.toNat ≤ 8202))

/-- The characters of ASCII that are printed, but for the space. -/
theorem isWhiteSpace_of_printed {c : Char} (h : 33 ≤ c.toNat) (h' : c.toNat ≤ 126) :
    isWhiteSpace c = false := by
  simp [isWhiteSpace]
  omega

/-- `String.prototype.toLowerCase`, as far as a result of the first 128 characters goes: the Kelvin sign is
the one other letter that becomes one of them. -/
def toSmall (c : Char) : Char := if c = '\u212A' then 'k' else c.toLower

/-- `String.prototype.trim`. -/
def trim (s : String) : String :=
  String.ofList ((s.toList.dropWhile isWhiteSpace).reverse.dropWhile isWhiteSpace).reverse

theorem toList_trim (s : String) :
    (trim s).toList = (s.toList.dropWhile isWhiteSpace).rdropWhile isWhiteSpace := by
  unfold trim
  rw [String.toList_ofList]
  rfl

/-- A string that trimming leaves alone. -/
theorem trim_eq_self_iff {s : String} : trim s = s ↔
    s.toList.dropWhile isWhiteSpace = s.toList ∧ s.toList.rdropWhile isWhiteSpace = s.toList := by
  rw [← String.toList_inj, toList_trim]
  constructor
  · intro h
    have hsuffix : s.toList.dropWhile isWhiteSpace <:+ s.toList := List.dropWhile_suffix _
    have hlength : s.toList.length ≤ (s.toList.dropWhile isWhiteSpace).length := by
      have hback := (List.rdropWhile_prefix isWhiteSpace (s.toList.dropWhile isWhiteSpace)).length_le
      rwa [h] at hback
    have hfront := hsuffix.eq_of_length_le hlength
    rw [hfront] at h
    exact ⟨hfront, h⟩
  · rintro ⟨hfront, hback⟩
    rw [hfront, hback]

/-- The UTF-16 code units of a character. -/
def units (c : Char) : ℕ := if c.toNat < 0x10000 then 1 else 2

/-- The `length` of a string. -/
def utf16Length : List Char → ℕ
  | [] => 0
  | c :: s => units c + utf16Length s

/-- `slice(0, n)`; half a surrogate pair becomes a replacement character where it is written. -/
def sliceUnits : ℕ → List Char → List Char
  | _, [] => []
  | n, c :: s =>
    if n = 0 then [] else if n < units c then ['\uFFFD'] else c :: sliceUnits (n - units c) s

/-- **What a slice leaves of a longer string**: its beginning, or a text with half a pair at its end. -/
theorem sliceUnits_cases {n : ℕ} {s : List Char} (h : n < utf16Length s) :
    (∃ cut, cut ≠ [] ∧ s = sliceUnits n s ++ cut) ∨ ∃ used, sliceUnits n s = used ++ ['\uFFFD'] := by
  induction s generalizing n with
  | nil => exact absurd h (Nat.not_lt_zero n)
  | cons c s ih =>
    unfold sliceUnits
    split_ifs with hzero hhalf
    · exact Or.inl ⟨c :: s, List.cons_ne_nil c s, rfl⟩
    · exact Or.inr ⟨[], rfl⟩
    · have hrest : n - units c < utf16Length s := by
        have hlength : n < units c + utf16Length s := h
        omega
      rcases ih hrest with ⟨cut, hcut, hsplit⟩ | ⟨used, hused⟩
      · refine Or.inl ⟨cut, hcut, ?_⟩
        rw [List.cons_append, ← hsplit]
      · refine Or.inr ⟨c :: used, ?_⟩
        rw [hused, List.cons_append]

theorem utf16Length_append (s s' : List Char) :
    utf16Length (s ++ s') = utf16Length s + utf16Length s' := by
  induction s with
  | nil => simp [utf16Length]
  | cons c s ih =>
    rw [List.cons_append, utf16Length, utf16Length, ih]
    omega

/-- A character has one code unit or two. -/
theorem utf16Length_le (s : List Char) : utf16Length s ≤ 2 * s.length := by
  induction s with
  | nil => exact le_refl 0
  | cons c s ih =>
    have hunits : units c ≤ 2 := by
      unfold units
      split_ifs <;> omega
    rw [utf16Length, List.length_cons]
    omega

/-- The UTF-16 code units themselves. -/
def codeUnits (c : Char) : List ℕ :=
  if c.toNat < 0x10000 then [c.toNat]
  else [0xD800 + (c.toNat - 0x10000) / 0x400, 0xDC00 + (c.toNat - 0x10000) % 0x400]

/-- What `Array.prototype.sort` compares strings by. -/
def utf16 (s : String) : List ℕ := s.toList.flatMap codeUnits

theorem toNat_valid (c : Char) :
    c.toNat < 0xD800 ∨ 0xDFFF < c.toNat ∧ c.toNat < 0x110000 := c.valid

/-- The code units of a character say where they end. -/
theorem codeUnits_append_inj {c d : Char} {s t : List ℕ} (h : codeUnits c ++ s = codeUnits d ++ t) :
    c = d ∧ s = t := by
  have hc := toNat_valid c
  have hd := toNat_valid d
  rw [← Char.toNat_inj]
  unfold codeUnits at h
  split_ifs at h with hlow hlow' hlow' <;>
    simp only [List.cons_append, List.nil_append, List.cons.injEq] at h
  · exact h
  -- half a pair is no character
  · omega
  · omega
  · exact ⟨by omega, h.2.2⟩

theorem codeUnits_ne_nil (c : Char) : codeUnits c ≠ [] := by
  unfold codeUnits
  split_ifs <;> exact List.cons_ne_nil _ _

theorem flatMap_codeUnits_inj {s t : List Char} (h : s.flatMap codeUnits = t.flatMap codeUnits) :
    s = t := by
  induction s generalizing t with
  | nil =>
    cases t with
    | nil => rfl
    | cons d t =>
      rw [List.flatMap_nil, List.flatMap_cons] at h
      exact absurd (List.append_eq_nil_iff.mp h.symm).1 (codeUnits_ne_nil d)
  | cons c s ih =>
    cases t with
    | nil =>
      rw [List.flatMap_nil, List.flatMap_cons] at h
      exact absurd (List.append_eq_nil_iff.mp h).1 (codeUnits_ne_nil c)
    | cons d t =>
      rw [List.flatMap_cons, List.flatMap_cons] at h
      obtain ⟨hhead, htail⟩ := codeUnits_append_inj h
      rw [hhead, ih htail]

theorem utf16_injective : Function.Injective utf16 := fun _ _ h =>
  String.toList_inj.mp (flatMap_codeUnits_inj h)

theorem utf16_append (s t : String) : utf16 (s ++ t) = utf16 s ++ utf16 t := by
  unfold utf16
  rw [String.toList_append, List.flatMap_append]

/-- An ending whose first unit is below every unit before it does not change an order. -/
theorem append_lt_append_iff {n : ℕ} {u v l : List ℕ} (hu : ∀ a ∈ u, n < a) (hv : ∀ a ∈ v, n < a) :
    u ++ n :: l < v ++ n :: l ↔ u < v := by
  induction u generalizing v with
  | nil =>
    cases v with
    | nil => simp only [List.lt_irrefl]
    | cons b v =>
      have hb := hv b List.mem_cons_self
      rw [List.nil_append, List.cons_append, List.cons_lt_cons_iff]
      exact iff_of_true (Or.inl hb) (List.nil_lt_cons b v)
  | cons a u ih =>
    have ha := hu a List.mem_cons_self
    cases v with
    | nil =>
      rw [List.nil_append, List.cons_append, List.cons_lt_cons_iff]
      refine iff_of_false ?_ (List.not_lt_nil _)
      rintro (hlt | ⟨rfl, -⟩) <;> omega
    | cons b v =>
      rw [List.cons_append, List.cons_append, List.cons_lt_cons_iff, List.cons_lt_cons_iff,
        ih (fun x hx => hu x (List.mem_cons_of_mem a hx)) fun x hx => hv x (List.mem_cons_of_mem b hx)]

theorem lt_of_mem_codeUnits {n : ℕ} {c : Char} (hn : n < 0xD800) (h : n < c.toNat) :
    ∀ a ∈ codeUnits c, n < a := by
  intro a ha
  unfold codeUnits at ha
  split_ifs at ha
  · rw [List.mem_singleton] at ha
    omega
  · simp only [List.mem_cons, List.not_mem_nil, or_false] at ha
    omega

/-- **Endings that begin below every character** leave two strings in their order. -/
theorem utf16_lt_append_iff {s t ending : String} {c : Char} {rest : List Char}
    (hending : ending.toList = c :: rest) (hc : c.toNat < 0xD800)
    (hs : ∀ d ∈ s.toList, c.toNat < d.toNat) (ht : ∀ d ∈ t.toList, c.toNat < d.toNat) :
    utf16 (s ++ ending) < utf16 (t ++ ending) ↔ utf16 s < utf16 t := by
  have hbelow : ∀ {r : String}, (∀ d ∈ r.toList, c.toNat < d.toNat) →
      ∀ a ∈ utf16 r, c.toNat < a := by
    intro r hr a ha
    obtain ⟨d, hd, had⟩ := List.mem_flatMap.mp ha
    exact lt_of_mem_codeUnits hc (hr d hd) a had
  have hfirst : utf16 ending = c.toNat :: rest.flatMap codeUnits := by
    unfold utf16
    rw [hending, List.flatMap_cons, codeUnits, if_pos (by omega), List.singleton_append]
  rw [utf16_append, utf16_append, hfirst]
  exact append_lt_append_iff (hbelow hs) (hbelow ht)

/-- What the `.` of a regular expression does not match. -/
def isLineTerminator (c : Char) : Bool :=
  c = '\n' || c = '\r' || c = '\u2028' || c = '\u2029'

end MiniCoder
