import MiniCoder.Library.JsonTexts

/-!
# Texts that are cut, and escaped characters

A document of JSON ends with a character of ASCII, so a text that was cut in the middle of a wider one is
none.  The characters of a document that are not written as they are can be found in its text.

* `parse_append_eq_none`: **a text with a wide last character** is no document.
* `hasNulEscape_stringify`: **where the text has an escaped U+0000**.
-/

namespace Json

/-! ### The last character -/

section Ends

variable {text mid rest used : Text} {c : Char}

/-- Something is read up to the rest, and the last of it is a character of ASCII. -/
def EndsPlain (text rest : Text) : Prop :=
  ∃ used c, text = used ++ c :: rest ∧ c.toNat < 128

theorem EndsPlain.trans (h : EndsPlain text mid) (h' : EndsPlain mid rest) : EndsPlain text rest := by
  obtain ⟨used, c, rfl, -⟩ := h
  obtain ⟨used', c', rfl, hplain⟩ := h'
  exact ⟨used ++ c :: used', c', by simp, hplain⟩

theorem EndsPlain.cons (h : EndsPlain text rest) : EndsPlain (c :: text) rest := by
  obtain ⟨used, c', rfl, hplain⟩ := h
  exact ⟨c :: used, c', rfl, hplain⟩

theorem EndsPlain.skip (h : EndsPlain (skip text) rest) : EndsPlain text rest := by
  obtain ⟨spaces, -, htext⟩ := exists_spaces text
  obtain ⟨used, c, hused, hplain⟩ := h
  exact ⟨spaces ++ used, c, by rw [htext, hused, List.append_assoc], hplain⟩

theorem endsPlain_of_forall (hsome : used ≠ []) (h : ∀ c ∈ used, c.toNat < 128) :
    EndsPlain (used ++ rest) rest := by
  refine ⟨used.dropLast, used.getLast hsome, ?_, h _ (List.getLast_mem hsome)⟩
  have hsplit := List.dropLast_append_getLast hsome
  calc used ++ rest = used.dropLast ++ [used.getLast hsome] ++ rest := by rw [hsplit]
    _ = used.dropLast ++ used.getLast hsome :: rest := by simp

theorem endsPlain_of_token (hc : c.toNat < 128) (h : token c text = some rest) :
    EndsPlain text rest := by
  obtain ⟨spaces, -, htext, -⟩ := exists_of_token h
  exact ⟨spaces, c, htext, hc⟩

theorem toNat_of_isSpace (h : isSpace c = true) : c.toNat < 128 := by
  simp only [isSpace, Bool.or_eq_true, decide_eq_true_eq] at h
  rcases h with ((rfl | rfl) | rfl) | rfl <;> decide

theorem toNat_of_isNumeralChar (h : isNumeralChar c = true) : c.toNat < 128 := by
  simp only [isNumeralChar, Bool.or_eq_true, decide_eq_true_eq] at h
  rcases h with ((((hdigit | rfl) | rfl) | rfl) | rfl) | rfl
  · have hbounds : 48 ≤ c.toNat ∧ c.toNat ≤ 57 := by
      simpa [Char.isDigit, UInt32.le_iff_toNat_le] using hdigit
    omega
  all_goals decide

/-- A string ends with its quote. -/
theorem endsPlain_of_parseChars {high : Option ℕ} {escape : Escape} {s : Text}
    (h : parseChars high escape text = some (s, rest)) : EndsPlain text rest := by
  induction text generalizing high escape s with
  | nil => cases escape <;> cases h
  | cons c text ih =>
    cases escape with
    | none =>
      unfold parseChars at h
      split_ifs at h with hquote hbackslash hcontrol
      · obtain ⟨-, rfl⟩ := Prod.mk.inj (Option.some.inj h)
        exact ⟨[], c, rfl, by rw [hquote]; decide⟩
      · exact (ih h).cons
      · obtain ⟨⟨s', rest'⟩, hchars, hrest⟩ := Option.map_eq_some_iff.mp h
        obtain ⟨-, rfl⟩ := Prod.mk.inj hrest
        exact (ih hchars).cons
    | backslash =>
      unfold parseChars at h
      split_ifs at h with hunit
      · exact (ih h).cons
      · rcases hletter : unescape? c with _ | letter
        · rw [hletter] at h
          cases h
        · rw [hletter] at h
          obtain ⟨⟨s', rest'⟩, hchars, hrest⟩ := Option.map_eq_some_iff.mp h
          obtain ⟨-, rfl⟩ := Prod.mk.inj hrest
          exact (ih hchars).cons
    | unit owed code =>
      unfold parseChars at h
      rcases hdigit : hexValue? c with _ | value
      · rw [hdigit] at h
        cases h
      · rw [hdigit] at h
        simp only at h
        split_ifs at h with hlast
        · obtain ⟨⟨s', rest'⟩, hchars, hrest⟩ := Option.map_eq_some_iff.mp h
          obtain ⟨-, rfl⟩ := Prod.mk.inj hrest
          exact (ih hchars).cons
        · exact (ih h).cons

theorem endsPlain_of_parseWord {ν : Type} {v : Value ν} (h : parseWord text = some (v, rest)) :
    EndsPlain text rest := by
  have hword : ∀ {word after : Text}, word ≠ [] → (∀ c ∈ word, c.toNat < 128) →
      word.isPrefixOf? text = some after → EndsPlain text after := by
    intro word after hsome hplain hstart
    rw [← List.isPrefixOf?_eq_some_iff_append_eq.mp hstart]
    exact endsPlain_of_forall hsome hplain
  unfold parseWord at h
  split at h
  · rename_i after hnull
    obtain ⟨-, rfl⟩ := Prod.mk.inj (Option.some.inj h)
    exact hword (by simp) (by simp) hnull
  · split at h
    · rename_i after htrue
      obtain ⟨-, rfl⟩ := Prod.mk.inj (Option.some.inj h)
      exact hword (by simp) (by simp) htrue
    · obtain ⟨after, hfalse, heq⟩ := Option.map_eq_some_iff.mp h
      obtain ⟨-, rfl⟩ := Prod.mk.inj heq
      exact hword (by simp) (by simp) hfalse

variable {ν : Type} [Numbers ν]

theorem endsPlain_of_parseNumeral {v : Value ν} (h : parseNumeral text = some (v, rest)) :
    EndsPlain text rest := by
  unfold parseNumeral at h
  simp only at h
  split_ifs at h with hnumeral
  obtain ⟨-, rfl⟩ := Prod.mk.inj (Option.some.inj h)
  obtain ⟨c, used, hused, -⟩ := exists_of_isNumeral hnumeral
  have hall := List.all_eq_true.mp (all_of_isNumeral hnumeral)
  have hsplit := (List.takeWhile_append_dropWhile (p := isNumeralChar) (l := text)).symm
  have hends : EndsPlain (text.takeWhile isNumeralChar ++ text.dropWhile isNumeralChar)
      (text.dropWhile isNumeralChar) :=
    endsPlain_of_forall (by rw [hused]; exact List.cons_ne_nil _ _)
      fun c hc => toNat_of_isNumeralChar (hall c hc)
  rwa [← hsplit] at hends

/-- **What is read ends with a character of ASCII.** -/
theorem endsPlain_of_parse (fuel : ℕ) :
    (∀ (text : Text) (v : Value ν) (rest : Text), parseValue fuel text = some (v, rest) →
      EndsPlain text rest) ∧
    (∀ (text : Text) (items : List (Value ν)) (rest : Text),
      parseItems fuel text = some (items, rest) → EndsPlain text rest) ∧
    (∀ (text : Text) (entries : Entries ν) (rest : Text),
      parseEntries fuel text = some (entries, rest) → EndsPlain text rest) := by
  induction fuel with
  | zero =>
    refine ⟨fun _ _ _ h => ?_, fun _ _ _ h => ?_, fun _ _ _ h => ?_⟩
    · cases h
    · cases h
    · cases h
  | succ fuel ih =>
    obtain ⟨ihv, ihitems, ihentries⟩ := ih
    refine ⟨fun text v rest h => ?_, fun text items rest h => ?_, fun text entries rest h => ?_⟩
    · unfold parseValue at h
      split at h
      · rename_i after hobject
        have hopens := endsPlain_of_token (by decide) hobject
        split at h
        · rename_i after' hclose
          obtain ⟨-, rfl⟩ := Prod.mk.inj (Option.some.inj h)
          exact hopens.trans (endsPlain_of_token (by decide) hclose)
        · obtain ⟨⟨entries, rest'⟩, hentries, heq⟩ := Option.map_eq_some_iff.mp h
          obtain ⟨-, rfl⟩ := Prod.mk.inj heq
          exact hopens.trans (ihentries _ _ _ hentries)
      · split at h
        · rename_i after harray
          have hopens := endsPlain_of_token (by decide) harray
          split at h
          · rename_i after' hclose
            obtain ⟨-, rfl⟩ := Prod.mk.inj (Option.some.inj h)
            exact hopens.trans (endsPlain_of_token (by decide) hclose)
          · obtain ⟨⟨items, rest'⟩, hitems, heq⟩ := Option.map_eq_some_iff.mp h
            obtain ⟨-, rfl⟩ := Prod.mk.inj heq
            exact hopens.trans (ihitems _ _ _ hitems)
        · split at h
          · rename_i after hstring
            obtain ⟨⟨s, rest'⟩, hchars, heq⟩ := Option.map_eq_some_iff.mp h
            obtain ⟨-, rfl⟩ := Prod.mk.inj heq
            exact (endsPlain_of_token (by decide) hstring).trans (endsPlain_of_parseChars hchars)
          · refine EndsPlain.skip ?_
            rcases hword : (parseWord (skip text) : Option (Value ν × Text)) with _ | ⟨w, after⟩
            · rw [hword, Option.none_or] at h
              exact endsPlain_of_parseNumeral h
            · rw [hword, Option.some_or] at h
              obtain ⟨-, rfl⟩ := Prod.mk.inj (Option.some.inj h)
              exact endsPlain_of_parseWord hword
    · unfold parseItems at h
      split at h
      · cases h
      · rename_i v after hitem
        have hfirst := ihv _ _ _ hitem
        split at h
        · rename_i after' hcomma
          obtain ⟨⟨items', rest'⟩, hitems, heq⟩ := Option.map_eq_some_iff.mp h
          obtain ⟨-, rfl⟩ := Prod.mk.inj heq
          exact (hfirst.trans (endsPlain_of_token (by decide) hcomma)).trans (ihitems _ _ _ hitems)
        · obtain ⟨rest', hclose, heq⟩ := Option.map_eq_some_iff.mp h
          obtain ⟨-, rfl⟩ := Prod.mk.inj heq
          exact hfirst.trans (endsPlain_of_token (by decide) hclose)
    · unfold parseEntries at h
      split at h
      · cases h
      · rename_i key colon hkey
        obtain ⟨opened, hquote, hchars⟩ := Option.bind_eq_some_iff.mp hkey
        have hname := (endsPlain_of_token (by decide) hquote).trans (endsPlain_of_parseChars hchars)
        split at h
        · cases h
        · rename_i v after hvalue
          obtain ⟨after', hcolon, hvalue⟩ := Option.bind_eq_some_iff.mp hvalue
          have hfirst := (hname.trans (endsPlain_of_token (by decide) hcolon)).trans
            (ihv _ _ _ hvalue)
          split at h
          · rename_i after'' hcomma
            obtain ⟨⟨entries', rest'⟩, hentries, heq⟩ := Option.map_eq_some_iff.mp h
            obtain ⟨-, rfl⟩ := Prod.mk.inj heq
            exact (hfirst.trans (endsPlain_of_token (by decide) hcomma)).trans
              (ihentries _ _ _ hentries)
          · obtain ⟨rest', hclose, heq⟩ := Option.map_eq_some_iff.mp h
            obtain ⟨-, rfl⟩ := Prod.mk.inj heq
            exact hfirst.trans (endsPlain_of_token (by decide) hclose)

/-- **A text whose last character is not one of ASCII is no document.** -/
theorem parse_append_eq_none (h : 128 ≤ c.toNat) :
    (parse (text ++ [c]) : Option (Value ν)) = none := by
  rcases hparse : (parse (text ++ [c]) : Option (Value ν)) with _ | w
  · rfl
  exfalso
  unfold parse at hparse
  split at hparse
  · rename_i v rest hvalue
    split_ifs at hparse with hrest
    obtain ⟨used, d, hused, hplain⟩ := (endsPlain_of_parse _).1 _ _ _ hvalue
    obtain ⟨spaces, hspaces, hsplit⟩ := exists_spaces rest
    rw [hrest, List.append_nil] at hsplit
    have hlast := congrArg List.getLast? hused
    rw [List.getLast?_concat, List.getLast?_append_cons] at hlast
    have hmem : c ∈ d :: rest := List.mem_of_getLast? hlast.symm
    rcases List.mem_cons.mp hmem with rfl | hmem
    · omega
    · have hspace := toNat_of_isSpace (hspaces c (by rwa [← hsplit]))
      omega
  · cases hparse

end Ends

/-! ### Escaped characters -/

/-- Where U+0000 is escaped in the text of a document. -/
def hasNulEscape : Bool → Text → Bool
  | _, [] => false
  | true, c :: rest => "u0000".toList.isPrefixOf (c :: rest) || hasNulEscape false rest
  | false, c :: rest => hasNulEscape (c = '\\') rest

section Nul

variable {ν : Type} {text rest : Text} {c : Char}

mutual

/-- U+0000 is a character of a string in it, or of the name of a property. -/
def Value.hasNul : Value ν → Bool
  | .str s => decide ('\x00' ∈ s)
  | .arr items => hasNulItems items
  | .obj entries => hasNulEntries entries
  | _ => false

def hasNulItems : List (Value ν) → Bool
  | [] => false
  | v :: items => v.hasNul || hasNulItems items

def hasNulEntries : Entries ν → Bool
  | [] => false
  | (key, v) :: entries => decide ('\x00' ∈ key) || v.hasNul || hasNulEntries entries

end

theorem hasNulEscape_append (h : '\\' ∉ text) :
    hasNulEscape false (text ++ rest) = hasNulEscape false rest := by
  induction text with
  | nil => rfl
  | cons c text ih =>
    have hc : c ≠ '\\' := by
      rintro rfl
      exact h List.mem_cons_self
    have htext : '\\' ∉ text := fun hmem => h (List.mem_cons_of_mem _ hmem)
    show hasNulEscape (decide (c = '\\')) (text ++ rest) = _
    rw [decide_eq_false hc, ih htext]

theorem hexDigit_ne_backslash {n : ℕ} (h : n < 16) : hexDigit n ≠ '\\' := by
  have hall : ∀ n < 16, hexDigit n ≠ '\\' := by decide
  exact hall n h

theorem hexDigit_eq_zero {n : ℕ} (h : n < 16) : hexDigit n = '0' ↔ n = 0 := by
  have hall : ∀ n < 16, hexDigit n = '0' ↔ n = 0 := by decide
  exact hall n h

/-- After the backslash of a letter. -/
theorem hasNulEscape_letter {letter : Char} (h : letter ≠ 'u') :
    hasNulEscape false ('\\' :: letter :: rest) = hasNulEscape false rest := by
  show ("u0000".toList.isPrefixOf (letter :: rest) || hasNulEscape false rest) = _
  have hother : ('u' == letter) = false := by simpa using h.symm
  simp [List.isPrefixOf, hother]

/-- After the backslash of a code unit. -/
theorem hasNulEscape_unit {n : ℕ} (h : n < 32) :
    hasNulEscape false (['\\', 'u', '0', '0', hexDigit (n / 16), hexDigit (n % 16)] ++ rest) =
      (decide (n = 0) || hasNulEscape false rest) := by
  have hhigh : '0' = hexDigit (n / 16) ↔ n / 16 = 0 := eq_comm.trans (hexDigit_eq_zero (by omega))
  have hlow : '0' = hexDigit (n % 16) ↔ n % 16 = 0 := eq_comm.trans (hexDigit_eq_zero (by omega))
  have hdigits : '\\' ∉ ['0', '0', hexDigit (n / 16), hexDigit (n % 16)] := by
    have hhigh' := hexDigit_ne_backslash (n := n / 16) (by omega)
    have hlow' := hexDigit_ne_backslash (n := n % 16) (by omega)
    simp [hhigh'.symm, hlow'.symm]
  have hprefix : "u0000".toList.isPrefixOf
      ('u' :: (['0', '0', hexDigit (n / 16), hexDigit (n % 16)] ++ rest)) = decide (n = 0) := by
    rw [Bool.eq_iff_iff, decide_eq_true_eq]
    simp [List.isPrefixOf, hhigh, hlow]
    omega
  show ("u0000".toList.isPrefixOf _ || hasNulEscape false _) = _
  rw [← @hasNulEscape_append _ rest hdigits]
  exact congrArg (· || _) hprefix

theorem hasNulEscape_escape (c : Char) :
    hasNulEscape false (escape c ++ rest) = (decide ('\x00' = c) || hasNulEscape false rest) := by
  have hnul : '\x00' = c ↔ c.toNat = 0 := by
    rw [← Char.toNat_inj]
    exact eq_comm
  have hwide : ∀ {letter : Char}, letter ≠ 'u' → c.toNat ≠ 0 →
      hasNulEscape false (['\\', letter] ++ rest) =
        (decide ('\x00' = c) || hasNulEscape false rest) := by
    intro letter hletter hne
    rw [decide_eq_false (fun h => hne (hnul.mp h)), Bool.false_or]
    exact hasNulEscape_letter hletter
  unfold escape
  split_ifs with hquote hbackslash h8 h9 h10 h12 h13 hcontrol
  · exact hwide (by decide) (by rw [hquote]; decide)
  · exact hwide (by decide) (by rw [hbackslash]; decide)
  · exact hwide (by decide) (by omega)
  · exact hwide (by decide) (by omega)
  · exact hwide (by decide) (by omega)
  · exact hwide (by decide) (by omega)
  · exact hwide (by decide) (by omega)
  · rw [hasNulEscape_unit hcontrol, decide_eq_decide.mpr hnul]
  · rw [decide_eq_false (fun h => hcontrol (by rw [hnul.mp h]; omega)), Bool.false_or]
    exact hasNulEscape_append (by simpa using Ne.symm hbackslash)

theorem hasNulEscape_quote (s : Text) :
    hasNulEscape false (quote s ++ rest) = (decide ('\x00' ∈ s) || hasNulEscape false rest) := by
  have hchars : hasNulEscape false (s.flatMap escape ++ ('"' :: rest)) =
      (decide ('\x00' ∈ s) || hasNulEscape false rest) := by
    induction s with
    | nil => exact @hasNulEscape_append ['"'] _ (by decide)
    | cons c s ih =>
      rw [List.flatMap_cons, List.append_assoc, hasNulEscape_escape, ih, ← Bool.or_assoc]
      congr 1
      simp
  have hquote : hasNulEscape false (quote s ++ rest) =
      hasNulEscape false (s.flatMap escape ++ ('"' :: rest)) := by
    rw [quote, List.cons_append, List.append_assoc]
    exact @hasNulEscape_append ['"'] _ (by decide)
  rw [hquote, hchars]

theorem hasNulEscape_intercalate {α : Type} {write : α → Text} {nul : α → Bool} {parts : List α}
    (h : ∀ part ∈ parts, ∀ rest,
      hasNulEscape false (write part ++ rest) = (nul part || hasNulEscape false rest)) :
    hasNulEscape false ([','].intercalate (parts.map write) ++ rest) =
      (parts.any nul || hasNulEscape false rest) := by
  induction parts with
  | nil => rfl
  | cons part parts ih =>
    have hpart := h part List.mem_cons_self
    have hparts := ih fun part hmem => h part (List.mem_cons_of_mem _ hmem)
    cases parts with
    | nil => simpa using hpart rest
    | cons part' parts =>
      rw [List.map_cons, List.map_cons, List.intercalate_cons_cons, ← List.map_cons,
        List.append_assoc, List.append_assoc, hpart, hasNulEscape_append (by decide), hparts,
        ← Bool.or_assoc, ← List.any_cons]

/-- The brackets of an array or of an object. -/
theorem hasNulEscape_brackets {first last : Char} (hfirst : first ≠ '\\') (hlast : last ≠ '\\') :
    hasNulEscape false (first :: (text ++ [last]) ++ rest) =
      hasNulEscape false (text ++ (last :: rest)) ∧
    hasNulEscape false (last :: rest) = hasNulEscape false rest := by
  constructor
  · rw [List.cons_append, List.append_assoc]
    exact @hasNulEscape_append [first] _ (by simpa using hfirst.symm)
  · exact @hasNulEscape_append [last] _ (by simpa using hlast.symm)

theorem hasNulItems_eq (items : List (Value ν)) : hasNulItems items = items.any Value.hasNul := by
  induction items with
  | nil => rfl
  | cons v items ih => rw [hasNulItems, ih, List.any_cons]

theorem hasNulEntries_eq (entries : Entries ν) :
    hasNulEntries entries = entries.any fun entry => decide ('\x00' ∈ entry.1) || entry.2.hasNul := by
  induction entries with
  | nil => rfl
  | cons entry entries ih => rw [hasNulEntries, ih, List.any_cons]

variable [Numbers ν]

theorem stringifyItems_eq_map (items : List (Value ν)) :
    stringifyItems items = items.map stringify := by
  induction items with
  | nil => rfl
  | cons v items ih => rw [stringifyItems, ih, List.map_cons]

theorem stringifyEntries_eq_map (entries : Entries ν) : stringifyEntries entries =
    entries.map fun entry => quote entry.1 ++ ':' :: stringify entry.2 := by
  induction entries with
  | nil => rfl
  | cons entry entries ih => rw [stringifyEntries, ih, List.map_cons]

/-- **Where the text of a value has an escaped U+0000.** -/
theorem hasNulEscape_stringify (v : Value ν) (rest : Text) :
    hasNulEscape false (stringify v ++ rest) = (v.hasNul || hasNulEscape false rest) := by
  induction v using Value.induct generalizing rest with
  | null => exact @hasNulEscape_append "null".toList _ (by decide)
  | bool b =>
    cases b
    · exact @hasNulEscape_append "false".toList _ (by decide)
    · exact @hasNulEscape_append "true".toList _ (by decide)
  | num n =>
    unfold stringify
    refine hasNulEscape_append fun hmem => ?_
    rcases hrender : Numbers.render n with _ | numeral
    · rw [hrender] at hmem
      exact absurd hmem (by decide)
    · rw [hrender] at hmem
      have hall := List.all_eq_true.mp (all_of_isNumeral (Numbers.isNumeral_render hrender))
      exact absurd (hall _ hmem) (by decide)
  | str s =>
    unfold stringify Value.hasNul
    exact hasNulEscape_quote s
  | arr items ih =>
    have hitems := @hasNulEscape_intercalate (']' :: rest) _ stringify Value.hasNul items ih
    obtain ⟨hopens, hcloses⟩ := @hasNulEscape_brackets ([','].intercalate (items.map stringify)) rest
      '[' ']' (by decide) (by decide)
    unfold stringify Value.hasNul
    rw [stringifyItems_eq_map, hasNulItems_eq, hopens, hitems, hcloses]
  | obj entries ih =>
    have hentry : ∀ entry ∈ entries, ∀ rest,
        hasNulEscape false ((quote entry.1 ++ ':' :: stringify entry.2) ++ rest) =
          ((decide ('\x00' ∈ entry.1) || entry.2.hasNul) || hasNulEscape false rest) := by
      intro entry hentry rest
      have hcolon := @hasNulEscape_append [':'] (stringify entry.2 ++ rest) (by decide)
      rw [List.append_assoc, hasNulEscape_quote, List.cons_append, ← List.singleton_append, hcolon,
        ih entry hentry, Bool.or_assoc]
    have hentries := @hasNulEscape_intercalate ('}' :: rest) _ _ _ entries hentry
    obtain ⟨hopens, hcloses⟩ := @hasNulEscape_brackets ([','].intercalate
      (entries.map fun entry => quote entry.1 ++ ':' :: stringify entry.2)) rest
      '{' '}' (by decide) (by decide)
    unfold stringify Value.hasNul
    rw [stringifyEntries_eq_map, hasNulEntries_eq, hopens, hentries, hcloses]

end Nul

end Json
