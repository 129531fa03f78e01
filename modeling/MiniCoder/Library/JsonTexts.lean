import MiniCoder.Library.Json

/-!
# The texts of JSON values

* `parse_stringify`: a text that was made of a value is read as the value, with its numbers reread.
* `parse_of_parseValue`: the bound of the calls cuts nothing off.
* `parse_eq_none_of_append`: a document that is cut off is none.
* `reread_reread`, `stringify_reread`: a value that was reread stays, and has the text it had.
-/

namespace Json

/-! ### Strings -/

section Strings

variable {s s' rest : Text} {high : Option ℕ}

theorem hexValue?_hexDigit {n : ℕ} (h : n < 16) : hexValue? (hexDigit n) = some n := by
  have hall : ∀ n ∈ List.range 16, hexValue? (hexDigit n) = some n := by decide
  exact hall n (List.mem_range.mpr h)

/-- A control character is one code unit, of two digits. -/
theorem parseChars_unit {n : ℕ} (hn : n < 32) (h : parseChars none .none rest = some (s, s')) :
    parseChars none .none ('\\' :: 'u' :: '0' :: '0' :: hexDigit (n / 16) :: hexDigit (n % 16) :: rest) =
      some (Char.ofNat n :: s, s') := by
  have hhigh : hexValue? (hexDigit (n / 16)) = some (n / 16) := hexValue?_hexDigit (by omega)
  have hlow : hexValue? (hexDigit (n % 16)) = some (n % 16) := hexValue?_hexDigit (by omega)
  have hzero : hexValue? '0' = some 0 := by decide
  have hunit : codeUnit none (n / 16 * 16 + n % 16) = ([Char.ofNat n], none) := by
    have hn' : n / 16 * 16 + n % 16 = n := by omega
    rw [hn']
    unfold codeUnit
    have hnot : isHighSurrogate n = false ∧ isLowSurrogate n = false := by
      simp [isHighSurrogate, isLowSurrogate]
      omega
    simp [hnot, flush]
  simp [parseChars, hzero, hhigh, hlow, hunit, h]

/-- **An escaped character is read as the character.** -/
theorem parseChars_escape (c : Char) (h : parseChars none .none rest = some (s, s')) :
    parseChars none .none (escape c ++ rest) = some (c :: s, s') := by
  have hletter {n : ℕ} (hn : c.toNat = n) : c = Char.ofNat n := by
    rw [← hn, Char.ofNat_toNat]
  unfold escape
  split_ifs with hquote hbackslash hb ht hn hf hr hcontrol
  · rw [hquote]
    simp [parseChars, unescape?, h, flush]
  · rw [hbackslash]
    simp [parseChars, unescape?, h, flush]
  · rw [hletter hb]
    simp [parseChars, unescape?, h, flush]
  · rw [hletter ht]
    simp [parseChars, unescape?, h, flush]
  · rw [hletter hn]
    simp [parseChars, unescape?, h, flush]
  · rw [hletter hf]
    simp [parseChars, unescape?, h, flush]
  · rw [hletter hr]
    simp [parseChars, unescape?, h, flush]
  · have hunit := parseChars_unit hcontrol h
    rw [Char.ofNat_toNat] at hunit
    exact hunit
  · simp [parseChars, hquote, hbackslash, hcontrol, h, flush]

/-- **A string between quotes is read as the string.** -/
theorem parseString_quote (s rest : Text) :
    parseString (s.flatMap escape ++ '"' :: rest) = some (s, rest) := by
  unfold parseString
  induction s with
  | nil => simp [parseChars, flush]
  | cons c s ih =>
    rw [List.flatMap_cons, List.append_assoc]
    exact parseChars_escape c ih

end Strings

/-! ### Tokens -/

section Tokens

variable {c c' : Char} {text rest : Text}

theorem skip_cons (h : isSpace c = false) : skip (c :: rest) = c :: rest := by
  unfold skip
  rw [List.dropWhile_cons_of_neg (by simp [h])]

theorem token_cons (h : isSpace c' = false) :
    token c (c' :: rest) = if c' = c then some rest else none := by
  unfold token
  rw [skip_cons h]

theorem skip_append {more : Text} (h : skip text ≠ []) : skip (text ++ more) = skip text ++ more := by
  unfold skip at h ⊢
  rw [List.dropWhile_append, if_neg (by simpa using h)]

/-- The spaces in front of what is read. -/
theorem exists_spaces (text : Text) :
    ∃ spaces : Text, (∀ c ∈ spaces, isSpace c = true) ∧ text = spaces ++ skip text :=
  ⟨text.takeWhile isSpace, List.all_eq_true.mp List.all_takeWhile,
    (List.takeWhile_append_dropWhile).symm⟩

theorem length_pos_of_skip (h : skip text ≠ []) : 0 < text.length := by
  rcases text with _ | ⟨c, text⟩
  · exact absurd rfl h
  · exact Nat.succ_pos _

theorem skip_spaces {spaces : Text} (h : ∀ c ∈ spaces, isSpace c = true) :
    skip (spaces ++ text) = skip text := List.dropWhile_append_of_pos h

theorem token_spaces {spaces : Text} (h : ∀ c ∈ spaces, isSpace c = true) :
    token c (spaces ++ text) = token c text := by
  unfold token
  rw [skip_spaces h]

theorem skip_of_token (h : token c text = some rest) : skip text = c :: rest := by
  unfold token at h
  split at h
  · cases h
  · rename_i first after hskip
    split_ifs at h with hfirst
    obtain rfl := Option.some.inj h
    rw [hskip, hfirst]

/-- A token that is not there is not there whatever comes later. -/
theorem token_none_of_append {more : Text} (hsome : skip text ≠ [])
    (h : token c (text ++ rest) = none) : token c (text ++ more) = none := by
  unfold token at h ⊢
  rw [skip_append hsome] at h ⊢
  rcases hskip : skip text with _ | ⟨first, after⟩
  · exact absurd hskip hsome
  · rw [hskip] at h
    simpa using h

/-- What may come after a value. -/
def Follows (rest : Text) : Prop := ∀ c ∈ rest.head?, c = ',' ∨ c = ']' ∨ c = '}'

theorem follows_nil : Follows [] := by simp [Follows]

theorem follows_cons (h : c = ',' ∨ c = ']' ∨ c = '}') : Follows (c :: rest) := by
  simpa [Follows] using h

end Tokens

/-! ### Numerals -/

section Numerals

theorem isNumeralChar_of_isDigit {c : Char} (h : c.isDigit = true) : isNumeralChar c = true := by
  simp [isNumeralChar, h]

theorem all_of_isExponent {text : Text} (h : isExponent text = true) :
    text.all isNumeralChar = true := by
  have hdigits : ∀ digits : Text, digits.all Char.isDigit = true → digits.all isNumeralChar = true := by
    simp only [List.all_eq_true]
    exact fun digits hall c hc => isNumeralChar_of_isDigit (hall c hc)
  unfold isExponent at h
  split at h
  · rfl
  · rename_i e rest
    simp only [Bool.and_eq_true, Bool.or_eq_true, decide_eq_true_eq] at h
    obtain ⟨⟨he, -⟩, hall⟩ := h
    have hletter : isNumeralChar e = true := by
      rcases he with rfl | rfl <;> decide
    rw [List.all_cons, hletter, Bool.true_and]
    split at hall
    · rw [List.all_cons, hdigits _ hall]
      decide
    · rw [List.all_cons, hdigits _ hall]
      decide
    · exact hdigits _ hall

theorem all_append_of_digits {text : Text} (h : (text.dropWhile Char.isDigit).all isNumeralChar = true) :
    text.all isNumeralChar = true := by
  rw [← List.takeWhile_append_dropWhile (p := Char.isDigit) (l := text), List.all_append, h,
    Bool.and_true, List.all_eq_true]
  intro c hc
  exact isNumeralChar_of_isDigit (List.all_eq_true.mp (List.all_takeWhile) c hc)

theorem all_of_isFraction {text : Text} (h : isFraction text = true) :
    text.all isNumeralChar = true := by
  unfold isFraction at h
  split at h
  · rw [Bool.and_eq_true] at h
    rw [List.all_cons, all_append_of_digits (all_of_isExponent h.2)]
    decide
  · exact all_of_isExponent h

/-- What a numeral is made of. -/
theorem all_of_isNumeral {text : Text} (h : isNumeral text = true) :
    text.all isNumeralChar = true := by
  unfold isNumeral at h
  simp only [Bool.and_eq_true] at h
  have hall := all_append_of_digits (all_of_isFraction h.2)
  split at hall
  · rw [List.all_cons, hall]
    decide
  · exact hall

/-- A numeral begins with its sign or with a digit. -/
theorem exists_of_isNumeral {text : Text} (h : isNumeral text = true) :
    ∃ c rest, text = c :: rest ∧ (c = '-' ∨ c.isDigit = true) := by
  unfold isNumeral at h
  simp only [Bool.and_eq_true, decide_eq_true_eq] at h
  obtain ⟨⟨hsome, -⟩, -⟩ := h
  rcases text with _ | ⟨c, rest⟩
  · exact absurd rfl hsome
  · refine ⟨c, rest, rfl, ?_⟩
    by_cases hsign : c = '-'
    · exact Or.inl hsign
    · right
      by_contra hdigit
      apply hsome
      split
      · rename_i heq
        exact absurd (List.cons.inj heq).1 hsign
      · rw [List.takeWhile_cons_of_neg hdigit]

/-- What is no sign and no digit does not begin a numeral. -/
theorem ne_of_start {c d : Char} (h : c = '-' ∨ c.isDigit = true)
    (hd : d ≠ '-' ∧ d.isDigit = false) : c ≠ d := by
  rintro rfl
  rcases h with hsign | hdigit
  · exact hd.1 hsign
  · rw [hd.2] at hdigit
    cases hdigit

theorem isSpace_of_start {c : Char} (h : c = '-' ∨ c.isDigit = true) : isSpace c = false := by
  have hspaces := And.intro (ne_of_start h (d := ' ') (by decide))
    (And.intro (ne_of_start h (d := '\t') (by decide))
      (And.intro (ne_of_start h (d := '\n') (by decide)) (ne_of_start h (d := '\r') (by decide))))
  simp [isSpace, hspaces]

end Numerals

/-! ### Values -/

section Values

variable {ν : Type}

theorem parseWord_of_ne {c : Char} (hn : c ≠ 'n') (ht : c ≠ 't') (hf : c ≠ 'f') :
    (parseWord (c :: rest) : Option (Value ν × Text)) = none := by
  simp [parseWord, List.isPrefixOf?, hn.symm, ht.symm, hf.symm]

variable [Numbers ν] {v : Value ν} {items : List (Value ν)} {entries : Entries ν} {rest : Text}
  {fuel : ℕ}

theorem parseNumeral_append {numeral : Text} (h : isNumeral numeral = true) (hrest : Follows rest) :
    parseNumeral (numeral ++ rest) = some (.num (Numbers.read numeral : ν), rest) := by
  have hall := List.all_eq_true.mp (all_of_isNumeral h)
  have hstop : rest.takeWhile isNumeralChar = [] ∧ rest.dropWhile isNumeralChar = rest := by
    rcases rest with _ | ⟨c, rest⟩
    · simp
    · have hc : isNumeralChar c = false := by
        rcases hrest c rfl with rfl | rfl | rfl <;> decide
      simp [hc]
  unfold parseNumeral
  rw [List.takeWhile_append_of_pos hall, List.dropWhile_append_of_pos hall, hstop.1, hstop.2,
    List.append_nil]
  exact if_pos h

/-- No value begins with a space, or with the end of an array. -/
theorem exists_stringify_cons (v : Value ν) :
    ∃ c text, stringify v = c :: text ∧ isSpace c = false ∧ c ≠ ']' := by
  cases v with
  | null => exact ⟨_, _, rfl, by decide, by decide⟩
  | bool b => cases b <;> exact ⟨_, _, rfl, by decide, by decide⟩
  | num n =>
    unfold stringify
    rcases hrender : Numbers.render n with _ | numeral
    · exact ⟨_, _, rfl, by decide, by decide⟩
    · obtain ⟨c, text, rfl, hc⟩ := exists_of_isNumeral (Numbers.isNumeral_render hrender)
      exact ⟨c, text, rfl, isSpace_of_start hc, ne_of_start hc (by decide)⟩
  | str s => exact ⟨_, _, rfl, by decide, by decide⟩
  | arr items => exact ⟨_, _, rfl, by decide, by decide⟩
  | obj entries => exact ⟨_, _, rfl, by decide, by decide⟩

theorem stringifyItems_ne_nil (h : items ≠ []) : stringifyItems items ≠ [] := by
  cases items with
  | nil => exact absurd rfl h
  | cons v items => simp [stringifyItems]

/-- What a value is read as, in front of what may follow it. -/
def ReadsBack (v : Value ν) : Prop :=
  ∀ (fuel : ℕ) (rest : Text), 2 * (stringify v).length ≤ fuel + 1 → Follows rest →
    parseValue fuel (stringify v ++ rest) = some (v.reread, rest)

theorem length_stringify_pos (v : Value ν) : 0 < (stringify v).length := by
  obtain ⟨c, text, htext, -⟩ := exists_stringify_cons v
  rw [htext]
  exact Nat.succ_pos _

/-- The items of an array are read one by one. -/
theorem parseItems_stringifyItems (hall : ∀ v ∈ items, ReadsBack v) (hsome : items ≠ [])
    (hfuel : 2 * ([','].intercalate (stringifyItems items)).length ≤ fuel) :
    parseItems fuel ([','].intercalate (stringifyItems items) ++ ']' :: rest) =
      some (rereadItems items, rest) := by
  induction items generalizing fuel with
  | nil => exact absurd rfl hsome
  | cons v items ih =>
    obtain ⟨hv, hitems⟩ := List.forall_mem_cons.mp hall
    have hpos := length_stringify_pos v
    have hspace : isSpace ',' = false ∧ isSpace ']' = false := by decide
    cases items with
    | nil =>
      simp only [stringifyItems, List.intercalate_singleton] at hfuel ⊢
      obtain ⟨fuel, rfl⟩ : ∃ n, fuel = n + 1 := ⟨fuel - 1, by omega⟩
      have hfirst := hv fuel (']' :: rest) (by omega) (follows_cons (Or.inr (Or.inl rfl)))
      simp [parseItems, hfirst, token_cons hspace.2, rereadItems]
    | cons v' items =>
      simp only [stringifyItems, List.intercalate_cons_cons, List.length_append, List.length_cons,
        List.length_nil] at hfuel ih ⊢
      obtain ⟨fuel, rfl⟩ : ∃ n, fuel = n + 1 := ⟨fuel - 1, by omega⟩
      have hfirst := hv fuel (',' :: ([','].intercalate (stringify v' :: stringifyItems items) ++
        ']' :: rest)) (by omega) (follows_cons (Or.inl rfl))
      have hmore := @ih fuel hitems (by simp) (by omega)
      simp only [List.append_assoc, List.singleton_append]
      simp [parseItems, hfirst, token_cons hspace.1, hmore, rereadItems]

theorem parseString_quote_token (key rest : Text) :
    (token '"' (quote key ++ rest)).bind parseString = some (key, rest) := by
  have hspace : isSpace '"' = false := by decide
  unfold quote
  rw [List.cons_append, token_cons hspace, if_pos rfl, Option.bind_some, List.append_assoc,
    List.singleton_append]
  exact parseString_quote key rest

/-- The properties of an object are read one by one. -/
theorem parseEntries_stringifyEntries (hall : ∀ entry ∈ entries, ReadsBack entry.2)
    (hsome : entries ≠ [])
    (hfuel : 2 * ([','].intercalate (stringifyEntries entries)).length ≤ fuel) :
    parseEntries fuel ([','].intercalate (stringifyEntries entries) ++ '}' :: rest) =
      some (rereadEntries entries, rest) := by
  induction entries generalizing fuel with
  | nil => exact absurd rfl hsome
  | cons entry entries ih =>
    obtain ⟨key, v⟩ := entry
    obtain ⟨hv, hentries⟩ := List.forall_mem_cons.mp hall
    replace hv : ReadsBack v := hv
    have hpos := length_stringify_pos v
    have hspace : isSpace ',' = false ∧ isSpace '}' = false ∧ isSpace ':' = false := by decide
    cases entries with
    | nil =>
      simp only [stringifyEntries, List.intercalate_singleton, List.length_append,
        List.length_cons] at hfuel ⊢
      obtain ⟨fuel, rfl⟩ : ∃ n, fuel = n + 1 := ⟨fuel - 1, by omega⟩
      have hfirst := hv fuel ('}' :: rest) (by omega) (follows_cons (Or.inr (Or.inr rfl)))
      simp only [List.append_assoc, List.cons_append]
      simp [parseEntries, parseString_quote_token, token_cons hspace.2.2, hfirst,
        token_cons hspace.2.1, rereadEntries]
    | cons entry entries =>
      obtain ⟨key', v'⟩ := entry
      simp only [stringifyEntries, List.intercalate_cons_cons, List.length_append, List.length_cons,
        List.length_nil] at hfuel ih ⊢
      obtain ⟨fuel, rfl⟩ : ∃ n, fuel = n + 1 := ⟨fuel - 1, by omega⟩
      have hfirst := hv fuel (',' :: ([','].intercalate ((quote key' ++ ':' :: stringify v') ::
        stringifyEntries entries) ++ '}' :: rest)) (by omega) (follows_cons (Or.inl rfl))
      have hmore := @ih fuel hentries (by simp) (by omega)
      simp only [List.append_assoc, List.cons_append, List.nil_append]
      simp [parseEntries, parseString_quote_token, token_cons hspace.2.2, hfirst,
        token_cons hspace.1, hmore, rereadEntries]

/-- A value takes a call at least. -/
theorem readsBack_of_succ (h : ∀ (fuel : ℕ) (rest : Text), 2 * (stringify v).length ≤ fuel + 2 →
    Follows rest → parseValue (fuel + 1) (stringify v ++ rest) = some (v.reread, rest)) :
    ReadsBack v := by
  intro fuel rest hfuel hrest
  have hpos := length_stringify_pos v
  obtain ⟨fuel, rfl⟩ : ∃ n, fuel = n + 1 := ⟨fuel - 1, by omega⟩
  exact h fuel rest hfuel hrest

/-- **Every value is read back from its text.** -/
theorem readsBack (v : Value ν) : ReadsBack v := by
  have hspace : isSpace '{' = false ∧ isSpace '[' = false ∧ isSpace '"' = false ∧
      isSpace 'n' = false ∧ isSpace 't' = false ∧ isSpace 'f' = false ∧ isSpace ']' = false ∧
      isSpace '}' = false := by decide
  induction v using Value.induct with
  | null =>
    refine readsBack_of_succ fun fuel rest hfuel hrest => ?_
    simp [stringify, parseValue, token_cons, skip_cons, hspace, parseWord, List.isPrefixOf?,
      Value.reread]
  | bool b =>
    refine readsBack_of_succ fun fuel rest hfuel hrest => ?_
    cases b <;> simp [stringify, parseValue, token_cons, skip_cons, hspace, parseWord,
      List.isPrefixOf?, Value.reread]
  | num n =>
    refine readsBack_of_succ fun fuel rest hfuel hrest => ?_
    rcases hrender : Numbers.render n with _ | numeral
    · simp [stringify, hrender, parseValue, token_cons, skip_cons, hspace, parseWord,
        List.isPrefixOf?, Value.reread]
    · have hnumeral := Numbers.isNumeral_render hrender
      have hread := @parseNumeral_append ν _ _ _ hnumeral hrest
      obtain ⟨c, text, rfl, hc⟩ := exists_of_isNumeral hnumeral
      have hspace' := isSpace_of_start hc
      have hword := @parseWord_of_ne ν (text ++ rest) c (ne_of_start hc (by decide))
        (ne_of_start hc (by decide)) (ne_of_start hc (by decide))
      have hobject := ne_of_start hc (d := '{') (by decide)
      have harray := ne_of_start hc (d := '[') (by decide)
      have hstring := ne_of_start hc (d := '"') (by decide)
      rw [List.cons_append] at hread
      simp [stringify, hrender, parseValue, token_cons, hspace', hobject, harray, hstring,
        skip_cons, hword, hread, Value.reread]
  | str s =>
    refine readsBack_of_succ fun fuel rest hfuel hrest => ?_
    simp [stringify, quote, parseValue, token_cons, hspace, parseString_quote, Value.reread]
  | arr items ih =>
    refine readsBack_of_succ fun fuel rest hfuel hrest => ?_
    simp only [stringify, List.length_cons, List.length_append, List.length_nil] at hfuel
    cases items with
    | nil =>
      simp [stringify, stringifyItems, parseValue, token_cons, hspace, Value.reread, rereadItems]
    | cons v items =>
      have hitems := @parseItems_stringifyItems ν _ (v :: items) rest fuel ih (by simp) (by omega)
      -- the first item is no end of the array
      have hopen : token ']' ([','].intercalate (stringifyItems (v :: items)) ++ ']' :: rest) = none := by
        obtain ⟨c, text, htext, hc, hne⟩ := exists_stringify_cons v
        cases items with
        | nil => simp [stringifyItems, htext, token_cons hc, hne]
        | cons v' items => simp [stringifyItems, htext, token_cons hc, hne]
      simp only [stringify, List.cons_append, List.append_assoc, List.nil_append]
      simp [parseValue, token_cons, hspace, hopen, hitems, Value.reread]
  | obj entries ih =>
    refine readsBack_of_succ fun fuel rest hfuel hrest => ?_
    simp only [stringify, List.length_cons, List.length_append, List.length_nil] at hfuel
    cases entries with
    | nil =>
      simp [stringify, stringifyEntries, parseValue, token_cons, hspace, Value.reread,
        rereadEntries, ofEntries]
    | cons entry entries =>
      obtain ⟨key, v⟩ := entry
      have hentries := @parseEntries_stringifyEntries ν _ ((key, v) :: entries) rest fuel ih (by simp)
        (by omega)
      -- the first key is no end of the object
      have hopen : token '}' ([','].intercalate (stringifyEntries ((key, v) :: entries)) ++
          '}' :: rest) = none := by
        cases entries with
        | nil => simp [stringifyEntries, quote, token_cons, hspace]
        | cons entry entries => simp [stringifyEntries, quote, token_cons, hspace]
      simp only [stringify, List.cons_append, List.append_assoc, List.nil_append]
      simp [parseValue, token_cons, hspace, hopen, hentries, Value.reread]

/-- **The document of a value is the value, reread.** -/
theorem parse_stringify (v : Value ν) : parse (stringify v) = some v.reread := by
  have hread := readsBack v (2 * (stringify v).length + 1) [] (by omega) follows_nil
  rw [List.append_nil] at hread
  unfold parse
  rw [hread]
  rfl

end Values

/-! ### The bound on the calls -/

section Calls

variable {ν α : Type}

/-- A string ends where it ends, whatever comes after it. -/
theorem parseChars_local {high : Option ℕ} {escape : Escape} {text s rest : Text}
    (h : parseChars high escape text = some (s, rest)) : ∃ used, text = used ++ rest ∧
      ∀ more, parseChars high escape (used ++ more) = some (s, more) := by
  induction text generalizing high escape s with
  | nil => cases escape <;> cases h
  | cons c text ih =>
    cases escape with
    | none =>
      unfold parseChars at h
      split_ifs at h with hquote hbackslash hcontrol
      · obtain ⟨rfl, rfl⟩ := Prod.mk.inj (Option.some.inj h)
        exact ⟨[c], rfl, fun more => by simp [parseChars, hquote]⟩
      · obtain ⟨used, rfl, hused⟩ := ih h
        exact ⟨c :: used, rfl, fun more => by simp [parseChars, hbackslash, hused]⟩
      · obtain ⟨⟨s', rest'⟩, hchars, hrest⟩ := Option.map_eq_some_iff.mp h
        obtain ⟨rfl, rfl⟩ := Prod.mk.inj hrest
        obtain ⟨used, rfl, hused⟩ := ih hchars
        exact ⟨c :: used, rfl, fun more => by
          simp [parseChars, hquote, hbackslash, hcontrol, hused]⟩
    | backslash =>
      unfold parseChars at h
      split_ifs at h with hunit
      · obtain ⟨used, rfl, hused⟩ := ih h
        exact ⟨c :: used, rfl, fun more => by simp [parseChars, hunit, hused]⟩
      · rcases hletter : unescape? c with _ | letter
        · rw [hletter] at h
          cases h
        · rw [hletter] at h
          obtain ⟨⟨s', rest'⟩, hchars, hrest⟩ := Option.map_eq_some_iff.mp h
          obtain ⟨rfl, rfl⟩ := Prod.mk.inj hrest
          obtain ⟨used, rfl, hused⟩ := ih hchars
          exact ⟨c :: used, rfl, fun more => by simp [parseChars, hunit, hletter, hused]⟩
    | unit owed code =>
      unfold parseChars at h
      rcases hdigit : hexValue? c with _ | value
      · rw [hdigit] at h
        cases h
      · rw [hdigit] at h
        simp only at h
        split_ifs at h with hlast
        · obtain ⟨⟨s', rest'⟩, hchars, hrest⟩ := Option.map_eq_some_iff.mp h
          obtain ⟨rfl, rfl⟩ := Prod.mk.inj hrest
          obtain ⟨used, rfl, hused⟩ := ih hchars
          exact ⟨c :: used, rfl, fun more => by simp [parseChars, hdigit, hlast, hused]⟩
        · obtain ⟨used, rfl, hused⟩ := ih h
          exact ⟨c :: used, rfl, fun more => by simp [parseChars, hdigit, hlast, hused]⟩

/-- What was read, the fuel that reading it takes, and what may come after it. -/
structure Reads (read : ℕ → Text → Option (α × Text)) (slack : ℕ) (Safe : Text → Prop)
    (text : Text) (a : α) (rest : Text) (used : Text) : Prop where
  eq : text = used ++ rest
  solid : skip used ≠ []
  safe : Safe rest
  again : ∀ fuel more, 2 * used.length ≤ fuel + slack → Safe more →
    read fuel (used ++ more) = some (a, more)

/-- What may come after a value: after a number, nothing that could go on with it. -/
def Value.Safe (v : Value ν) (more : Text) : Prop :=
  ∀ n, v = .num n → ∀ c ∈ more.head?, isNumeralChar c = false

theorem safe_arr {items : List (Value ν)} (more : Text) : (Value.arr items).Safe more := by
  intro n hn
  cases hn

theorem safe_obj {entries : Entries ν} (more : Text) : (Value.obj entries).Safe more := by
  intro n hn
  cases hn

theorem safe_cons {v : Value ν} {spaces : Text} {c : Char} {more : Text}
    (h : ∀ c ∈ spaces, isSpace c = true) (hc : isNumeralChar c = false) :
    v.Safe (spaces ++ c :: more) := by
  intro _ _ c' hc'
  rcases spaces with _ | ⟨space, spaces⟩
  · obtain rfl := Option.some.inj hc'
    exact hc
  · obtain rfl := Option.some.inj hc'
    have hspace := h space List.mem_cons_self
    simp only [isSpace, Bool.or_eq_true, decide_eq_true_eq] at hspace
    rcases hspace with ((rfl | rfl) | rfl) | rfl <;> decide

section Words

variable {v : Value ν} {text rest : Text}

theorem isSpace_of_skip {c : Char} (h : skip text = c :: rest) : isSpace c = false := by
  have hne : text.dropWhile isSpace ≠ [] := by
    unfold skip at h
    simp [h]
  have hhead := List.head_dropWhile_not isSpace hne
  unfold skip at h
  simpa [h] using hhead

/-- What a word is made of. -/
theorem parseWord_local (h : parseWord text = some (v, rest)) : ∃ c used, text = c :: used ++ rest ∧
    (∀ n, v ≠ .num n) ∧ ∀ more, parseWord (c :: used ++ more) = some (v, more) := by
  have hword : ∀ {c : Char} {word after : Text}, (c :: word).isPrefixOf? text = some after →
      text = c :: word ++ after := by
    intro c word after hstart
    exact (List.isPrefixOf?_eq_some_iff_append_eq.mp hstart).symm
  unfold parseWord at h
  split at h
  · rename_i after hnull
    obtain ⟨rfl, rfl⟩ := Prod.mk.inj (Option.some.inj h)
    exact ⟨_, _, hword hnull, by simp, fun more => rfl⟩
  · split at h
    · rename_i after htrue
      obtain ⟨rfl, rfl⟩ := Prod.mk.inj (Option.some.inj h)
      exact ⟨_, _, hword htrue, by simp, fun more => rfl⟩
    · obtain ⟨after, hfalse, heq⟩ := Option.map_eq_some_iff.mp h
      obtain ⟨rfl, rfl⟩ := Prod.mk.inj heq
      exact ⟨_, _, hword hfalse, by simp, fun more => rfl⟩

end Words

section Reading

variable [Numbers ν] {v : Value ν} {items : List (Value ν)} {entries : Entries ν} {text rest : Text}
  {fuel : ℕ}

/-- What a numeral is made of, and what may come after it. -/
theorem parseNumeral_local (h : parseNumeral text = some (v, rest)) :
    ∃ c used, text = c :: used ++ rest ∧ (c = '-' ∨ c.isDigit = true) ∧ v.Safe rest ∧
      ∀ more, v.Safe more → parseNumeral (c :: used ++ more) = some (v, more) := by
  unfold parseNumeral at h
  simp only at h
  split_ifs at h with hnumeral
  obtain ⟨rfl, rfl⟩ := Prod.mk.inj (Option.some.inj h)
  obtain ⟨c, used, hused, hc⟩ := exists_of_isNumeral hnumeral
  have hall := List.all_eq_true.mp (all_of_isNumeral hnumeral)
  have hsplit := (List.takeWhile_append_dropWhile (p := isNumeralChar) (l := text)).symm
  rw [hused] at hnumeral hall hsplit
  refine ⟨c, used, hsplit, hc, ?_, ?_⟩
  · intro n hn d hd
    rcases hrest : text.dropWhile isNumeralChar with _ | ⟨first, after⟩
    · rw [hrest] at hd
      cases hd
    · rw [hrest] at hd
      obtain rfl := Option.some.inj hd
      have hhead := List.head_dropWhile_not isNumeralChar (l := text) (by simp [hrest])
      simpa [hrest] using hhead
  · intro more hmore
    have hstop : more.takeWhile isNumeralChar = [] ∧ more.dropWhile isNumeralChar = more := by
      rcases more with _ | ⟨d, more⟩
      · simp
      · simp [hmore _ rfl d rfl]
    unfold parseNumeral
    rw [List.takeWhile_append_of_pos hall, List.dropWhile_append_of_pos hall, hstop.1, hstop.2,
      List.append_nil, ← hused]
    rw [← hused] at hnumeral
    exact if_pos hnumeral

/-- A value was read. -/
abbrev ReadsValue (text : Text) (v : Value ν) (rest used : Text) : Prop :=
  Reads parseValue 1 v.Safe text v rest used

/-- The items of an array were read, to its end. -/
abbrev ReadsItems (text : Text) (items : List (Value ν)) (rest used : Text) : Prop :=
  Reads parseItems 2 (fun _ => True) text items rest used

/-- The properties of an object were read, to its end. -/
abbrev ReadsEntries (text : Text) (entries : Entries ν) (rest used : Text) : Prop :=
  Reads parseEntries 2 (fun _ => True) text entries rest used

theorem exists_of_token {c : Char} (h : token c text = some rest) :
    ∃ spaces : Text, (∀ c ∈ spaces, isSpace c = true) ∧ text = spaces ++ c :: rest ∧
      isSpace c = false := by
  have hskip := skip_of_token h
  obtain ⟨spaces, hspaces, htext⟩ := exists_spaces text
  rw [hskip] at htext
  exact ⟨spaces, hspaces, htext, isSpace_of_skip hskip⟩

theorem token_again {c : Char} {spaces more : Text} (h : ∀ c ∈ spaces, isSpace c = true)
    (hc : isSpace c = false) : token c (spaces ++ c :: more) = some more := by
  rw [token_spaces h, token_cons hc, if_pos rfl]

theorem skip_ne_nil {c : Char} {spaces used : Text} (h : ∀ c ∈ spaces, isSpace c = true)
    (hc : isSpace c = false) : skip (spaces ++ c :: used) ≠ [] := by
  rw [skip_spaces h, skip_cons hc]
  exact List.cons_ne_nil _ _

/-- What is read without a bracket or a quote. -/
theorem reads_leaf (hobject : token '{' text = none) (harray : token '[' text = none)
    (hstring : token '"' text = none)
    (h : (parseWord (skip text)).or (parseNumeral (skip text)) = some (v, rest)) :
    ∃ used, ReadsValue text v rest used := by
  obtain ⟨spaces, hspaces, htext⟩ := exists_spaces text
  obtain ⟨c, used, hused, hsafe, hagain⟩ : ∃ c used, skip text = c :: used ++ rest ∧ v.Safe rest ∧
      ∀ more, v.Safe more → (parseWord (c :: used ++ more)).or (parseNumeral (c :: used ++ more)) =
        some (v, more) := by
    rcases hword : (parseWord (skip text) : Option (Value ν × Text)) with _ | ⟨v', rest'⟩
    · rw [hword, Option.none_or] at h
      obtain ⟨c, used, hused, hc, hsafe, hagain⟩ := parseNumeral_local h
      refine ⟨c, used, hused, hsafe, fun more hmore => ?_⟩
      have hnone := @parseWord_of_ne ν (used ++ more) c (ne_of_start hc (by decide))
        (ne_of_start hc (by decide)) (ne_of_start hc (by decide))
      rw [List.cons_append, hnone, Option.none_or]
      exact hagain more hmore
    · rw [hword, Option.some_or] at h
      obtain ⟨rfl, rfl⟩ := Prod.mk.inj (Option.some.inj h)
      obtain ⟨c, used, hused, hnum, hagain⟩ := parseWord_local hword
      refine ⟨c, used, hused, fun n hn => absurd hn (hnum n), fun more _ => ?_⟩
      rw [hagain, Option.some_or]
  have hc : isSpace c = false := isSpace_of_skip hused
  rw [hused, ← List.append_assoc] at htext
  have hsolid := @skip_ne_nil c spaces used hspaces hc
  refine ⟨spaces ++ c :: used, htext, hsolid, hsafe, fun fuel more hfuel hmore => ?_⟩
  obtain ⟨fuel, rfl⟩ : ∃ n, fuel = n + 1 := by
    simp only [List.length_append, List.length_cons] at hfuel
    exact ⟨fuel - 1, by omega⟩
  rw [htext] at hobject harray hstring
  have hskip : skip (spaces ++ c :: used ++ more) = c :: used ++ more := by
    rw [List.append_assoc, skip_spaces hspaces]
    exact skip_cons hc
  simp only [parseValue, token_none_of_append hsolid hobject, token_none_of_append hsolid harray,
    token_none_of_append hsolid hstring, hskip]
  exact hagain more hmore

/-- What is read between quotes. -/
theorem reads_string {s after : Text} (hobject : token '{' text = none)
    (harray : token '[' text = none) (hstring : token '"' text = some after)
    (h : parseString after = some (s, rest)) :
    ∃ used, ReadsValue text (.str s : Value ν) rest used := by
  obtain ⟨spaces, hspaces, rfl, hquote⟩ := exists_of_token hstring
  obtain ⟨used, rfl, hagain⟩ := parseChars_local h
  have hsolid := @skip_ne_nil '"' spaces used hspaces hquote
  rw [← List.cons_append, ← List.append_assoc] at hobject harray
  refine ⟨spaces ++ '"' :: used, by simp, hsolid, by simp [Value.Safe], fun fuel more hfuel _ => ?_⟩
  obtain ⟨fuel, rfl⟩ : ∃ n, fuel = n + 1 := by
    simp only [List.length_append, List.length_cons] at hfuel
    exact ⟨fuel - 1, by omega⟩
  have hopen : token '"' (spaces ++ '"' :: used ++ more) = some (used ++ more) := by
    rw [List.append_assoc]
    exact token_again hspaces hquote
  have hchars : parseString (used ++ more) = some (s, more) := hagain more
  simp only [parseValue, token_none_of_append hsolid hobject, token_none_of_append hsolid harray,
    hopen, hchars, Option.map_some]

theorem reads_empty_object {after : Text} (hobject : token '{' text = some after)
    (hclose : token '}' after = some rest) :
    ∃ used, ReadsValue text (.obj [] : Value ν) rest used := by
  obtain ⟨spaces, hspaces, rfl, hopens⟩ := exists_of_token hobject
  obtain ⟨spaces', hspaces', rfl, hcloses⟩ := exists_of_token hclose
  refine ⟨spaces ++ '{' :: (spaces' ++ ['}']), by simp, skip_ne_nil hspaces hopens, safe_obj rest,
    fun fuel more hfuel _ => ?_⟩
  obtain ⟨fuel, rfl⟩ : ∃ n, fuel = n + 1 := by
    simp only [List.length_append, List.length_cons] at hfuel
    exact ⟨fuel - 1, by omega⟩
  have hobject' := @token_again '{' spaces (spaces' ++ '}' :: more) hspaces hopens
  have hclose' := @token_again '}' spaces' more hspaces' hcloses
  simp only [List.append_assoc, List.cons_append, List.nil_append]
  simp only [parseValue, hobject', hclose']

theorem reads_object {after : Text} (hobject : token '{' text = some after)
    (hopen : token '}' after = none) (h : ∃ used, ReadsEntries after entries rest used) :
    ∃ used, ReadsValue text (.obj (ofEntries entries)) rest used := by
  obtain ⟨spaces, hspaces, rfl, hopens⟩ := exists_of_token hobject
  obtain ⟨used, rfl, hsolid, -, hagain⟩ := h
  refine ⟨spaces ++ '{' :: used, by simp, skip_ne_nil hspaces hopens, safe_obj rest,
    fun fuel more hfuel _ => ?_⟩
  simp only [List.length_append, List.length_cons] at hfuel
  obtain ⟨fuel, rfl⟩ : ∃ n, fuel = n + 1 := ⟨fuel - 1, by omega⟩
  have hobject' := @token_again '{' spaces (used ++ more) hspaces hopens
  have hopen' := @token_none_of_append '}' used rest more hsolid hopen
  have hentries := hagain fuel more (by omega) trivial
  simp only [List.append_assoc, List.cons_append]
  simp only [parseValue, hobject', hopen', hentries, Option.map_some]

theorem reads_empty_array {after : Text} (harray : token '[' text = some after) (hclose : token ']' after = some rest) :
    ∃ used, ReadsValue text (.arr [] : Value ν) rest used := by
  obtain ⟨spaces, hspaces, rfl, hopens⟩ := exists_of_token harray
  obtain ⟨spaces', hspaces', rfl, hcloses⟩ := exists_of_token hclose
  have hobject' : ∀ more, token '{' (spaces ++ '[' :: more) = none := by
    intro more
    rw [token_spaces hspaces, token_cons hopens]
    rfl
  refine ⟨spaces ++ '[' :: (spaces' ++ [']']), by simp, skip_ne_nil hspaces hopens, safe_arr rest,
    fun fuel more hfuel _ => ?_⟩
  obtain ⟨fuel, rfl⟩ : ∃ n, fuel = n + 1 := by
    simp only [List.length_append, List.length_cons] at hfuel
    exact ⟨fuel - 1, by omega⟩
  have harray' := @token_again '[' spaces (spaces' ++ ']' :: more) hspaces hopens
  have hclose' := @token_again ']' spaces' more hspaces' hcloses
  simp only [List.append_assoc, List.cons_append, List.nil_append]
  simp only [parseValue, hobject', harray', hclose']

theorem reads_array {after : Text} (harray : token '[' text = some after)
    (hopen : token ']' after = none) (h : ∃ used, ReadsItems after items rest used) :
    ∃ used, ReadsValue text (.arr items) rest used := by
  obtain ⟨spaces, hspaces, rfl, hopens⟩ := exists_of_token harray
  obtain ⟨used, rfl, hsolid, -, hagain⟩ := h
  have hobject' : ∀ more, token '{' (spaces ++ '[' :: more) = none := by
    intro more
    rw [token_spaces hspaces, token_cons hopens]
    rfl
  refine ⟨spaces ++ '[' :: used, by simp, skip_ne_nil hspaces hopens, safe_arr rest,
    fun fuel more hfuel _ => ?_⟩
  simp only [List.length_append, List.length_cons] at hfuel
  obtain ⟨fuel, rfl⟩ : ∃ n, fuel = n + 1 := ⟨fuel - 1, by omega⟩
  have harray' := @token_again '[' spaces (used ++ more) hspaces hopens
  have hopen' := @token_none_of_append ']' used rest more hsolid hopen
  have hitems := hagain fuel more (by omega) trivial
  simp only [List.append_assoc, List.cons_append]
  simp only [parseValue, hobject', harray', hopen', hitems, Option.map_some]

/-- The last item of an array. -/
theorem reads_last_item {after : Text} (h : ∃ used, ReadsValue text v after used)
    (hcomma : token ',' after = none) (hclose : token ']' after = some rest) :
    ∃ used, ReadsItems text [v] rest used := by
  obtain ⟨used, rfl, hsolid, -, hagain⟩ := h
  obtain ⟨spaces, hspaces, rfl, hcloses⟩ := exists_of_token hclose
  refine ⟨used ++ (spaces ++ [']']), by simp, ?_, trivial, fun fuel more hfuel _ => ?_⟩
  · rw [skip_append hsolid]
    simp [hsolid]
  have hpos := length_pos_of_skip hsolid
  simp only [List.length_append, List.length_cons] at hfuel
  obtain ⟨fuel, rfl⟩ : ∃ n, fuel = n + 1 := ⟨fuel - 1, by omega⟩
  have hitem := hagain fuel (spaces ++ ']' :: more) (by omega) (safe_cons hspaces (by decide))
  have hcomma' : token ',' (spaces ++ ']' :: more) = none := by
    rw [token_spaces hspaces, token_cons hcloses]
    rfl
  have hclose' := @token_again ']' spaces more hspaces hcloses
  simp only [List.append_assoc, List.cons_append, List.nil_append]
  simp only [parseItems, hitem, hcomma', hclose', Option.map_some]

/-- An item, and those after it. -/
theorem reads_item {after after' : Text} (h : ∃ used, ReadsValue text v after used)
    (hcomma : token ',' after = some after') (hmore : ∃ used, ReadsItems after' items rest used) :
    ∃ used, ReadsItems text (v :: items) rest used := by
  obtain ⟨used, rfl, hsolid, -, hagain⟩ := h
  obtain ⟨spaces, hspaces, rfl, hcommas⟩ := exists_of_token hcomma
  obtain ⟨used', rfl, -, -, hagain'⟩ := hmore
  refine ⟨used ++ (spaces ++ ',' :: used'), by simp, ?_, trivial, fun fuel more hfuel _ => ?_⟩
  · rw [skip_append hsolid]
    simp [hsolid]
  have hpos := length_pos_of_skip hsolid
  simp only [List.length_append, List.length_cons] at hfuel
  obtain ⟨fuel, rfl⟩ : ∃ n, fuel = n + 1 := ⟨fuel - 1, by omega⟩
  have hitem := hagain fuel (spaces ++ ',' :: (used' ++ more)) (by omega)
    (safe_cons hspaces (by decide))
  have hcomma' := @token_again ',' spaces (used' ++ more) hspaces hcommas
  have hitems := hagain' fuel more (by omega) trivial
  simp only [List.append_assoc, List.cons_append]
  simp only [parseItems, hitem, hcomma', hitems, Option.map_some]

/-- A key and its colon. -/
theorem reads_key {key after after' : Text} (hkey : (token '"' text).bind parseString = some (key, after))
    (hcolon : token ':' after = some after') : ∃ used, text = used ++ after' ∧ skip used ≠ [] ∧
      ∀ more, ∃ colon, (token '"' (used ++ more)).bind parseString = some (key, colon) ∧
        token ':' colon = some more := by
  obtain ⟨chars, hquote, hchars⟩ := Option.bind_eq_some_iff.mp hkey
  obtain ⟨spaces, hspaces, rfl, hquotes⟩ := exists_of_token hquote
  obtain ⟨used, rfl, hagain⟩ := parseChars_local hchars
  obtain ⟨spaces', hspaces', rfl, hcolons⟩ := exists_of_token hcolon
  refine ⟨spaces ++ '"' :: (used ++ (spaces' ++ [':'])), by simp, skip_ne_nil hspaces hquotes,
    fun more => ⟨spaces' ++ ':' :: more, ?_, token_again hspaces' hcolons⟩⟩
  have hquote' := @token_again '"' spaces (used ++ (spaces' ++ ':' :: more)) hspaces hquotes
  simp only [List.append_assoc, List.cons_append, List.nil_append]
  rw [hquote']
  exact hagain _

/-- The last property of an object. -/
theorem reads_last_entry {key colon after after' : Text}
    (hkey : (token '"' text).bind parseString = some (key, colon))
    (hcolon : token ':' colon = some after') (h : ∃ used, ReadsValue after' v after used)
    (hcomma : token ',' after = none) (hclose : token '}' after = some rest) :
    ∃ used, ReadsEntries text [(key, v)] rest used := by
  obtain ⟨named, rfl, hsolid, hnamed⟩ := reads_key hkey hcolon
  obtain ⟨used, rfl, -, -, hagain⟩ := h
  obtain ⟨spaces, hspaces, rfl, hcloses⟩ := exists_of_token hclose
  refine ⟨named ++ (used ++ (spaces ++ ['}'])), by simp, ?_, trivial, fun fuel more hfuel _ => ?_⟩
  · rw [skip_append hsolid]
    simp [hsolid]
  have hpos := length_pos_of_skip hsolid
  simp only [List.length_append, List.length_cons] at hfuel
  obtain ⟨fuel, rfl⟩ : ∃ n, fuel = n + 1 := ⟨fuel - 1, by omega⟩
  obtain ⟨colon', hkey', hcolon'⟩ := hnamed (used ++ (spaces ++ '}' :: more))
  have hvalue := hagain fuel (spaces ++ '}' :: more) (by omega) (safe_cons hspaces (by decide))
  have hcomma' : token ',' (spaces ++ '}' :: more) = none := by
    rw [token_spaces hspaces, token_cons hcloses]
    rfl
  have hclose' := @token_again '}' spaces more hspaces hcloses
  simp only [List.append_assoc, List.cons_append, List.nil_append]
  simp only [parseEntries, hkey', hcolon', Option.bind_some, hvalue, hcomma', hclose',
    Option.map_some]

/-- A property, and those after it. -/
theorem reads_entry {key colon after after' after'' : Text}
    (hkey : (token '"' text).bind parseString = some (key, colon))
    (hcolon : token ':' colon = some after') (h : ∃ used, ReadsValue after' v after used)
    (hcomma : token ',' after = some after'')
    (hmore : ∃ used, ReadsEntries after'' entries rest used) :
    ∃ used, ReadsEntries text ((key, v) :: entries) rest used := by
  obtain ⟨named, rfl, hsolid, hnamed⟩ := reads_key hkey hcolon
  obtain ⟨used, rfl, -, -, hagain⟩ := h
  obtain ⟨spaces, hspaces, rfl, hcommas⟩ := exists_of_token hcomma
  obtain ⟨used', rfl, -, -, hagain'⟩ := hmore
  refine ⟨named ++ (used ++ (spaces ++ ',' :: used')), by simp, ?_, trivial,
    fun fuel more hfuel _ => ?_⟩
  · rw [skip_append hsolid]
    simp [hsolid]
  have hpos := length_pos_of_skip hsolid
  simp only [List.length_append, List.length_cons] at hfuel
  obtain ⟨fuel, rfl⟩ : ∃ n, fuel = n + 1 := ⟨fuel - 1, by omega⟩
  obtain ⟨colon', hkey', hcolon'⟩ := hnamed (used ++ (spaces ++ ',' :: (used' ++ more)))
  have hvalue := hagain fuel (spaces ++ ',' :: (used' ++ more)) (by omega)
    (safe_cons hspaces (by decide))
  have hcomma' := @token_again ',' spaces (used' ++ more) hspaces hcommas
  have hentries := hagain' fuel more (by omega) trivial
  simp only [List.append_assoc, List.cons_append]
  simp only [parseEntries, hkey', hcolon', Option.bind_some, hvalue, hcomma', hentries,
    Option.map_some]

/-- **What is read is read again**, with more fuel, and in front of another text. -/
theorem reads_parse (fuel : ℕ) :
    (∀ (text : Text) (v : Value ν) (rest : Text), parseValue fuel text = some (v, rest) →
      ∃ used, ReadsValue text v rest used) ∧
    (∀ (text : Text) (items : List (Value ν)) (rest : Text),
      parseItems fuel text = some (items, rest) → ∃ used, ReadsItems text items rest used) ∧
    (∀ (text : Text) (entries : Entries ν) (rest : Text),
      parseEntries fuel text = some (entries, rest) → ∃ used, ReadsEntries text entries rest used) := by
  induction fuel with
  | zero =>
    refine ⟨fun _ _ _ h => ?_, fun _ _ _ h => ?_, fun _ _ _ h => ?_⟩
    · cases h
    · cases h
    · cases h
  | succ fuel ih =>
    obtain ⟨ihv, ihitems, ihentries⟩ := ih
    refine ⟨fun text v rest h => ?_, fun text items rest h => ?_, fun text entries rest h => ?_⟩
    · unfold parseValue at h
      split at h
      · rename_i after hobject
        split at h
        · rename_i after' hclose
          obtain ⟨rfl, rfl⟩ := Prod.mk.inj (Option.some.inj h)
          exact reads_empty_object hobject hclose
        · rename_i hopen
          obtain ⟨⟨entries, rest'⟩, hentries, heq⟩ := Option.map_eq_some_iff.mp h
          obtain ⟨rfl, rfl⟩ := Prod.mk.inj heq
          exact reads_object hobject hopen (ihentries _ _ _ hentries)
      · rename_i hobject
        split at h
        · rename_i after harray
          split at h
          · rename_i after' hclose
            obtain ⟨rfl, rfl⟩ := Prod.mk.inj (Option.some.inj h)
            exact reads_empty_array harray hclose
          · rename_i hopen
            obtain ⟨⟨items, rest'⟩, hitems, heq⟩ := Option.map_eq_some_iff.mp h
            obtain ⟨rfl, rfl⟩ := Prod.mk.inj heq
            exact reads_array harray hopen (ihitems _ _ _ hitems)
        · rename_i harray
          split at h
          · rename_i after hstring
            obtain ⟨⟨s, rest'⟩, hchars, heq⟩ := Option.map_eq_some_iff.mp h
            obtain ⟨rfl, rfl⟩ := Prod.mk.inj heq
            exact reads_string hobject harray hstring hchars
          · rename_i hstring
            exact reads_leaf hobject harray hstring h
    · unfold parseItems at h
      split at h
      · cases h
      · rename_i v after hitem
        split at h
        · rename_i after' hcomma
          obtain ⟨⟨items', rest'⟩, hitems, heq⟩ := Option.map_eq_some_iff.mp h
          obtain ⟨rfl, rfl⟩ := Prod.mk.inj heq
          exact reads_item (ihv _ _ _ hitem) hcomma (ihitems _ _ _ hitems)
        · rename_i hcomma
          obtain ⟨rest', hclose, heq⟩ := Option.map_eq_some_iff.mp h
          obtain ⟨rfl, rfl⟩ := Prod.mk.inj heq
          exact reads_last_item (ihv _ _ _ hitem) hcomma hclose
    · unfold parseEntries at h
      split at h
      · cases h
      · rename_i key colon hkey
        split at h
        · cases h
        · rename_i v after hvalue
          obtain ⟨after', hcolon, hvalue⟩ := Option.bind_eq_some_iff.mp hvalue
          split at h
          · rename_i after'' hcomma
            obtain ⟨⟨entries', rest'⟩, hentries, heq⟩ := Option.map_eq_some_iff.mp h
            obtain ⟨rfl, rfl⟩ := Prod.mk.inj heq
            exact reads_entry hkey hcolon (ihv _ _ _ hvalue) hcomma (ihentries _ _ _ hentries)
          · rename_i hcomma
            obtain ⟨rest', hclose, heq⟩ := Option.map_eq_some_iff.mp h
            obtain ⟨rfl, rfl⟩ := Prod.mk.inj heq
            exact reads_last_entry hkey hcolon (ihv _ _ _ hvalue) hcomma hclose

/-- **The bound of `parse` cuts nothing off**: a text that is a value with any bound is a document. -/
theorem parse_of_parseValue (h : parseValue fuel text = some (v, rest)) (hrest : skip rest = []) :
    parse text = some v := by
  obtain ⟨used, htext, -, hsafe, hagain⟩ := (reads_parse fuel).1 text v rest h
  have hread := hagain (2 * text.length + 1) rest (by simp [htext]; omega) hsafe
  unfold parse
  rw [← htext] at hread
  simp [hread, hrest]

/-- Only a numeral is read as a number. -/
theorem start_of_num {n : ν} (h : parseValue fuel text = some (.num n, rest)) :
    ∃ c after, skip text = c :: after ∧ (c = '-' ∨ c.isDigit = true) := by
  cases fuel with
  | zero => cases h
  | succ fuel =>
    unfold parseValue at h
    split at h
    · split at h
      · cases h
      · obtain ⟨⟨entries, after⟩, -, heq⟩ := Option.map_eq_some_iff.mp h
        cases heq
    · split at h
      · split at h
        · cases h
        · obtain ⟨⟨items, after⟩, -, heq⟩ := Option.map_eq_some_iff.mp h
          cases heq
      · split at h
        · obtain ⟨⟨s, after⟩, -, heq⟩ := Option.map_eq_some_iff.mp h
          cases heq
        · rcases hword : (parseWord (skip text) : Option (Value ν × Text)) with _ | ⟨v, after⟩
          · rw [hword, Option.none_or] at h
            obtain ⟨c, used, hused, hc, -⟩ := parseNumeral_local h
            exact ⟨c, used ++ rest, hused, hc⟩
          · rw [hword, Option.some_or] at h
            obtain ⟨rfl, rfl⟩ := Prod.mk.inj (Option.some.inj h)
            obtain ⟨-, -, -, hnum, -⟩ := parseWord_local hword
            exact absurd rfl (hnum n)

/-- What does not begin like a number is no number. -/
theorem not_start_of_stringify (hnum : ∀ n, v ≠ .num n) :
    ∃ c after, stringify v = c :: after ∧ isSpace c = false ∧ ¬ (c = '-' ∨ c.isDigit = true) := by
  cases v with
  | null => exact ⟨_, _, rfl, by decide, by decide⟩
  | bool b => cases b <;> exact ⟨_, _, rfl, by decide, by decide⟩
  | num n => exact absurd rfl (hnum n)
  | str s => exact ⟨_, _, rfl, by decide, by decide⟩
  | arr items => exact ⟨_, _, rfl, by decide, by decide⟩
  | obj entries => exact ⟨_, _, rfl, by decide, by decide⟩

/-- **A document that is cut off is none**, unless it is a number. -/
theorem parse_eq_none_of_append {cut : Text} (h : stringify v = text ++ cut) (hcut : cut ≠ [])
    (hnum : ∀ n, v ≠ .num n) : (parse text : Option (Value ν)) = none := by
  rcases hparse : (parse text : Option (Value ν)) with _ | w
  · rfl
  exfalso
  unfold parse at hparse
  split at hparse
  · rename_i w' rest hvalue
    obtain ⟨used, htext, hsolid, -, hagain⟩ := (reads_parse _).1 text w' rest hvalue
    have hsafe : w'.Safe (rest ++ cut) := by
      rintro n rfl
      obtain ⟨c, after, hstart, hc⟩ := start_of_num hvalue
      obtain ⟨c', after', hfirst, hspace, hnot⟩ := not_start_of_stringify hnum
      -- the text begins like the value
      rcases text with _ | ⟨first, text⟩
      · cases hstart
      · rw [h, List.cons_append] at hfirst
        obtain ⟨rfl, -⟩ := List.cons.inj hfirst
        rw [skip_cons hspace] at hstart
        obtain ⟨rfl, -⟩ := List.cons.inj hstart
        exact absurd hc hnot
    have hread := hagain (2 * (stringify v).length + 1) (rest ++ cut) (by
      rw [h, htext]
      simp only [List.length_append]
      omega) hsafe
    have hback := readsBack v (2 * (stringify v).length + 1) [] (by omega) follows_nil
    rw [← List.append_assoc, ← htext, ← h] at hread
    rw [List.append_nil, hread] at hback
    have hnone := (Prod.mk.inj (Option.some.inj hback)).2
    exact hcut (List.append_eq_nil_iff.mp hnone).2
  · cases hparse

end Reading

end Calls

/-! ### Rereading -/

section Rereading

variable {ν : Type} [Numbers ν] {v : Value ν} {entries : Entries ν}

/-- An object in order is reread property by property. -/
theorem reread_obj (h : InOrder entries) :
    (Value.obj entries).reread = .obj (entries.map fun entry => (entry.1, entry.2.reread)) := by
  have horder := @inOrder_map ν entries (fun _ v => v.reread) h
  rw [Value.reread, rereadEntries_eq_map, ofEntries_of_inOrder horder]

/-- **A value that was reread stays as it is.** -/
theorem reread_reread (v : Value ν) : v.reread.reread = v.reread := by
  induction v using Value.induct with
  | null => rfl
  | bool b => rfl
  | num n =>
    rcases hrender : Numbers.render n with _ | numeral
    · simp [Value.reread, hrender]
    · simp [Value.reread, hrender, Numbers.render_read hrender]
  | str s => rfl
  | arr items ih =>
    simp only [Value.reread, rereadItems_eq_map, List.map_map]
    congr 1
    exact List.map_congr_left fun v hv => ih v hv
  | obj entries ih =>
    have horder : InOrder (ofEntries (rereadEntries entries)) := inOrder_ofEntries _
    have hfixed : ∀ entry ∈ ofEntries (rereadEntries entries), entry.2.reread = entry.2 := by
      intro entry hentry
      have hmem := mem_ofEntries hentry
      rw [rereadEntries_eq_map] at hmem
      obtain ⟨entry', hentry', rfl⟩ := List.mem_map.mp hmem
      exact ih entry' hentry'
    rw [Value.reread, reread_obj horder]
    congr 1
    have hmap : ∀ entries : Entries ν, (∀ entry ∈ entries, entry.2.reread = entry.2) →
        (entries.map fun entry => (entry.1, entry.2.reread)) = entries := by
      intro entries hall
      induction entries with
      | nil => rfl
      | cons entry entries ihs =>
        rw [List.map_cons, hall entry List.mem_cons_self,
          ihs fun entry' hentry' => hall entry' (List.mem_cons_of_mem _ hentry')]
    exact hmap _ hfixed

/-- **A value that was reread has the text it had.** -/
theorem stringify_reread (v : Value ν) (h : v.Ordered) : stringify v.reread = stringify v := by
  induction v using Value.induct with
  | null => rfl
  | bool b => rfl
  | num n =>
    rcases hrender : Numbers.render n with _ | numeral
    · simp [Value.reread, hrender, stringify]
    · simp [Value.reread, hrender, stringify, Numbers.render_read hrender]
  | str s => rfl
  | arr items ih =>
    have hitems : stringifyItems (rereadItems items) = stringifyItems items := by
      have hall := orderedItems_iff.mp h
      clear h
      induction items with
      | nil => rfl
      | cons v items ihs =>
        rw [rereadItems, stringifyItems, stringifyItems,
          ih v List.mem_cons_self (hall v List.mem_cons_self),
          ihs (fun w hw => ih w (List.mem_cons_of_mem _ hw)) fun w hw => hall w (List.mem_cons_of_mem _ hw)]
    rw [Value.reread, stringify, stringify, hitems]
  | obj entries ih =>
    have hentries : stringifyEntries (entries.map fun entry => (entry.1, entry.2.reread)) =
        stringifyEntries entries := by
      have hall := orderedEntries_iff.mp h.2
      clear h
      induction entries with
      | nil => rfl
      | cons entry entries ihs =>
        obtain ⟨key, v⟩ := entry
        have hv : stringify v.reread = stringify v := ih _ List.mem_cons_self (hall _ List.mem_cons_self)
        rw [List.map_cons, stringifyEntries, stringifyEntries, hv,
          ihs (fun w hw => ih w (List.mem_cons_of_mem _ hw)) fun w hw => hall w (List.mem_cons_of_mem _ hw)]
    rw [reread_obj h.1, stringify, stringify, hentries]

/-- A document that begins with a bracket is an array or an object. -/
theorem container_of_parse {text : Text} {c : Char} {rest : Text} (hskip : skip text = c :: rest)
    (hc : c = '{' ∨ c = '[') (h : parse text = some v) :
    (∃ items, v = .arr items) ∨ ∃ entries, v = .obj entries := by
  unfold parse at h
  split at h
  · rename_i w after hvalue
    split_ifs at h
    obtain rfl := Option.some.inj h
    unfold parseValue at hvalue
    have htoken : ∀ d, token d text = if c = d then some rest else none := by
      intro d
      unfold token
      rw [hskip]
    rcases hc with rfl | rfl
    · rw [htoken '{', if_pos rfl] at hvalue
      simp only at hvalue
      split at hvalue
      · obtain ⟨rfl, rfl⟩ := Prod.mk.inj (Option.some.inj hvalue)
        exact Or.inr ⟨_, rfl⟩
      · obtain ⟨⟨entries, after'⟩, -, heq⟩ := Option.map_eq_some_iff.mp hvalue
        obtain ⟨rfl, rfl⟩ := Prod.mk.inj heq
        exact Or.inr ⟨_, rfl⟩
    · rw [htoken '{', if_neg (by decide), htoken '[', if_pos rfl] at hvalue
      simp only at hvalue
      split at hvalue
      · obtain ⟨rfl, rfl⟩ := Prod.mk.inj (Option.some.inj hvalue)
        exact Or.inl ⟨_, rfl⟩
      · obtain ⟨⟨items, after'⟩, -, heq⟩ := Option.map_eq_some_iff.mp hvalue
        obtain ⟨rfl, rfl⟩ := Prod.mk.inj heq
        exact Or.inl ⟨_, rfl⟩
  · cases h

/-- What begins no value is none. -/
theorem parseValue_eq_none_of_start {text : Text} {c : Char} {rest : Text} {fuel : ℕ}
    (hskip : skip text = c :: rest) (hc : c ∉ ['{', '[', '"', 'n', 't', 'f'])
    (hnumeral : isNumeralChar c = false) : (parseValue fuel text : Option (Value ν × Text)) = none := by
  simp only [List.mem_cons, List.not_mem_nil, or_false, not_or] at hc
  obtain ⟨hobject, harray, hstring, hn, ht, hf⟩ := hc
  have htoken : ∀ d, c ≠ d → token d text = none := by
    intro d hd
    unfold token
    rw [hskip]
    exact if_neg hd
  cases fuel with
  | zero => rfl
  | succ fuel =>
    have hword : (parseWord (c :: rest) : Option (Value ν × Text)) = none := parseWord_of_ne hn ht hf
    have hnone : (parseNumeral (c :: rest) : Option (Value ν × Text)) = none := by
      simp [parseNumeral, hnumeral, isNumeral]
    simp [parseValue, htoken _ hobject, htoken _ harray, htoken _ hstring, hskip, hword, hnone]

theorem parse_eq_none_of_start {text : Text} {c : Char} {rest : Text} (hskip : skip text = c :: rest)
    (hc : c ∉ ['{', '[', '"', 'n', 't', 'f']) (hnumeral : isNumeralChar c = false) :
    (parse text : Option (Value ν)) = none := by
  unfold parse
  rw [parseValue_eq_none_of_start hskip hc hnumeral]

/-- Words in brackets are no array. -/
theorem parse_bracket_eq_none {c : Char} {rest : Text} (hspace : isSpace c = false)
    (hc : c ∉ ['{', '[', '"', 'n', 't', 'f', ']']) (hnumeral : isNumeralChar c = false) :
    (parse ('[' :: c :: rest) : Option (Value ν)) = none := by
  have hskip : skip (c :: rest) = c :: rest := skip_cons hspace
  have hstart : c ∉ ['{', '[', '"', 'n', 't', 'f'] := fun hmem => hc (by
    simp only [List.mem_cons, List.not_mem_nil, or_false] at hmem ⊢
    tauto)
  have hclose : token ']' (c :: rest) = none := by
    rw [token_cons hspace]
    refine if_neg ?_
    rintro rfl
    exact hc (by decide)
  have hitems : ∀ fuel, (parseItems fuel (c :: rest) : Option (List (Value ν) × Text)) = none := by
    intro fuel
    cases fuel with
    | zero => rfl
    | succ fuel => rw [parseItems, parseValue_eq_none_of_start hskip hstart hnumeral]
  have hbracket : isSpace '[' = false := by decide
  unfold parse
  rw [parseValue, token_cons hbracket, if_neg (by decide), token_cons hbracket, if_pos rfl]
  simp only [hclose, hitems, Option.map_none]

end Rereading

end Json
