import MiniCoder.Auth.Redaction
import MiniCoder.Library.JsonTexts

/-!
# The rule for fields on the text of a value

The first rule looks for a quoted name in the text of a value.  A name ends at a quote, and in a text a
quote ends a string or is escaped: so the rule finds the keys that end like the name of a secret, and it
takes a string behind one of them for a value that ends at its first quote.

* `replace_stringify`: what the rule makes of the text of a value.
-/

open Regex
open Json hiding Text

namespace MiniCoder

/-! ### Names -/

/-- Whether a name is one of the first rule, which does not look at the case of its letters. -/
def isFieldName (name : Text) : Bool :=
  secretFields.any fun field => field.map Char.toLower = name.map Char.toLower

/-- What stands behind the last quote of a key. -/
def lastName (key : Text) : Text := key.rtakeWhile fun c => c ≠ '"'

/-- What stands behind the first quote of a string, if it has one. -/
def behindQuote (s : Text) : Option Text := (s.dropWhile fun c => c ≠ '"').tail?

/-- The text that the first rule makes of a string: it takes the first quote for its end. -/
def maskedSecret (s : Text) : Text :=
  '"' :: (defaultReplacement ++ '"' ::
    ((behindQuote s).elim [] fun rest => rest.flatMap escape ++ ['"']))

section Names

variable {name : Text}

theorem isFieldName_iff : isFieldName name = true ↔
    ∃ field ∈ secretFields, List.Forall₂ (fun c d => same true c d = true) field name := by
  simp [isFieldName, forall₂_same_true]

/-- The characters of a name. -/
theorem plain_of_isFieldName (h : isFieldName name = true) :
    name ≠ [] ∧ ∀ c ∈ name, c ∉ ['"', '\\', ':', ',', ']', '}'] := by
  obtain ⟨field, hfield, hname⟩ := isFieldName_iff.mp h
  have hsome : ∀ field ∈ secretFields, field ≠ [] := by decide
  have hfields : ∀ field ∈ secretFields, ∀ d ∈ field,
      d.toLower ∉ ['"', '\\', ':', ',', ']', '}'].map Char.toLower := by
    have hall : (secretFields.all fun field => field.all fun d =>
        decide (d.toLower ∉ ['"', '\\', ':', ',', ']', '}'].map Char.toLower)) = true := by decide
    exact fun field hfield d hd => of_decide_eq_true
      (List.all_eq_true.mp (List.all_eq_true.mp hall field hfield) d hd)
  constructor
  · rintro rfl
    exact hsome field hfield (List.forall₂_nil_right_iff.mp hname)
  · intro c hc hmem
    obtain ⟨d, hd, heq⟩ := exists_of_mem_key hname hc
    refine hfields field hfield d hd ?_
    rw [heq]
    exact List.mem_map_of_mem hmem

theorem quote_not_mem_of_isFieldName (h : isFieldName name = true) : '"' ∉ name := fun hmem =>
  (plain_of_isFieldName h).2 _ hmem (by decide)

theorem lastName_of_not_mem (h : '"' ∉ name) : lastName name = name := by
  unfold lastName
  rw [List.rtakeWhile_eq_self_iff]
  intro c hc
  have hne : c ≠ '"' := by
    rintro rfl
    exact h hc
  simpa using hne

theorem lastName_append {before : Text} (h : '"' ∉ name) :
    lastName (before ++ '"' :: name) = name := by
  have hall : ∀ c ∈ name.reverse, decide (c ≠ '"') = true := by
    intro c hc
    have hne : c ≠ '"' := by
      rintro rfl
      exact h (List.mem_reverse.mp hc)
    simpa using hne
  unfold lastName List.rtakeWhile
  rw [List.reverse_append, List.reverse_cons, List.append_assoc,
    List.takeWhile_append_of_pos hall]
  simp

/-- A key is its last name, or ends with a quote and its last name. -/
theorem key_cases (key : Text) :
    key = lastName key ∨ ∃ before, key = before ++ '"' :: lastName key := by
  by_cases hmem : '"' ∈ key
  · obtain ⟨after, before, hsplit, hafter⟩ := List.eq_append_cons_of_mem (List.mem_reverse.mpr hmem)
    have hkey : key = before.reverse ++ '"' :: after.reverse := by
      rw [← List.reverse_reverse key, hsplit]
      simp
    right
    refine ⟨before.reverse, ?_⟩
    have hname : lastName key = after.reverse := by
      rw [hkey, lastName_append]
      simpa using hafter
    rw [hname]
    exact hkey
  · exact Or.inl (lastName_of_not_mem hmem).symm

theorem behindQuote_of_not_mem {s : Text} (h : '"' ∉ s) : behindQuote s = none := by
  unfold behindQuote
  rw [List.dropWhile_eq_nil_iff.mpr]
  · rfl
  · intro c hc
    have hne : c ≠ '"' := by
      rintro rfl
      exact h hc
    simpa using hne

theorem behindQuote_append {front rest : Text} (h : '"' ∉ front) :
    behindQuote (front ++ '"' :: rest) = some rest := by
  have hall : ∀ c ∈ front, decide (c ≠ '"') = true := by
    intro c hc
    have hne : c ≠ '"' := by
      rintro rfl
      exact h hc
    simpa using hne
  unfold behindQuote
  rw [List.dropWhile_append_of_pos hall]
  simp

end Names

/-! ### Escaped characters -/

section Escaped

variable {c : Char} {s name more after : Text}

theorem escape_quote : escape '"' = ['\\', '"'] := by decide

/-- A character stands for itself, or is escaped. -/
theorem escape_cases (c : Char) : escape c = [c] ∧ c ≠ '"' ∨ ∃ tail, escape c = '\\' :: tail := by
  unfold escape
  split_ifs with hquote hbackslash hb ht hn hf hr hcontrol
  · exact Or.inr ⟨_, rfl⟩
  · exact Or.inr ⟨_, rfl⟩
  · exact Or.inr ⟨_, rfl⟩
  · exact Or.inr ⟨_, rfl⟩
  · exact Or.inr ⟨_, rfl⟩
  · exact Or.inr ⟨_, rfl⟩
  · exact Or.inr ⟨_, rfl⟩
  · exact Or.inr ⟨_, rfl⟩
  · exact Or.inl ⟨rfl, hquote⟩

theorem quote_not_mem_escape (h : c ≠ '"') : '"' ∉ escape c := by
  have hdigit : ∀ n, n < 16 → hexDigit n ≠ '"' := by
    intro n hn
    have hall : ∀ n ∈ List.range 16, hexDigit n ≠ '"' := by decide
    exact hall n (List.mem_range.mpr hn)
  unfold escape
  rw [if_neg h]
  split_ifs with hbackslash hb ht hn hf hr hcontrol
  · decide
  · decide
  · decide
  · decide
  · decide
  · decide
  · have hhigh := hdigit (c.toNat / 16) (by omega)
    have hlow := hdigit (c.toNat % 16) (by omega)
    simp [hhigh.symm, hlow.symm]
  · simpa using h.symm

theorem quote_not_mem_escaped (h : '"' ∉ s) : '"' ∉ s.flatMap escape := by
  intro hmem
  obtain ⟨c, hc, hquote⟩ := List.mem_flatMap.mp hmem
  refine quote_not_mem_escape ?_ hquote
  rintro rfl
  exact h hc

/-- A name that an escaped string ends with is the string. -/
theorem eq_of_escaped (hname : ∀ c ∈ name, c ≠ '"' ∧ c ≠ '\\')
    (h : s.flatMap escape ++ '"' :: more = name ++ '"' :: after) : s = name ∧ more = after := by
  induction s generalizing name with
  | nil =>
    rcases name with _ | ⟨d, name⟩
    · exact ⟨rfl, (List.cons.inj h).2⟩
    · exact absurd (List.cons.inj h).1.symm (hname d List.mem_cons_self).1
  | cons c s ih =>
    rw [List.flatMap_cons, List.append_assoc] at h
    rcases escape_cases c with ⟨hself, hquote⟩ | ⟨tail, hescape⟩
    · rw [hself] at h
      rcases name with _ | ⟨d, name⟩
      · exact absurd (List.cons.inj h).1 hquote
      · obtain ⟨rfl, hmore⟩ := List.cons.inj h
        obtain ⟨rfl, hafter⟩ := ih (fun c hc => hname c (List.mem_cons_of_mem _ hc)) hmore
        exact ⟨rfl, hafter⟩
    · rw [hescape] at h
      rcases name with _ | ⟨d, name⟩
      · exact absurd (List.cons.inj h).1 (by decide)
      · exact absurd (List.cons.inj h).1.symm (hname d List.mem_cons_self).2

/-- A name is written as it is. -/
theorem escaped_of_isFieldName (h : isFieldName name = true) : name.flatMap escape = name := by
  obtain ⟨field, hfield, hname⟩ := isFieldName_iff.mp h
  have hfields : ∀ field ∈ secretFields, ∀ d ∈ field, 32 ≤ d.toLower.toNat := by
    have hall : (secretFields.all fun field => field.all fun d =>
        decide (32 ≤ d.toLower.toNat)) = true := by decide
    exact fun field hfield d hd => of_decide_eq_true
      (List.all_eq_true.mp (List.all_eq_true.mp hall field hfield) d hd)
  have hself : ∀ c ∈ name, escape c = [c] := by
    intro c hc
    have hplain := (plain_of_isFieldName h).2 c hc
    have hlarge : 32 ≤ c.toNat := by
      obtain ⟨d, hd, heq⟩ := exists_of_mem_key hname hc
      have hsmall := hfields field hfield d hd
      rw [heq] at hsmall
      by_cases hupper : c.isUpper = true
      · have hbound := toNat_of_isUpper hupper
        omega
      · rwa [toLower_of_isUpper (Bool.eq_false_iff.mpr hupper)] at hsmall
    have hquote : c ≠ '"' := fun heq => hplain (by simp [heq])
    have hbackslash : c ≠ '\\' := fun heq => hplain (by simp [heq])
    unfold escape
    rw [if_neg hquote, if_neg hbackslash, if_neg (by omega), if_neg (by omega), if_neg (by omega),
      if_neg (by omega), if_neg (by omega), if_neg (by omega)]
  have hall : ∀ text : Text, (∀ c ∈ text, escape c = [c]) → text.flatMap escape = text := by
    intro text htext
    induction text with
    | nil => rfl
    | cons c text ih =>
      rw [List.flatMap_cons, htext c List.mem_cons_self,
        ih fun d hd => htext d (List.mem_cons_of_mem _ hd)]
      rfl
  exact hall name hself

end Escaped

/-! ### The rule along a string -/

section Strings

variable {c : Char} {s name more after used rest header : Text}

/-- A colon, and a quote behind it. -/
def ColonQuote (more : Text) : Prop :=
  ∃ spaces after, (∀ c ∈ spaces, isWhiteSpace c = true) ∧ more = ':' :: (spaces ++ '"' :: after)

/-- A header that begins with a quote in a string names the rest of the string. -/
theorem isFieldName_of_header (hheader : IsHeader header)
    (h : '"' :: (s.flatMap escape ++ '"' :: more) = header ++ after) :
    isFieldName s = true ∧ ∃ spaces, (∀ c ∈ spaces, isWhiteSpace c = true) ∧
      more = ':' :: (spaces ++ '"' :: after) := by
  obtain ⟨field, hfield, name, spaces, hname, hspaces, rfl⟩ := hheader
  have hlisted : isFieldName name = true := isFieldName_iff.mpr ⟨field, hfield, hname⟩
  have hplain : ∀ c ∈ name, c ≠ '"' ∧ c ≠ '\\' := by
    intro c hc
    have hnot := (plain_of_isFieldName hlisted).2 c hc
    exact ⟨fun heq => hnot (by simp [heq]), fun heq => hnot (by simp [heq])⟩
  rw [List.cons_append, List.append_assoc] at h
  obtain ⟨rfl, hmore⟩ := eq_of_escaped hplain (List.cons.inj h).2
  refine ⟨hlisted, spaces, hspaces, ?_⟩
  rw [hmore]
  simp

/-- The quote at the end of a string begins no header. -/
theorem not_header_of_end (hend : ∀ c ∈ more.head?, c ∈ [':', ',', ']', '}']) (hheader : IsHeader header) :
    '"' :: more ≠ header ++ after := by
  intro h
  obtain ⟨field, hfield, name, spaces, hname, hspaces, rfl⟩ := hheader
  obtain ⟨hsome, hplain⟩ := plain_of_isFieldName (isFieldName_iff.mpr ⟨field, hfield, hname⟩)
  rcases name with _ | ⟨d, name⟩
  · exact hsome rfl
  · obtain rfl := (List.cons.inj h).2
    have hd := hend d rfl
    have hnot := hplain d List.mem_cons_self
    simp only [List.mem_cons, List.not_mem_nil, or_false, not_or] at hd hnot
    rcases hd with rfl | rfl | rfl | rfl
    · exact hnot.2.2.1 rfl
    · exact hnot.2.2.2.1 rfl
    · exact hnot.2.2.2.2.1 rfl
    · exact hnot.2.2.2.2.2 rfl

theorem replace_nil : fieldRule.replace [] = [] := by
  unfold Rule.replace
  rw [Rule.replaceFrom_nil]

/-- What begins no header is copied. -/
theorem replace_cons (h : ∀ header after, IsHeader header → c :: rest ≠ header ++ after) :
    fieldRule.replace (c :: rest) = c :: fieldRule.replace rest := by
  have hnone : fieldRule.match? none (c :: rest) = none := by
    rw [Rule.match?_eq_none]
    intro group hidden after hmatch
    obtain ⟨header, after', heq, hheader, -⟩ :=
      exists_field_match_iff.mp ⟨group, hidden, after, hmatch⟩
    exact h header after' hheader heq
  unfold Rule.replace
  rw [Rule.replaceFrom_copy hnone, Rule.replaceFrom_of_isFree none rfl]

theorem replace_cons_of_ne (h : c ≠ '"') :
    fieldRule.replace (c :: rest) = c :: fieldRule.replace rest := by
  refine replace_cons fun header after hheader heq => ?_
  obtain ⟨_, _, _, _, _, _, rfl⟩ := hheader
  exact h (List.cons.inj heq).1

/-- What has no quote in it is copied. -/
theorem replace_append (h : '"' ∉ used) :
    fieldRule.replace (used ++ rest) = used ++ fieldRule.replace rest := by
  induction used with
  | nil => rfl
  | cons c used ih =>
    rw [List.mem_cons, not_or] at h
    rw [List.cons_append, replace_cons_of_ne (Ne.symm h.1), ih h.2]
    rfl

/-- **The front of a string is copied**, where none of its quotes begins a header. -/
theorem replace_front (h : ∀ before after, used = before ++ '"' :: after →
      ¬ (isFieldName (after ++ s) = true ∧ ColonQuote more)) :
    fieldRule.replace (used.flatMap escape ++ (s.flatMap escape ++ '"' :: more)) =
      used.flatMap escape ++ fieldRule.replace (s.flatMap escape ++ '"' :: more) := by
  induction used with
  | nil => rfl
  | cons c used ih =>
    have hused := ih fun before after hsplit => h (c :: before) after (by rw [hsplit]; rfl)
    rw [List.flatMap_cons, List.append_assoc]
    by_cases hquote : c = '"'
    · subst hquote
      have hnot : ∀ header after, IsHeader header →
          '"' :: (used.flatMap escape ++ (s.flatMap escape ++ '"' :: more)) ≠ header ++ after := by
        intro header after hheader heq
        rw [← List.append_assoc, ← List.flatMap_append] at heq
        obtain ⟨hlisted, spaces, hspaces, hmore⟩ := isFieldName_of_header hheader heq
        exact h [] used rfl ⟨hlisted, spaces, after, hspaces, hmore⟩
      rw [escape_quote, List.cons_append, List.cons_append, List.nil_append,
        replace_cons_of_ne (by decide), replace_cons hnot, hused]
      rfl
    · rw [replace_append (quote_not_mem_escape hquote), hused, List.append_assoc]

/-- A string is copied, where none of its quotes begins a header. -/
theorem replace_string (hend : ∀ c ∈ more.head?, c ∈ [':', ',', ']', '}'])
    (h : ∀ before after, s = before ++ '"' :: after → ¬ (isFieldName after = true ∧ ColonQuote more)) :
    fieldRule.replace (s.flatMap escape ++ '"' :: more) =
      s.flatMap escape ++ '"' :: fieldRule.replace more := by
  have hfront := @replace_front [] more s (by simpa using h)
  rw [List.flatMap_nil, List.nil_append] at hfront
  rw [hfront, replace_cons fun header after hheader => not_header_of_end hend hheader]

/-- What follows a value is no colon. -/
theorem not_colonQuote_of_follows (h : Follows rest) : ¬ ColonQuote rest := by
  rintro ⟨spaces, after, -, rfl⟩
  rcases h ':' rfl with hcomma | hclose | hclose
  · exact absurd hcomma (by decide)
  · exact absurd hclose (by decide)
  · exact absurd hclose (by decide)

theorem follows_end (h : Follows rest) : ∀ c ∈ rest.head?, c ∈ [':', ',', ']', '}'] := by
  intro c hc
  rcases h c hc with rfl | rfl | rfl <;> decide

/-- The inside of a string value, or of its end, is copied. -/
theorem replace_tail (h : Follows rest) : fieldRule.replace (s.flatMap escape ++ '"' :: rest) =
    s.flatMap escape ++ '"' :: fieldRule.replace rest :=
  replace_string (follows_end h) fun _ _ _ hboth => not_colonQuote_of_follows h hboth.2

/-- **A string value is copied.** -/
theorem replace_quote (h : Follows rest) :
    fieldRule.replace (quote s ++ rest) = quote s ++ fieldRule.replace rest := by
  have hnot : ∀ header after, IsHeader header →
      '"' :: (s.flatMap escape ++ '"' :: rest) ≠ header ++ after := by
    intro header after hheader heq
    obtain ⟨-, spaces, hspaces, hrest⟩ := isFieldName_of_header hheader heq
    exact not_colonQuote_of_follows h ⟨spaces, after, hspaces, hrest⟩
  unfold quote
  rw [List.cons_append, List.append_assoc, List.singleton_append, replace_cons hnot, replace_tail h]
  simp

/-- A key is copied, where its last name is none of a secret, or no quote comes behind its colon. -/
theorem replace_key (h : ¬ (isFieldName (lastName s) = true ∧ ColonQuote (':' :: rest))) :
    fieldRule.replace (quote s ++ ':' :: rest) = quote s ++ ':' :: fieldRule.replace rest := by
  have hname : ∀ before after, s = before ++ '"' :: after →
      ¬ (isFieldName after = true ∧ ColonQuote (':' :: rest)) := by
    rintro before after rfl ⟨hlisted, hcolon⟩
    rw [lastName_append (quote_not_mem_of_isFieldName hlisted)] at h
    exact h ⟨hlisted, hcolon⟩
  have hnot : ∀ header after, IsHeader header →
      '"' :: (s.flatMap escape ++ '"' :: ':' :: rest) ≠ header ++ after := by
    intro header after hheader heq
    obtain ⟨hlisted, spaces, hspaces, hrest⟩ := isFieldName_of_header hheader heq
    rw [lastName_of_not_mem (quote_not_mem_of_isFieldName hlisted)] at h
    exact h ⟨hlisted, spaces, after, hspaces, hrest⟩
  have hend : ∀ c ∈ (':' :: rest).head?, c ∈ [':', ',', ']', '}'] := by simp
  unfold quote
  rw [List.cons_append, List.append_assoc, List.singleton_append, replace_cons hnot,
    replace_string hend hname, replace_cons_of_ne (by decide)]
  simp

/-- A text has one first quote at most. -/
theorem eq_of_first_quote {front front' rest' : Text} (h : '"' ∉ front) (h' : '"' ∉ front')
    (heq : front ++ '"' :: rest = front' ++ '"' :: rest') : front = front' ∧ rest = rest' := by
  induction front generalizing front' with
  | nil =>
    rcases front' with _ | ⟨d, front'⟩
    · exact ⟨rfl, (List.cons.inj heq).2⟩
    · obtain ⟨rfl, -⟩ := List.cons.inj heq
      exact absurd List.mem_cons_self h'
  | cons c front ih =>
    rw [List.mem_cons, not_or] at h
    rcases front' with _ | ⟨d, front'⟩
    · exact absurd (List.cons.inj heq).1.symm h.1
    · obtain ⟨rfl, hmore⟩ := List.cons.inj heq
      rw [List.mem_cons, not_or] at h'
      obtain ⟨rfl, rfl⟩ := ih h.2 h'.2 hmore
      exact ⟨rfl, rfl⟩

/-- A text begins with one header at most. -/
theorem header_unique {header' after' : Text} (hheader : IsHeader header) (hheader' : IsHeader header')
    (h : header ++ after = header' ++ after') : header = header' ∧ after = after' := by
  obtain ⟨field, hfield, name, spaces, hname, hspaces, rfl⟩ := hheader
  obtain ⟨field', hfield', name', spaces', hname', hspaces', rfl⟩ := hheader'
  have hquote := quote_not_mem_of_isFieldName (isFieldName_iff.mpr ⟨field, hfield, hname⟩)
  have hquote' := quote_not_mem_of_isFieldName (isFieldName_iff.mpr ⟨field', hfield', hname'⟩)
  have hwhite : isWhiteSpace '"' = false := by decide
  have hspace : ∀ spaces : Text, (∀ c ∈ spaces, isWhiteSpace c = true) → '"' ∉ spaces := by
    intro spaces hall hmem
    rw [hall _ hmem] at hwhite
    cases hwhite
  simp only [List.cons_append, List.append_assoc, List.nil_append, List.cons.injEq, true_and] at h
  obtain ⟨rfl, hcolon⟩ := eq_of_first_quote hquote hquote' h
  have hrest := (List.cons.inj hcolon).2
  obtain ⟨rfl, rfl⟩ := eq_of_first_quote (hspace spaces hspaces) (hspace spaces' hspaces') hrest
  exact ⟨rfl, rfl⟩

/-- A match of the rule. -/
theorem replace_hit {value : Text} (hheader : IsHeader header) (hvalue : '"' ∉ value) :
    fieldRule.replace (header ++ (value ++ '"' :: rest)) =
      header ++ (defaultReplacement ++ '"' :: fieldRule.replace rest) := by
  rcases hmatch? : fieldRule.match? none (header ++ (value ++ '"' :: rest)) with
    _ | ⟨group, hidden, rest'⟩
  · obtain ⟨group, -, hmatch⟩ := @exists_field_match none rest header value hheader hvalue
    exact absurd hmatch (Rule.match?_eq_none.mp hmatch? _ _ _)
  · have hmatch := Rule.match_of_match? hmatch?
    obtain ⟨hheader', value', hvalue', rfl⟩ := field_match hmatch
    have htext : header ++ (value ++ '"' :: rest) = (group ++ ['"']) ++ (value' ++ '"' :: rest') := by
      rw [hmatch.text_eq]
      simp
    obtain ⟨rfl, hafter⟩ := header_unique hheader hheader' htext
    obtain ⟨rfl, rfl⟩ := eq_of_first_quote hvalue hvalue' hafter
    have hreplacement : fieldRule.replacement = '"' :: (defaultReplacement ++ ['"']) := rfl
    unfold Rule.replace
    rw [Rule.replaceFrom_hit hmatch?, hreplacement, Rule.replaceFrom_of_isFree none rfl]
    simp

/-- **A string behind the name of a secret is masked** up to its first quote. -/
theorem replace_secret (hname : isFieldName (lastName name) = true) (h : Follows rest) :
    fieldRule.replace (quote name ++ ':' :: (quote s ++ rest)) =
      quote name ++ ':' :: (maskedSecret s ++ fieldRule.replace rest) := by
  have hwritten := escaped_of_isFieldName hname
  obtain ⟨field, hfield, hfields⟩ := isFieldName_iff.mp hname
  have hheader : IsHeader ('"' :: (lastName name ++ '"' :: ':' :: ['"'])) :=
    ⟨field, hfield, lastName name, [], hfields, by simp, rfl⟩
  -- from the quote in front of the name on
  have hmasked : fieldRule.replace ('"' :: ((lastName name).flatMap escape ++ '"' :: ':' ::
      (quote s ++ rest))) = '"' :: ((lastName name).flatMap escape ++ '"' :: ':' ::
        (maskedSecret s ++ fieldRule.replace rest)) := by
    rw [hwritten]
    by_cases hquote : '"' ∈ s
    · obtain ⟨front, tail, rfl, hfront⟩ := List.eq_append_cons_of_mem hquote
      have hvalue : '"' ∉ front.flatMap escape ++ ['\\'] := by
        have hescaped := quote_not_mem_escaped hfront
        simp [hescaped]
      have hhit := @replace_hit (tail.flatMap escape ++ '"' :: rest) _ _ hheader hvalue
      rw [replace_tail h] at hhit
      unfold maskedSecret
      rw [behindQuote_append hfront]
      simpa [quote, escape_quote] using hhit
    · have hhit := @replace_hit rest _ _ hheader (quote_not_mem_escaped hquote)
      unfold maskedSecret
      rw [behindQuote_of_not_mem hquote]
      simpa [quote] using hhit
  rcases key_cases name with hkey | ⟨before, hkey⟩
  · unfold quote at hmasked ⊢
    rw [← hkey] at hmasked
    simpa using hmasked
  · -- the front of the key, up to an escaped quote
    have hnot : ∀ front after, before = front ++ '"' :: after →
        ¬ (isFieldName (after ++ '"' :: lastName name) = true ∧ ColonQuote (':' :: (quote s ++ rest))) := by
      rintro front after - ⟨hlisted, -⟩
      exact quote_not_mem_of_isFieldName hlisted (by simp)
    have hfront := replace_front hnot
    have hopen : ∀ header after, IsHeader header →
        '"' :: (name.flatMap escape ++ '"' :: ':' :: (quote s ++ rest)) ≠ header ++ after := by
      intro header after hheader heq
      have hlisted := (isFieldName_of_header hheader heq).1
      rw [hkey] at hlisted
      exact quote_not_mem_of_isFieldName hlisted (by simp)
    have hescaped : ('"' :: lastName name).flatMap escape =
        '\\' :: '"' :: (lastName name).flatMap escape := by
      rw [List.flatMap_cons, escape_quote]
      rfl
    have hwhole : name.flatMap escape =
        before.flatMap escape ++ '\\' :: '"' :: (lastName name).flatMap escape := by
      rw [← hescaped, ← List.flatMap_append, ← hkey]
    rw [hescaped, List.cons_append, List.cons_append, replace_cons_of_ne (by decide), hmasked] at hfront
    have hquoted : ∀ more : Text, quote name ++ ':' :: more =
        '"' :: (name.flatMap escape ++ '"' :: ':' :: more) := by
      intro more
      simp [quote]
    rw [hquoted, hquoted, replace_cons hopen, hwhole, List.append_assoc, List.cons_append,
      List.cons_append, hfront]
    simp

end Strings

/-! ### The rule along a value -/

section Values

variable {ν : Type} [Numbers ν]

/-- The mask of a string behind the name of a secret. -/
def secret? (key : Text) : Value ν → Option Text
  | .str s => if isFieldName (lastName key) = true then some (maskedSecret s) else none
  | _ => none

mutual

/-- The text of a value, with the strings behind names of secrets masked. -/
def maskedText : Value ν → Text
  | .arr items => '[' :: ([','].intercalate (maskedItems items) ++ [']'])
  | .obj entries => '{' :: ([','].intercalate (maskedEntries entries) ++ ['}'])
  | v => stringify v

def maskedItems : List (Value ν) → List Text
  | [] => []
  | v :: items => maskedText v :: maskedItems items

def maskedEntries : Entries ν → List Text
  | [] => []
  | (key, v) :: entries =>
    (quote key ++ ':' :: (secret? key v).getD (maskedText v)) :: maskedEntries entries

end

variable {v : Value ν} {items : List (Value ν)} {entries : Entries ν} {key rest : Text}

/-- Only a string begins with a quote. -/
theorem not_colonQuote_of_not_isStr (h : v.isStr = false) :
    ¬ ColonQuote (':' :: (stringify v ++ rest)) := by
  have hfirst : ∃ c text, stringify v = c :: text ∧ c ≠ '"' ∧ isWhiteSpace c = false := by
    cases v with
    | null => exact ⟨_, _, rfl, by decide, by decide⟩
    | bool b => cases b <;> exact ⟨_, _, rfl, by decide, by decide⟩
    | num n =>
      unfold stringify
      rcases hrender : Numbers.render n with _ | numeral
      · exact ⟨_, _, rfl, by decide, by decide⟩
      · obtain ⟨c, text, rfl, hc⟩ := exists_of_isNumeral (Numbers.isNumeral_render hrender)
        refine ⟨c, text, rfl, ne_of_start hc (by decide), ?_⟩
        rcases hc with rfl | hdigit
        · decide
        · simp only [Char.isDigit, Bool.and_eq_true, decide_eq_true_eq] at hdigit
          have hbounds : 48 ≤ c.toNat ∧ c.toNat ≤ 57 := hdigit
          exact isWhiteSpace_of_printed (by omega) (by omega)
    | str s => cases h
    | arr items => exact ⟨_, _, rfl, by decide, by decide⟩
    | obj entries => exact ⟨_, _, rfl, by decide, by decide⟩
  obtain ⟨c, text, htext, hquote, hspace⟩ := hfirst
  rintro ⟨spaces, after, hspaces, hcolon⟩
  rw [htext, List.cons_append] at hcolon
  have heq := (List.cons.inj hcolon).2
  rcases spaces with _ | ⟨d, spaces⟩
  · exact hquote (List.cons.inj heq).1
  · obtain ⟨rfl, -⟩ := List.cons.inj heq
    rw [hspaces _ List.mem_cons_self] at hspace
    cases hspace

/-- What the rule makes of the text of a value, in front of what may follow it. -/
def IsMasked (v : Value ν) : Prop := ∀ rest, Follows rest →
  fieldRule.replace (stringify v ++ rest) = maskedText v ++ fieldRule.replace rest

theorem replace_items (hall : ∀ v ∈ items, IsMasked v) :
    fieldRule.replace ([','].intercalate (stringifyItems items) ++ ']' :: rest) =
      [','].intercalate (maskedItems items) ++ ']' :: fieldRule.replace rest := by
  induction items with
  | nil => exact replace_cons_of_ne (by decide)
  | cons v items ih =>
    obtain ⟨hv, hitems⟩ := List.forall_mem_cons.mp hall
    cases items with
    | nil =>
      simp only [stringifyItems, maskedItems, List.intercalate_singleton]
      rw [hv _ (follows_cons (Or.inr (Or.inl rfl))), replace_cons_of_ne (by decide)]
    | cons v' items =>
      have hmore := ih hitems
      simp only [stringifyItems, maskedItems, List.intercalate_cons_cons, List.append_assoc,
        List.cons_append, List.nil_append] at hmore ⊢
      rw [hv _ (follows_cons (Or.inl rfl)), replace_cons_of_ne (by decide), hmore]

/-- **A property**: its key is copied, and its value is masked, as a secret or as a value. -/
theorem replace_entry (hv : IsMasked v) (h : Follows rest) :
    fieldRule.replace (quote key ++ ':' :: (stringify v ++ rest)) =
      quote key ++ ':' :: ((secret? key v).getD (maskedText v) ++ fieldRule.replace rest) := by
  by_cases hstr : v.isStr = true
  · cases v with
    | str s =>
      by_cases hname : isFieldName (lastName key) = true
      · simp only [stringify, secret?, if_pos hname, Option.getD_some]
        exact replace_secret hname h
      · rw [replace_key fun hboth => hname hboth.1, hv rest h]
        simp [secret?, hname]
    | null => cases hstr
    | bool b => cases hstr
    | num n => cases hstr
    | arr items => cases hstr
    | obj entries => cases hstr
  · have hnone : secret? key v = none := by
      cases v with
      | str s => exact absurd rfl hstr
      | null => rfl
      | bool b => rfl
      | num n => rfl
      | arr items => rfl
      | obj entries => rfl
    rw [replace_key fun hboth => not_colonQuote_of_not_isStr (Bool.eq_false_iff.mpr hstr) hboth.2,
      hv rest h, hnone, Option.getD_none]

theorem replace_entries (hall : ∀ entry ∈ entries, IsMasked entry.2) :
    fieldRule.replace ([','].intercalate (stringifyEntries entries) ++ '}' :: rest) =
      [','].intercalate (maskedEntries entries) ++ '}' :: fieldRule.replace rest := by
  induction entries with
  | nil => exact replace_cons_of_ne (by decide)
  | cons entry entries ih =>
    obtain ⟨key, v⟩ := entry
    obtain ⟨hv, hentries⟩ := List.forall_mem_cons.mp hall
    replace hv : IsMasked v := hv
    cases entries with
    | nil =>
      simp only [stringifyEntries, maskedEntries, List.intercalate_singleton, List.append_assoc,
        List.cons_append]
      rw [replace_entry hv (follows_cons (Or.inr (Or.inr rfl))), replace_cons_of_ne (by decide)]
    | cons entry entries =>
      have hmore := ih hentries
      simp only [stringifyEntries, maskedEntries, List.intercalate_cons_cons, List.append_assoc,
        List.cons_append, List.nil_append] at hmore ⊢
      rw [replace_entry hv (follows_cons (Or.inl rfl)), replace_cons_of_ne (by decide), hmore]

/-- **What the rule makes of the text of a value.** -/
theorem isMasked (v : Value ν) : IsMasked v := by
  induction v using Value.induct with
  | null =>
    have hword : '"' ∉ "null".toList := by decide
    exact fun rest _ => replace_append hword
  | bool b =>
    have hwords : '"' ∉ "true".toList ∧ '"' ∉ "false".toList := by decide
    intro rest _
    cases b with
    | true => exact replace_append hwords.1
    | false => exact replace_append hwords.2
  | num n =>
    intro rest _
    refine replace_append ?_
    unfold stringify
    rcases hrender : Numbers.render n with _ | numeral
    · have hword : '"' ∉ "null".toList := by decide
      exact hword
    · intro hquote
      have hall := List.all_eq_true.mp (all_of_isNumeral (Numbers.isNumeral_render hrender)) _ hquote
      exact absurd hall (by decide)
  | str s => exact fun rest hrest => replace_quote hrest
  | arr items ih =>
    intro rest _
    simp only [stringify, maskedText, List.cons_append, List.append_assoc, List.nil_append]
    rw [replace_cons_of_ne (by decide), replace_items ih]
  | obj entries ih =>
    intro rest _
    simp only [stringify, maskedText, List.cons_append, List.append_assoc, List.nil_append]
    rw [replace_cons_of_ne (by decide), replace_entries ih]

theorem replace_stringify (v : Value ν) : fieldRule.replace (stringify v) = maskedText v := by
  have hmasked := isMasked v [] follows_nil
  rwa [List.append_nil, replace_nil, List.append_nil] at hmasked

end Values

end MiniCoder
