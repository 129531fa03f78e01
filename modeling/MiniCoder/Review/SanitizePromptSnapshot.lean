import MiniCoder.Domain.Text
import MiniCoder.Library.JsonTexts
import MiniCoder.Library.Regex

/-!
# Prompt snapshots without diffs

`sanitizePromptSnapshot` walks through a snapshot, and through the JSON documents in its strings, and puts
a placeholder in the place of every diff.

* `clean_sanitizeValue`, `sanitizeValue_of_clean`: what it returns, and that it returns this unchanged.
* `Clean.exists_decodes`: the documents of a clean value have no diff in them.
* `sanitizePromptSnapshot_noDiffs`: no diff is stored.
-/

open Regex
open Json hiding Text

namespace MiniCoder

/-! ### The sanitizer -/

def diffPlaceholder : Text :=
  "[omitted by sanitizePromptSnapshot — see the stored headSha instead]".toList

def depthPlaceholder : Text := "[omitted by sanitizePromptSnapshot — max depth exceeded]".toList

/-- `MAX_DEPTH`. -/
def maxDepth : ℕ := 8

/-- `value.includes('diff --git ') || /^(---|\+\+\+) /m.test(value) || /^@@ .* @@/m.test(value)`. -/
def looksLikeDiff (value : Text) : Bool :=
  test false [.text "diff --git ".toList] none value ||
    test false [.lineStart isLineTerminator, .oneOf ["---".toList, "+++".toList], .text [' ']] none value ||
    test false [.lineStart isLineTerminator, .text "@@ ".toList, .many (fun c => !isLineTerminator c) 0,
      .text " @@".toList] none value

/-- A string in braces or in brackets. -/
def isBracketed (value : Text) : Bool :=
  let trimmed := (value.dropWhile isWhiteSpace).rdropWhile isWhiteSpace
  (trimmed.head? = some '{' && trimmed.getLast? = some '}') ||
    (trimmed.head? = some '[' && trimmed.getLast? = some ']')

/-- `key.toLowerCase() === 'diff'`. -/
def isDiffKey (key : Text) : Bool := key.map toSmall = "diff".toList

section Sanitizer

variable {ν : Type} [Numbers ν]

/-- What a string in brackets is parsed as. -/
def document? (value : Text) : Option (Value ν) := if isBracketed value then parse value else none

/-- `sanitizeValue`, with what is left of the depth: `MAX_DEPTH + 1 - depth`. -/
def sanitizeValue : ℕ → Value ν → Value ν
  | 0, _ => .str depthPlaceholder
  | room + 1, .str value =>
    match document? value with
    | some parsed => .str (stringify (sanitizeValue room (parsed : Value ν)))
    | none => .str (if looksLikeDiff value then diffPlaceholder else value)
  | room + 1, .arr items => .arr (items.map (sanitizeValue room))
  | room + 1, .obj entries =>
    .obj (assignAll (entries.map fun entry =>
      (entry.1, if isDiffKey entry.1 then .str diffPlaceholder else sanitizeValue room entry.2)))
  | _ + 1, value => value

/-- Nothing in it throws: what `JSON.parse` throws is caught where it is called. -/
def sanitizePromptSnapshot (promptSnapshot : Value ν) : Value ν :=
  sanitizeValue (maxDepth + 1) promptSnapshot

end Sanitizer

/-! ### Documents in strings -/

section Documents

variable {ν : Type} [Numbers ν] {value : Text} {v : Value ν}

/-- A text in brackets that has no white space around it. -/
theorem isBracketed_of_ends {c d : Char} {middle : Text} (h : c = '{' ∧ d = '}' ∨ c = '[' ∧ d = ']') :
    isBracketed (c :: (middle ++ [d])) = true := by
  have hends : isWhiteSpace c = false ∧ isWhiteSpace d = false := by
    rcases h with ⟨rfl, rfl⟩ | ⟨rfl, rfl⟩ <;> decide
  have hfront : (c :: (middle ++ [d])).dropWhile isWhiteSpace = c :: middle ++ [d] := by
    rw [List.dropWhile_cons_of_neg (by simp [hends.1])]
    rfl
  have hback : (c :: middle ++ [d]).rdropWhile isWhiteSpace = c :: middle ++ [d] := by
    rw [List.rdropWhile_concat_neg _ _ _ (by simp [hends.2])]
  have hlast : (c :: middle ++ [d]).getLast? = some d := List.getLast?_concat
  unfold isBracketed
  simp only [hfront, hback, hlast]
  rcases h with ⟨rfl, rfl⟩ | ⟨rfl, rfl⟩
  · simp
  · simp

/-- An array or an object is a document. -/
theorem document?_stringify (h : (∃ items, v = .arr items) ∨ ∃ entries, v = .obj entries) :
    document? (stringify v) = some v.reread := by
  have hbracketed : isBracketed (stringify v) = true := by
    rcases h with ⟨items, rfl⟩ | ⟨entries, rfl⟩
    · exact isBracketed_of_ends (Or.inr ⟨rfl, rfl⟩)
    · exact isBracketed_of_ends (Or.inl ⟨rfl, rfl⟩)
  unfold document?
  rw [if_pos hbracketed, parse_stringify]

/-- **A document is an array or an object.** -/
theorem container_of_document? (h : document? value = some v) :
    (∃ items, v = .arr items) ∨ ∃ entries, v = .obj entries := by
  unfold document? at h
  split_ifs at h with hbracketed
  -- behind the white space of JavaScript stands a bracket
  obtain ⟨c, rest, hfirst, hc⟩ : ∃ c rest, value.dropWhile isWhiteSpace = c :: rest ∧
      (c = '{' ∨ c = '[') := by
    have hprefix := List.rdropWhile_prefix isWhiteSpace (value.dropWhile isWhiteSpace)
    unfold isBracketed at hbracketed
    rcases htrimmed : (value.dropWhile isWhiteSpace).rdropWhile isWhiteSpace with _ | ⟨c, trimmed⟩
    · simp [htrimmed] at hbracketed
    · rw [htrimmed] at hprefix
      obtain ⟨rest, hrest⟩ := hprefix
      refine ⟨c, trimmed ++ rest, hrest.symm, ?_⟩
      simp only [htrimmed, List.head?_cons, Option.some.injEq, Bool.or_eq_true, Bool.and_eq_true,
        decide_eq_true_eq] at hbracketed
      exact hbracketed.imp And.left And.left
  have hspaces : ∀ c, isSpace c = true → isWhiteSpace c = true := by
    intro c hspace
    simp only [isSpace, Bool.or_eq_true, decide_eq_true_eq] at hspace
    rcases hspace with ((rfl | rfl) | rfl) | rfl <;> decide
  obtain ⟨spaces, hall, hvalue⟩ := exists_spaces value
  have hskip : value.dropWhile isWhiteSpace = (skip value).dropWhile isWhiteSpace := by
    conv_lhs => rw [hvalue]
    exact List.dropWhile_append_of_pos fun c hc => hspaces c (hall c hc)
  rw [hskip] at hfirst
  rcases hjson : skip value with _ | ⟨d, after⟩
  · rw [hjson] at hfirst
    cases hfirst
  · rw [hjson] at hfirst
    by_cases hwhite : isWhiteSpace d = true
    · -- white space that JSON does not know
      have hletters : ∀ e ∈ ['{', '[', '"', 'n', 't', 'f'], isWhiteSpace e = false := by
        simp [isWhiteSpace]
      have hstart : d ∉ ['{', '[', '"', 'n', 't', 'f'] := by
        intro hmem
        rw [hletters d hmem] at hwhite
        cases hwhite
      have hnumeral : isNumeralChar d = false := by
        by_contra hnot
        have hbounds : 33 ≤ d.toNat ∧ d.toNat ≤ 126 := by
          simp only [isNumeralChar, Bool.or_eq_true, decide_eq_true_eq, Bool.not_eq_false] at hnot
          rcases hnot with ((((hdigit | rfl) | rfl) | rfl) | rfl) | rfl
          · simp only [Char.isDigit, Bool.and_eq_true, decide_eq_true_eq] at hdigit
            have hnat : 48 ≤ d.toNat ∧ d.toNat ≤ 57 := hdigit
            omega
          all_goals decide
        rw [isWhiteSpace_of_printed hbounds.1 hbounds.2] at hwhite
        cases hwhite
      rw [parse_eq_none_of_start hjson hstart hnumeral] at h
      cases h
    · rw [List.dropWhile_cons_of_neg hwhite] at hfirst
      obtain ⟨rfl, -⟩ := List.cons.inj hfirst
      exact container_of_parse hjson hc h

end Documents

/-! ### What the sanitizer returns -/

section Sanitized

variable {ν : Type} [Numbers ν] {room : ℕ} {v : Value ν}

/-- What the sanitizer returns, with what is left of the depth. -/
def Clean : ℕ → Value ν → Prop
  | 0, v => v = .str depthPlaceholder
  | room + 1, .str value =>
    match document? value with
    | some parsed => value = stringify (parsed : Value ν) ∧ Clean room (parsed : Value ν)
    | none => looksLikeDiff value = false
  | room + 1, .arr items => ∀ v ∈ items, Clean room v
  | room + 1, .obj entries => InOrder entries ∧ ∀ entry ∈ entries, entry.1 ≠ protoKey ∧
    if isDiffKey entry.1 = true then entry.2 = .str diffPlaceholder else Clean room entry.2
  | _ + 1, _ => True

theorem clean_str_of_none {value : Text} (hnone : (document? value : Option (Value ν)) = none)
    (hdiff : looksLikeDiff value = false) : Clean (room + 1) (.str value : Value ν) := by
  unfold Clean
  rw [hnone]
  exact hdiff

/-- Words in brackets are no document. -/
theorem document?_of_words {value rest : Text} (h : value = '[' :: 'o' :: rest) :
    (document? value : Option (Value ν)) = none := by
  unfold document?
  rw [h, parse_bracket_eq_none (by decide) (by decide) (by decide)]
  exact ite_self none

/-- The placeholders stand in brackets, and are no documents. -/
theorem document?_placeholders : (document? diffPlaceholder : Option (Value ν)) = none ∧
    (document? depthPlaceholder : Option (Value ν)) = none := by
  have hsplit : diffPlaceholder = '[' :: 'o' :: diffPlaceholder.drop 2 ∧
      depthPlaceholder = '[' :: 'o' :: depthPlaceholder.drop 2 := by decide +kernel
  exact ⟨document?_of_words hsplit.1, document?_of_words hsplit.2⟩

/-- The text of the other placeholder stands in quotes. -/
theorem document?_quotedPlaceholder :
    (document? (quote depthPlaceholder) : Option (Value ν)) = none := by
  have hquoted : isBracketed (quote depthPlaceholder) = false := by decide +kernel
  unfold document?
  rw [hquoted]
  exact if_neg Bool.false_ne_true

/-- The placeholders are no diffs. -/
theorem looksLikeDiff_placeholders : looksLikeDiff diffPlaceholder = false ∧
    looksLikeDiff depthPlaceholder = false ∧ looksLikeDiff (quote depthPlaceholder) = false := by
  decide +kernel

/-- The properties of a clean value are in order. -/
theorem Clean.ordered (h : Clean room v) : v.Ordered := by
  induction room generalizing v with
  | zero =>
    obtain rfl : v = .str depthPlaceholder := h
    trivial
  | succ room ih =>
    cases v with
    | arr items => exact orderedItems_iff.mpr fun v hv => ih (h v hv)
    | obj entries =>
      obtain ⟨horder, hall⟩ := h
      refine ⟨horder, orderedEntries_iff.mpr fun entry hentry => ?_⟩
      have hclean := (hall entry hentry).2
      split_ifs at hclean with hkey
      · rw [hclean]
        trivial
      · exact ih hclean
    | null => trivial
    | bool b => trivial
    | num n => trivial
    | str s => trivial

/-- A clean value is clean after it was reread. -/
theorem Clean.reread (h : Clean room v) : Clean room v.reread := by
  induction room generalizing v with
  | zero =>
    obtain rfl : v = .str depthPlaceholder := h
    rfl
  | succ room ih =>
    cases v with
    | arr items =>
      rw [Value.reread, rereadItems_eq_map]
      intro w hw
      obtain ⟨v, hv, rfl⟩ := List.mem_map.mp hw
      exact ih (h v hv)
    | obj entries =>
      obtain ⟨horder, hall⟩ := h
      rw [reread_obj horder]
      refine ⟨@inOrder_map ν entries (fun _ v => v.reread) horder, fun entry hentry => ?_⟩
      obtain ⟨entry', hentry', rfl⟩ := List.mem_map.mp hentry
      obtain ⟨hproto, hclean⟩ := hall entry' hentry'
      refine ⟨hproto, ?_⟩
      simp only
      split_ifs at hclean ⊢ with hkey
      · rw [hclean]
        rfl
      · exact ih hclean
    | null => trivial
    | bool b => trivial
    | num n =>
      unfold Value.reread
      split
      · trivial
      · trivial
    | str s => exact h

/-- The text of a sanitized document is no document that is not clean, and no diff. -/
theorem exists_sanitized_str (value : Text) (ih : ∀ v : Value ν, Clean room (sanitizeValue room v)) :
    ∃ text, sanitizeValue (room + 1) (.str value : Value ν) = .str text ∧
      ((document? text : Option (Value ν)) = none ∧ looksLikeDiff text = false ∨
        ∃ parsed : Value ν, document? text = some parsed ∧ text = stringify parsed ∧
          Clean room parsed) := by
  rcases hdocument : (document? value : Option (Value ν)) with _ | parsed
  · refine ⟨if looksLikeDiff value then diffPlaceholder else value, ?_, Or.inl ?_⟩
    · rw [sanitizeValue, hdocument]
    · split_ifs with hdiff
      · exact ⟨document?_placeholders.1, looksLikeDiff_placeholders.1⟩
      · exact ⟨hdocument, Bool.eq_false_iff.mpr hdiff⟩
  · refine ⟨stringify (sanitizeValue room parsed), ?_, ?_⟩
    · rw [sanitizeValue, hdocument]
    · have hclean := ih parsed
      cases room with
      | zero =>
        -- the depth is used up
        have htext : stringify (sanitizeValue 0 parsed) = quote depthPlaceholder := by
          rw [sanitizeValue, stringify]
        rw [htext]
        exact Or.inl ⟨document?_quotedPlaceholder, looksLikeDiff_placeholders.2.2⟩
      | succ room =>
        have hsome : (∃ items, sanitizeValue (room + 1) parsed = .arr items) ∨
            ∃ entries, sanitizeValue (room + 1) parsed = .obj entries := by
          rcases container_of_document? hdocument with ⟨items, rfl⟩ | ⟨entries, rfl⟩
          · exact Or.inl ⟨_, rfl⟩
          · exact Or.inr ⟨_, rfl⟩
        exact Or.inr ⟨_, document?_stringify hsome, (stringify_reread _ hclean.ordered).symm,
          hclean.reread⟩

/-- **What the sanitizer returns is clean.** -/
theorem clean_sanitizeValue (room : ℕ) (v : Value ν) : Clean room (sanitizeValue room v) := by
  induction room generalizing v with
  | zero => rfl
  | succ room ih =>
    cases v with
    | arr items =>
      intro w hw
      obtain ⟨v, -, rfl⟩ := List.mem_map.mp hw
      exact ih v
    | obj entries =>
      refine ⟨inOrder_ofEntries _, fun entry hentry => ?_⟩
      have hmem := mem_ofEntries hentry
      rw [List.mem_filter, decide_eq_true_eq] at hmem
      obtain ⟨hmem, hproto⟩ := hmem
      refine ⟨hproto, ?_⟩
      obtain ⟨entry', -, rfl⟩ := List.mem_map.mp hmem
      simp only
      split_ifs with hkey
      · rfl
      · exact ih entry'.2
    | str value =>
      obtain ⟨text, htext, hnone | ⟨parsed, hdocument, heq, hclean⟩⟩ := exists_sanitized_str value ih
      · rw [htext]
        exact clean_str_of_none hnone.1 hnone.2
      · rw [htext]
        unfold Clean
        rw [hdocument]
        exact ⟨heq, hclean⟩
    | null => trivial
    | bool b => trivial
    | num n => trivial

/-- **A clean value is returned unchanged.** -/
theorem sanitizeValue_of_clean (h : Clean room v) : sanitizeValue room v = v := by
  induction room generalizing v with
  | zero => exact Eq.symm h
  | succ room ih =>
    cases v with
    | arr items =>
      rw [sanitizeValue]
      congr 1
      have hmap := List.map_congr_left fun v (hv : v ∈ items) => ih (h v hv)
      rw [hmap, List.map_id']
    | obj entries =>
      obtain ⟨horder, hall⟩ := h
      have hmap : (entries.map fun entry => (entry.1,
          if isDiffKey entry.1 then .str diffPlaceholder else sanitizeValue room entry.2)) = entries := by
        have hfixed : ∀ entry ∈ entries, (entry.1,
            if isDiffKey entry.1 then .str diffPlaceholder else sanitizeValue room entry.2) = entry := by
          intro entry hentry
          have hclean := (hall entry hentry).2
          split_ifs at hclean ⊢ with hkey
          · rw [← hclean]
          · rw [ih hclean]
        rw [List.map_congr_left hfixed, List.map_id']
      have hkept : (entries.filter fun entry => entry.1 ≠ protoKey) = entries := by
        rw [List.filter_eq_self]
        intro entry hentry
        simpa using (hall entry hentry).1
      rw [sanitizeValue, hmap, assignAll_of_inOrder horder, hkept]
    | str value =>
      unfold Clean at h
      unfold sanitizeValue
      rcases hdocument : (document? value : Option (Value ν)) with _ | parsed
      · rw [hdocument] at h
        simp only
        rw [if_neg (by simpa using h)]
      · rw [hdocument] at h
        simp only
        rw [ih h.2, ← h.1]
    | null => rfl
    | bool b => rfl
    | num n => rfl

end Sanitized

/-! ### No diffs -/

section NoDiffs

variable {ν : Type}

/-- No string in the value looks like a diff, and the properties of that name are omitted. -/
structure NoDiffs (v : Value ν) : Prop where
  strings : ∀ s, Value.Within (.str s) v → looksLikeDiff s = false
  properties : ∀ entries, Value.Within (.obj entries) v → ∀ entry ∈ entries,
    isDiffKey entry.1 = true → entry.2 = .str diffPlaceholder

theorem noDiffs_str {s : Text} (h : looksLikeDiff s = false) : NoDiffs (.str s : Value ν) := by
  constructor
  · intro s' hwithin
    cases hwithin
    exact h
  · intro entries hwithin
    cases hwithin

theorem noDiffs_arr {items : List (Value ν)} (h : ∀ v ∈ items, NoDiffs v) :
    NoDiffs (.arr items) := by
  constructor
  · intro s hwithin
    cases hwithin with
    | item hv hwithin => exact (h _ hv).strings s hwithin
  · intro entries hwithin
    cases hwithin with
    | item hv hwithin => exact (h _ hv).properties entries hwithin

theorem noDiffs_obj {entries : Entries ν} (h : ∀ entry ∈ entries, NoDiffs entry.2 ∧
    (isDiffKey entry.1 = true → entry.2 = .str diffPlaceholder)) : NoDiffs (.obj entries) := by
  constructor
  · intro s hwithin
    cases hwithin with
    | property hentry hwithin => exact (h _ hentry).1.strings s hwithin
  · intro entries' hwithin
    cases hwithin with
    | self => exact fun entry hentry => (h entry hentry).2
    | property hentry hwithin => exact (h _ hentry).1.properties entries' hwithin

variable [Numbers ν]

mutual

/-- Every string that is a document in brackets is decoded, and so are the strings in it. -/
inductive Decodes : Value ν → Value ν → Prop
  | null : Decodes .null .null
  | bool (b : Bool) : Decodes (.bool b) (.bool b)
  | num (n : ν) : Decodes (.num n) (.num n)
  | text {value : Text} (h : (document? value : Option (Value ν)) = none) :
    Decodes (.str value) (.str value)
  | document {value : Text} {parsed decoded : Value ν} (h : document? value = some parsed)
    (hparsed : Decodes parsed decoded) : Decodes (.str value) decoded
  | arr {items items' : List (Value ν)} (h : DecodesItems items items') :
    Decodes (.arr items) (.arr items')
  | obj {entries entries' : Entries ν} (h : DecodesEntries entries entries') :
    Decodes (.obj entries) (.obj entries')

inductive DecodesItems : List (Value ν) → List (Value ν) → Prop
  | nil : DecodesItems [] []
  | cons {v v' : Value ν} {items items' : List (Value ν)} (hv : Decodes v v')
    (h : DecodesItems items items') : DecodesItems (v :: items) (v' :: items')

inductive DecodesEntries : Entries ν → Entries ν → Prop
  | nil : DecodesEntries [] []
  | cons {key : Text} {v v' : Value ν} {entries entries' : Entries ν} (hv : Decodes v v')
    (h : DecodesEntries entries entries') : DecodesEntries ((key, v) :: entries) ((key, v') :: entries')

end

/-- What a value decodes to. -/
def DecodesOnly (v d : Value ν) : Prop := ∀ d', Decodes v d' ↔ d' = d

/-- A text that is no document is decoded as it is. -/
theorem decodesOnly_text {value : Text} (h : (document? value : Option (Value ν)) = none) :
    DecodesOnly (.str value : Value ν) (.str value) := by
  intro d
  constructor
  · intro hdecodes
    cases hdecodes with
    | text _ => rfl
    | document hsome _ =>
      rw [h] at hsome
      cases hsome
  · rintro rfl
    exact Decodes.text h

/-- A document is decoded as its value. -/
theorem decodesOnly_document {value : Text} {parsed d : Value ν} (h : document? value = some parsed)
    (hparsed : DecodesOnly parsed d) : DecodesOnly (.str value) d := by
  intro d'
  constructor
  · intro hdecodes
    cases hdecodes with
    | text hnone =>
      rw [h] at hnone
      cases hnone
    | document hsome hdecodes =>
      rw [h] at hsome
      obtain rfl := Option.some.inj hsome
      exact (hparsed d').mp hdecodes
  · rintro rfl
    exact Decodes.document h ((hparsed _).mpr rfl)

theorem exists_decodes_items {items : List (Value ν)}
    (h : ∀ v ∈ items, ∃ d, DecodesOnly v d ∧ NoDiffs d) :
    ∃ items' : List (Value ν), (∀ items'', DecodesItems items items'' ↔ items'' = items') ∧
      ∀ d ∈ items', NoDiffs d := by
  induction items with
  | nil =>
    refine ⟨[], fun items'' => ⟨fun hdecodes => ?_, ?_⟩, by simp⟩
    · cases hdecodes
      rfl
    · rintro rfl
      exact DecodesItems.nil
  | cons v items ih =>
    obtain ⟨d, hd, hclean⟩ := h v List.mem_cons_self
    obtain ⟨items', hitems, hall⟩ := ih fun w hw => h w (List.mem_cons_of_mem _ hw)
    refine ⟨d :: items', fun items'' => ⟨fun hdecodes => ?_, ?_⟩,
      List.forall_mem_cons.mpr ⟨hclean, hall⟩⟩
    · cases hdecodes with
      | cons hv hmore => rw [(hd _).mp hv, (hitems _).mp hmore]
    · rintro rfl
      exact DecodesItems.cons ((hd d).mpr rfl) ((hitems items').mpr rfl)

theorem exists_decodes_entries {entries : Entries ν}
    (h : ∀ entry ∈ entries, ∃ d, DecodesOnly entry.2 d ∧ NoDiffs d ∧
      (isDiffKey entry.1 = true → d = .str diffPlaceholder)) :
    ∃ entries' : Entries ν, (∀ entries'', DecodesEntries entries entries'' ↔ entries'' = entries') ∧
      ∀ entry ∈ entries', NoDiffs entry.2 ∧
        (isDiffKey entry.1 = true → entry.2 = .str diffPlaceholder) := by
  induction entries with
  | nil =>
    refine ⟨[], fun entries'' => ⟨fun hdecodes => ?_, ?_⟩, by simp⟩
    · cases hdecodes
      rfl
    · rintro rfl
      exact DecodesEntries.nil
  | cons entry entries ih =>
    obtain ⟨key, v⟩ := entry
    obtain ⟨d, hd, hclean, hkey⟩ := h _ List.mem_cons_self
    obtain ⟨entries', hentries, hall⟩ := ih fun w hw => h w (List.mem_cons_of_mem _ hw)
    refine ⟨(key, d) :: entries', fun entries'' => ⟨fun hdecodes => ?_, ?_⟩,
      List.forall_mem_cons.mpr ⟨⟨hclean, hkey⟩, hall⟩⟩
    · cases hdecodes with
      | cons hv hmore => rw [(hd _).mp hv, (hentries _).mp hmore]
    · rintro rfl
      exact DecodesEntries.cons ((hd d).mpr rfl) ((hentries entries').mpr rfl)

/-- **The documents of a clean value have no diff in them.** -/
theorem Clean.exists_decodes {room : ℕ} {v : Value ν} (h : Clean room v) :
    ∃ d, DecodesOnly v d ∧ NoDiffs d := by
  induction room generalizing v with
  | zero =>
    obtain rfl : v = .str depthPlaceholder := h
    exact ⟨_, decodesOnly_text document?_placeholders.2, noDiffs_str looksLikeDiff_placeholders.2.1⟩
  | succ room ih =>
    cases v with
    | null =>
      refine ⟨.null, fun d => ⟨fun hdecodes => ?_, ?_⟩, fun s h => ?_, fun entries h => ?_⟩
      · cases hdecodes
        rfl
      · rintro rfl
        exact Decodes.null
      · cases h
      · cases h
    | bool b =>
      refine ⟨.bool b, fun d => ⟨fun hdecodes => ?_, ?_⟩, fun s h => ?_, fun entries h => ?_⟩
      · cases hdecodes
        rfl
      · rintro rfl
        exact Decodes.bool b
      · cases h
      · cases h
    | num n =>
      refine ⟨.num n, fun d => ⟨fun hdecodes => ?_, ?_⟩, fun s h => ?_, fun entries h => ?_⟩
      · cases hdecodes
        rfl
      · rintro rfl
        exact Decodes.num n
      · cases h
      · cases h
    | str value =>
      unfold Clean at h
      rcases hdocument : (document? value : Option (Value ν)) with _ | parsed
      · rw [hdocument] at h
        exact ⟨_, decodesOnly_text hdocument, noDiffs_str h⟩
      · rw [hdocument] at h
        obtain ⟨d, hd, hclean⟩ := ih h.2
        exact ⟨d, decodesOnly_document hdocument hd, hclean⟩
    | arr items =>
      obtain ⟨items', hitems, hall⟩ := exists_decodes_items fun v hv => ih (h v hv)
      refine ⟨.arr items', fun d => ⟨fun hdecodes => ?_, ?_⟩, noDiffs_arr hall⟩
      · cases hdecodes with
        | arr hitems' => rw [(hitems _).mp hitems']
      · rintro rfl
        exact Decodes.arr ((hitems items').mpr rfl)
    | obj entries =>
      obtain ⟨entries', hentries, hall⟩ := exists_decodes_entries fun entry hentry => by
        have hclean := (h.2 entry hentry).2
        split_ifs at hclean with hkey
        · rw [hclean]
          exact ⟨_, decodesOnly_text document?_placeholders.1,
            noDiffs_str looksLikeDiff_placeholders.1, fun _ => rfl⟩
        · obtain ⟨d, hd, hnone⟩ := ih hclean
          exact ⟨d, hd, hnone, fun hdiff => absurd hdiff hkey⟩
      refine ⟨.obj entries', fun d => ⟨fun hdecodes => ?_, ?_⟩, noDiffs_obj hall⟩
      · cases hdecodes with
        | obj hentries' => rw [(hentries _).mp hentries']
      · rintro rfl
        exact Decodes.obj ((hentries entries').mpr rfl)

/-- **Prompt snapshots hold no diffs.**  What is stored of a snapshot decodes to one value, which has no
diff in it, and to sanitize it again changes nothing. -/
theorem sanitizePromptSnapshot_noDiffs (v : Value ν) :
    (∃ d, (∀ d', Decodes (sanitizePromptSnapshot v) d' ↔ d' = d) ∧ NoDiffs d) ∧
      sanitizePromptSnapshot (sanitizePromptSnapshot v) = sanitizePromptSnapshot v := by
  have hclean := clean_sanitizeValue (maxDepth + 1) v
  exact ⟨hclean.exists_decodes, sanitizeValue_of_clean hclean⟩

end NoDiffs

end MiniCoder
