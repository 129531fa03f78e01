import MiniCoder.Auth.Redaction
import MiniCoder.Persistence.Agents
import MiniCoder.Project.Doctor

/-!
# Redacted text, and the scan of the doctor

The rules for tokens leave nothing that they, or one another, match.  The rules for fields and for the
authorization header keep the name in front of the secret, and the name with the replacement behind it
is what they match.

* `TokenKind.not_occurs_replaceFrom`, `TokenKind.occurs_of_replaceFrom`: no token is left, and none is made.
* `field_occurs_replaceFrom`: the rules for tokens neither make a field nor break one.
* `redacted_iff`: which texts are redacted for good.
-/

open Regex Storage

namespace MiniCoder

/-! ### Tokens after the replacement of tokens -/

section Tokens

variable {kind kind' : TokenKind} {prev prev' : Option Char} {text used rest after : Text}

theorem defaultReplacement_eq : defaultReplacement = '[' :: "REDACTED]".toList := rfl

/-- A replacement begins with a bracket. -/
theorem TokenKind.replaceFrom_hit {group hidden : Text}
    (h : kind.rule.match? prev text = some (group, hidden, rest)) :
    kind.rule.replaceFrom prev 0 text =
      defaultReplacement ++ kind.rule.replaceFrom (lastOf prev hidden) 0 rest := by
  obtain ⟨rfl, -⟩ := TokenKind.match_iff.mp (Rule.match_of_match? h)
  exact Rule.replaceFrom_hit h

/-- What has no bracket in it was copied. -/
theorem TokenKind.exists_copied (hbracket : '[' ∉ used)
    (h : kind.rule.replaceFrom prev 0 text = used ++ after) :
    ∃ rest, text = used ++ rest ∧ after = kind.rule.replaceFrom (lastOf prev used) 0 rest := by
  induction used generalizing prev text with
  | nil => exact ⟨text, rfl, h.symm⟩
  | cons c used ih =>
    rw [List.mem_cons, not_or] at hbracket
    cases text with
    | nil => cases h
    | cons d text =>
      rcases hmatch? : kind.rule.match? prev (d :: text) with _ | ⟨group, hidden, rest⟩
      · rw [Rule.replaceFrom_copy hmatch?] at h
        obtain ⟨rfl, hmore⟩ := List.cons.inj h
        obtain ⟨rest, rfl, hafter⟩ := ih hbracket.2 hmore
        refine ⟨rest, rfl, ?_⟩
        rwa [lastOf_cons]
      · rw [TokenKind.replaceFrom_hit hmatch?] at h
        exact absurd (List.cons.inj h).1 hbracket.1

theorem TokenKind.Token.bracket_not_mem (h : kind.Token used) : '[' ∉ used := fun hmem =>
  ne_of_isTokenText (h.isTokenText _ hmem) (by decide) rfl

theorem TokenKind.Token.quote_not_mem (h : kind.Token used) : '"' ∉ used := fun hmem =>
  ne_of_isTokenText (h.isTokenText _ hmem) (by decide) rfl

/-- A token that stands at the beginning of a result stood there before. -/
theorem TokenKind.Token.exists_copied (h : kind.Token used)
    (hend : isBoundary (lastOf prev' used) after = true)
    (heq : kind'.rule.replaceFrom prev 0 text = used ++ after) :
    ∃ rest, text = used ++ rest ∧ isBoundary (lastOf prev used) rest = true := by
  obtain ⟨rest, rfl, hafter⟩ := TokenKind.exists_copied h.bracket_not_mem heq
  refine ⟨rest, rfl, ?_⟩
  have hlast : lastOf prev' used = lastOf prev used := by
    obtain ⟨c, tail, rfl, -⟩ := h.exists_cons
    rw [lastOf_cons, lastOf_cons]
  rw [hlast, hafter] at hend
  cases rest with
  | nil =>
    rw [Rule.replaceFrom_nil] at hend
    exact hend
  | cons d rest =>
    rcases hmatch? : kind'.rule.match? (lastOf prev used) (d :: rest) with _ | ⟨group, hidden, rest'⟩
    · rw [Rule.replaceFrom_copy hmatch?, isBoundary_cons] at hend
      rw [isBoundary_cons]
      exact hend
    · -- a token would begin in the middle of a word
      rw [TokenKind.replaceFrom_hit hmatch?, defaultReplacement_eq, List.cons_append,
        isBoundary_cons] at hend
      have hmatch := TokenKind.match_iff.mp (Rule.match_of_match? hmatch?)
      have hword : (lastOf prev used).any isWord = false := by
        rw [← hmatch.2.2.1.isBoundary_iff]
        exact hmatch.2.2.2.1
      rw [hword] at hend
      exact absurd hend (by decide)

/-- Nothing that begins with a small letter begins in a replacement. -/
theorem occurs_of_replacement {rule : Rule} (hstart : ∀ prev c rest group hidden after,
    rule.Match prev (c :: rest) group hidden after → c ∉ defaultReplacement)
    (h : rule.Occurs prev (defaultReplacement ++ text)) : rule.Occurs (some ']') text := by
  have hall : ∀ replaced : Text, replaced ⊆ defaultReplacement → ∀ prev,
      rule.Occurs prev (replaced ++ text) → rule.Occurs (lastOf prev replaced) text := by
    intro replaced
    induction replaced with
    | nil => exact fun _ _ h => h
    | cons c replaced ih =>
      intro hsub prev h
      obtain ⟨hc, hsub⟩ := List.cons_subset.mp hsub
      rw [lastOf_cons]
      refine ih hsub _ ((Rule.occurs_cons.mp h).resolve_left ?_)
      rintro ⟨group, hidden, rest, hmatch⟩
      exact hstart _ _ _ _ _ _ hmatch hc
  exact hall defaultReplacement (List.Subset.refl _) prev h

theorem TokenKind.not_mem_replacement {c : Char} {group hidden : Text}
    (h : kind.rule.Match prev (c :: text) group hidden rest) : c ∉ defaultReplacement := by
  obtain ⟨-, htext, htoken, -⟩ := TokenKind.match_iff.mp h
  obtain ⟨d, tail, rfl, hd⟩ := htoken.exists_cons
  obtain ⟨rfl, -⟩ := List.cons.inj htext
  have hall : (defaultReplacement.all fun c => !c.isLower) = true := by decide
  intro hmem
  have hupper : c.isLower = false := by simpa using List.all_eq_true.mp hall c hmem
  rw [hupper] at hd
  cases hd

/-- The character before a text, with respect to whether a token begins there. -/
def SameStart (prev' prev : Option Char) (text : Text) : Prop :=
  prev'.any isWord = prev.any isWord ∨ text.head?.any isWord = false

/-- After a token, a bracket is as good as its last character. -/
theorem TokenKind.sameStart_of_match {group hidden : Text}
    (h : kind.rule.Match prev text group hidden rest) :
    SameStart (some ']') (lastOf prev hidden) rest := by
  obtain ⟨-, -, -, -, hend⟩ := TokenKind.match_iff.mp h
  have hbracket : isWord ']' = false := by decide
  unfold SameStart
  rcases hlast : (lastOf prev hidden).any isWord with _ | _
  · exact Or.inl hbracket
  · right
    rcases hhead : rest.head?.any isWord with _ | _
    · rfl
    · rw [isBoundary, hlast, hhead] at hend
      cases hend

/-- What matches at the beginning of a result matched there before. -/
theorem TokenKind.exists_match_of_replaceFrom {c : Char} {group hidden : Text}
    (hstart : SameStart prev' prev (c :: text)) (hnone : kind'.rule.match? prev (c :: text) = none)
    (h : kind.rule.Match prev' (c :: kind'.rule.replaceFrom (some c) 0 text) group hidden after) :
    ∃ rest, kind.rule.Match prev (c :: text) [] hidden rest := by
  obtain ⟨-, htext, htoken, hbegin, hend⟩ := TokenKind.match_iff.mp h
  rw [← Rule.replaceFrom_copy hnone] at htext
  obtain ⟨rest, hrest, hend'⟩ := @TokenKind.Token.exists_copied kind kind' prev _ _ _ _ htoken hend htext
  refine ⟨rest, TokenKind.match_iff.mpr ⟨rfl, hrest, htoken, ?_, hend'⟩⟩
  rw [htoken.isBoundary_iff] at hbegin ⊢
  rcases hstart with hsame | hword
  · rw [← hsame]
    exact hbegin
  · obtain ⟨d, tail, rfl, hd⟩ := htoken.exists_cons
    obtain ⟨rfl, -⟩ := List.cons.inj hrest
    rw [List.head?_cons, Option.any_some, isWord_of_isLower hd] at hword
    cases hword

/-- **Replacing tokens makes no token.** -/
theorem TokenKind.occurs_of_replaceFrom (hstart : SameStart prev' prev text)
    (h : kind.rule.Occurs prev' (kind'.rule.replaceFrom prev 0 text)) :
    kind.rule.Occurs prev text := by
  induction prev, text using @Rule.replace_induct kind'.rule generalizing prev' with
  | nil prev => exact absurd h Rule.not_occurs_nil
  | copy prev c text hnone ih =>
    rw [Rule.replaceFrom_copy hnone] at h
    rcases Rule.occurs_cons.mp h with ⟨group, hidden, after, hmatch⟩ | hlater
    · obtain ⟨rest, hmatch'⟩ := TokenKind.exists_match_of_replaceFrom hstart hnone hmatch
      exact Rule.occurs_of_match hmatch'
    · exact Rule.occurs_cons.mpr (Or.inr (ih (Or.inl rfl) hlater))
  | hit prev text group hidden rest hsome ih =>
    have hmatch := Rule.match_of_match? hsome
    rw [TokenKind.replaceFrom_hit hsome] at h
    obtain ⟨rfl, rfl, -⟩ := TokenKind.match_iff.mp hmatch
    have hlater := occurs_of_replacement (fun _ _ _ _ _ _ => TokenKind.not_mem_replacement) h
    exact Rule.occurs_append (ih (TokenKind.sameStart_of_match hmatch) hlater)

/-- **Replacing the tokens of a kind leaves none of it.** -/
theorem TokenKind.not_occurs_replaceFrom (hstart : SameStart prev' prev text) :
    ¬ kind.rule.Occurs prev' (kind.rule.replaceFrom prev 0 text) := by
  induction prev, text using @Rule.replace_induct kind.rule generalizing prev' with
  | nil prev => exact Rule.not_occurs_nil
  | copy prev c text hnone ih =>
    rw [Rule.replaceFrom_copy hnone, Rule.occurs_cons, not_or]
    refine ⟨?_, ih (Or.inl rfl)⟩
    rintro ⟨group, hidden, after, hmatch⟩
    obtain ⟨rest, hmatch'⟩ := TokenKind.exists_match_of_replaceFrom hstart hnone hmatch
    exact Rule.match?_eq_none.mp hnone _ _ _ hmatch'
  | hit prev text group hidden rest hsome ih =>
    have hmatch := Rule.match_of_match? hsome
    rw [TokenKind.replaceFrom_hit hsome]
    obtain ⟨rfl, rfl, -⟩ := TokenKind.match_iff.mp hmatch
    intro h
    exact ih (TokenKind.sameStart_of_match hmatch)
      (occurs_of_replacement (fun _ _ _ _ _ _ => TokenKind.not_mem_replacement) h)

end Tokens

/-! ### Fields after the replacement of tokens -/

section FieldsAndTokens

variable {kind : TokenKind} {prev prev' : Option Char} {text header before after : Text}

theorem IsHeader.bracket_not_mem (h : IsHeader header) : '[' ∉ header := by
  obtain ⟨field, hfield, key, spaces, hkey, hspaces, rfl⟩ := h
  have hfields : ∀ field ∈ secretFields, ∀ d ∈ field, d.toLower ≠ ('[' : Char).toLower := by
    have hall : (secretFields.all fun field => field.all fun d =>
        decide (d.toLower ≠ ('[' : Char).toLower)) = true := by decide
    exact fun field hfield d hd => of_decide_eq_true
      (List.all_eq_true.mp (List.all_eq_true.mp hall field hfield) d hd)
  have hspace : isWhiteSpace '[' = false := by decide
  intro hmem
  simp only [List.mem_cons, List.mem_append, List.not_mem_nil, or_false] at hmem
  rcases hmem with h | h | h | h | h | h
  · exact absurd h (by decide)
  · obtain ⟨d, hd, heq⟩ := exists_of_mem_key hkey h
    exact hfields field hfield d hd heq
  · exact absurd h (by decide)
  · exact absurd h (by decide)
  · rw [hspaces _ h] at hspace
    cases hspace
  · exact absurd h (by decide)

/-- **No token begins in a header.** -/
theorem IsHeader.not_token (h : IsHeader header) (hsplit : header = before ++ after)
    (hafter : after ≠ []) {used rest rest' : Text} (htoken : kind.Token used) :
    after ++ rest ≠ used ++ rest' := by
  obtain ⟨field, hfield, key, spaces, hkey, hspaces, rfl⟩ := h
  obtain ⟨c, tail, hused, hc⟩ := htoken.exists_cons
  have hshort : key.length < 20 := by
    have hall : ∀ field ∈ secretFields, field.length < 20 := by decide
    rw [← hkey.length_eq]
    exact hall field hfield
  have hlong := htoken.length
  intro heq
  have hfirst : ∀ d ∈ after.head?, d = c := by
    intro d hd
    rcases after with _ | ⟨e, after⟩
    · cases hd
    · obtain rfl := Option.some.inj hd
      rw [hused] at heq
      exact (List.cons.inj heq).1
  -- the characters behind the name begin no token
  have htail : ∀ d ∈ '"' :: ':' :: (spaces ++ ['"']), d ≠ c := by
    have hspace : ∀ d, d.isLower = true → isWhiteSpace d = false := by
      intro d hd
      have hbounds := toNat_of_isLower hd
      exact isWhiteSpace_of_printed (by omega) (by omega)
    intro d hd heq
    subst heq
    simp only [List.mem_cons, List.mem_append, List.not_mem_nil, or_false] at hd
    rcases hd with rfl | rfl | hd | rfl
    · exact absurd hc (by decide)
    · exact absurd hc (by decide)
    · have hwhite := hspaces _ hd
      rw [hspace _ hc] at hwhite
      cases hwhite
    · exact absurd hc (by decide)
  rcases before with _ | ⟨quote, before⟩
  · rw [List.nil_append] at hsplit
    rw [← hsplit] at hfirst
    have hquote := hfirst _ rfl
    rw [← hquote] at hc
    exact absurd hc (by decide)
  rw [List.cons_append] at hsplit
  rcases List.append_eq_append_iff.mp (List.cons.inj hsplit).2 with ⟨more, rfl, hmore⟩ |
    ⟨more, rfl, rfl⟩
  · -- behind the name
    rcases after with _ | ⟨e, after⟩
    · exact hafter rfl
    · have he : e ∈ '"' :: ':' :: (spaces ++ ['"']) := by
        rw [hmore]
        simp
      exact htail e he (hfirst e rfl)
  · -- in the name: its quote would be in the token
    rw [List.append_assoc] at heq
    rcases List.append_eq_append_iff.mp heq with ⟨more', hmore', hquote⟩ | ⟨more', rfl, -⟩
    · rcases more' with _ | ⟨e, more'⟩
      · rw [hmore'] at hlong
        simp only [List.length_append, List.length_nil] at hlong hshort
        omega
      · obtain ⟨rfl, -⟩ := List.cons.inj hquote
        have hmem : '"' ∈ used := by
          rw [hmore']
          simp
        exact htoken.quote_not_mem hmem
    · simp only [List.length_append] at hshort
      omega

/-- The quotes of a text are those of the result. -/
theorem TokenKind.quote_mem_replaceFrom :
    '"' ∈ kind.rule.replaceFrom prev 0 text ↔ '"' ∈ text := by
  induction prev, text using @Rule.replace_induct kind.rule with
  | nil prev => rw [Rule.replaceFrom_nil]
  | copy prev c text hnone ih => rw [Rule.replaceFrom_copy hnone, List.mem_cons, List.mem_cons, ih]
  | hit prev text group hidden rest hsome ih =>
    obtain ⟨rfl, rfl, htoken, -⟩ := TokenKind.match_iff.mp (Rule.match_of_match? hsome)
    have hreplacement : '"' ∉ defaultReplacement := by decide
    rw [TokenKind.replaceFrom_hit hsome, List.mem_append, List.mem_append]
    simp only [hreplacement, htoken.quote_not_mem, false_or]
    exact ih

/-- A field is found wherever it stands. -/
theorem field_occurs_cons {c : Char} : fieldRule.Occurs prev (c :: text) ↔
    (∃ header after, c :: text = header ++ after ∧ IsHeader header ∧ '"' ∈ after) ∨
      fieldRule.Occurs (some c) text := by
  rw [Rule.occurs_cons, exists_field_match_iff]

theorem field_occurs_of_prev (h : fieldRule.Occurs prev text) : fieldRule.Occurs prev' text := by
  cases text with
  | nil => exact absurd h Rule.not_occurs_nil
  | cons c text => rwa [field_occurs_cons] at h ⊢

theorem field_not_mem {c : Char} {rest group hidden : Text}
    (h : fieldRule.Match prev (c :: rest) group hidden after) : c = '"' := by
  obtain ⟨header, after', hrest, ⟨_, _, _, _, _, _, rfl⟩, -⟩ :=
    exists_field_match_iff.mp ⟨group, hidden, after, h⟩
  exact (List.cons.inj hrest).1

/-- A field behind a token. -/
theorem field_occurs_append {used : Text} (hquote : '"' ∉ used)
    (h : fieldRule.Occurs prev (used ++ text)) : fieldRule.Occurs prev' text := by
  induction used generalizing prev with
  | nil => exact field_occurs_of_prev h
  | cons c used ih =>
    rw [List.mem_cons, not_or] at hquote
    refine ih hquote.2 ((Rule.occurs_cons.mp h).resolve_left ?_)
    rintro ⟨group, hidden, rest, hmatch⟩
    exact hquote.1 (field_not_mem hmatch).symm

/-- **Replacing tokens makes no field, and breaks none.** -/
theorem field_occurs_replaceFrom :
    fieldRule.Occurs prev' (kind.rule.replaceFrom prev 0 text) ↔ fieldRule.Occurs prev text := by
  induction prev, text using @Rule.replace_induct kind.rule generalizing prev' with
  | nil prev =>
    rw [Rule.replaceFrom_nil]
    exact iff_of_false Rule.not_occurs_nil Rule.not_occurs_nil
  | copy prev c text hnone ih =>
    rw [Rule.replaceFrom_copy hnone, field_occurs_cons, field_occurs_cons, ih]
    refine or_congr_left ⟨?_, ?_⟩
    · rintro ⟨header, after, heq, hheader, hquote⟩
      rw [← Rule.replaceFrom_copy hnone] at heq
      obtain ⟨rest, htext, rfl⟩ := TokenKind.exists_copied hheader.bracket_not_mem heq
      exact ⟨header, rest, htext, hheader, TokenKind.quote_mem_replaceFrom.mp hquote⟩
    · rintro ⟨header, rest, htext, hheader, hquote⟩
      refine ⟨header, kind.rule.replaceFrom (lastOf prev header) 0 rest, ?_, hheader,
        TokenKind.quote_mem_replaceFrom.mpr hquote⟩
      rw [← Rule.replaceFrom_copy hnone, htext]
      refine Rule.replaceFrom_append fun before after hsplit hafter group hidden rest' hmatch => ?_
      obtain ⟨-, heq, htoken, -⟩ := TokenKind.match_iff.mp hmatch
      exact hheader.not_token hsplit hafter htoken heq
  | hit prev text group hidden rest hsome ih =>
    obtain ⟨rfl, rfl, htoken, -⟩ := TokenKind.match_iff.mp (Rule.match_of_match? hsome)
    have hreplacement : '"' ∉ defaultReplacement := by decide
    rw [TokenKind.replaceFrom_hit hsome]
    constructor
    · intro h
      exact Rule.occurs_append ((@ih prev').mp (field_occurs_append hreplacement h))
    · intro h
      exact Rule.occurs_append (ih.mpr (field_occurs_append htoken.quote_not_mem h))

end FieldsAndTokens

/-! ### Redacted texts -/

section Redacted

variable {s : Text}

theorem field_occurs_maskTokens : fieldRule.Occurs none (maskTokens s) ↔ fieldRule.Occurs none s := by
  have hall : ∀ (kinds : List TokenKind) (s : Text),
      fieldRule.Occurs none (kinds.foldl (fun result kind => kind.rule.replace result) s) ↔
        fieldRule.Occurs none s := by
    intro kinds
    induction kinds with
    | nil => exact fun _ => Iff.rfl
    | cons kind kinds ih =>
      intro s
      rw [List.foldl_cons, ih]
      exact field_occurs_replaceFrom
  exact hall tokenKinds s

/-- **No token is left.** -/
theorem not_occurs_maskTokens : ∀ kind ∈ tokenKinds, ¬ kind.rule.Occurs none (maskTokens s) := by
  have hkept : ∀ (kinds : List TokenKind) (s : Text) (kind : TokenKind), ¬ kind.rule.Occurs none s →
      ¬ kind.rule.Occurs none (kinds.foldl (fun result kind => kind.rule.replace result) s) := by
    intro kinds
    induction kinds with
    | nil => exact fun _ _ h => h
    | cons kind' kinds ih =>
      exact fun s kind h => ih _ kind fun hlater =>
        h (TokenKind.occurs_of_replaceFrom (Or.inl rfl) hlater)
  have hall : ∀ (kinds : List TokenKind) (s : Text), ∀ kind ∈ kinds,
      ¬ kind.rule.Occurs none (kinds.foldl (fun result kind => kind.rule.replace result) s) := by
    intro kinds
    induction kinds with
    | nil => simp
    | cons kind' kinds ih =>
      intro s kind hkind
      rcases List.mem_cons.mp hkind with rfl | hkind
      · exact hkept kinds _ _ (TokenKind.not_occurs_replaceFrom (Or.inl rfl))
      · exact ih _ kind hkind
  exact hall tokenKinds s

/-- The name of a secret stands in the text: a field with a value, or, when the tokens are replaced, an
authorization header with a bearer. -/
def NamesSecret (s : Text) : Prop :=
  fieldRule.Occurs none s ∨ bearerRule.Occurs none (maskTokens s)

theorem field_occurs_replace (h : fieldRule.Occurs none s) :
    fieldRule.Occurs none (fieldRule.replace s) := by
  refine Rule.occurs_replaceFrom rfl (fun prev rest => ?_) h
  have hquote : ∀ c ∈ defaultReplacement, decide (c ≠ '"') = true := by
    have hall : (defaultReplacement.all fun c => decide (c ≠ '"')) = true := by decide
    exact List.all_eq_true.mp hall
  exact ⟨['"'], defaultReplacement ++ ['"'], rfl, forall₂_same_quote.mpr rfl, defaultReplacement, ['"'],
    rfl, ⟨Nat.zero_le _, hquote⟩, ['"'], [], rfl, forall₂_same_quote.mpr rfl, rfl⟩

theorem bearer_occurs_replace (h : bearerRule.Occurs none s) :
    bearerRule.Occurs none (bearerRule.replace s) := by
  refine Rule.occurs_replaceFrom rfl (fun prev rest => ?_) h
  have hall : (defaultReplacement.all fun c => !isWhiteSpace c) = true := by decide
  exact ⟨defaultReplacement, [], rfl, ⟨by decide, List.all_eq_true.mp hall⟩, rfl⟩

/-- A text that names no secret has its tokens replaced, and nothing else. -/
theorem redact_of_not_namesSecret (h : ¬ NamesSecret s) : defaultRedactor.redact s = maskTokens s := by
  unfold NamesSecret at h
  rw [not_or] at h
  have hfield : fieldRule.replace s = s := Rule.replaceFrom_eq_self h.1
  have hbearer : bearerRule.replace (maskTokens s) = maskTokens s := Rule.replaceFrom_eq_self h.2
  rw [redact_eq, hfield, hbearer]

/-- **The scan finds nothing in a redacted text, unless the text names a secret.** -/
theorem scanForSecrets_redact :
    defaultRedactor.scanForSecrets (defaultRedactor.redact s) = [] ↔ ¬ NamesSecret s := by
  constructor
  · intro hscan hnames
    rw [scanForSecrets_eq_nil, redact_eq] at hscan
    obtain ⟨hfield, -, hbearer⟩ := hscan
    have hnobearer : ¬ bearerRule.Occurs none (maskTokens (fieldRule.replace s)) := fun h =>
      hbearer (bearer_occurs_replace h)
    have hsame : bearerRule.replace (maskTokens (fieldRule.replace s)) =
        maskTokens (fieldRule.replace s) := Rule.replaceFrom_eq_self hnobearer
    rw [hsame, field_occurs_maskTokens] at hfield
    have hnofield : ¬ fieldRule.Occurs none s := fun h => hfield (field_occurs_replace h)
    have hcopied : fieldRule.replace s = s := Rule.replaceFrom_eq_self hnofield
    rw [hcopied] at hnobearer
    exact hnames.elim hnofield hnobearer
  · intro hnames
    rw [redact_of_not_namesSecret hnames, scanForSecrets_eq_nil, field_occurs_maskTokens]
    unfold NamesSecret at hnames
    rw [not_or] at hnames
    exact ⟨hnames.1, not_occurs_maskTokens, hnames.2⟩

/-- A text in which the scan finds nothing stays as it is. -/
theorem redact_eq_self (h : defaultRedactor.scanForSecrets s = []) : defaultRedactor.redact s = s := by
  obtain ⟨hfield, htokens, hbearer⟩ := scanForSecrets_eq_nil.mp h
  have hall : ∀ kinds : List TokenKind, (∀ kind ∈ kinds, ¬ kind.rule.Occurs none s) →
      kinds.foldl (fun result kind => kind.rule.replace result) s = s := by
    intro kinds hkinds
    induction kinds with
    | nil => rfl
    | cons kind kinds ih =>
      have hcopied : kind.rule.replace s = s :=
        Rule.replaceFrom_eq_self (hkinds kind List.mem_cons_self)
      rw [List.foldl_cons, hcopied]
      exact ih fun kind' hkind' => hkinds kind' (List.mem_cons_of_mem _ hkind')
  have hmask : maskTokens s = s := hall tokenKinds htokens
  have hfields : fieldRule.replace s = s := Rule.replaceFrom_eq_self hfield
  have hbearers : bearerRule.replace s = s := Rule.replaceFrom_eq_self hbearer
  rw [redact_eq, hfields, hmask, hbearers]

end Redacted

/-! ### The check of the doctor -/

/-- `SECRET_SCAN_SAMPLE_SIZE`. -/
def secretScanSampleSize : ℕ := 50

/-- What the scan reads, with the times at which the rows were made. -/
structure SecretScan where
  contextPacks : Table AgentContextPack
  runs : Table AgentRun
  createdAt : String → ℤ

namespace SecretScan

variable (scan : SecretScan)

/-- `ORDER BY created_at DESC, id DESC`. -/
def Later (id id' : String) : Prop :=
  scan.createdAt id' < scan.createdAt id ∨ scan.createdAt id = scan.createdAt id' ∧ id' ≤ id

instance : DecidableRel scan.Later := fun id id' => inferInstanceAs (Decidable
  (scan.createdAt id' < scan.createdAt id ∨ scan.createdAt id = scan.createdAt id' ∧ id' ≤ id))

def recentContextPacks : List AgentContextPack :=
  (scan.contextPacks.rows.insertionSort fun pack pack' => scan.Later pack.id pack'.id).take
    secretScanSampleSize

def recentAgentRuns : List AgentRun :=
  (scan.runs.rows.insertionSort fun run run' => scan.Later run.id run'.id).take secretScanSampleSize

/-- The fields of a run that are scanned, without those that are empty. -/
def fieldsOf (run : AgentRun) : List (String × String) :=
  [("input_summary", some run.inputSummary), ("output_summary", run.outputSummary),
    ("error", run.error)].filterMap fun (field, value) =>
      if value.getD "" = "" then none else some (field, value.getD "")

/-- The texts that are scanned, with their table, row and field. -/
def sample : List ((String × String × String) × Text) :=
  (scan.recentContextPacks.map fun pack =>
    (("agent_context_packs", pack.id, "content"), pack.content.toList)) ++
  scan.recentAgentRuns.flatMap fun run =>
    (fieldsOf run).map fun (field, value) => (("agent_runs", run.id, field), value.toList)

def secretHits : List CountRow :=
  scan.sample.filterMap fun ((table, id, field), text) =>
    let rules := defaultRedactor.scanForSecrets text
    if 0 < rules.length then
      some { id, columns := [("table", .str table), ("field", .str field), ("rules", .strs rules)] }
    else none

/-- `secret_leak_scan`. -/
def check : DoctorCheck :=
  ({ name := "secret_leak_scan", scope := some "global", found := .error,
     manuallyRepairable := some false } : DoctorRule).check scan.secretHits

end SecretScan

theorem SecretScan.severity_ok {scan : SecretScan} : scan.check.severity = .ok ↔
    ∀ entry ∈ scan.sample, defaultRedactor.scanForSecrets entry.2 = [] := by
  have hnone : scan.secretHits = [] ↔
      ∀ entry ∈ scan.sample, defaultRedactor.scanForSecrets entry.2 = [] := by
    unfold SecretScan.secretHits
    rw [List.filterMap_eq_nil_iff]
    refine forall₂_congr fun entry _ => ?_
    simp only [List.length_pos_iff]
    by_cases hnil : defaultRedactor.scanForSecrets entry.2 = []
    · simp [hnil]
    · simp [hnil]
  rw [← hnone]
  unfold SecretScan.check DoctorRule.check
  rcases scan.secretHits with _ | ⟨hit, hits⟩
  · simp
  · simp

/-- A scan of texts that went through `redact` when they were written. -/
structure RedactedScan extends SecretScan where
  original : Text → Text
  written : ∀ entry ∈ toSecretScan.sample, entry.2 = defaultRedactor.redact (original entry.2)

/-! ### Redaction for good -/

/-- A second redaction changes nothing, and the scan finds nothing. -/
def RedactedForGood (s : Text) : Prop :=
  defaultRedactor.redact (defaultRedactor.redact s) = defaultRedactor.redact s ∧
    defaultRedactor.scanForSecrets (defaultRedactor.redact s) = []

/-- **A text is redacted for good if and only if it names no secret**, and the check of the doctor over
redacted texts is clear if and only if none of them does. -/
theorem redacted_iff (s : Text) (scan : RedactedScan) : (RedactedForGood s ↔ ¬ NamesSecret s) ∧
    (scan.check.severity = .ok ↔
      ∀ entry ∈ scan.sample, ¬ NamesSecret (scan.original entry.2)) := by
  constructor
  · constructor
    · exact fun h => scanForSecrets_redact.mp h.2
    · intro h
      have hscan := scanForSecrets_redact.mpr h
      exact ⟨redact_eq_self hscan, hscan⟩
  · rw [SecretScan.severity_ok]
    refine forall₂_congr fun entry hentry => ?_
    rw [← scanForSecrets_redact, ← scan.written entry hentry]

/-- A field with a secret, redacted. -/
theorem not_redactedForGood_field : ¬ ∀ s, RedactedForGood s := by
  intro h
  have hscan := (h "\x7b\"token\": \"x\"\x7d".toList).2
  exact absurd hscan (by decide +kernel)

end MiniCoder
