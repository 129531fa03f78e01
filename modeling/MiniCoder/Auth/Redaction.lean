import MiniCoder.Domain.Text
import MiniCoder.Library.Json
import MiniCoder.Library.Regex

/-!
# The redaction of secrets

`SecretRedactor` applies five rules one after the other: one for the fields of JSON that are named like a
secret, three for tokens of a known form, and one for the bearer of an authorization header.  The same
rules are what `scanForSecrets` looks for.

* `TokenKind.match_iff`, `exists_field_match`: what the rules match.
-/

open Regex
open Json hiding Text

namespace MiniCoder

/-! ### Rules -/

structure RedactionRule where
  /-- `pattern.source`. -/
  source : String
  pattern : Rule

def defaultReplacement : Text := "[REDACTED]".toList

/-- The fields of the first rule. -/
def secretFields : List Text :=
  ["token", "apiKey", "api_key", "password", "secret", "credential", "privateKey", "private_key",
    "accessKey", "access_key", "accessToken", "access_token", "refreshToken", "refresh_token",
    "clientSecret", "client_secret", "webhookSecret", "webhook_secret", "signingSecret",
    "signing_secret", "authorization"].map String.toList

def fieldRule : Rule where
  ignoreCase := true
  kept := [.text ['"'], .oneOf secretFields, .text ['"', ':'], .many isWhiteSpace 0]
  secret := [.text ['"'], .many (fun c => c ≠ '"') 0, .text ['"']]
  replacement := '"' :: (defaultReplacement ++ ['"'])
  solid := rfl

/-- The characters of tokens. -/
def isTokenText (c : Char) : Bool := c.isAlphanum || c = '-' || c = '_'

/-- The tokens of a service: a head, and at least so many characters of a kind. -/
structure TokenKind where
  source : String
  heads : List Text
  isTokenChar : Char → Bool
  least : ℕ
  heads_text : (heads.all fun head => head.head?.any Char.isLower && head.all isTokenText) = true
  char_text : ∀ c, isTokenChar c = true → isTokenText c = true
  /-- No name of a field is so long. -/
  long : 20 ≤ least

def TokenKind.rule (kind : TokenKind) : Rule where
  ignoreCase := false
  kept := []
  secret := [.boundary, .oneOf kind.heads, .many kind.isTokenChar kind.least, .boundary]
  replacement := defaultReplacement
  solid := by
    have hlong := kind.long
    have hleast : 0 < kind.least := by omega
    simp [Piece.isSolid, hleast]

def githubToken : TokenKind where
  source := "\\b(gh[ps]_[A-Za-z0-9]\x7b36,\x7d)\\b"
  heads := ["ghp_".toList, "ghs_".toList]
  isTokenChar := Char.isAlphanum
  least := 36
  heads_text := by decide
  char_text := fun c h => by simp [isTokenText, h]
  long := by decide

def openaiToken : TokenKind where
  source := "\\b(sk-[A-Za-z0-9]\x7b32,\x7d)\\b"
  heads := ["sk-".toList]
  isTokenChar := Char.isAlphanum
  least := 32
  heads_text := by decide
  char_text := fun c h => by simp [isTokenText, h]
  long := by decide

def gitlabToken : TokenKind where
  source := "\\b(glpat-[A-Za-z0-9\\-_]\x7b20,\x7d)\\b"
  heads := ["glpat-".toList]
  isTokenChar := isTokenText
  least := 20
  heads_text := by decide
  char_text := fun _ h => h
  long := by decide

def bearerRule : Rule where
  ignoreCase := true
  kept := [.text "Authorization:".toList, .many isWhiteSpace 0, .text "Bearer".toList,
    .many isWhiteSpace 1]
  secret := [.many (fun c => !isWhiteSpace c) 1]
  replacement := defaultReplacement
  solid := rfl

def tokenKinds : List TokenKind := [githubToken, openaiToken, gitlabToken]

def fieldSource : String :=
  "(\"(?:token|apiKey|api_key|password|secret|credential|privateKey|private_key|accessKey|" ++
    "access_key|accessToken|access_token|refreshToken|refresh_token|clientSecret|client_secret|" ++
    "webhookSecret|webhook_secret|signingSecret|signing_secret|authorization)\":\\s*)\"[^\"]*\""

/-- `DEFAULT_RULES`. -/
def defaultRules : List RedactionRule :=
  ⟨fieldSource, fieldRule⟩ ::
    (tokenKinds.map fun kind => ⟨kind.source, kind.rule⟩) ++
      [⟨"(Authorization:\\s*Bearer\\s+)\\S+", bearerRule⟩]

/-! ### The redactor -/

structure SecretRedactor where
  rules : List RedactionRule := defaultRules

def defaultRedactor : SecretRedactor := {}

namespace SecretRedactor

variable (redactor : SecretRedactor)

def redact (input : Text) : Text :=
  redactor.rules.foldl (fun result rule => rule.pattern.replace result) input

/-- The sources of the rules that match. -/
def scanForSecrets (input : Text) : List String :=
  (redactor.rules.filter fun rule =>
    test rule.pattern.ignoreCase rule.pattern.pattern none input).map (·.source)

end SecretRedactor

/-! ### Objects -/

/-- `SECRET_FIELD_NAMES`. -/
def secretNames : List Text :=
  ["token", "apikey", "api_key", "password", "secret", "credential", "privatekey", "private_key",
    "accesskey", "access_key", "accesstoken", "access_token", "refreshtoken", "refresh_token",
    "clientsecret", "client_secret", "webhooksecret", "webhook_secret", "signingsecret",
    "signing_secret", "authorization"].map String.toList

/-- `SECRET_FIELD_NAMES.has(key.toLowerCase())`. -/
def isSecretName (key : Text) : Bool := key.map toSmall ∈ secretNames

namespace SecretRedactor

variable {ν : Type} (redactor : SecretRedactor)

mutual

def redactObject : Value ν → Value ν
  | .str s => .str (redactor.redact s)
  | .arr items => .arr (redactItems items)
  | .obj entries => .obj (assignAll (redactEntries entries))
  | v => v

def redactItems : List (Value ν) → List (Value ν)
  | [] => []
  | v :: items => redactObject v :: redactItems items

def redactEntries : Entries ν → Entries ν
  | [] => []
  | (key, v) :: entries =>
    (key, if v.isStr && isSecretName key then .str defaultReplacement else redactObject v) ::
      redactEntries entries

end

end SecretRedactor

/-- The result with the tokens replaced. -/
def maskTokens (input : Text) : Text :=
  tokenKinds.foldl (fun result kind => kind.rule.replace result) input

theorem redact_eq (s : Text) :
    defaultRedactor.redact s = bearerRule.replace (maskTokens (fieldRule.replace s)) := rfl

theorem scanForSecrets_eq_nil {s : Text} : defaultRedactor.scanForSecrets s = [] ↔
    ¬ fieldRule.Occurs none s ∧ (∀ kind ∈ tokenKinds, ¬ kind.rule.Occurs none s) ∧
      ¬ bearerRule.Occurs none s := by
  have hrules : (∀ rule ∈ defaultRules, ¬ rule.pattern.Occurs none s) ↔
      ¬ fieldRule.Occurs none s ∧ (∀ kind ∈ tokenKinds, ¬ kind.rule.Occurs none s) ∧
        ¬ bearerRule.Occurs none s := by
    simp only [defaultRules, List.cons_append, List.forall_mem_cons, List.forall_mem_append,
      List.forall_mem_map, List.not_mem_nil, false_imp_iff, implies_true, and_true]
  rw [← hrules]
  unfold SecretRedactor.scanForSecrets
  rw [List.map_eq_nil_iff, List.filter_eq_nil_iff]
  refine forall₂_congr fun rule _ => not_congr ?_
  exact test_eq_true

/-! ### Tokens -/

namespace TokenKind

variable {kind : TokenKind} {prev : Option Char} {text group hidden rest used : Text}

/-- What the rule of a kind replaces. -/
def Token (kind : TokenKind) (used : Text) : Prop :=
  ∃ head ∈ kind.heads, ∃ body, used = head ++ body ∧ kind.least ≤ body.length ∧
    ∀ c ∈ body, kind.isTokenChar c = true

theorem match_iff : kind.rule.Match prev text group hidden rest ↔
    group = [] ∧ text = hidden ++ rest ∧ kind.Token hidden ∧
      isBoundary prev (hidden ++ rest) = true ∧ isBoundary (lastOf prev hidden) rest = true := by
  constructor
  · rintro ⟨htext, hgroup, hhidden⟩
    obtain rfl : group = [] := hgroup
    obtain ⟨_, hidden, rfl, ⟨rfl, hstart⟩, head, tail, rfl, hhead, body, tail, rfl, hbody, _, _, rfl,
      ⟨rfl, hend⟩, rfl⟩ := hhidden
    obtain ⟨head', hmem, hsame⟩ := hhead
    obtain rfl := forall₂_same_false.mp hsame
    refine ⟨rfl, htext, ⟨head', hmem, body, by simp, hbody⟩, ?_, ?_⟩
    · exact hstart
    · rw [List.append_nil, List.append_nil, List.nil_append, lastOf_append]
      exact hend
  · rintro ⟨rfl, rfl, ⟨head, hmem, body, rfl, hbody⟩, hstart, hend⟩
    refine ⟨rfl, rfl, [], head ++ body, rfl, ⟨rfl, hstart⟩, head, body, rfl,
      ⟨head, hmem, forall₂_same_false.mpr rfl⟩, body, [], (List.append_nil _).symm, hbody, [], [], rfl,
      ⟨rfl, ?_⟩, rfl⟩
    rw [lastOf_append] at hend
    exact hend

/-- A token begins with a letter. -/
theorem Token.exists_cons (h : kind.Token used) : ∃ c rest, used = c :: rest ∧ c.isLower = true := by
  obtain ⟨head, hmem, body, rfl, -⟩ := h
  have hhead := List.all_eq_true.mp kind.heads_text head hmem
  rw [Bool.and_eq_true] at hhead
  cases head with
  | nil => exact absurd hhead.1 (by decide)
  | cons c head => exact ⟨c, head ++ body, rfl, hhead.1⟩

theorem Token.isTokenText (h : kind.Token used) : ∀ c ∈ used, isTokenText c = true := by
  obtain ⟨head, hmem, body, rfl, -, hbody⟩ := h
  have hhead := List.all_eq_true.mp kind.heads_text head hmem
  rw [Bool.and_eq_true] at hhead
  intro c hc
  rcases List.mem_append.mp hc with hc | hc
  · exact List.all_eq_true.mp hhead.2 c hc
  · exact kind.char_text c (hbody c hc)

theorem Token.length (h : kind.Token used) : 20 ≤ used.length := by
  obtain ⟨head, -, body, rfl, hleast, -⟩ := h
  have hlong := kind.long
  rw [List.length_append]
  omega

end TokenKind

/-! ### Fields -/

/-- A quoted name of a field, with its colon, up to the quote that opens its value. -/
def IsHeader (header : Text) : Prop :=
  ∃ field ∈ secretFields, ∃ key spaces,
    List.Forall₂ (fun c d => same true c d = true) field key ∧ (∀ c ∈ spaces, isWhiteSpace c = true) ∧
    header = '"' :: (key ++ '"' :: ':' :: (spaces ++ ['"']))

section Fields

variable {prev : Option Char} {text group hidden rest header value : Text}

theorem forall₂_same_quote {used : Text} :
    List.Forall₂ (fun c d => same true c d = true) ['"'] used ↔ used = ['"'] := by
  have hquote : ('"' : Char).isAlpha = false := by decide
  simp [List.forall₂_cons_left_iff, same_of_not_isAlpha hquote]

theorem forall₂_same_colon {used : Text} :
    List.Forall₂ (fun c d => same true c d = true) ['"', ':'] used ↔ used = ['"', ':'] := by
  have hquote : ('"' : Char).isAlpha = false := by decide
  have hcolon : (':' : Char).isAlpha = false := by decide
  simp [List.forall₂_cons_left_iff, same_of_not_isAlpha hquote, same_of_not_isAlpha hcolon]

/-- What stands in the name of a field. -/
theorem exists_of_mem_key {field key : Text} {c : Char}
    (hkey : List.Forall₂ (fun c d => same true c d = true) field key) (hc : c ∈ key) :
    ∃ d ∈ field, d.toLower = c.toLower := by
  induction hkey with
  | nil => cases hc
  | @cons d c' field key hsame _ ih =>
    rcases List.mem_cons.mp hc with rfl | hc
    · exact ⟨d, List.mem_cons_self, by simpa [same] using hsame⟩
    · obtain ⟨d', hd', heq⟩ := ih hc
      exact ⟨d', List.mem_cons_of_mem _ hd', heq⟩

/-- The rule of the fields matches a header and a value, up to its quote. -/
theorem field_match (h : fieldRule.Match prev text group hidden rest) : IsHeader (group ++ ['"']) ∧
    ∃ value, '"' ∉ value ∧ hidden = '"' :: (value ++ ['"']) := by
  obtain ⟨-, hgroup, hhidden⟩ := h
  obtain ⟨quote, _, rfl, hquote, key, _, rfl, ⟨field, hfield, hkey⟩, colon, _, rfl, hcolon, spaces, _,
    rfl, ⟨-, hspaces⟩, rfl⟩ := hgroup
  obtain ⟨quote', _, rfl, hquote', value, _, rfl, ⟨-, hvalue⟩, quote'', _, rfl, hquote'', rfl⟩ := hhidden
  obtain rfl := forall₂_same_quote.mp hquote
  obtain rfl := forall₂_same_colon.mp hcolon
  obtain rfl := forall₂_same_quote.mp hquote'
  obtain rfl := forall₂_same_quote.mp hquote''
  refine ⟨⟨field, hfield, key, spaces, hkey, hspaces, by simp⟩, value, ?_, rfl⟩
  intro hmem
  simpa using hvalue _ hmem

/-- A header and a quote after it make a match. -/
theorem exists_field_match (hheader : IsHeader header) (hvalue : '"' ∉ value) :
    ∃ group, header = group ++ ['"'] ∧
      fieldRule.Match prev (header ++ (value ++ '"' :: rest)) group ('"' :: (value ++ ['"'])) rest := by
  obtain ⟨field, hfield, key, spaces, hkey, hspaces, rfl⟩ := hheader
  refine ⟨'"' :: (key ++ '"' :: ':' :: spaces), by simp, by simp, ?_, ?_⟩
  · exact ⟨['"'], key ++ (['"', ':'] ++ spaces), by simp, forall₂_same_quote.mpr rfl, key, _, rfl,
      ⟨field, hfield, hkey⟩, ['"', ':'], spaces, rfl, forall₂_same_colon.mpr rfl, spaces, [],
      (List.append_nil _).symm, ⟨Nat.zero_le _, hspaces⟩, rfl⟩
  · refine ⟨['"'], value ++ ['"'], rfl, forall₂_same_quote.mpr rfl, value, ['"'], rfl,
      ⟨Nat.zero_le _, ?_⟩, ['"'], [], rfl, forall₂_same_quote.mpr rfl, rfl⟩
    intro c hc
    have hne : c ≠ '"' := by
      rintro rfl
      exact hvalue hc
    simp [hne]

/-- The rule of the fields matches a header with a quote after it. -/
theorem exists_field_match_iff : (∃ group hidden rest, fieldRule.Match prev text group hidden rest) ↔
    ∃ header after, text = header ++ after ∧ IsHeader header ∧ '"' ∈ after := by
  constructor
  · rintro ⟨group, hidden, rest, hmatch⟩
    obtain ⟨hheader, value, -, rfl⟩ := field_match hmatch
    refine ⟨_, value ++ '"' :: rest, ?_, hheader, by simp⟩
    rw [hmatch.text_eq]
    simp
  · rintro ⟨header, after, rfl, hheader, hquote⟩
    obtain ⟨value, rest, rfl, hvalue⟩ := List.eq_append_cons_of_mem hquote
    obtain ⟨group, -, hmatch⟩ := @exists_field_match prev rest header value hheader hvalue
    exact ⟨group, _, rest, hmatch⟩

end Fields

theorem isWord_of_isLower {c : Char} (h : c.isLower = true) : isWord c = true := by
  simp [isWord, Char.isAlphanum, isAlpha_iff, h]

/-- What is no part of a token. -/
theorem ne_of_isTokenText {c d : Char} (h : isTokenText c = true) (hd : isTokenText d = false) :
    c ≠ d := by
  rintro rfl
  rw [hd] at h
  cases h

/-- A token begins only where no word goes on. -/
theorem TokenKind.Token.isBoundary_iff {kind : TokenKind} {used rest : Text} {prev : Option Char}
    (h : kind.Token used) : isBoundary prev (used ++ rest) = true ↔ prev.any isWord = false := by
  obtain ⟨c, tail, rfl, hc⟩ := h.exists_cons
  simp [isBoundary, isWord_of_isLower hc]

end MiniCoder
