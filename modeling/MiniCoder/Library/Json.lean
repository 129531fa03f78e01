import Mathlib.Data.List.Basic
import Mathlib.Data.List.Infix
import Mathlib.Data.List.Pairwise
import Mathlib.Data.Nat.Notation

/-!
# JSON

The values of JSON, as JavaScript keeps them, the text that `JSON.stringify` makes of a value, and the
value that `JSON.parse` makes of a text.  An object lists its properties in their own order: array
indices first, in ascending order, and then the other keys in the order of their creation.

* `inOrder_ofEntries`, `ofEntries_of_inOrder`: the order of the properties.
* `Value.AgreeUpTo`: values that differ in some of their properties only.
-/

namespace Json

/-- A string, as its characters. -/
abbrev Text := List Char

/-! ### Numbers -/

/-- Nothing, or `e`, a sign and digits. -/
def isExponent : Text → Bool
  | [] => true
  | e :: rest =>
    let digits := match rest with
      | '+' :: digits => digits
      | '-' :: digits => digits
      | digits => digits
    (e = 'e' || e = 'E') && digits ≠ [] && digits.all Char.isDigit

/-- Nothing, or a point and digits, and then an exponent. -/
def isFraction : Text → Bool
  | '.' :: rest => rest.takeWhile Char.isDigit ≠ [] && isExponent (rest.dropWhile Char.isDigit)
  | rest => isExponent rest

/-- The numerals of JSON. -/
def isNumeral (text : Text) : Bool :=
  let unsigned := match text with
    | '-' :: unsigned => unsigned
    | unsigned => unsigned
  let whole := unsigned.takeWhile Char.isDigit
  whole ≠ [] && (whole = ['0'] || whole.head? ≠ some '0') &&
    isFraction (unsigned.dropWhile Char.isDigit)

/-- What may stand in a numeral. -/
def isNumeralChar (c : Char) : Bool :=
  c.isDigit || c = '-' || c = '+' || c = '.' || c = 'e' || c = 'E'

/-- The numbers of a language: the numeral of a number, where it has one, and the number that a numeral
is read as. -/
class Numbers (ν : Type) where
  render : ν → Option Text
  read : Text → ν
  isNumeral_render : ∀ {n text}, render n = some text → isNumeral text = true
  render_read : ∀ {n text}, render n = some text → render (read text) = some text

/-- A numeral of JSON. -/
structure Numeral where
  text : Text
  isNumeral : isNumeral text = true

/-- Numbers that are their numerals, and one that has none. -/
instance : Numbers (Option Numeral) where
  render n := n.map (·.text)
  read text := if h : isNumeral text = true then some ⟨text, h⟩ else none
  isNumeral_render := by
    intro n text h
    obtain ⟨numeral, -, rfl⟩ := Option.map_eq_some_iff.mp h
    exact numeral.isNumeral
  render_read := by
    intro n text h
    obtain ⟨numeral, -, rfl⟩ := Option.map_eq_some_iff.mp h
    rw [dif_pos numeral.isNumeral]
    rfl

/-! ### Values -/

inductive Value (ν : Type)
  | null
  | bool (b : Bool)
  | num (n : ν)
  | str (s : Text)
  | arr (items : List (Value ν))
  | obj (entries : List (Text × Value ν))

def Value.isStr {ν : Type} : Value ν → Bool
  | .str _ => true
  | _ => false

/-- The properties of an object. -/
abbrev Entries (ν : Type) := List (Text × Value ν)

variable {ν : Type}

/-- Induction on a value, by its items and the values of its properties. -/
theorem Value.induct {motive : Value ν → Prop} (null : motive .null)
    (bool : ∀ b, motive (.bool b)) (num : ∀ n, motive (.num n)) (str : ∀ s, motive (.str s))
    (arr : ∀ items, (∀ v ∈ items, motive v) → motive (.arr items))
    (obj : ∀ entries, (∀ entry ∈ entries, motive entry.2) → motive (.obj entries)) (v : Value ν) :
    motive v := by
  refine @Value.rec ν motive (fun items => ∀ v ∈ items, motive v)
    (fun entries => ∀ entry ∈ entries, motive entry.2) (fun entry => motive entry.2) null bool num
    str arr obj (by simp) ?_ (by simp) ?_ (fun _ _ ih => ih) v
  · intro v vs hv hvs
    exact List.forall_mem_cons.mpr ⟨hv, hvs⟩
  · intro entry entries hentry hentries
    exact List.forall_mem_cons.mpr ⟨hentry, hentries⟩

/-! ### Objects -/

/-- The canonical numerals below `2 ^ 32 - 1`. -/
def isArrayIndex (key : Text) : Bool :=
  key ≠ [] && key.all Char.isDigit && (key = ['0'] || key.head? ≠ some '0') &&
    (key.length < 10 || (key.length = 10 && decide (String.ofList key < "4294967295")))

/-- The order of array indices. -/
def IndexBefore (key key' : Text) : Prop :=
  key.length < key'.length ∨ key.length = key'.length ∧ String.ofList key < String.ofList key'

instance : DecidableRel IndexBefore := fun key key' =>
  inferInstanceAs (Decidable (key.length < key'.length ∨
    key.length = key'.length ∧ String.ofList key < String.ofList key'))

/-- The first key stands before the second one, which was created later. -/
def Precedes (key key' : Text) : Prop :=
  key ≠ key' ∧ (isArrayIndex key' = true → isArrayIndex key = true ∧ IndexBefore key key')

instance : DecidableRel Precedes := fun key key' =>
  inferInstanceAs (Decidable (key ≠ key' ∧
    (isArrayIndex key' = true → isArrayIndex key = true ∧ IndexBefore key key')))

/-- A property is set where it stands, or else at its place. -/
def define (key : Text) (v : Value ν) : Entries ν → Entries ν
  | [] => [(key, v)]
  | (key', v') :: entries =>
    if key' = key then (key, v) :: entries
    else if isArrayIndex key = true ∧ Precedes key key' then (key, v) :: (key', v') :: entries
    else (key', v') :: define key v entries

/-- Properties that are set one after the other. -/
def ofEntries (entries : Entries ν) : Entries ν :=
  entries.foldl (fun before entry => define entry.1 entry.2 before) []

/-- The keys are distinct, and in order. -/
def InOrder (entries : Entries ν) : Prop :=
  entries.Pairwise fun entry entry' => Precedes entry.1 entry'.1

section Objects

variable {key key' key'' : Text} {v : Value ν} {entries : Entries ν}

theorem IndexBefore.asymm (h : IndexBefore key key') : ¬ IndexBefore key' key := by
  unfold IndexBefore at h ⊢
  rcases h with hlength | ⟨hlength, hlt⟩
  · rintro (hlength' | ⟨hlength', -⟩)
    · omega
    · omega
  · rintro (hlength' | ⟨-, hlt'⟩)
    · omega
    · exact String.lt_asymm hlt hlt'

theorem IndexBefore.trans (h : IndexBefore key key') (h' : IndexBefore key' key'') :
    IndexBefore key key'' := by
  unfold IndexBefore at h h' ⊢
  rcases h with hlength | ⟨hlength, hlt⟩
  · rcases h' with hlength' | ⟨hlength', -⟩
    · exact Or.inl (by omega)
    · exact Or.inl (by omega)
  · rcases h' with hlength' | ⟨hlength', hlt'⟩
    · exact Or.inl (by omega)
    · exact Or.inr ⟨by omega, String.lt_trans hlt hlt'⟩

theorem IndexBefore.total (hne : key ≠ key') : IndexBefore key key' ∨ IndexBefore key' key := by
  unfold IndexBefore
  have hnames : String.ofList key ≠ String.ofList key' := fun h => hne (String.ofList_injective h)
  rcases Nat.lt_trichotomy key.length key'.length with hlt | heq | hgt
  · exact Or.inl (Or.inl hlt)
  · by_cases hlt : String.ofList key < String.ofList key'
    · exact Or.inl (Or.inr ⟨heq, hlt⟩)
    · by_cases hgt : String.ofList key' < String.ofList key
      · exact Or.inr (Or.inr ⟨heq.symm, hgt⟩)
      · exact absurd (String.le_antisymm (String.not_lt.mp hgt) (String.not_lt.mp hlt)) hnames
  · exact Or.inr (Or.inl hgt)

/-- What an array index precedes stands before what that precedes. -/
theorem Precedes.trans_index (hindex : isArrayIndex key = true) (h : Precedes key key')
    (h' : Precedes key' key'') : Precedes key key'' := by
  refine ⟨?_, fun hindex'' => ?_⟩
  · rintro rfl
    obtain ⟨hindex', hbefore'⟩ := h'.2 hindex
    exact (h.2 hindex').2.asymm hbefore'
  · obtain ⟨hindex', hbefore'⟩ := h'.2 hindex''
    exact ⟨hindex, (h.2 hindex').2.trans hbefore'⟩

/-- Of two keys, one stands before the other, unless an array index comes before it. -/
theorem precedes_of_not (hne : key' ≠ key)
    (h : ¬ (isArrayIndex key = true ∧ Precedes key key')) : Precedes key' key := by
  refine ⟨hne, fun hindex => ?_⟩
  have hnot : ¬ Precedes key key' := fun hprecedes => h ⟨hindex, hprecedes⟩
  have hindex' : isArrayIndex key' = true := by
    by_contra hnone
    exact hnot ⟨hne.symm, fun hindex' => absurd hindex' hnone⟩
  refine ⟨hindex', (IndexBefore.total hne).resolve_right fun hbefore => ?_⟩
  exact hnot ⟨hne.symm, fun _ => ⟨hindex, hbefore⟩⟩

theorem mem_define {entry : Text × Value ν} (h : entry ∈ define key v entries) :
    entry = (key, v) ∨ entry ∈ entries := by
  induction entries with
  | nil => exact Or.inl (List.mem_singleton.mp h)
  | cons first entries ih =>
    unfold define at h
    split at h
    · rcases List.mem_cons.mp h with rfl | h
      · exact Or.inl rfl
      · exact Or.inr (List.mem_cons_of_mem _ h)
    · split at h
      · exact List.mem_cons.mp h
      · rcases List.mem_cons.mp h with rfl | h
        · exact Or.inr List.mem_cons_self
        · exact (ih h).imp_right (List.mem_cons_of_mem _)

/-- **Setting a property keeps the order.** -/
theorem inOrder_define (h : InOrder entries) : InOrder (define key v entries) := by
  induction entries with
  | nil => exact List.pairwise_singleton _ _
  | cons first entries ih =>
    obtain ⟨hfirst, hrest⟩ := List.pairwise_cons.mp h
    unfold define
    split
    · rename_i hsame
      refine List.pairwise_cons.mpr ⟨fun entry hentry => ?_, hrest⟩
      rw [← hsame]
      exact hfirst entry hentry
    · rename_i hne
      split
      · rename_i hbefore
        refine List.pairwise_cons.mpr ⟨fun entry hentry => ?_, h⟩
        rcases List.mem_cons.mp hentry with rfl | hentry
        · exact hbefore.2
        · exact hbefore.2.trans_index hbefore.1 (hfirst entry hentry)
      · rename_i hafter
        refine List.pairwise_cons.mpr ⟨fun entry hentry => ?_, ih hrest⟩
        rcases mem_define hentry with rfl | hentry
        · exact precedes_of_not hne hafter
        · exact hfirst entry hentry

/-- A key after all others is set at the end. -/
theorem define_of_precedes (h : ∀ entry ∈ entries, Precedes entry.1 key) :
    define key v entries = entries ++ [(key, v)] := by
  induction entries with
  | nil => rfl
  | cons first entries ih =>
    have hfirst := h first List.mem_cons_self
    have hafter : ¬ (isArrayIndex key = true ∧ Precedes key first.1) := by
      rintro ⟨hindex, hbefore⟩
      obtain ⟨hindex', hbefore'⟩ := hfirst.2 hindex
      exact hbefore'.asymm (hbefore.2 hindex').2
    unfold define
    rw [if_neg hfirst.1, if_neg hafter, ih fun entry hentry => h entry (List.mem_cons_of_mem _ hentry)]
    rfl

/-- **Properties that were set are in order.** -/
theorem inOrder_ofEntries (entries : Entries ν) : InOrder (ofEntries entries) := by
  have hfold : ∀ before : Entries ν, InOrder before →
      InOrder (entries.foldl (fun before entry => define entry.1 entry.2 before) before) := by
    induction entries with
    | nil => exact fun _ h => h
    | cons entry entries ih => exact fun before h => ih _ (inOrder_define h)
  exact hfold [] List.Pairwise.nil

theorem mem_ofEntries {entry : Text × Value ν} (h : entry ∈ ofEntries entries) : entry ∈ entries := by
  have hfold : ∀ before : Entries ν,
      entry ∈ entries.foldl (fun before entry => define entry.1 entry.2 before) before →
      entry ∈ before ∨ entry ∈ entries := by
    clear h
    induction entries with
    | nil => exact fun _ h => Or.inl h
    | cons first entries ih =>
      intro before h
      rcases ih _ h with hbefore | hmore
      · exact (mem_define hbefore).symm.imp_right fun heq => by rw [heq]; exact List.mem_cons_self
      · exact Or.inr (List.mem_cons_of_mem _ hmore)
  exact (hfold [] h).resolve_left List.not_mem_nil

/-- The order is one of the keys. -/
theorem inOrder_map {f : Text → Value ν → Value ν} (h : InOrder entries) :
    InOrder (entries.map fun entry => (entry.1, f entry.1 entry.2)) := by
  unfold InOrder at h ⊢
  rw [List.pairwise_map]
  exact h

/-- **Properties in order are set as they stand.** -/
theorem ofEntries_of_inOrder (h : InOrder entries) : ofEntries entries = entries := by
  have hfold : ∀ before : Entries ν, InOrder (before ++ entries) →
      entries.foldl (fun before entry => define entry.1 entry.2 before) before = before ++ entries := by
    clear h
    induction entries with
    | nil => simp
    | cons entry entries ih =>
      intro before h
      have hlast : ∀ earlier ∈ before, Precedes earlier.1 entry.1 := fun earlier hearlier =>
        (List.pairwise_append.mp h).2.2 earlier hearlier entry List.mem_cons_self
      rw [List.foldl_cons, define_of_precedes hlast, ih, List.append_assoc, List.singleton_append]
      rwa [List.append_assoc, List.singleton_append]
  exact hfold [] h

end Objects

/-- What an assignment does not make a property of. -/
abbrev protoKey : Text := "__proto__".toList

/-- `result[key] = v`, one after the other. -/
def assignAll (entries : Entries ν) : Entries ν :=
  ofEntries (entries.filter fun entry => entry.1 ≠ protoKey)

theorem assignAll_of_inOrder {entries : Entries ν} (h : InOrder entries) :
    assignAll entries = entries.filter fun entry => entry.1 ≠ protoKey :=
  ofEntries_of_inOrder (h.sublist List.filter_sublist)

/-- The value itself, and the values in it. -/
inductive Value.Within (w : Value ν) : Value ν → Prop
  | self : Within w w
  | item {v : Value ν} {items : List (Value ν)} (h : v ∈ items) (hv : Within w v) :
    Within w (.arr items)
  | property {entry : Text × Value ν} {entries : Entries ν} (h : entry ∈ entries)
    (hv : Within w entry.2) : Within w (.obj entries)

mutual

/-- The properties of every object in it are in order. -/
def Value.Ordered : Value ν → Prop
  | .arr items => orderedItems items
  | .obj entries => InOrder entries ∧ orderedEntries entries
  | _ => True

def orderedItems : List (Value ν) → Prop
  | [] => True
  | v :: items => v.Ordered ∧ orderedItems items

def orderedEntries : Entries ν → Prop
  | [] => True
  | (_, v) :: entries => v.Ordered ∧ orderedEntries entries

end

theorem orderedItems_iff {items : List (Value ν)} : orderedItems items ↔ ∀ v ∈ items, v.Ordered := by
  induction items with
  | nil => simp [orderedItems]
  | cons v items ih => rw [orderedItems, ih, List.forall_mem_cons]

theorem orderedEntries_iff {entries : Entries ν} :
    orderedEntries entries ↔ ∀ entry ∈ entries, entry.2.Ordered := by
  induction entries with
  | nil => simp [orderedEntries]
  | cons entry entries ih => rw [orderedEntries, ih, List.forall_mem_cons]

mutual

/-- The values are equal, but for properties that the relation allows. -/
def Value.AgreeUpTo (R : Text → Value ν → Value ν → Prop) : Value ν → Value ν → Prop
  | .arr items, .arr items' => itemsAgree R items items'
  | .obj entries, .obj entries' => entriesAgree R entries entries'
  | v, v' => v = v'

def itemsAgree (R : Text → Value ν → Value ν → Prop) : List (Value ν) → List (Value ν) → Prop
  | [], [] => True
  | v :: items, v' :: items' => v.AgreeUpTo R v' ∧ itemsAgree R items items'
  | _, _ => False

def entriesAgree (R : Text → Value ν → Value ν → Prop) : Entries ν → Entries ν → Prop
  | [], [] => True
  | (key, v) :: entries, (key', v') :: entries' =>
    key = key' ∧ (R key v v' ∨ v.AgreeUpTo R v') ∧ entriesAgree R entries entries'
  | _, _ => False

end

theorem Value.AgreeUpTo.isStr_eq {R : Text → Value ν → Value ν → Prop} {v w : Value ν}
    (h : v.AgreeUpTo R w) : v.isStr = w.isStr := by
  cases v with
  | arr items => cases w <;> simp_all [Value.AgreeUpTo, Value.isStr]
  | obj entries => cases w <;> simp_all [Value.AgreeUpTo, Value.isStr]
  | null =>
    obtain rfl : Value.null = w := h
    rfl
  | bool b =>
    obtain rfl : Value.bool b = w := h
    rfl
  | num n =>
    obtain rfl : Value.num n = w := h
    rfl
  | str s =>
    obtain rfl : Value.str s = w := h
    rfl

theorem Value.AgreeUpTo.eq_of_str {R : Text → Value ν → Value ν → Prop} {s : Text} {w : Value ν}
    (h : (Value.str s).AgreeUpTo R w) : w = .str s := Eq.symm h

/-! ### `JSON.stringify` -/

def hexDigit (n : ℕ) : Char := "0123456789abcdef".toList.getD n '0'

/-- What stands for a character between quotes. -/
def escape (c : Char) : Text :=
  if c = '"' then ['\\', '"']
  else if c = '\\' then ['\\', '\\']
  else if c.toNat = 8 then ['\\', 'b']
  else if c.toNat = 9 then ['\\', 't']
  else if c.toNat = 10 then ['\\', 'n']
  else if c.toNat = 12 then ['\\', 'f']
  else if c.toNat = 13 then ['\\', 'r']
  else if c.toNat < 32 then ['\\', 'u', '0', '0', hexDigit (c.toNat / 16), hexDigit (c.toNat % 16)]
  else [c]

def quote (s : Text) : Text := '"' :: (s.flatMap escape ++ ['"'])

section Stringify

variable [Numbers ν]

mutual

def stringify : Value ν → Text
  | .null => "null".toList
  | .bool true => "true".toList
  | .bool false => "false".toList
  | .num n => (Numbers.render n).getD "null".toList
  | .str s => quote s
  | .arr items => '[' :: ([','].intercalate (stringifyItems items) ++ [']'])
  | .obj entries => '{' :: ([','].intercalate (stringifyEntries entries) ++ ['}'])

def stringifyItems : List (Value ν) → List Text
  | [] => []
  | v :: items => stringify v :: stringifyItems items

def stringifyEntries : Entries ν → List Text
  | [] => []
  | (key, v) :: entries => (quote key ++ ':' :: stringify v) :: stringifyEntries entries

end

end Stringify

/-! ### `JSON.parse` -/

def isSpace (c : Char) : Bool := c = ' ' || c = '\t' || c = '\n' || c = '\r'

def skip (text : Text) : Text := text.dropWhile isSpace

/-- Where the reading of a string is: after a backslash, or in the digits of a code unit. -/
inductive Escape
  | none
  | backslash
  | unit (owed code : ℕ)

def isHighSurrogate (code : ℕ) : Bool := 0xD800 ≤ code && code < 0xDC00

def isLowSurrogate (code : ℕ) : Bool := 0xDC00 ≤ code && code < 0xE000

/-- What stands for a surrogate without its pair. -/
def flush (high : Option ℕ) : Text := (high.map fun _ => '\uFFFD').toList

/-- A code unit, after the high surrogate that may stand before it: the characters that are complete with
it, and the high surrogate that stands before what follows. -/
def codeUnit (high : Option ℕ) (code : ℕ) : Text × Option ℕ :=
  if isHighSurrogate code then (flush high, some code)
  else if isLowSurrogate code then
    match high with
    | some high => ([Char.ofNat (0x10000 + (high - 0xD800) * 0x400 + (code - 0xDC00))], none)
    | none => (['\uFFFD'], none)
  else (flush high ++ [Char.ofNat code], none)

def hexValue? (c : Char) : Option ℕ :=
  if c.isDigit then some (c.toNat - 48)
  else if 'a'.toNat ≤ c.toNat ∧ c.toNat ≤ 'f'.toNat then some (c.toNat - 87)
  else if 'A'.toNat ≤ c.toNat ∧ c.toNat ≤ 'F'.toNat then some (c.toNat - 55)
  else none

/-- The character that a letter after a backslash stands for. -/
def unescape? (c : Char) : Option Char :=
  if c = '"' ∨ c = '\\' ∨ c = '/' then some c
  else if c = 'b' then some (Char.ofNat 8)
  else if c = 'f' then some (Char.ofNat 12)
  else if c = 'n' then some '\n'
  else if c = 'r' then some '\r'
  else if c = 't' then some '\t'
  else none

/-- A string from behind its first quote on, and what comes after it. -/
def parseChars (high : Option ℕ) : Escape → Text → Option (Text × Text)
  | _, [] => none
  | .none, c :: rest =>
    if c = '"' then some (flush high, rest)
    else if c = '\\' then parseChars high .backslash rest
    else if c.toNat < 32 then none
    else (parseChars none .none rest).map fun (s, rest) => (flush high ++ c :: s, rest)
  | .backslash, c :: rest =>
    if c = 'u' then parseChars high (.unit 4 0) rest
    else
      match unescape? c with
      | some c => (parseChars none .none rest).map fun (s, rest) => (flush high ++ c :: s, rest)
      | none => none
  | .unit owed code, c :: rest =>
    match hexValue? c with
    | none => none
    | some value =>
      if owed ≤ 1 then
        let unit := codeUnit high (code * 16 + value)
        (parseChars unit.2 .none rest).map fun (s, rest) => (unit.1 ++ s, rest)
      else parseChars high (.unit (owed - 1) (code * 16 + value)) rest

def parseString (text : Text) : Option (Text × Text) := parseChars none .none text

section Parse

variable [Numbers ν]

/-- A numeral, and what comes after it. -/
def parseNumeral (text : Text) : Option (Value ν × Text) :=
  let numeral := text.takeWhile isNumeralChar
  if isNumeral numeral then some (.num (Numbers.read numeral), text.dropWhile isNumeralChar)
  else none

/-- A value of one word. -/
def parseWord (text : Text) : Option (Value ν × Text) :=
  match "null".toList.isPrefixOf? text with
  | some rest => some (.null, rest)
  | none =>
    match "true".toList.isPrefixOf? text with
    | some rest => some (.bool true, rest)
    | none => ("false".toList.isPrefixOf? text).map fun rest => (.bool false, rest)

/-- What comes after a character, and the spaces before it. -/
def token (c : Char) (text : Text) : Option Text :=
  match skip text with
  | [] => none
  | first :: rest => if first = c then some rest else none

mutual

/-- A value, and what comes after it.  The first argument bounds the depth of the calls. -/
def parseValue : ℕ → Text → Option (Value ν × Text)
  | 0, _ => none
  | fuel + 1, text =>
    match token '{' text with
    | some rest =>
      match token '}' rest with
      | some rest => some (.obj [], rest)
      | none => (parseEntries fuel rest).map fun (entries, rest) => (.obj (ofEntries entries), rest)
    | none =>
      match token '[' text with
      | some rest =>
        match token ']' rest with
        | some rest => some (.arr [], rest)
        | none => (parseItems fuel rest).map fun (items, rest) => (.arr items, rest)
      | none =>
        match token '"' text with
        | some rest => (parseString rest).map fun (s, rest) => (.str s, rest)
        | none => (parseWord (skip text)).or (parseNumeral (skip text))

/-- The items of an array, to its end. -/
def parseItems : ℕ → Text → Option (List (Value ν) × Text)
  | 0, _ => none
  | fuel + 1, text =>
    match parseValue fuel text with
    | none => none
    | some (v, rest) =>
      match token ',' rest with
      | some rest => (parseItems fuel rest).map fun (items, rest) => (v :: items, rest)
      | none => (token ']' rest).map fun rest => ([v], rest)

/-- The properties of an object, to its end. -/
def parseEntries : ℕ → Text → Option (Entries ν × Text)
  | 0, _ => none
  | fuel + 1, text =>
    match (token '"' text).bind parseString with
    | none => none
    | some (key, rest) =>
      match (token ':' rest).bind (parseValue fuel) with
      | none => none
      | some (v, rest) =>
        match token ',' rest with
        | some rest => (parseEntries fuel rest).map fun (entries, rest) => ((key, v) :: entries, rest)
        | none => (token '}' rest).map fun rest => ([(key, v)], rest)

end

mutual

/-- The value with its numbers read from their numerals, and its properties at their places. -/
def Value.reread : Value ν → Value ν
  | .null => .null
  | .bool b => .bool b
  | .num n =>
    match Numbers.render n with
    | some numeral => .num (Numbers.read numeral)
    | none => .null
  | .str s => .str s
  | .arr items => .arr (rereadItems items)
  | .obj entries => .obj (ofEntries (rereadEntries entries))

def rereadItems : List (Value ν) → List (Value ν)
  | [] => []
  | v :: items => v.reread :: rereadItems items

def rereadEntries : Entries ν → Entries ν
  | [] => []
  | (key, v) :: entries => (key, v.reread) :: rereadEntries entries

end

theorem rereadItems_eq_map (items : List (Value ν)) : rereadItems items = items.map Value.reread := by
  induction items with
  | nil => rfl
  | cons v items ih => rw [rereadItems, ih, List.map_cons]

theorem rereadEntries_eq_map (entries : Entries ν) :
    rereadEntries entries = entries.map fun entry => (entry.1, entry.2.reread) := by
  induction entries with
  | nil => rfl
  | cons entry entries ih =>
    rw [rereadEntries, ih, List.map_cons]

/-- A document is one value.  No text makes more calls than it has characters, twice. -/
def parse (text : Text) : Option (Value ν) :=
  match parseValue (2 * text.length + 1) text with
  | some (v, rest) => if skip rest = [] then some v else none
  | none => none

end Parse

end Json
