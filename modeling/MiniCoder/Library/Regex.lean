import Mathlib.Data.List.Basic
import Mathlib.Data.List.Forall2
import Mathlib.Data.Nat.Notation

/-!
# Regular expressions that replace

Regular expressions as sequences of pieces, with the backtracking of JavaScript: a repetition takes as
much as it can, and gives back what the pieces behind it need.  A rule replaces every match of its
expression, from the left, and keeps the group at its front.

* `mem_ways`: the ways to match are those of the expression.
* `Rule.replace_induct`: a replacement copies a character, or replaces a match.
* `Rule.replaceFrom_eq_self`: a text without a match stays as it is.
* `Rule.occurs_replaceFrom`: a replacement that is a match itself is found again.
-/

namespace Regex

/-- A string, as its characters. -/
abbrev Text := List Char

/-- `\w`. -/
def isWord (c : Char) : Bool := c.isAlphanum || c = '_'

/-- A piece of an expression. -/
inductive Piece
  | text (s : Text)
  /-- `(?:s|t|…)`. -/
  | oneOf (texts : List Text)
  /-- `[p]{least,}`. -/
  | many (p : Char → Bool) (least : ℕ)
  /-- `\b`. -/
  | boundary
  /-- `^` with the flag `m`, after the characters that end a line. -/
  | lineStart (isEnd : Char → Bool)

/-- Whether two characters are the same, with the flag `i` or without it. -/
def same (ignoreCase : Bool) (c d : Char) : Bool :=
  if ignoreCase then c.toLower = d.toLower else c = d

theorem same_false {c d : Char} : same false c d = true ↔ c = d := by simp [same]

theorem forall₂_same_false {s used : Text} :
    List.Forall₂ (fun c d => same false c d = true) s used ↔ s = used := by
  simp only [same_false]
  rw [List.forall₂_eq_eq_eq]

theorem toNat_of_isUpper {c : Char} (h : c.isUpper = true) : 65 ≤ c.toNat ∧ c.toNat ≤ 90 := by
  have hbounds : c.val ≥ 'A'.val ∧ c.val ≤ 'Z'.val := of_decide_eq_true h
  exact ⟨hbounds.1, hbounds.2⟩

theorem toNat_of_isLower {c : Char} (h : c.isLower = true) : 97 ≤ c.toNat ∧ c.toNat ≤ 122 := by
  have hbounds : (decide (c.val ≥ 'a'.val) && decide (c.val ≤ 'z'.val)) = true := h
  simp only [Bool.and_eq_true, decide_eq_true_eq] at hbounds
  exact ⟨hbounds.1, hbounds.2⟩

theorem isAlpha_iff {c : Char} : c.isAlpha = true ↔ c.isUpper = true ∨ c.isLower = true :=
  Bool.or_eq_true_iff

theorem toLower_of_isUpper {c : Char} (h : c.isUpper = false) : c.toLower = c := by
  have hnot : ¬ (c.val ≥ 'A'.val ∧ c.val ≤ 'Z'.val) := of_decide_eq_false h
  unfold Char.toLower
  rw [dif_neg hnot]

theorem isLower_toLower {c : Char} (h : c.isUpper = true) : c.toLower.isLower = true := by
  have hbounds : c.val ≥ 'A'.val ∧ c.val ≤ 'Z'.val := of_decide_eq_true h
  unfold Char.toLower
  rw [dif_pos hbounds]
  show (decide (_ ≥ _) && decide (_ ≤ _)) = true
  simp only [Bool.and_eq_true, decide_eq_true_eq]
  obtain ⟨hA, hZ⟩ := hbounds
  grind

/-- Without a case, a character is the same as itself only. -/
theorem same_of_not_isAlpha {ignoreCase : Bool} {c d : Char} (h : c.isAlpha = false) :
    same ignoreCase c d = true ↔ c = d := by
  have hcase : c.isUpper = false ∧ c.isLower = false := Bool.or_eq_false_iff.mp h
  cases ignoreCase with
  | false => exact same_false
  | true =>
    simp only [same, if_true, decide_eq_true_eq]
    rw [toLower_of_isUpper hcase.1]
    constructor
    · intro hc
      by_cases hd : d.isUpper = true
      · have hlower := isLower_toLower hd
        rw [← hc, hcase.2] at hlower
        cases hlower
      · rwa [toLower_of_isUpper (Bool.eq_false_iff.mpr hd)] at hc
    · rintro rfl
      exact (toLower_of_isUpper hcase.1).symm
theorem forall₂_same_true {s used : Text} :
    List.Forall₂ (fun c d => same true c d = true) s used ↔
      s.map Char.toLower = used.map Char.toLower := by
  have hsame : (fun c d => same true c d = true) = fun c d : Char => c.toLower = d.toLower := by
    ext c d
    simp [same]
  rw [hsame, ← List.forall₂_eq_eq_eq, List.forall₂_map_left_iff, List.forall₂_map_right_iff]

/-- A literal, at the beginning of a text. -/
def takeText (ignoreCase : Bool) : Text → Text → Option (Text × Text)
  | [], rest => some ([], rest)
  | _ :: _, [] => none
  | c :: s, d :: text =>
    if same ignoreCase c d then
      (takeText ignoreCase s text).map fun (used, rest) => (d :: used, rest)
    else none

/-- Between a word character and another one, or the end. -/
def isBoundary (prev : Option Char) (text : Text) : Bool :=
  prev.any isWord != text.head?.any isWord

theorem isBoundary_cons {prev : Option Char} {c : Char} {text : Text} :
    isBoundary prev (c :: text) = (prev.any isWord != isWord c) := rfl

/-- The last character before what comes next. -/
def lastOf (prev : Option Char) (used : Text) : Option Char := used.getLast?.or prev

theorem lastOf_cons {prev : Option Char} {c : Char} {used : Text} :
    lastOf prev (c :: used) = lastOf (some c) used := by
  unfold lastOf
  rw [List.getLast?_cons, Option.some_or]
  cases used.getLast? <;> rfl

theorem lastOf_append {prev : Option Char} {used more : Text} :
    lastOf prev (used ++ more) = lastOf (lastOf prev used) more := by
  unfold lastOf
  rw [List.getLast?_append, Option.or_assoc]

/-- The ways of a piece to match at the beginning of a text, in the order in which they are tried. -/
def Piece.ways (ignoreCase : Bool) (prev : Option Char) (text : Text) :
    Piece → List (Text × Text)
  | .text s => (takeText ignoreCase s text).toList
  | .oneOf texts => texts.flatMap fun s => (takeText ignoreCase s text).toList
  | .many p least =>
    let most := (text.takeWhile p).length
    (List.range (most + 1 - least)).map fun k => (text.take (most - k), text.drop (most - k))
  | .boundary => if isBoundary prev text then [([], text)] else []
  | .lineStart isEnd => if prev.all isEnd then [([], text)] else []

/-- The ways of an expression. -/
def ways (ignoreCase : Bool) : List Piece → Option Char → Text → List (Text × Text)
  | [], _, text => [([], text)]
  | piece :: pieces, prev, text =>
    (piece.ways ignoreCase prev text).flatMap fun (used, rest) =>
      (ways ignoreCase pieces (lastOf prev used) rest).map fun (more, rest) => (used ++ more, rest)

/-! ### What an expression matches -/

/-- What a piece matches, between what stands before it and what comes after it. -/
def Piece.Takes (ignoreCase : Bool) (prev : Option Char) (used rest : Text) : Piece → Prop
  | .text s => List.Forall₂ (fun c d => same ignoreCase c d = true) s used
  | .oneOf texts => ∃ s ∈ texts, List.Forall₂ (fun c d => same ignoreCase c d = true) s used
  | .many p least => least ≤ used.length ∧ ∀ c ∈ used, p c = true
  | .boundary => used = [] ∧ isBoundary prev rest = true
  | .lineStart isEnd => used = [] ∧ prev.all isEnd = true

/-- What an expression matches. -/
def Takes (ignoreCase : Bool) : List Piece → Option Char → Text → Text → Prop
  | [], _, used, _ => used = []
  | piece :: pieces, prev, used, rest => ∃ first more, used = first ++ more ∧
      piece.Takes ignoreCase prev first (more ++ rest) ∧
      Takes ignoreCase pieces (lastOf prev first) more rest

section Ways

variable {ignoreCase : Bool} {piece : Piece} {pieces : List Piece} {prev : Option Char}
  {text used rest : Text}

theorem takeText_eq_some {s : Text} : takeText ignoreCase s text = some (used, rest) ↔
    text = used ++ rest ∧ List.Forall₂ (fun c d => same ignoreCase c d = true) s used := by
  induction s generalizing text used with
  | nil =>
    rw [List.forall₂_nil_left_iff, takeText]
    constructor
    · intro h
      obtain ⟨rfl, rfl⟩ := Prod.mk.inj (Option.some.inj h)
      exact ⟨rfl, rfl⟩
    · rintro ⟨rfl, rfl⟩
      rfl
  | cons c s ih =>
    cases text with
    | nil =>
      constructor
      · intro h
        cases h
      · rintro ⟨htext, hsame⟩
        cases hsame
        cases htext
    | cons d text =>
      rw [takeText]
      constructor
      · intro h
        split_ifs at h with hd
        obtain ⟨⟨used', rest'⟩, htake, heq⟩ := Option.map_eq_some_iff.mp h
        obtain ⟨rfl, rfl⟩ := Prod.mk.inj heq
        obtain ⟨rfl, hsame⟩ := ih.mp htake
        exact ⟨rfl, List.Forall₂.cons hd hsame⟩
      · rintro ⟨htext, hsame⟩
        cases hsame with
        | @cons _ d' _ used' hd hrest =>
          obtain ⟨rfl, rfl⟩ := List.cons.inj htext
          have htake := ih.mpr ⟨rfl, hrest⟩
          rw [if_pos hd]
          exact Option.map_eq_some_iff.mpr ⟨_, htake, rfl⟩

theorem Piece.mem_ways : (used, rest) ∈ piece.ways ignoreCase prev text ↔
    text = used ++ rest ∧ piece.Takes ignoreCase prev used rest := by
  cases piece with
  | text s => rw [Piece.ways, Option.mem_toList, takeText_eq_some]; rfl
  | oneOf texts =>
    simp only [Piece.ways, Piece.Takes, List.mem_flatMap, Option.mem_toList, takeText_eq_some]
    constructor
    · rintro ⟨s, hs, htext, hsame⟩
      exact ⟨htext, s, hs, hsame⟩
    · rintro ⟨htext, s, hs, hsame⟩
      exact ⟨s, hs, htext, hsame⟩
  | many p least =>
    simp only [Piece.ways, Piece.Takes, List.mem_map, List.mem_range, Prod.mk.injEq]
    constructor
    · rintro ⟨k, hk, rfl, rfl⟩
      have hlength : (text.takeWhile p).length ≤ text.length := (List.takeWhile_prefix p).length_le
      refine ⟨(List.take_append_drop _ text).symm, ?_, fun c hc => ?_⟩
      · rw [List.length_take]
        omega
      · have hsub : text.take ((text.takeWhile p).length - k) <+: text.takeWhile p := by
          refine List.prefix_of_prefix_length_le (List.take_prefix _ _) (List.takeWhile_prefix p) ?_
          rw [List.length_take]
          omega
        exact List.all_eq_true.mp List.all_takeWhile c (hsub.subset hc)
    · rintro ⟨rfl, hleast, hall⟩
      have hwhole : ((used ++ rest).takeWhile p).length = used.length + (rest.takeWhile p).length := by
        rw [List.takeWhile_append_of_pos hall, List.length_append]
      refine ⟨(rest.takeWhile p).length, by omega, ?_, ?_⟩
      · rw [hwhole, Nat.add_sub_cancel, List.take_left]
      · rw [hwhole, Nat.add_sub_cancel, List.drop_left]
  | boundary =>
    simp only [Piece.ways, Piece.Takes]
    constructor
    · intro h
      split_ifs at h with hboundary
      · obtain ⟨rfl, rfl⟩ := Prod.mk.inj (List.mem_singleton.mp h)
        exact ⟨rfl, rfl, hboundary⟩
      · exact absurd h List.not_mem_nil
    · rintro ⟨rfl, rfl, hboundary⟩
      rw [List.nil_append, if_pos hboundary]
      exact List.mem_singleton.mpr rfl
  | lineStart isEnd =>
    simp only [Piece.ways, Piece.Takes]
    constructor
    · intro h
      split_ifs at h with hstart
      · obtain ⟨rfl, rfl⟩ := Prod.mk.inj (List.mem_singleton.mp h)
        exact ⟨rfl, rfl, hstart⟩
      · exact absurd h List.not_mem_nil
    · rintro ⟨rfl, rfl, hstart⟩
      rw [List.nil_append, if_pos hstart]
      exact List.mem_singleton.mpr rfl

/-- **The ways to match are those of the expression.** -/
theorem mem_ways : (used, rest) ∈ ways ignoreCase pieces prev text ↔
    text = used ++ rest ∧ Takes ignoreCase pieces prev used rest := by
  induction pieces generalizing prev text used with
  | nil =>
    rw [ways, List.mem_singleton, Takes, Prod.mk.injEq]
    constructor
    · rintro ⟨rfl, rfl⟩
      exact ⟨rfl, rfl⟩
    · rintro ⟨rfl, rfl⟩
      exact ⟨rfl, rfl⟩
  | cons piece pieces ih =>
    simp only [ways, Takes, List.mem_flatMap, List.mem_map]
    constructor
    · rintro ⟨⟨first, middle⟩, hfirst, ⟨more, rest'⟩, hmore, heq⟩
      obtain ⟨rfl, rfl⟩ := Prod.mk.inj heq
      obtain ⟨rfl, htakes⟩ := Piece.mem_ways.mp hfirst
      obtain ⟨rfl, htakes'⟩ := ih.mp hmore
      exact ⟨(List.append_assoc _ _ _).symm, first, more, rfl, htakes, htakes'⟩
    · rintro ⟨rfl, first, more, rfl, htakes, htakes'⟩
      refine ⟨(first, more ++ rest), Piece.mem_ways.mpr ⟨List.append_assoc _ _ _, htakes⟩, (more, rest),
        ih.mpr ⟨rfl, htakes'⟩, rfl⟩

theorem takes_append {pieces' : List Piece} : Takes ignoreCase (pieces ++ pieces') prev used rest ↔
    ∃ first more, used = first ++ more ∧ Takes ignoreCase pieces prev first (more ++ rest) ∧
      Takes ignoreCase pieces' (lastOf prev first) more rest := by
  induction pieces generalizing prev used with
  | nil =>
    constructor
    · intro h
      exact ⟨[], used, rfl, rfl, h⟩
    · rintro ⟨first, more, rfl, hfirst, hmore⟩
      obtain rfl : first = [] := hfirst
      exact hmore
  | cons piece pieces ih =>
    constructor
    · rintro ⟨first, more, rfl, hfirst, hmore⟩
      obtain ⟨middle, last, rfl, hmiddle, hlast⟩ := ih.mp hmore
      refine ⟨first ++ middle, last, (List.append_assoc _ _ _).symm, ⟨first, middle, rfl, ?_, hmiddle⟩, ?_⟩
      · rwa [List.append_assoc] at hfirst
      · rwa [lastOf_append]
    · rintro ⟨_, last, rfl, ⟨first, middle, rfl, hfirst, hmiddle⟩, hlast⟩
      rw [lastOf_append] at hlast
      refine ⟨first, middle ++ last, List.append_assoc _ _ _, ?_, ih.mpr ⟨middle, last, rfl, hmiddle, hlast⟩⟩
      rwa [List.append_assoc]

/-- A piece that does not look at what stands around it. -/
def Piece.isFree : Piece → Bool
  | .boundary => false
  | .lineStart _ => false
  | _ => true

theorem Takes.of_isFree {prev' : Option Char} {rest' : Text} (hfree : pieces.all Piece.isFree = true)
    (h : Takes ignoreCase pieces prev used rest) : Takes ignoreCase pieces prev' used rest' := by
  induction pieces generalizing prev prev' used with
  | nil => exact h
  | cons piece pieces ih =>
    rw [List.all_cons, Bool.and_eq_true] at hfree
    obtain ⟨first, more, rfl, hfirst, hmore⟩ := h
    refine ⟨first, more, rfl, ?_, ih hfree.2 hmore⟩
    cases piece with
    | text s => exact hfirst
    | oneOf texts => exact hfirst
    | many p least => exact hfirst
    | boundary => exact absurd hfree.1 (by decide)
    | lineStart isEnd => exact absurd hfree.1 (by simp [Piece.isFree])

theorem Piece.ways_of_isFree (prev' : Option Char) (hfree : piece.isFree = true) :
    piece.ways ignoreCase prev text = piece.ways ignoreCase prev' text := by
  cases piece with
  | text s => rfl
  | oneOf texts => rfl
  | many p least => rfl
  | boundary => cases hfree
  | lineStart isEnd => cases hfree

theorem ways_of_isFree (prev' : Option Char) (hfree : pieces.all Piece.isFree = true) :
    ways ignoreCase pieces prev text = ways ignoreCase pieces prev' text := by
  induction pieces generalizing prev prev' text with
  | nil => rfl
  | cons piece pieces ih =>
    rw [List.all_cons, Bool.and_eq_true] at hfree
    unfold ways
    rw [Piece.ways_of_isFree prev' hfree.1]
    refine List.flatMap_congr fun taken _ => ?_
    simp only [ih (lastOf prev' taken.1) hfree.2]

/-- A piece that takes a character at least. -/
def Piece.isSolid : Piece → Bool
  | .text s => s ≠ []
  | .oneOf texts => texts.all fun s => s ≠ []
  | .many _ least => 0 < least
  | .boundary => false
  | .lineStart _ => false

theorem Piece.ne_nil_of_takes (hsolid : piece.isSolid = true)
    (h : piece.Takes ignoreCase prev used rest) : used ≠ [] := by
  rintro rfl
  cases piece with
  | text s =>
    have hs : s ≠ [] := by simpa [Piece.isSolid] using hsolid
    exact hs (List.forall₂_nil_right_iff.mp h)
  | oneOf texts =>
    obtain ⟨s, hs, hsame⟩ := h
    have hnone : ∀ s ∈ texts, s ≠ [] := by simpa [Piece.isSolid] using hsolid
    exact hnone s hs (List.forall₂_nil_right_iff.mp hsame)
  | many p least =>
    have hleast : 0 < least := by simpa [Piece.isSolid] using hsolid
    exact absurd h.1 (Nat.not_le.mpr hleast)
  | boundary => cases hsolid
  | lineStart isEnd => cases hsolid

theorem ne_nil_of_takes (hsolid : pieces.any Piece.isSolid = true)
    (h : Takes ignoreCase pieces prev used rest) : used ≠ [] := by
  induction pieces generalizing prev used with
  | nil => cases hsolid
  | cons piece pieces ih =>
    obtain ⟨first, more, rfl, hfirst, hmore⟩ := h
    rw [List.any_cons, Bool.or_eq_true] at hsolid
    rcases hsolid with hsolid | hsolid
    · exact List.append_ne_nil_of_left_ne_nil (Piece.ne_nil_of_takes hsolid hfirst) _
    · exact List.append_ne_nil_of_right_ne_nil _ (ih hsolid hmore)

end Ways

/-! ### Occurrences -/

/-- An expression matches somewhere. -/
def Occurs (ignoreCase : Bool) (pieces : List Piece) (prev : Option Char) (text : Text) : Prop :=
  ∃ before used rest, text = before ++ (used ++ rest) ∧
    Takes ignoreCase pieces (lastOf prev before) used rest

/-- `RegExp.prototype.test`. -/
def test (ignoreCase : Bool) (pieces : List Piece) : Option Char → Text → Bool
  | prev, [] => !(ways ignoreCase pieces prev []).isEmpty
  | prev, c :: text =>
    !(ways ignoreCase pieces prev (c :: text)).isEmpty || test ignoreCase pieces (some c) text

section Occurrences

variable {ignoreCase : Bool} {pieces : List Piece} {prev : Option Char} {text : Text}

theorem isEmpty_ways : (!(ways ignoreCase pieces prev text).isEmpty) = true ↔
    ∃ used rest, text = used ++ rest ∧ Takes ignoreCase pieces prev used rest := by
  rw [Bool.not_eq_true', List.isEmpty_eq_false_iff_exists_mem]
  constructor
  · rintro ⟨⟨used, rest⟩, h⟩
    exact ⟨used, rest, mem_ways.mp h⟩
  · rintro ⟨used, rest, h⟩
    exact ⟨(used, rest), mem_ways.mpr h⟩

theorem occurs_nil : Occurs ignoreCase pieces prev [] ↔ Takes ignoreCase pieces prev [] [] := by
  constructor
  · rintro ⟨before, used, rest, htext, htakes⟩
    obtain ⟨rfl, hboth⟩ := List.append_eq_nil_iff.mp htext.symm
    obtain ⟨rfl, rfl⟩ := List.append_eq_nil_iff.mp hboth
    exact htakes
  · exact fun h => ⟨[], [], [], rfl, h⟩

theorem occurs_cons {c : Char} : Occurs ignoreCase pieces prev (c :: text) ↔
    (∃ used rest, c :: text = used ++ rest ∧ Takes ignoreCase pieces prev used rest) ∨
      Occurs ignoreCase pieces (some c) text := by
  constructor
  · rintro ⟨before, used, rest, htext, htakes⟩
    cases before with
    | nil => exact Or.inl ⟨used, rest, htext, htakes⟩
    | cons d before =>
      obtain ⟨rfl, rfl⟩ := List.cons.inj htext
      rw [lastOf_cons] at htakes
      exact Or.inr ⟨before, used, rest, rfl, htakes⟩
  · rintro (⟨used, rest, htext, htakes⟩ | ⟨before, used, rest, rfl, htakes⟩)
    · exact ⟨[], used, rest, htext, htakes⟩
    · refine ⟨c :: before, used, rest, rfl, ?_⟩
      rwa [lastOf_cons]

/-- **A test finds what occurs.** -/
theorem test_eq_true : test ignoreCase pieces prev text = true ↔ Occurs ignoreCase pieces prev text := by
  induction text generalizing prev with
  | nil =>
    rw [test, isEmpty_ways, occurs_nil]
    constructor
    · rintro ⟨used, rest, htext, htakes⟩
      obtain ⟨rfl, rfl⟩ := List.append_eq_nil_iff.mp htext.symm
      exact htakes
    · exact fun h => ⟨[], [], rfl, h⟩
  | cons c text ih => rw [test, Bool.or_eq_true, isEmpty_ways, ih, occurs_cons]

end Occurrences

/-! ### Rules -/

/-- What an expression matches is replaced, but for the group at its front. -/
structure Rule where
  ignoreCase : Bool
  kept : List Piece
  secret : List Piece
  replacement : Text
  /-- It matches no empty text. -/
  solid : secret.any Piece.isSolid = true

namespace Rule

/-- The whole expression. -/
def pattern (rule : Rule) : List Piece := rule.kept ++ rule.secret

/-- A match: the group that is kept, what is replaced, and what comes after it. -/
structure Match (rule : Rule) (prev : Option Char) (text group hidden rest : Text) : Prop where
  text_eq : text = group ++ (hidden ++ rest)
  group_takes : Takes rule.ignoreCase rule.kept prev group (hidden ++ rest)
  hidden_takes : Takes rule.ignoreCase rule.secret (lastOf prev group) hidden rest

/-- The matches at the beginning of a text, in the order in which they are tried. -/
def hits (rule : Rule) (prev : Option Char) (text : Text) : List (Text × Text × Text) :=
  (ways rule.ignoreCase rule.kept prev text).flatMap fun (group, rest) =>
    (ways rule.ignoreCase rule.secret (lastOf prev group) rest).map fun (hidden, rest) =>
      (group, hidden, rest)

/-- The match at the beginning of a text. -/
def match? (rule : Rule) (prev : Option Char) (text : Text) : Option (Text × Text × Text) :=
  (rule.hits prev text).head?

/-- The replacement of every match, from a place on.  The characters of a match are passed over. -/
def replaceFrom (rule : Rule) : Option Char → ℕ → Text → Text
  | _, _, [] => []
  | _, skipped + 1, c :: text => rule.replaceFrom (some c) skipped text
  | prev, 0, c :: text =>
    match rule.match? prev (c :: text) with
    | none => c :: rule.replaceFrom (some c) 0 text
    | some (group, hidden, _) =>
      group ++ (rule.replacement ++
        rule.replaceFrom (some c) ((group ++ hidden).length - 1) text)

/-- `String.prototype.replace`, with the flag `g`. -/
def replace (rule : Rule) (text : Text) : Text := rule.replaceFrom none 0 text

variable {rule : Rule} {prev : Option Char} {text group hidden rest : Text}

theorem mem_hits : (group, hidden, rest) ∈ rule.hits prev text ↔
    rule.Match prev text group hidden rest := by
  simp only [Rule.hits, List.mem_flatMap, List.mem_map]
  constructor
  · rintro ⟨⟨group', middle⟩, hgroup, ⟨hidden', rest'⟩, hhidden, heq⟩
    obtain ⟨rfl, hpair⟩ := Prod.mk.inj heq
    obtain ⟨rfl, rfl⟩ := Prod.mk.inj hpair
    obtain ⟨rfl, hsecret⟩ := mem_ways.mp hhidden
    obtain ⟨htext, hkept⟩ := mem_ways.mp hgroup
    exact ⟨htext, hkept, hsecret⟩
  · rintro ⟨htext, hgroup, hhidden⟩
    exact ⟨(group, hidden ++ rest), mem_ways.mpr ⟨htext, hgroup⟩, (hidden, rest),
      mem_ways.mpr ⟨rfl, hhidden⟩, rfl⟩

theorem match_of_match? (h : rule.match? prev text = some (group, hidden, rest)) :
    rule.Match prev text group hidden rest := mem_hits.mp (List.mem_of_head? h)

theorem match?_eq_none : rule.match? prev text = none ↔
    ∀ group hidden rest, ¬ rule.Match prev text group hidden rest := by
  unfold match?
  rw [List.head?_eq_none_iff, List.eq_nil_iff_forall_not_mem]
  constructor
  · exact fun h group hidden rest hmatch => h _ (mem_hits.mpr hmatch)
  · exact fun h entry hentry => h _ _ _ (mem_hits.mp hentry)

theorem Match.hidden_ne_nil (h : rule.Match prev text group hidden rest) : hidden ≠ [] :=
  ne_nil_of_takes rule.solid h.hidden_takes

theorem Match.takes (h : rule.Match prev text group hidden rest) :
    Takes rule.ignoreCase rule.pattern prev (group ++ hidden) rest :=
  takes_append.mpr ⟨group, hidden, rfl, h.group_takes, h.hidden_takes⟩

theorem exists_match {used : Text} (h : Takes rule.ignoreCase rule.pattern prev used rest) :
    ∃ group hidden, used = group ++ hidden ∧
      rule.Match prev (used ++ rest) group hidden rest := by
  obtain ⟨group, hidden, rfl, hgroup, hhidden⟩ := takes_append.mp h
  exact ⟨group, hidden, rfl, List.append_assoc _ _ _, hgroup, hhidden⟩

/-! ### The steps of a replacement -/

theorem replaceFrom_skip (used : Text) :
    rule.replaceFrom prev used.length (used ++ rest) = rule.replaceFrom (lastOf prev used) 0 rest := by
  induction used generalizing prev with
  | nil => rfl
  | cons c used ih =>
    rw [lastOf_cons, ← ih]
    rfl

theorem replaceFrom_nil : rule.replaceFrom prev 0 [] = [] := by rw [replaceFrom]

theorem replaceFrom_copy {c : Char} (h : rule.match? prev (c :: text) = none) :
    rule.replaceFrom prev 0 (c :: text) = c :: rule.replaceFrom (some c) 0 text := by
  rw [replaceFrom, h]

theorem replaceFrom_hit (h : rule.match? prev text = some (group, hidden, rest)) :
    rule.replaceFrom prev 0 text =
      group ++ (rule.replacement ++ rule.replaceFrom (lastOf prev (group ++ hidden)) 0 rest) := by
  have hmatch := match_of_match? h
  have hsome : group ++ hidden ≠ [] :=
    List.append_ne_nil_of_right_ne_nil _ hmatch.hidden_ne_nil
  obtain ⟨c, used, hused⟩ := List.exists_cons_of_ne_nil hsome
  have htext : text = c :: (used ++ rest) := by
    rw [hmatch.text_eq, ← List.append_assoc, hused]
    rfl
  subst htext
  rw [replaceFrom, h]
  have hlength : (group ++ hidden).length - 1 = used.length := by
    rw [hused, List.length_cons, Nat.add_sub_cancel]
  have hafter : rule.replaceFrom (some c) ((group ++ hidden).length - 1) (used ++ rest) =
      rule.replaceFrom (lastOf prev (group ++ hidden)) 0 rest := by
    rw [hlength, replaceFrom_skip, hused, lastOf_cons]
  simp only [hafter]

/-- **Induction on a replacement**: a character is copied, or a match is replaced. -/
theorem replace_induct {motive : Option Char → Text → Prop} (nil : ∀ prev, motive prev [])
    (copy : ∀ prev c text, rule.match? prev (c :: text) = none → motive (some c) text →
      motive prev (c :: text))
    (hit : ∀ prev text group hidden rest, rule.match? prev text = some (group, hidden, rest) →
      motive (lastOf prev (group ++ hidden)) rest → motive prev text)
    (prev : Option Char) (text : Text) : motive prev text := by
  have hall : ∀ n prev text, List.length text ≤ n → motive prev text := by
    intro n
    induction n with
    | zero =>
      intro prev text hlength
      obtain rfl := List.length_eq_zero_iff.mp (Nat.le_zero.mp hlength)
      exact nil prev
    | succ n ih =>
      intro prev text hlength
      rcases text with _ | ⟨c, text⟩
      · exact nil prev
      rcases hmatch? : rule.match? prev (c :: text) with _ | ⟨group, hidden, rest⟩
      · exact copy prev c text hmatch? (ih _ _ (Nat.le_of_succ_le_succ hlength))
      · refine hit prev (c :: text) group hidden rest hmatch? (ih _ _ ?_)
        have hmatch := match_of_match? hmatch?
        have hsome := List.length_pos_iff.mpr hmatch.hidden_ne_nil
        have htext := congrArg List.length hmatch.text_eq
        simp only [List.length_append, List.length_cons] at htext hlength
        omega
  exact hall text.length prev text (Nat.le_refl _)

/-- The rule matches somewhere. -/
def Occurs (rule : Rule) (prev : Option Char) (text : Text) : Prop :=
  Regex.Occurs rule.ignoreCase rule.pattern prev text

theorem not_occurs_nil : ¬ rule.Occurs prev [] := by
  unfold Occurs
  rw [occurs_nil]
  intro h
  obtain ⟨group, hidden, hused, hmatch⟩ := exists_match h
  exact hmatch.hidden_ne_nil (List.append_eq_nil_iff.mp hused.symm).2

theorem occurs_cons {c : Char} : rule.Occurs prev (c :: text) ↔
    (∃ group hidden rest, rule.Match prev (c :: text) group hidden rest) ∨
      rule.Occurs (some c) text := by
  unfold Occurs
  rw [Regex.occurs_cons]
  refine or_congr_left ⟨?_, ?_⟩
  · rintro ⟨used, rest, htext, htakes⟩
    obtain ⟨group, hidden, -, hmatch⟩ := exists_match htakes
    exact ⟨group, hidden, rest, htext ▸ hmatch⟩
  · rintro ⟨group, hidden, rest, hmatch⟩
    refine ⟨group ++ hidden, rest, ?_, hmatch.takes⟩
    rw [List.append_assoc]
    exact hmatch.text_eq

theorem occurs_of_match (h : rule.Match prev text group hidden rest) : rule.Occurs prev text := by
  refine ⟨[], group ++ hidden, rest, ?_, h.takes⟩
  rw [List.append_assoc]
  exact h.text_eq

theorem occurs_append {before : Text} (h : rule.Occurs (lastOf prev before) text) :
    rule.Occurs prev (before ++ text) := by
  obtain ⟨before', used, rest, rfl, htakes⟩ := h
  refine ⟨before ++ before', used, rest, (List.append_assoc _ _ _).symm, ?_⟩
  rwa [lastOf_append]

/-- A rule that does not look around replaces the same in every place. -/
theorem replaceFrom_of_isFree (prev' : Option Char) {skipped : ℕ}
    (hfree : rule.pattern.all Piece.isFree = true) :
    rule.replaceFrom prev skipped text = rule.replaceFrom prev' skipped text := by
  have hpattern : rule.kept.all Piece.isFree = true ∧ rule.secret.all Piece.isFree = true := by
    rwa [pattern, List.all_append, Bool.and_eq_true] at hfree
  cases text with
  | nil => rw [replaceFrom, replaceFrom]
  | cons c text =>
    cases skipped with
    | succ skipped => rw [replaceFrom, replaceFrom]
    | zero =>
      have hmatch : rule.match? prev (c :: text) = rule.match? prev' (c :: text) := by
        unfold match? hits
        rw [ways_of_isFree prev' hpattern.1]
        congr 1
        refine List.flatMap_congr fun taken _ => ?_
        simp only [ways_of_isFree (lastOf prev' taken.1) hpattern.2]
      unfold replaceFrom
      rw [hmatch]

/-- **A text without a match stays as it is.** -/
theorem replaceFrom_eq_self (h : ¬ rule.Occurs prev text) : rule.replaceFrom prev 0 text = text := by
  induction text generalizing prev with
  | nil => rfl
  | cons c text ih =>
    rw [occurs_cons, not_or] at h
    have hnone : rule.match? prev (c :: text) = none :=
      match?_eq_none.mpr fun group hidden rest hmatch => h.1 ⟨group, hidden, rest, hmatch⟩
    rw [replaceFrom_copy hnone, ih h.2]

/-- What no match begins in is copied. -/
theorem replaceFrom_append {used : Text}
    (h : ∀ before after, used = before ++ after → after ≠ [] →
      ∀ group hidden rest', ¬ rule.Match (lastOf prev before) (after ++ rest) group hidden rest') :
    rule.replaceFrom prev 0 (used ++ rest) = used ++ rule.replaceFrom (lastOf prev used) 0 rest := by
  induction used generalizing prev with
  | nil => rfl
  | cons c used ih =>
    have hnone : rule.match? prev (c :: (used ++ rest)) = none :=
      match?_eq_none.mpr (h [] (c :: used) rfl (List.cons_ne_nil _ _))
    rw [List.cons_append, replaceFrom_copy hnone, ih, lastOf_cons]
    · rfl
    · intro before after hused hafter
      have hnot := h (c :: before) after (by rw [hused]; rfl) hafter
      rwa [lastOf_cons] at hnot

/-- **A replacement that is a match itself is found again.** -/
theorem occurs_replaceFrom (hfree : rule.kept.all Piece.isFree = true)
    (hreplacement : ∀ prev rest, Takes rule.ignoreCase rule.secret prev rule.replacement rest)
    {prev' : Option Char} (h : rule.Occurs prev text) :
    rule.Occurs prev' (rule.replaceFrom prev 0 text) := by
  induction prev, text using @replace_induct rule generalizing prev' with
  | nil prev => exact absurd h not_occurs_nil
  | copy prev c text hnone ih =>
    rw [replaceFrom_copy hnone]
    refine occurs_cons.mpr (Or.inr (ih ?_))
    refine (occurs_cons.mp h).resolve_left ?_
    rintro ⟨group, hidden, rest, hmatch⟩
    exact match?_eq_none.mp hnone _ _ _ hmatch
  | hit prev text group hidden rest hsome ih =>
    rw [replaceFrom_hit hsome]
    exact occurs_of_match ⟨rfl, (match_of_match? hsome).group_takes.of_isFree hfree, hreplacement _ _⟩

/-- A replacement keeps the number of the characters of which a match and its replacement have as many. -/
theorem countP_replaceFrom {p : Char → Bool} (h : ∀ prev text group hidden rest,
      rule.Match prev text group hidden rest → hidden.countP p = rule.replacement.countP p) :
    (rule.replaceFrom prev 0 text).countP p = text.countP p := by
  induction prev, text using @replace_induct rule with
  | nil prev => rw [replaceFrom_nil]
  | copy prev c text hnone ih => rw [replaceFrom_copy hnone, List.countP_cons, List.countP_cons, ih]
  | hit prev text group hidden rest hsome ih =>
    have hmatch := match_of_match? hsome
    rw [replaceFrom_hit hsome, hmatch.text_eq, List.countP_append, List.countP_append,
      List.countP_append, List.countP_append, ih, h _ _ _ _ _ hmatch]

end Rule

end Regex
