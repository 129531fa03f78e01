import Mathlib.Data.List.Basic
import Mathlib.Data.List.Infix

/-!
# Lines

A text as the list of its lines, over any alphabet with a character between the lines.

* `isInfix_of_mem_splitOn`: a line is in the text.
* `lastParagraph_singleton`: a paragraph of one line does not depend on what is above it.
* `splitLines_intercalate`: the lines of lines that were joined; `length_intercalate_chomp`: removing
  carriage returns leaves a text alone only where there are none.
-/

namespace Lines

variable {α : Type*}

theorem isInfix_intercalate {separator line : List α} {lines : List (List α)} (h : line ∈ lines) :
    line <:+: separator.intercalate lines := by
  induction lines with
  | nil => cases h
  | cons first lines ih =>
    rcases lines with _ | ⟨second, rest⟩
    · obtain rfl := List.mem_singleton.mp h
      simp
    · rw [List.intercalate_cons_cons, List.append_assoc]
      rcases List.mem_cons.mp h with rfl | h
      · exact (List.prefix_append _ _).isInfix
      · exact (ih h).trans
          ((List.suffix_append _ _).trans (List.suffix_append _ _)).isInfix

/-- A line is in the text. -/
theorem isInfix_of_mem_splitOn [BEq α] [LawfulBEq α] {newline : α} {line text : List α}
    (h : line ∈ text.splitOn newline) : line <:+: text := by
  have hinfix : line <:+: [newline].intercalate (text.splitOn newline) := isInfix_intercalate h
  rwa [List.intercalate_splitOn] at hinfix

/-- The lines of texts that were joined are the lines of each of them. -/
theorem splitOn_intercalate_eq_flatMap [BEq α] [LawfulBEq α] {newline : α} {texts : List (List α)}
    (h : texts ≠ []) :
    ([newline].intercalate texts).splitOn newline =
      texts.flatMap fun text => text.splitOn newline := by
  induction texts with
  | nil => exact absurd rfl h
  | cons text texts ih =>
    rcases texts with _ | ⟨second, rest⟩
    · simp
    · rw [List.intercalate_cons_cons, List.append_assoc, List.singleton_append,
        List.splitOn_append_cons_self, ih (by simp)]
      rfl

/-- Lines that were joined with an empty line after them. -/
theorem intercalate_concat_nil {newline : α} {lines : List (List α)} (h : lines ≠ []) :
    [newline].intercalate (lines ++ [[]]) = [newline].intercalate lines ++ [newline] := by
  induction lines with
  | nil => exact absurd rfl h
  | cons line lines ih =>
    rcases lines with _ | ⟨second, rest⟩
    · simp
    · rw [List.cons_append, List.cons_append, List.intercalate_cons_cons, ← List.cons_append,
        ih (by simp), List.intercalate_cons_cons]
      simp only [List.append_assoc]

/-- What `isPrefixOf?` leaves. -/
theorem isPrefixOf?_eq_some [BEq α] [LawfulBEq α] {start text rest : List α} :
    start.isPrefixOf? text = some rest ↔ text = start ++ rest := by
  induction start generalizing text with
  | nil => simp [List.isPrefixOf?]
  | cons first start ih =>
    rcases text with _ | ⟨c, text⟩
    · simp [List.isPrefixOf?]
    · by_cases hfirst : first = c
      · simp [List.isPrefixOf?, hfirst, ih]
      · simp [List.isPrefixOf?, hfirst, Ne.symm hfirst]

/-! ### Carriage returns -/

section Returns

variable [DecidableEq α] (ret newline : α)

/-- A line without the carriage return that it ends in. -/
def chomp (line : List α) : List α := if line.getLast? = some ret then line.dropLast else line

/-- The lines without the carriage returns that stand before a newline: the last line has none. -/
def chompLines : List (List α) → List (List α)
  | [] => []
  | [line] => [line]
  | line :: second :: lines => chomp ret line :: chompLines (second :: lines)

/-- The lines of a text, with or without carriage returns before the newlines. -/
def splitLines (text : List α) : List (List α) := chompLines ret (text.splitOn newline)

variable {ret newline}

theorem chomp_of_ne {line : List α} (h : line.getLast? ≠ some ret) : chomp ret line = line :=
  if_neg h

theorem length_chomp_le (line : List α) : (chomp ret line).length ≤ line.length := by
  unfold chomp
  split
  · rw [List.length_dropLast]
    omega
  · exact Nat.le_refl _

theorem getLast?_ne_of_length {line : List α} (h : (chomp ret line).length = line.length) :
    line.getLast? ≠ some ret := by
  intro hlast
  unfold chomp at h
  rw [if_pos hlast, List.length_dropLast] at h
  have hnil : line = [] := List.eq_nil_of_length_eq_zero (by omega)
  rw [hnil] at hlast
  cases hlast

theorem map_chomp_of_ne {lines : List (List α)} (h : ∀ line ∈ lines, line.getLast? ≠ some ret) :
    lines.map (chomp ret) = lines := by
  have hsame : ∀ line ∈ lines, chomp ret line = id line := fun line hline =>
    chomp_of_ne (h line hline)
  rw [List.map_congr_left hsame, List.map_id]

theorem chompLines_concat (lines : List (List α)) (last : List α) :
    chompLines ret (lines ++ [last]) = lines.map (chomp ret) ++ [last] := by
  induction lines with
  | nil => rfl
  | cons line lines ih =>
    rcases lines with _ | ⟨second, rest⟩
    · rfl
    · simpa [chompLines] using ih

/-- **The lines of texts that were joined**, when the last of them is empty. -/
theorem splitLines_intercalate {texts : List (List α)} (h : texts.getLast? = some []) :
    splitLines ret newline ([newline].intercalate texts) =
      (texts.flatMap fun text => text.splitOn newline).map (chomp ret) := by
  obtain ⟨init, rfl⟩ := List.getLast?_eq_some_iff.mp h
  have hempty : ([[]] : List (List α)).flatMap (fun text => text.splitOn newline) = [[]] := by simp
  unfold splitLines
  rw [splitOn_intercalate_eq_flatMap (by simp), List.flatMap_append, hempty, chompLines_concat,
    List.map_append]
  rfl

/-- Removing carriage returns shortens a text, unless its lines end in none. -/
theorem length_intercalate_chomp (lines : List (List α)) :
    ([newline].intercalate (lines.map (chomp ret))).length ≤ ([newline].intercalate lines).length ∧
      (([newline].intercalate (lines.map (chomp ret))).length = ([newline].intercalate lines).length →
        ∀ line ∈ lines, line.getLast? ≠ some ret) := by
  induction lines with
  | nil => simp
  | cons first lines ih =>
    obtain ⟨hle, heq⟩ := ih
    have hfirst : (chomp ret first).length ≤ first.length := length_chomp_le first
    rcases lines with _ | ⟨second, rest⟩
    · simpa using ⟨hfirst, getLast?_ne_of_length⟩
    · rw [List.map_cons, List.map_cons, List.intercalate_cons_cons, List.intercalate_cons_cons,
        List.length_append, List.length_append, List.length_append, List.length_append,
        ← List.map_cons]
      refine ⟨by omega, fun hlength => ?_⟩
      intro line hmem
      rcases List.mem_cons.mp hmem with rfl | hmem
      · exact getLast?_ne_of_length (by omega)
      · exact heq (by omega) line hmem

end Returns

/-! ### Paragraphs -/

variable (blank : List α → Bool)

/-- The last paragraph of some lines, the last line first: no line of it is blank. -/
def lastParagraph (lines : List (List α)) : List (List α) :=
  (lines.reverse.dropWhile blank).takeWhile fun line => !blank line

variable {blank}

theorem mem_of_mem_lastParagraph {line : List α} {lines : List (List α)}
    (h : line ∈ lastParagraph blank lines) : line ∈ lines := by
  have htaken := (List.takeWhile_prefix _).subset h
  exact List.mem_reverse.mp ((List.dropWhile_suffix _).subset htaken)

/-- A paragraph of one line, below a blank line. -/
theorem lastParagraph_singleton {line gap : List α} (lines : List (List α))
    (hline : blank line = false) (hgap : blank gap = true) :
    lastParagraph blank (lines ++ [gap, line]) = [line] := by
  unfold lastParagraph
  simp [hline, hgap]

end Lines
