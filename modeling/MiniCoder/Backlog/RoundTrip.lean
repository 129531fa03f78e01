import Mathlib.Algebra.GroupWithZero.Nat
import Mathlib.Data.List.Forall2
import MiniCoder.Backlog.ParseMarkdown
import MiniCoder.Commands.Handlers.ExportBacklog

/-!
# The round trip of a backlog

An export writes titles and descriptions as they are into a text that the parser reads by its lines.  A
title comes back when it fits in a heading, and a description when it has no white space around it, no
carriage returns at the ends of its lines, and no line that is a heading.

* `splitLines_backlogMarkdown`: the lines of an export.
* `parse_iff_of_carries`: when the section of a feature is read as the feature.
* `parse_backlogMarkdown_iff`: so for an export and its parse.
* `roundTrips_iff`: **an import's features survive an export and a parse exactly when each of them does**.
-/

open Storage Storage.Action Lines

namespace MiniCoder

/-! ### What comes back -/

/-- The feature that a parse should give for a row, at its place. -/
def FeatureRow.parsed (f : FeatureRow) (index : ℕ) : ParsedBacklogFeature where
  frId := f.frId
  title := f.title
  description := f.description
  kind := f.kind
  priority := index
  dependsOnFrIds := []

/-- The feature comes back from the Markdown as it is. -/
structure FeatureRow.Survives (f : FeatureRow) : Prop where
  title : IsTitle f.title.toList
  nonempty : f.description ≠ ""
  trimmed : trim f.description = f.description
  noReturns : ∀ line ∈ f.description.toList.splitOn '\n', line.getLast? ≠ some '\r'
  noHeadings : ∀ line ∈ f.description.toList.splitOn '\n', featureHeading? line = none

/-- `/^FR-\d+$/`. -/
def isFrId (frId : String) : Bool :=
  ("FR-".toList.isPrefixOf? frId.toList).any fun digits => digits ≠ [] && digits.all Char.isDigit

/-! ### The lines of an export -/

namespace FeatureRow

variable (f : FeatureRow)

/-- The text of its heading. -/
def heading : Line := s!"## {f.frId}: {f.title}".toList

/-- The lines that its heading makes. -/
def headingLines : List Line := (f.heading.splitOn '\n').map (chomp '\r')

/-- The line with its kind. -/
def kindLine : Line := s!"Kind: {f.kind.literal}".toList

/-- The lines that its description makes. -/
def descriptionLines : List Line := (f.description.toList.splitOn '\n').map (chomp '\r')

/-- The lines of a feature below its heading. -/
def bodyLines : List Line := [] :: f.kindLine :: [] :: (f.descriptionLines ++ [[]])

variable {f}

theorem splitOn_kindLine : f.kindLine.splitOn '\n' = [f.kindLine] := by
  unfold kindLine
  cases f.kind <;> decide

theorem chomp_kindLine : chomp '\r' f.kindLine = f.kindLine := by
  unfold kindLine
  cases f.kind <;> decide

/-- The lines of a feature in an export. -/
theorem chomp_markdownLines : ((f.markdownLines.map String.toList).flatMap fun text =>
    text.splitOn '\n').map (chomp '\r') = f.headingLines ++ f.bodyLines := by
  have hempty : (("".toList : Line).splitOn '\n').map (chomp '\r') = [[]] := rfl
  have hkind : (f.kindLine.splitOn '\n').map (chomp '\r') = [f.kindLine] := by
    rw [splitOn_kindLine, List.map_singleton, chomp_kindLine]
  unfold markdownLines
  simp only [List.map_cons, List.map_nil, List.flatMap_cons, List.flatMap_nil, List.map_append,
    hempty]
  rw [show (s!"Kind: {f.kind.literal}").toList = f.kindLine from rfl, hkind]
  simp [bodyLines, headingLines, heading, descriptionLines]

theorem featureHeading?_kindLine : featureHeading? f.kindLine = none := by
  unfold kindLine
  cases f.kind <;> decide

end FeatureRow

/-- **The lines of an export.** -/
theorem splitLines_backlogMarkdown (features : List FeatureRow) :
    splitLines '\r' '\n' (backlogMarkdown features).toList = "# Feature Backlog".toList :: [] ::
      features.flatMap fun f => f.headingLines ++ f.bodyLines := by
  have hlast : ∀ texts : List Line, texts.getLast? = some [] →
      (texts ++ features.flatMap fun f => f.markdownLines.map String.toList).getLast? = some [] := by
    induction features with
    | nil => simp
    | cons f features ih =>
      intro texts htexts
      rw [List.flatMap_cons, ← List.append_assoc]
      refine ih _ ?_
      rw [List.getLast?_append]
      rfl
  unfold backlogMarkdown
  have htexts : (["# Feature Backlog", ""] ++ features.flatMap FeatureRow.markdownLines).map
      String.toList = ["# Feature Backlog".toList, []] ++
        features.flatMap fun f => f.markdownLines.map String.toList := by
    simp [List.map_flatMap]
  have hnewline : "\n".toList = ['\n'] := rfl
  rw [String.toList_intercalate, htexts, hnewline, splitLines_intercalate (hlast _ rfl),
    List.flatMap_append, List.map_append, List.flatMap_assoc, List.map_flatMap, List.map_flatMap]
  simp only [FeatureRow.chomp_markdownLines]
  rfl

/-! ### Headings -/

section Headings

variable {f : FeatureRow}

theorem isLineTerminator_of_isDigit {c : Char} (h : c.isDigit = true) : isLineTerminator c = false := by
  rw [Bool.eq_false_iff]
  intro hterminator
  simp only [isLineTerminator, Bool.or_eq_true, decide_eq_true_eq] at hterminator
  rcases hterminator with ((rfl | rfl) | rfl) | rfl
  all_goals exact absurd h (by decide)

/-- An id is a prefix and digits. -/
theorem exists_of_isFrId {frId : String} (h : isFrId frId = true) : ∃ digits : Line,
    frId.toList = "FR-".toList ++ digits ∧ digits ≠ [] ∧ ∀ c ∈ digits, c.isDigit = true := by
  obtain ⟨digits, hprefix, hdigits⟩ := (Option.any_eq_true _ _).mp h
  simp only [Bool.and_eq_true, decide_eq_true_eq] at hdigits
  exact ⟨digits, isPrefixOf?_eq_some.mp hprefix, hdigits.1, List.all_eq_true.mp hdigits.2⟩

theorem FeatureRow.heading_eq (f : FeatureRow) :
    f.heading = "## ".toList ++ f.frId.toList ++ ": ".toList ++ f.title.toList := by
  unfold heading
  rw [String.toList_append, String.toList_append, String.toList_append]
  rfl

/-- The line of a heading, when its title is in one line. -/
theorem FeatureRow.headingLines_eq (hid : isFrId f.frId = true) (htitle : IsTitle f.title.toList) :
    f.headingLines = [f.heading] := by
  obtain ⟨digits, hdigits, -, hall⟩ := exists_of_isFrId hid
  have hone : ∀ c ∈ f.heading, isLineTerminator c = false := by
    intro c hc
    rw [heading_eq, hdigits] at hc
    simp only [List.mem_append] at hc
    rcases hc with ((hhashes | hprefix | hdigit) | hcolon) | htext
    · exact (by simp [isLineTerminator] : ∀ c ∈ "## ".toList, isLineTerminator c = false) c hhashes
    · exact (by simp [isLineTerminator] : ∀ c ∈ "FR-".toList, isLineTerminator c = false) c hprefix
    · exact isLineTerminator_of_isDigit (hall c hdigit)
    · exact (by simp [isLineTerminator] : ∀ c ∈ ": ".toList, isLineTerminator c = false) c hcolon
    · exact htitle.oneLine c htext
  have hline : ∀ c ∈ f.heading, c ≠ '\n' ∧ c ≠ '\r' := by
    intro c hc
    have hterminator := hone c hc
    constructor
    · rintro rfl
      cases hterminator
    · rintro rfl
      cases hterminator
  have hchomp : f.heading.getLast? ≠ some '\r' := fun hlast =>
    (hline _ (List.mem_of_getLast? hlast)).2 rfl
  unfold headingLines
  rw [List.splitOn_eq_singleton fun hmem => (hline _ hmem).1 rfl, List.map_singleton,
    chomp_of_ne hchomp]

/-- **The heading of a feature is read as the feature's.** -/
theorem featureHeading?_heading (hid : isFrId f.frId = true) (htitle : IsTitle f.title.toList) :
    featureHeading? f.heading = some (f.frId, f.title) := by
  obtain ⟨digits, hdigits, hsome, hall⟩ := exists_of_isFrId hid
  have hheading : f.heading = "## FR-".toList ++ (digits ++ (": ".toList ++ f.title.toList)) := by
    rw [FeatureRow.heading_eq, hdigits]
    simp
  have hrest : "## FR-".toList.isPrefixOf? f.heading =
      some (digits ++ (": ".toList ++ f.title.toList)) := isPrefixOf?_eq_some.mpr hheading
  have htaken : (digits ++ (": ".toList ++ f.title.toList)).takeWhile Char.isDigit = digits := by
    rw [List.takeWhile_append_of_pos hall]
    simp
  have htext : ": ".toList.isPrefixOf? ((digits ++ (": ".toList ++ f.title.toList)).drop
      digits.length) = some f.title.toList := by
    rw [List.drop_left]
    exact isPrefixOf?_eq_some.mpr rfl
  have hfrId : String.ofList ("FR-".toList ++ digits) = f.frId := by
    rw [← hdigits, String.ofList_toList]
  unfold featureHeading?
  simp only [hrest, Option.bind_eq_bind, Option.bind_some, htaken, htext,
    lazyTitle?_eq_self htitle, hfrId, String.ofList_toList]
  simp [hsome]

end Headings

/-! ### Texts that are trimmed -/

theorem length_trimLine_le (line : Line) : (trimLine line).length ≤ line.length := by
  have hback := (List.rdropWhile_prefix isWhiteSpace (line.dropWhile isWhiteSpace)).length_le
  have hfront := (List.dropWhile_suffix isWhiteSpace (l := line)).length_le
  unfold trimLine
  omega

/-- Newlines around a line are trimmed. -/
theorem trimLine_newlines (line : Line) : trimLine ('\n' :: (line ++ ['\n'])) = trimLine line := by
  unfold trimLine
  have hnewline : isWhiteSpace '\n' = true := by decide
  rw [List.dropWhile_cons_of_pos hnewline, List.dropWhile_append]
  split
  · rename_i hempty
    rw [List.isEmpty_iff.mp hempty]
    rfl
  · rw [List.rdropWhile_concat_pos _ _ _ hnewline]

/-- **A description comes back** when it is trimmed and its lines end in no carriage return. -/
theorem trimLine_chomped_iff {description : Line} :
    trimLine (['\n'].intercalate ((description.splitOn '\n').map (chomp '\r'))) = description ↔
      trimLine description = description ∧
        ∀ line ∈ description.splitOn '\n', line.getLast? ≠ some '\r' := by
  have hjoined : ['\n'].intercalate (description.splitOn '\n') = description :=
    List.intercalate_splitOn _
  constructor
  · intro h
    obtain ⟨hlength, hreturns⟩ :=
      @length_intercalate_chomp Char _ '\r' '\n' (description.splitOn '\n')
    have htrimmed := length_trimLine_le
      (['\n'].intercalate ((description.splitOn '\n').map (chomp '\r')))
    rw [h] at htrimmed
    rw [hjoined] at hlength hreturns
    -- nothing was removed: neither a carriage return nor white space
    have hnone := hreturns (by omega)
    rw [map_chomp_of_ne hnone, hjoined] at h
    exact ⟨h, hnone⟩
  · rintro ⟨htrimmed, hreturns⟩
    rw [map_chomp_of_ne hreturns, hjoined, htrimmed]

/-! ### Sections of an export -/

/-- The section of a feature: what its heading captures, and the lines below it. -/
structure RawSection.Carries (raw : RawSection) (f : FeatureRow) : Prop where
  frId : raw.frId = f.frId
  title : raw.title = f.title
  bodyLines : raw.bodyLines = f.bodyLines

section Carries

variable {f : FeatureRow} {raw : RawSection}

/-- **The section of a feature is read as the feature** exactly when its description comes back. -/
theorem parse_iff_of_carries (h : raw.Carries f) (index : ℕ) :
    raw.parse index = .ok (f.parsed index) ↔ f.description ≠ "" ∧
      trim f.description = f.description ∧
        ∀ line ∈ f.description.toList.splitOn '\n', line.getLast? ≠ some '\r' := by
  have hkindLine : "Kind:".toList.isPrefixOf (trimLine f.kindLine) = true ∧
      kindLine? (trimLine f.kindLine) = some f.kind := by
    unfold FeatureRow.kindLine
    cases f.kind <;> decide
  have hindex : raw.kindLineIndex? = some 1 := by
    have hempty : "Kind:".toList.isPrefixOf (trimLine []) = false := rfl
    unfold RawSection.kindLineIndex?
    rw [h.bodyLines, FeatureRow.bodyLines, List.findIdx?_cons, hempty, List.findIdx?_cons,
      hkindLine.1]
    rfl
  have hkind : kindLine? (trimLine (raw.bodyLines.getD 1 [])) = some f.kind := by
    rw [h.bodyLines]
    exact hkindLine.2
  have hlines : f.descriptionLines ≠ [] := by
    simp [FeatureRow.descriptionLines, List.splitOn_ne_nil]
  have hjoined : ['\n'].intercalate (raw.bodyLines.drop 2) =
      '\n' :: (['\n'].intercalate f.descriptionLines ++ ['\n']) := by
    rw [h.bodyLines, ← intercalate_concat_nil hlines]
    exact List.intercalate_cons_of_ne_nil (by simp)
  have hdescription : trim (String.ofList (['\n'].intercalate (raw.bodyLines.drop 2))) =
      String.ofList (trimLine (['\n'].intercalate f.descriptionLines)) := by
    rw [← String.toList_inj, toList_trim, String.toList_ofList, String.toList_ofList, hjoined]
    exact trimLine_newlines _
  have hback : String.ofList (trimLine (['\n'].intercalate f.descriptionLines)) = f.description ↔
      trim f.description = f.description ∧
        ∀ line ∈ f.description.toList.splitOn '\n', line.getLast? ≠ some '\r' := by
    have htrim : trim f.description = f.description ↔
        trimLine f.description.toList = f.description.toList := by
      rw [← String.toList_inj, toList_trim]
      rfl
    rw [htrim, ← String.toList_inj, String.toList_ofList]
    exact trimLine_chomped_iff
  unfold RawSection.parse
  rw [hindex]
  simp only [hkind, hdescription, h.frId, h.title]
  rw [← hback]
  split
  · rename_i hempty
    rw [hempty]
    constructor
    · intro hok
      cases hok
    · intro hsame
      exact absurd hsame.2.symm hsame.1
  · rename_i hsome
    simp only [FeatureRow.parsed, Except.ok.injEq, ParsedBacklogFeature.mk.injEq, true_and, and_true]
    exact ⟨fun hsame => ⟨hsame ▸ hsome, hsame⟩, And.right⟩

end Carries

/-- What a section was read as has its id and its title. -/
theorem parse_ok {raw : RawSection} {index : ℕ} {feature : ParsedBacklogFeature}
    (h : raw.parse index = .ok feature) : feature.frId = raw.frId ∧ feature.title = raw.title := by
  unfold RawSection.parse at h
  split at h
  · cases h
  · split at h
    · cases h
    · simp only at h
      split at h
      · cases h
      · obtain rfl := Except.ok.inj h
        exact ⟨rfl, rfl⟩

/-- **The sections of features** whose headings are in one line, and whose descriptions have none. -/
theorem exists_collectSections {features : List FeatureRow} {i : ℕ} {current : Option RawSection}
    (hids : ∀ f ∈ features, isFrId f.frId = true)
    (htitles : ∀ f ∈ features, IsTitle f.title.toList)
    (hlines : ∀ f ∈ features, ∀ line ∈ f.descriptionLines, featureHeading? line = none) :
    ∃ raws, List.Forall₂ RawSection.Carries raws features ∧
      collectSections i current (features.flatMap fun f => f.headingLines ++ f.bodyLines) =
        current.toList ++ raws := by
  induction features generalizing i current with
  | nil => exact ⟨[], .nil, (List.append_nil _).symm⟩
  | cons f features ih =>
    have hid := hids f List.mem_cons_self
    have htitle := htitles f List.mem_cons_self
    have hbody : ∀ line ∈ f.bodyLines, featureHeading? line = none := by
      intro line hline
      have hempty : featureHeading? [] = none := rfl
      simp only [FeatureRow.bodyLines, List.mem_cons, List.mem_append, List.not_mem_nil,
        or_false] at hline
      rcases hline with rfl | rfl | rfl | hline | rfl
      · exact hempty
      · exact FeatureRow.featureHeading?_kindLine
      · exact hempty
      · exact hlines f List.mem_cons_self line hline
      · exact hempty
    let raw : RawSection := {
      frId := f.frId, title := f.title, headingLine := i + 1, bodyLines := f.bodyLines
      bodyStartLine := i + 2 }
    obtain ⟨raws, hcarries, hcollected⟩ := @ih (i + 1 + f.bodyLines.length) (some raw)
      (fun g hg => hids g (List.mem_cons_of_mem _ hg))
      (fun g hg => htitles g (List.mem_cons_of_mem _ hg))
      (fun g hg => hlines g (List.mem_cons_of_mem _ hg))
    refine ⟨raw :: raws, .cons ⟨rfl, rfl, rfl⟩ hcarries, ?_⟩
    rw [List.flatMap_cons, FeatureRow.headingLines_eq hid htitle, List.append_assoc,
      List.singleton_append, collectSections, featureHeading?_heading hid htitle]
    simp only
    rw [collectSections_append hbody, Option.map_some, List.nil_append, hcollected]
    rfl

/-- How many lines of a feature are headings, when its title is in one line. -/
theorem countP_headings {f : FeatureRow} (hid : isFrId f.frId = true)
    (htitle : IsTitle f.title.toList) :
    (f.headingLines ++ f.bodyLines).countP (fun line => (featureHeading? line).isSome) =
      1 + f.descriptionLines.countP fun line => (featureHeading? line).isSome := by
  have hheading : (featureHeading? f.heading).isSome = true := by
    rw [featureHeading?_heading hid htitle]
    rfl
  have hkind : (featureHeading? f.kindLine).isSome = false := by
    rw [FeatureRow.featureHeading?_kindLine]
    rfl
  have hempty : (featureHeading? []).isSome = false := rfl
  rw [FeatureRow.headingLines_eq hid htitle, FeatureRow.bodyLines]
  simp [hheading, hkind, hempty]
  omega

/-! ### The features of the sections -/

section Features

variable {features : List FeatureRow} {raws : List RawSection} {seen : List String} {index : ℕ}

/-- The features of their sections, when each survives. -/
theorem parseSections_eq_ok (h : List.Forall₂ RawSection.Carries raws features)
    (hsurvives : ∀ f ∈ features, f.Survives) (hdistinct : (features.map FeatureRow.frId).Nodup)
    (hseen : ∀ f ∈ features, f.frId ∉ seen) :
    parseSections seen index raws = .ok (features.mapIdx fun n f => f.parsed (index + n)) := by
  induction h generalizing seen index with
  | nil => rfl
  | @cons raw f raws features hcarries _ ih =>
    have hf := hsurvives f List.mem_cons_self
    have hparse : raw.parse index = .ok (f.parsed index) :=
      (parse_iff_of_carries hcarries index).mpr ⟨hf.nonempty, hf.trimmed, hf.noReturns⟩
    rw [List.map_cons, List.nodup_cons] at hdistinct
    have hnew : raw.frId ∉ seen := hcarries.frId ▸ hseen f List.mem_cons_self
    have hseen' : ∀ g ∈ features, g.frId ∉ raw.frId :: seen := by
      intro g hg hmem
      rcases List.mem_cons.mp hmem with hsame | hmem
      · rw [hcarries.frId] at hsame
        exact hdistinct.1 (hsame ▸ List.mem_map_of_mem hg)
      · exact hseen g (List.mem_cons_of_mem _ hg) hmem
    have hrest := @ih (raw.frId :: seen) (index + 1)
      (fun g hg => hsurvives g (List.mem_cons_of_mem _ hg)) hdistinct.2 hseen'
    unfold parseSections
    rw [if_neg hnew, hparse, hrest, List.mapIdx_cons]
    simp only [Nat.add_assoc, Nat.add_comm 1]
    rfl

theorem forall₂_of_parseSections
    (h : parseSections seen index raws = .ok (features.mapIdx fun n f => f.parsed (index + n))) :
    List.Forall₂ (fun raw f => ∃ n, raw.parse n = .ok (f.parsed n)) raws features := by
  induction raws generalizing features seen index with
  | nil =>
    have hnil := Except.ok.inj h
    rw [eq_comm, List.mapIdx_eq_nil_iff] at hnil
    rw [hnil]
    exact .nil
  | cons raw raws ih =>
    unfold parseSections at h
    split at h
    · cases h
    · rcases hparse : raw.parse index with e | feature
      · rw [hparse] at h
        cases h
      · rcases hrest : parseSections (raw.frId :: seen) (index + 1) raws with e | rest
        · rw [hparse, hrest] at h
          cases h
        · rw [hparse, hrest] at h
          have hcons := Except.ok.inj h
          rcases features with _ | ⟨f, features⟩
          · cases hcons
          · rw [List.mapIdx_cons] at hcons
            obtain ⟨hfeature, hfeatures⟩ := List.cons.inj hcons
            refine .cons ⟨index, hparse.trans (congrArg _ hfeature)⟩ (ih (hrest.trans ?_))
            rw [hfeatures]
            simp only [Nat.add_assoc, Nat.add_comm 1]

end Features

/-! ### Exports and their parse -/

section Markdown

variable {features : List FeatureRow}

/-- The parse of an export is what its sections give. -/
theorem parse_eq_ok_iff {parsed : List ParsedBacklogFeature} :
    parseBacklogMarkdown (backlogMarkdown features) = .ok parsed ↔
      collectSections 2 none (features.flatMap fun f => f.headingLines ++ f.bodyLines) ≠ [] ∧
        parseSections [] 0 (collectSections 2 none
          (features.flatMap fun f => f.headingLines ++ f.bodyLines)) = .ok parsed := by
  have hblank : decide (trimLine "# Feature Backlog".toList = []) = false := by decide
  have htitle : isTitleHeading "# Feature Backlog".toList = true := by decide
  have hskip : ∀ lines, collectSections 1 none ([] :: lines) = collectSections 2 none lines :=
    fun _ => rfl
  unfold parseBacklogMarkdown
  rw [splitLines_backlogMarkdown]
  simp only [List.takeWhile_cons, hblank, List.length_nil, List.drop_zero, htitle, if_true,
    Bool.false_eq_true, if_false, Nat.zero_add, hskip]
  split
  · rename_i hnone
    rw [hnone]
    simp
  · rename_i hsome
    exact ⟨fun hok => ⟨fun hnone => hsome hnone, hok⟩, And.right⟩

theorem exists_mem_of_forall₂ {α β : Type} {R : α → β → Prop} {as : List α} {bs : List β}
    (h : List.Forall₂ R as bs) : ∀ b ∈ bs, ∃ a ∈ as, R a b := by
  induction h with
  | nil => simp
  | @cons a b as bs hab _ ih =>
    intro b' hb'
    rcases List.mem_cons.mp hb' with rfl | hb'
    · exact ⟨a, List.mem_cons_self, hab⟩
    · obtain ⟨a', ha', hrel⟩ := ih b' hb'
      exact ⟨a', List.mem_cons_of_mem _ ha', hrel⟩

/-- A sum of numbers of which each is one and more is the number of them only without more. -/
theorem eq_zero_of_sum_one_add {α : Type} {count : α → ℕ} {as : List α}
    (h : (as.map fun a => 1 + count a).sum = as.length) : ∀ a ∈ as, count a = 0 := by
  have hle : ∀ bs : List α, bs.length ≤ (bs.map fun a => 1 + count a).sum := by
    intro bs
    induction bs with
    | nil => simp
    | cons b bs ih =>
      rw [List.map_cons, List.sum_cons, List.length_cons]
      omega
  induction as with
  | nil => simp
  | cons a as ih =>
    rw [List.map_cons, List.sum_cons, List.length_cons] at h
    have hrest := hle as
    intro b hb
    rcases List.mem_cons.mp hb with rfl | hb
    · omega
    · exact ih (by omega) b hb

/-- The lines of a description without carriage returns at their ends. -/
theorem FeatureRow.descriptionLines_eq {f : FeatureRow}
    (h : ∀ line ∈ f.description.toList.splitOn '\n', line.getLast? ≠ some '\r') :
    f.descriptionLines = f.description.toList.splitOn '\n' := map_chomp_of_ne h

/-- **Features survive an export and a parse exactly when each of them does.** -/
theorem parse_backlogMarkdown_iff (hsome : features ≠ [])
    (hdistinct : (features.map FeatureRow.frId).Nodup)
    (hids : ∀ f ∈ features, isFrId f.frId = true) :
    parseBacklogMarkdown (backlogMarkdown features) =
        .ok (features.mapIdx fun index f => f.parsed index) ↔ ∀ f ∈ features, f.Survives := by
  have hindex : (features.mapIdx fun index f => f.parsed index) =
      features.mapIdx fun n f => f.parsed (0 + n) := by simp only [Nat.zero_add]
  rw [parse_eq_ok_iff, hindex]
  constructor
  · rintro ⟨-, hparsed⟩
    have hread := forall₂_of_parseSections hparsed
    have htitles : ∀ f ∈ features, IsTitle f.title.toList := by
      intro f hf
      obtain ⟨raw, hraw, n, hparse⟩ := exists_mem_of_forall₂ hread f hf
      have htitle : f.title = raw.title := (parse_ok hparse).2
      rw [htitle]
      exact isTitle_of_mem_collectSections (by simp) hraw
    -- as many sections as features leave no heading for the descriptions
    have hlength := hread.length_eq
    rw [length_collectSections, List.countP_flatMap] at hlength
    have hcounts : (features.map ((List.countP fun line => (featureHeading? line).isSome) ∘
        fun f => f.headingLines ++ f.bodyLines)) = features.map fun f =>
          1 + f.descriptionLines.countP fun line => (featureHeading? line).isSome :=
      List.map_congr_left fun f hf => countP_headings (hids f hf) (htitles f hf)
    rw [hcounts, Option.toList_none, List.length_nil, Nat.zero_add] at hlength
    have hlines : ∀ f ∈ features, ∀ line ∈ f.descriptionLines, featureHeading? line = none := by
      intro f hf line hline
      have hzero := List.countP_eq_zero.mp (eq_zero_of_sum_one_add hlength f hf) line hline
      rwa [Option.not_isSome_iff_eq_none] at hzero
    obtain ⟨raws, hcarries, hcollected⟩ := @exists_collectSections features 2 none hids htitles hlines
    rw [hcollected, Option.toList_none, List.nil_append] at hread
    have hboth := hcarries.mp (fun raw f hcarry hreads => And.intro hcarry hreads) hread
    intro f hf
    obtain ⟨raw, -, hcarry, n, hparse⟩ := exists_mem_of_forall₂ hboth f hf
    obtain ⟨hnonempty, htrimmed, hreturns⟩ := (parse_iff_of_carries hcarry n).mp hparse
    refine ⟨htitles f hf, hnonempty, htrimmed, hreturns, ?_⟩
    rw [← FeatureRow.descriptionLines_eq hreturns]
    exact hlines f hf
  · intro h
    have hlines : ∀ f ∈ features, ∀ line ∈ f.descriptionLines, featureHeading? line = none := by
      intro f hf
      rw [FeatureRow.descriptionLines_eq (h f hf).noReturns]
      exact (h f hf).noHeadings
    obtain ⟨raws, hcarries, hcollected⟩ := @exists_collectSections features 2 none hids
      (fun f hf => (h f hf).title) hlines
    rw [hcollected, Option.toList_none, List.nil_append]
    refine ⟨fun hnone => hsome ?_, parseSections_eq_ok hcarries h hdistinct (by simp)⟩
    rw [hnone] at hcarries
    cases hcarries
    rfl

end Markdown

/-! ### The order of an export -/

theorem FeatureRow.precedes_antisymm {f g : FeatureRow} (h : f.Precedes g) (h' : g.Precedes f) :
    f.frId = g.frId := by
  rcases h with hlt | ⟨heq, hle⟩
  · rcases h' with hlt' | ⟨heq', -⟩
    · omega
    · omega
  · rcases h' with hlt' | ⟨-, hle'⟩
    · omega
    · exact String.le_antisymm hle hle'

instance : Std.Total FeatureRow.Precedes where
  total f g := by
    unfold FeatureRow.Precedes
    rcases lt_trichotomy f.priority g.priority with hlt | heq | hgt
    · exact Or.inl (Or.inl hlt)
    · rcases String.le_total f.frId g.frId with hle | hle
      · exact Or.inl (Or.inr ⟨heq, hle⟩)
      · exact Or.inr (Or.inr ⟨heq.symm, hle⟩)
    · exact Or.inr (Or.inl hgt)

instance : IsTrans FeatureRow FeatureRow.Precedes where
  trans f g k h h' := by
    unfold FeatureRow.Precedes at h h' ⊢
    rcases h with hlt | ⟨heq, hle⟩
    · rcases h' with hlt' | ⟨heq', -⟩
      · exact Or.inl (by omega)
      · exact Or.inl (by omega)
    · rcases h' with hlt' | ⟨heq', hle'⟩
      · exact Or.inl (by omega)
      · exact Or.inr ⟨heq.trans heq', String.le_trans hle hle'⟩

/-- What an export reads of a feature that was imported. -/
def ImportedFeature.row (f : ImportedFeature) : FeatureRow where
  frId := f.frId
  title := f.title
  description := f.description
  kind := f.kind
  priority := f.priority

/-- The features in the order of an export. -/
def exportOrder (features : List ImportedFeature) : List FeatureRow :=
  (features.map ImportedFeature.row).insertionSort FeatureRow.Precedes

/-- The plan has these features, and no others. -/
def Db.ListsFeatures (db : Db) (planId projectId : String) (features : List ImportedFeature) : Prop :=
  ((db.backlogFeatures planId projectId).map FeatureRequest.row).Perm
    (features.map ImportedFeature.row)

section Order

variable {features : List ImportedFeature} {db : Db} {planId projectId : String}

theorem mem_exportOrder {f : FeatureRow} :
    f ∈ exportOrder features ↔ ∃ feature ∈ features, feature.row = f := by
  unfold exportOrder
  rw [List.mem_insertionSort, List.mem_map]

theorem exportOrder_ne_nil (hsome : features ≠ []) : exportOrder features ≠ [] := by
  obtain ⟨f, hf⟩ := List.exists_mem_of_ne_nil features hsome
  exact List.ne_nil_of_mem (mem_exportOrder.mpr ⟨f, hf, rfl⟩)

theorem nodup_exportOrder (h : (features.map ImportedFeature.frId).Nodup) :
    ((exportOrder features).map FeatureRow.frId).Nodup := by
  have hperm : ((exportOrder features).map FeatureRow.frId).Perm
      ((features.map ImportedFeature.row).map FeatureRow.frId) :=
    (List.perm_insertionSort _ _).map _
  rw [hperm.nodup_iff, List.map_map]
  exact h

/-- **An export reads its features in this order.** -/
theorem backlogRows_eq (hdistinct : (features.map ImportedFeature.frId).Nodup)
    (h : db.ListsFeatures planId projectId features) :
    db.backlogRows planId projectId = exportOrder features := by
  have hperm : (db.backlogRows planId projectId).Perm (exportOrder features) :=
    (List.perm_insertionSort _ _).trans (h.trans (List.perm_insertionSort _ _).symm)
  refine hperm.eq_of_pairwise (fun f g hf hg hle hle' => ?_) (List.pairwise_insertionSort _ _)
    (List.pairwise_insertionSort _ _)
  -- rows that precede each other have one id, and are one row
  have hsame := FeatureRow.precedes_antisymm hle hle'
  exact List.inj_on_of_nodup_map (nodup_exportOrder hdistinct) (hperm.mem_iff.mp hf) hg hsame

end Order

/-! ### Features that survive -/

/-- Whatever plan has the features, the Markdown that an export of the plan stores is read as the features
in the order of the export, with their places as their priorities. -/
def RoundTrips (features : List ImportedFeature) : Prop :=
  ∀ (envelope : CommandEnvelope ExportBacklogPayload) (s s' : Session) (result : CommandResult),
    s.db.ListsFeatures envelope.payload.planId envelope.payload.projectId features →
    exec (exportBacklogHandler.body envelope ()) s = (.ok result, s') →
    ∀ artifact ∈ s'.db.design.artifactExports.rows,
      artifact ∉ s.db.design.artifactExports.rows →
        ∃ markdown, artifact.content = some markdown ∧ parseBacklogMarkdown markdown =
          .ok ((exportOrder features).mapIdx fun index f => f.parsed index)

section RoundTrip

variable {features : List ImportedFeature}

/-- A database with the features in a plan. -/
theorem exists_listsFeatures (hdistinct : (features.map ImportedFeature.frId).Nodup) :
    ∃ db : Db, db.ListsFeatures "plan" "project" features ∧
      db.design.artifactExports.rows = [] := by
  let request (f : ImportedFeature) : FeatureRequest := {
    id := f.frId, planId := "plan", projectId := "project", frId := f.frId, title := f.title
    description := f.description, kind := f.kind, priority := f.priority }
  have hunique : (features.map request).Pairwise fun r r' => Row.clash r r' = false := by
    rw [List.pairwise_map]
    refine (List.pairwise_map.mp hdistinct).imp fun hne => decide_eq_false ?_
    rintro (hid | hkey)
    · exact hne hid
    · exact hne (Prod.mk.inj hkey).2
  refine ⟨{ featureRequests := ⟨features.map request, hunique⟩ }, ?_, rfl⟩
  have hall : ((features.map request).filter fun fr =>
      fr.planId == "plan" && fr.projectId == "project") = features.map request := by
    rw [List.filter_eq_self]
    intro fr hfr
    obtain ⟨f, -, rfl⟩ := List.mem_map.mp hfr
    rfl
  unfold Db.ListsFeatures Db.backlogFeatures Table.select
  rw [hall, List.map_map]
  rfl

/-- The features round trip exactly when the parser gives them back from their Markdown. -/
theorem roundTrips_iff_parse (hsome : features ≠ [])
    (hdistinct : (features.map ImportedFeature.frId).Nodup) :
    RoundTrips features ↔ parseBacklogMarkdown (backlogMarkdown (exportOrder features)) =
      .ok ((exportOrder features).mapIdx fun index f => f.parsed index) := by
  constructor
  · intro h
    obtain ⟨db, hlists, hnone⟩ := exists_listsFeatures hdistinct
    obtain ⟨rt, -, hready⟩ := exists_ready db
    let envelope : CommandEnvelope ExportBacklogPayload := {
      commandId := "", idempotencyKey := "", payload := ⟨"project", "plan"⟩, actor := systemActor
      correlationId := "" }
    have hexported : db.backlogRows "plan" "project" ≠ [] := by
      rw [backlogRows_eq hdistinct hlists]
      exact exportOrder_ne_nil hsome
    obtain ⟨result, s', hexec, -⟩ :=
      @returns_exportBacklogWork envelope (.start db rt) hready hnone hexported
    obtain ⟨-, id, hnew, hartifacts⟩ := exportBacklogWork_ok hexec
    have hstored := (hartifacts _).mpr (Or.inr rfl)
    have hfresh : ∀ artifact : ArtifactExport, artifact ∉ db.design.artifactExports.rows := by
      rw [hnone]
      simp
    obtain ⟨markdown, hcontent, hparsed⟩ :=
      h envelope (.start db rt) s' result hlists hexec _ hstored (hfresh _)
    have hmarkdown : markdown = backlogMarkdown (exportOrder features) := by
      rw [← backlogRows_eq hdistinct hlists]
      exact (Option.some.inj hcontent).symm
    rw [← hmarkdown]
    exact hparsed
  · intro h envelope s s' result hlists hexec artifact hartifact hnew
    obtain ⟨-, id, -, hartifacts⟩ := exportBacklogWork_ok hexec
    rcases (hartifacts artifact).mp hartifact with hold | rfl
    · exact absurd hold hnew
    · refine ⟨_, rfl, ?_⟩
      rw [backlogRows_eq hdistinct hlists]
      exact h

/-- Each of the features must survive, and that is enough. -/
theorem parse_exportOrder_iff (hsome : features ≠ [])
    (hdistinct : (features.map ImportedFeature.frId).Nodup)
    (hadmitted : ∀ f ∈ features, isFrId f.frId = true) :
    parseBacklogMarkdown (backlogMarkdown (exportOrder features)) =
        .ok ((exportOrder features).mapIdx fun index f => f.parsed index) ↔
      ∀ f ∈ features, f.row.Survives := by
  have hids : ∀ f ∈ exportOrder features, isFrId f.frId = true := by
    intro f hf
    obtain ⟨feature, hfeature, rfl⟩ := mem_exportOrder.mp hf
    exact hadmitted feature hfeature
  rw [parse_backlogMarkdown_iff (exportOrder_ne_nil hsome) (nodup_exportOrder hdistinct) hids]
  constructor
  · intro h f hf
    exact h f.row (mem_exportOrder.mpr ⟨f, hf, rfl⟩)
  · intro h f hf
    obtain ⟨feature, hfeature, rfl⟩ := mem_exportOrder.mp hf
    exact h feature hfeature

/-- **The features of an import survive an export and a parse exactly when each of them does**: its title
fits in a heading, and its description is trimmed, not empty, without carriage returns at the ends of its
lines, and without a line that is a heading. -/
theorem roundTrips_iff (hsome : features ≠ [])
    (hdistinct : (features.map ImportedFeature.frId).Nodup)
    (hadmitted : ∀ f ∈ features, isFrId f.frId = true) :
    RoundTrips features ↔ ∀ f ∈ features, f.row.Survives := by
  rw [roundTrips_iff_parse hsome hdistinct]
  exact parse_exportOrder_iff hsome hdistinct hadmitted

end RoundTrip

/-- Two features, of which the second is exported first. -/
def sampleFeatures : List ImportedFeature := [
  { frId := "FR-2", title := "Search", description := "Finds notes.\n\n### How\nKind: by words"
    priority := 1 },
  { frId := "FR-1", title := "Notes", description := "Keeps notes.", kind := .discovery }]

theorem survives_sampleFeatures : ∀ f ∈ sampleFeatures, f.row.Survives := by
  have hsearch : lazyTitle? "Search".toList = some "Search".toList := by decide +kernel
  have hnotes : lazyTitle? "Notes".toList = some "Notes".toList := by decide +kernel
  intro f hf
  rcases List.mem_cons.mp hf with rfl | hf
  · exact ⟨isTitle_of_lazyTitle? hsearch, by decide +kernel, by decide +kernel, by decide +kernel,
      by decide +kernel⟩
  · obtain rfl := List.mem_singleton.mp hf
    exact ⟨isTitle_of_lazyTitle? hnotes, by decide +kernel, by decide +kernel, by decide +kernel,
      by decide +kernel⟩

theorem roundTrips_sampleFeatures : RoundTrips sampleFeatures :=
  (roundTrips_iff (by decide) (by decide) (by decide +kernel)).mpr survives_sampleFeatures

/-- A description that quotes the heading of another feature. -/
def quotingFeature : ImportedFeature where
  frId := "FR-1"
  title := "Notes"
  description := "See below.\n## FR-2: Search"

/-- Its section ends at the heading that it quotes. -/
theorem not_roundTrips_quotingFeature : ¬ RoundTrips [quotingFeature] := by
  have hadmitted : ∀ f ∈ [quotingFeature], isFrId f.frId = true := by decide +kernel
  rw [roundTrips_iff_parse (by simp) (by simp), parse_exportOrder_iff (by simp) (by simp) hadmitted]
  intro h
  have hnone := (h quotingFeature List.mem_cons_self).noHeadings "## FR-2: Search".toList
    (by decide +kernel)
  have hheading : featureHeading? "## FR-2: Search".toList = some ("FR-2", "Search") := by
    decide +kernel
  rw [hheading] at hnone
  cases hnone

end MiniCoder
