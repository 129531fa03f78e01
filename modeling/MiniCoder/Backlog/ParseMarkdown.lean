import Mathlib.Data.Option.Basic
import MiniCoder.Domain.States
import MiniCoder.Domain.Text
import MiniCoder.Library.Lines

/-!
# The parser of `backlog.md`

`parseBacklogMarkdown` finds the sections of a backlog by the headings of its features, and reads the
kind and the description of each feature off the lines of its section.  A line is the list of its
characters.

* `lazyTitle?_eq_self`, `isTitle_of_lazyTitle?`: the titles that a heading can carry.
* `length_collectSections`: there is a section for every line that is a heading.
* `collectSections_append`: lines that are no headings go to the section before them.
-/

open Lines

namespace MiniCoder

/-! ### The regular expressions -/

abbrev Line := List Char

/-- `String.prototype.trim`, of a line. -/
def trimLine (line : Line) : Line := (line.dropWhile isWhiteSpace).rdropWhile isWhiteSpace

/-- `TITLE_HEADING_RE`: `^# Feature Backlog\s*$`. -/
def isTitleHeading (line : Line) : Bool :=
  ("# Feature Backlog".toList.isPrefixOf? line).any (·.all isWhiteSpace)

/-- `(.+?)\s*$`: the shortest text within a line that leaves white space only. -/
def lazyTitle? : Line → Option Line
  | [] => none
  | c :: cs =>
    if isLineTerminator c then none
    else if cs.all isWhiteSpace then some [c]
    else (lazyTitle? cs).map (c :: ·)

/-- `FEATURE_HEADING_RE`: `^## (FR-\d+): (.+?)\s*$`, with what its groups capture. -/
def featureHeading? (line : Line) : Option (String × String) := do
  let rest ← "## FR-".toList.isPrefixOf? line
  let digits := rest.takeWhile Char.isDigit
  guard (digits ≠ [])
  let text ← ": ".toList.isPrefixOf? (rest.drop digits.length)
  let title ← lazyTitle? text
  pure (String.ofList ("FR-".toList ++ digits), String.ofList title)

/-- `KIND_LINE_RE`: `^Kind: (feature|discovery)\s*$`. -/
def kindLine? (line : Line) : Option FeatureKind :=
  ("Kind: ".toList.isPrefixOf? line).bind fun rest =>
    if ("feature".toList.isPrefixOf? rest).any (·.all isWhiteSpace) then some .feature
    else if ("discovery".toList.isPrefixOf? rest).any (·.all isWhiteSpace) then some .discovery
    else none

/-! ### The parser -/

structure BacklogParseError where
  message : String
  line : Option ℕ
  deriving DecidableEq, Repr

/-- The constructor of the error: a message with its line, where it has one. -/
def backlogParseError (message : String) (line : Option ℕ := none) : BacklogParseError where
  message := match line with
    | some line => s!"{message} (line {line})"
    | none => message
  line

structure ParsedBacklogFeature where
  frId : String
  title : String
  description : String
  kind : FeatureKind
  priority : ℕ
  dependsOnFrIds : List String
  deriving DecidableEq, Repr

structure RawSection where
  frId : String
  title : String
  headingLine : ℕ
  bodyLines : List Line
  bodyStartLine : ℕ
  deriving DecidableEq, Repr

/-- The loop over the lines, from the index `i` on, with the section that they are in. -/
def collectSections (i : ℕ) (current : Option RawSection) : List Line → List RawSection
  | [] => current.toList
  | line :: lines =>
    match featureHeading? line with
    | some (frId, title) =>
      current.toList ++ collectSections (i + 1)
        (some { frId, title, headingLine := i + 1, bodyLines := [], bodyStartLine := i + 2 }) lines
    | none =>
      collectSections (i + 1)
        (current.map fun raw => { raw with bodyLines := raw.bodyLines ++ [line] }) lines

namespace RawSection

variable (raw : RawSection)

/-- The index of the first line that begins with `Kind:`. -/
def kindLineIndex? : Option ℕ :=
  raw.bodyLines.findIdx? fun line => "Kind:".toList.isPrefixOf (trimLine line)

/-- The feature of a section, at its place in the document. -/
def parse (index : ℕ) : Except BacklogParseError ParsedBacklogFeature :=
  match raw.kindLineIndex? with
  | none => .error (backlogParseError s!"Missing \"Kind: <feature|discovery>\" line for {raw.frId}"
      raw.headingLine)
  | some kindLineIndex =>
    match kindLine? (trimLine (raw.bodyLines.getD kindLineIndex [])) with
    | none => .error (backlogParseError
        s!"Invalid Kind value for {raw.frId} — expected \"Kind: feature\" or \"Kind: discovery\""
        (raw.bodyStartLine + kindLineIndex))
    | some kind =>
      let description := trim (String.ofList
        (['\n'].intercalate (raw.bodyLines.drop (kindLineIndex + 1))))
      if description = "" then
        .error (backlogParseError s!"Missing description for {raw.frId}" raw.headingLine)
      else
        .ok {
          frId := raw.frId, title := raw.title, description, kind
          priority := index, dependsOnFrIds := [] }

end RawSection

/-- The features of the sections, from the place `index` on: no id is that of an earlier one. -/
def parseSections (seenFrIds : List String) (index : ℕ) :
    List RawSection → Except BacklogParseError (List ParsedBacklogFeature)
  | [] => .ok []
  | raw :: raws =>
    if raw.frId ∈ seenFrIds then
      .error (backlogParseError s!"Duplicate feature id \"{raw.frId}\"" raw.headingLine)
    else do
      let feature ← raw.parse index
      let features ← parseSections (raw.frId :: seenFrIds) (index + 1) raws
      pure (feature :: features)

def parseBacklogMarkdown (markdown : String) :
    Except BacklogParseError (List ParsedBacklogFeature) :=
  let lines := splitLines '\r' '\n' markdown.toList
  let i := (lines.takeWhile fun line => trimLine line = []).length
  let noHeading := backlogParseError
    "Expected the backlog markdown to start with a \"# Feature Backlog\" heading" (some (i + 1))
  match lines.drop i with
  | [] => .error noHeading
  | heading :: rest =>
    if isTitleHeading heading then
      match collectSections (i + 1) none rest with
      | [] => .error (backlogParseError
          "No feature sections (\"## FR-<n>: <title>\") found in backlog markdown")
      | sections => parseSections [] 0 sections
    else .error noHeading

/-! ### Titles -/

/-- A title that a heading can carry: it is in one line, and ends in white space only where that is all of
it. -/
structure IsTitle (title : Line) : Prop where
  nonempty : title ≠ []
  oneLine : ∀ c ∈ title, isLineTerminator c = false
  ending : title.length = 1 ∨ ∀ c, title.getLast? = some c → isWhiteSpace c = false

/-- What is captured of a text that is not all white space does not end in white space. -/
theorem ending_of_lazyTitle? {text title : Line} (h : lazyTitle? text = some title)
    (hsolid : text.all isWhiteSpace = false) :
    ∀ c, title.getLast? = some c → isWhiteSpace c = false := by
  induction text generalizing title with
  | nil => cases h
  | cons first rest ih =>
    unfold lazyTitle? at h
    split_ifs at h with hterminator hspace
    · obtain rfl := Option.some.inj h
      intro c hc
      obtain rfl := Option.some.inj hc
      rw [List.all_cons, hspace, Bool.and_true] at hsolid
      exact hsolid
    · obtain ⟨title', htitle', rfl⟩ := Option.map_eq_some_iff.mp h
      rw [Bool.not_eq_true] at hspace
      intro c hc
      rcases title' with _ | ⟨second, title'⟩
      · -- what is captured is not empty
        unfold lazyTitle? at htitle'
        split at htitle'
        · cases htitle'
        · split_ifs at htitle'
          · cases htitle'
          · obtain ⟨_, _, hcons⟩ := Option.map_eq_some_iff.mp htitle'
            cases hcons
      · rw [List.getLast?_cons_cons] at hc
        exact ih htitle' hspace c hc

/-- **What a heading captures is a title.** -/
theorem isTitle_of_lazyTitle? {text title : Line} (h : lazyTitle? text = some title) :
    IsTitle title := by
  induction text generalizing title with
  | nil => cases h
  | cons first rest ih =>
    have hsolid := ending_of_lazyTitle? h
    unfold lazyTitle? at h
    split_ifs at h with hterminator hspace
    · obtain rfl := Option.some.inj h
      rw [Bool.not_eq_true] at hterminator
      exact ⟨by simp, by simpa using hterminator, Or.inl rfl⟩
    · obtain ⟨title', htitle', rfl⟩ := Option.map_eq_some_iff.mp h
      rw [Bool.not_eq_true] at hterminator hspace
      refine ⟨by simp, fun c hc => ?_, Or.inr (hsolid ?_)⟩
      · rcases List.mem_cons.mp hc with rfl | hc
        · exact hterminator
        · exact (ih htitle').oneLine c hc
      · rw [List.all_cons, hspace, Bool.and_false]

/-- **A title is captured as it is.** -/
theorem lazyTitle?_eq_self {title : Line} (h : IsTitle title) : lazyTitle? title = some title := by
  induction title with
  | nil => exact absurd rfl h.nonempty
  | cons first rest ih =>
    have hterminator := h.oneLine first List.mem_cons_self
    unfold lazyTitle?
    rw [hterminator]
    rcases rest with _ | ⟨second, rest⟩
    · rfl
    · have hlast : ∀ c, (second :: rest).getLast? = some c → isWhiteSpace c = false := by
        intro c hc
        rcases h.ending with hone | hending
        · simp at hone
        · exact hending c (by rwa [List.getLast?_cons_cons])
      have hsolid : (second :: rest).all isWhiteSpace = false := by
        rw [Bool.eq_false_iff]
        intro hall
        have hspace := List.all_eq_true.mp hall _ (List.getLast_mem (List.cons_ne_nil second rest))
        rw [hlast _ (List.getLast?_eq_some_getLast _)] at hspace
        cases hspace
      have htitle : IsTitle (second :: rest) :=
        ⟨by simp, fun c hc => h.oneLine c (List.mem_cons_of_mem _ hc), Or.inr hlast⟩
      rw [hsolid, ih htitle]
      rfl

/-- The title of a heading is a title. -/
theorem isTitle_of_featureHeading? {line : Line} {frId title : String}
    (h : featureHeading? line = some (frId, title)) : IsTitle title.toList := by
  unfold featureHeading? at h
  simp only [Option.bind_eq_bind, Option.bind_eq_some_iff] at h
  obtain ⟨rest, -, _, -, text, -, captured, hcaptured, hpure⟩ := h
  obtain ⟨-, rfl⟩ := Prod.mk.inj (Option.some.inj hpure)
  rw [String.toList_ofList]
  exact isTitle_of_lazyTitle? hcaptured

/-! ### Sections -/

section Sections

variable {i : ℕ} {current : Option RawSection} {lines body : List Line}

/-- **There is a section for every heading.** -/
theorem length_collectSections : (collectSections i current lines).length =
    current.toList.length + lines.countP fun line => (featureHeading? line).isSome := by
  induction lines generalizing i current with
  | nil => rfl
  | cons line lines ih =>
    unfold collectSections
    rcases hheading : featureHeading? line with _ | ⟨frId, title⟩
    · simp only
      rw [ih, List.countP_cons_of_neg (by simp [hheading])]
      rcases current with _ | raw
      · rfl
      · rfl
    · simp only
      rw [List.length_append, ih, List.countP_cons_of_pos (by simp [hheading])]
      simp
      omega

/-- The titles of the sections are titles. -/
theorem isTitle_of_mem_collectSections {raw : RawSection}
    (hcurrent : ∀ raw, current = some raw → IsTitle raw.title.toList)
    (h : raw ∈ collectSections i current lines) : IsTitle raw.title.toList := by
  induction lines generalizing i current with
  | nil => exact hcurrent raw (Option.mem_toList.mp h)
  | cons line lines ih =>
    unfold collectSections at h
    rcases hheading : featureHeading? line with _ | ⟨frId, title⟩
    · rw [hheading] at h
      refine ih (fun raw' hraw' => ?_) h
      obtain ⟨raw'', hraw'', rfl⟩ := Option.map_eq_some_iff.mp hraw'
      exact hcurrent raw'' hraw''
    · rw [hheading] at h
      rcases List.mem_append.mp h with hold | hnew
      · exact hcurrent raw (Option.mem_toList.mp hold)
      · refine ih (fun raw' hraw' => ?_) hnew
        obtain rfl := Option.some.inj hraw'
        exact isTitle_of_featureHeading? hheading

/-- **Lines that are no headings** go to the section before them. -/
theorem collectSections_append (hbody : ∀ line ∈ body, featureHeading? line = none) :
    collectSections i current (body ++ lines) = collectSections (i + body.length)
      (current.map fun raw => { raw with bodyLines := raw.bodyLines ++ body }) lines := by
  induction body generalizing i current with
  | nil => simp
  | cons line body ih =>
    have hline := hbody line List.mem_cons_self
    rw [List.cons_append, collectSections, hline]
    simp only
    rw [ih fun line hmem => hbody line (List.mem_cons_of_mem _ hmem), Option.map_map,
      List.length_cons, Nat.add_right_comm, Nat.add_assoc]
    congr 2
    funext raw
    simp

end Sections

end MiniCoder
