import Mathlib.Data.List.Sort
import MiniCoder.Domain.Text
import MiniCoder.Persistence.Client

/-!
# The sections of a design document

The generator that makes thirteen sections of an adapter's output, the writer that stores them, and the
renderer of the exported Markdown.

* `normalize_complete`: an output with every section needs no revision, and keeps its contents.
* `upsertSection_some`: what the write of one section does to the table.
-/

open Storage Storage.Action

namespace MiniCoder

/-! ### The generator -/

/-- `DESIGN_DOCUMENT_SECTION_NAMES`. -/
def designDocumentSectionNames : List String := [
  "Purpose and Scope",
  "Goals and Constraints",
  "System Context",
  "Architecture Overview",
  "Component Design",
  "Data Design",
  "API and Interface Design",
  "Workflows and Runtime Behavior",
  "Deployment and Infrastructure",
  "Observability and Operations",
  "Testing Strategy",
  "Design Decisions",
  "Glossary"]

/-- `.+\)` up to the end of the text. -/
def closesMarker (rest : List Char) : Bool :=
  rest.getLast? == some ')' && !rest.dropLast.isEmpty && rest.dropLast.all (!isLineTerminator ·)

/-- `isPlaceholderSectionContent`: the trimmed content matches
`/^\(no content (generated|drafted) for .+\)$/`. -/
def isPlaceholderSectionContent (content : String) : Bool :=
  ["(no content generated for ", "(no content drafted for "].any fun marker =>
    marker.toList.isPrefixOf (trim content).toList &&
      closesMarker ((trim content).toList.drop marker.length)

/-- `!content || content.trim().length === 0`. -/
def isBlank (content : String) : Bool := content.toList.all isWhiteSpace

/-- A section of an adapter's output. -/
structure SectionContent where
  sectionName : String
  content : String
  deriving DecidableEq, Repr

/-- `DocumentationOutput`, less the tokens it used. -/
structure DocumentationOutput where
  documentId : String
  sections : List SectionContent
  requiresRevision : Bool := false
  deriving DecidableEq, Repr

/-- `bySectionName.get(sectionName)`: a later section replaces an earlier one of its name. -/
def sectionNamed (sections : List SectionContent) (sectionName : String) : Option String :=
  (sections.reverse.find? fun s => s.sectionName == sectionName).map SectionContent.content

/-- `GenerateDesignDocumentSectionsResult`. -/
structure GeneratedSections where
  documentId : String
  sections : List SectionContent
  requiresRevision : Bool
  deriving DecidableEq, Repr

/-- The section of a name, or its placeholder. -/
def filledSection (output : DocumentationOutput) (sectionName : String) : SectionContent where
  sectionName
  content :=
    match (sectionNamed output.sections sectionName).filter fun content => !isBlank content with
    | some content => content
    | none => s!"(no content generated for {sectionName})"

/-- `normalizeDocumentationOutput`. -/
def normalizeDocumentationOutput (output : DocumentationOutput) : GeneratedSections where
  documentId := output.documentId
  sections := designDocumentSectionNames.map (filledSection output)
  requiresRevision := output.requiresRevision ||
    designDocumentSectionNames.any fun sectionName =>
      ((sectionNamed output.sections sectionName).filter fun content => !isBlank content).isNone

/-- An output of an adapter that returns every section: none is missing, blank or a placeholder. -/
structure DocumentationOutput.Complete (output : DocumentationOutput) : Prop where
  noRevision : output.requiresRevision = false
  sections : ∀ sectionName ∈ designDocumentSectionNames, ∃ content,
    sectionNamed output.sections sectionName = some content ∧ isBlank content = false ∧
      isPlaceholderSectionContent content = false

/-- **A complete output needs no revision**, and its contents are kept. -/
theorem normalize_complete {output : DocumentationOutput} (h : output.Complete) :
    (normalizeDocumentationOutput output).requiresRevision = false ∧
      ∀ section' ∈ (normalizeDocumentationOutput output).sections,
        isBlank section'.content = false ∧ isPlaceholderSectionContent section'.content = false := by
  constructor
  · rw [normalizeDocumentationOutput, h.noRevision, Bool.false_or, List.any_eq_false]
    intro sectionName hname
    obtain ⟨content, hcontent, hblank, -⟩ := h.sections sectionName hname
    rw [hcontent, Option.filter_some, hblank]
    simp
  · intro section' hmem
    obtain ⟨sectionName, hname, rfl⟩ := List.mem_map.mp hmem
    obtain ⟨content, hcontent, hblank, hplaceholder⟩ := h.sections sectionName hname
    have hfilled : (filledSection output sectionName).content = content := by
      rw [filledSection, hcontent, Option.filter_some, hblank]
      rfl
    rw [hfilled]
    exact ⟨hblank, hplaceholder⟩

/-! ### The rows of a document -/

/-- A row as the export reads it. -/
structure SectionRow where
  sectionName : String
  content : Option String
  orderIndex : ℕ
  deriving DecidableEq, Repr

/-- `SELECT section_name, content, order_index FROM design_document_sections WHERE
design_document_id = ? ORDER BY order_index ASC`. -/
def DesignTables.sectionRows (t : DesignTables) (designDocumentId : String) : List SectionRow :=
  ((t.sections.select fun s => s.designDocumentId == designDocumentId).map fun s =>
    { sectionName := s.sectionName, content := s.content, orderIndex := s.orderIndex }).insertionSort
      fun r r' => r.orderIndex ≤ r'.orderIndex

/-- The sections that an export misses: absent, blank, or still a placeholder. -/
def missingOrBlank (rows : List SectionRow) : List String :=
  designDocumentSectionNames.filter fun name =>
    match (rows.find? fun r => r.sectionName == name).bind SectionRow.content with
    | none => true
    | some content => isBlank content || isPlaceholderSectionContent content

/-! ### The writer -/

/-- `design_document_id = ? AND section_name = ?`. -/
def DesignDocumentSection.isSection (designDocumentId sectionName : String)
    (s : DesignDocumentSection) : Bool :=
  s.designDocumentId == designDocumentId && s.sectionName == sectionName

/-- `SET content = excluded.content, order_index = excluded.order_index, version = version + 1`. -/
def DesignDocumentSection.overwritten (row s : DesignDocumentSection) : DesignDocumentSection :=
  { s with content := row.content, orderIndex := row.orderIndex, version := s.version + 1 }

theorem DesignDocumentSection.overwritten_keys (row : DesignDocumentSection) :
    KeyFree row.overwritten := fun _ _ => rfl

/-- The `design_document_sections` table. -/
def sectionTable : TableOf Db DesignDocumentSection where
  get db := db.design.sections
  put db t := { db with design := { db.design with sections := t } }
  get_put _ _ := rfl

/-- `INSERT … ON CONFLICT (design_document_id, section_name) DO UPDATE`: a taken id of another section
is an error. -/
def Db.upsertSection (db : Db) (row : DesignDocumentSection) : Option (Unit × Db) :=
  if (db.design.sections.find? fun s => s.id == row.id &&
      !s.isSection row.designDocumentId row.sectionName).isSome then none
  else if db.design.sections.count
      (DesignDocumentSection.isSection row.designDocumentId row.sectionName) = 0 then
    (db.design.sections.insert? row).map fun t => ((), sectionTable.put db t)
  else some ((), sectionTable.put db (db.design.sections.update
    (DesignDocumentSection.isSection row.designDocumentId row.sectionName) row.overwritten
    row.overwritten_keys))

/-- The row of the section at an index. -/
def sectionRow (designDocumentId : String) (index : ℕ) (s : SectionContent) :
    DesignDocumentSection where
  id := s!"design-doc-section:{designDocumentId}:{index}"
  designDocumentId
  sectionName := s.sectionName
  content := some s.content
  orderIndex := index

/-- One turn of the loop of `writeDesignDocumentSections`. -/
def writeDesignDocumentSection (designDocumentId : String) (index : ℕ) (s : SectionContent) :
    Sql Unit :=
  execute fun db => db.upsertSection (sectionRow designDocumentId index s)

/-- What the write of one section does: it is inserted, or the row of its name takes its content. -/
theorem upsertSection_some {db db' : Db} {row : DesignDocumentSection}
    (h : db.upsertSection row = some ((), db')) :
    ∃ t, db' = sectionTable.put db t ∧
      ((∀ s ∈ db.design.sections.rows,
            s.isSection row.designDocumentId row.sectionName = false) ∧
          t.rows = db.design.sections.rows ++ [row] ∨
        (∃ s ∈ db.design.sections.rows, s.isSection row.designDocumentId row.sectionName = true) ∧
          t = db.design.sections.update
            (DesignDocumentSection.isSection row.designDocumentId row.sectionName) row.overwritten
            row.overwritten_keys) := by
  unfold Db.upsertSection at h
  split at h
  · cases h
  split at h
  · rename_i hcount
    obtain ⟨t, ht, hput⟩ := Option.map_eq_some_iff.mp h
    exact ⟨t, (Prod.mk.inj hput).2.symm, Or.inl ⟨Table.count_eq_zero.mp hcount,
      Table.rows_insert? ht⟩⟩
  · rename_i hcount
    exact ⟨_, (Prod.mk.inj (Option.some.inj h)).2.symm, Or.inr ⟨Table.count_pos hcount, rfl⟩⟩

/-! ### The renderer -/

/-- `escapeTableCell`. -/
def escapeTableCell (value : String) : String :=
  String.ofList (go value.toList)
where
  go : List Char → List Char
    | [] => []
    | '\r' :: '\n' :: rest => ' ' :: go rest
    | c :: rest =>
      if c = '|' then '\\' :: '|' :: go rest
      else if c = '\r' ∨ c = '\n' then ' ' :: go rest
      else c :: go rest

/-- The rows of the two tables that follow their sections. -/
def decisionLines (designDecisions : List DesignDecision) : List String :=
  if designDecisions = [] then []
  else ["| Title | Status | Decision |", "| --- | --- | --- |"] ++
    (designDecisions.map fun d =>
      s!"| {escapeTableCell d.title} | {escapeTableCell d.status} | {escapeTableCell d.decision} |") ++
    [""]

def glossaryLines (glossaryTerms : List GlossaryTerm) : List String :=
  if glossaryTerms = [] then []
  else ["| Term | Definition |", "| --- | --- |"] ++
    (glossaryTerms.map fun g => s!"| {escapeTableCell g.term} | {escapeTableCell g.definition} |") ++
    [""]

/-- `renderDesignDocumentMarkdown`. -/
def renderDesignDocumentMarkdown (projectName : String) (sections : List SectionRow)
    (designDecisions : List DesignDecision) (glossaryTerms : List GlossaryTerm) : String :=
  "\n".intercalate ([s!"# Final Design Document: {projectName}", ""] ++
    designDocumentSectionNames.flatMap fun sectionName =>
      [s!"## {sectionName}", "",
        (((sections.reverse.find? fun s => s.sectionName == sectionName).bind
          SectionRow.content).getD "(no content)"), ""] ++
      (if sectionName = "Design Decisions" then decisionLines designDecisions else []) ++
      (if sectionName = "Glossary" then glossaryLines glossaryTerms else []))

end MiniCoder
