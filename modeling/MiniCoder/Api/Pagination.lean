import Mathlib.Algebra.Order.Floor.Ring
import Mathlib.Data.Prod.Lex
import Mathlib.Data.Rat.Floor
import Mathlib.Data.String.Basic
import MiniCoder.Library.Base64
import MiniCoder.Library.JsonTexts
import MiniCoder.Library.Keyset
import MiniCoder.Library.Table
import MiniCoder.Library.Utf8

/-!
# Cursor pagination

Every list of the API is read page by page, from the newest row to the oldest.  A page comes with the
cursor of the next one: the position of its last row, which a client gives back as it is.

* `decodeCursor_encodeCursor`: a cursor is the position it was made from.
* `follow_eq_walk`: a client that follows the cursors walks through the rows.
* `pagination_complete`: **what such a client gets**.
-/

open Storage LastWrite Keyset

namespace MiniCoder

/-! ### Limits -/

def defaultLimit : ℕ := 20

def maxLimit : ℕ := 100

/-- A number of the language; the finite ones are taken to be exact. -/
inductive JsNumber
  | nan
  | negInfinity
  | infinity
  | finite (x : ℚ)
  deriving DecidableEq

def resolveLimit : Option JsNumber → ℕ
  | none => defaultLimit
  | some .nan => defaultLimit
  | some .negInfinity => 1
  | some .infinity => maxLimit
  | some (.finite x) => (min (max 1 ⌊x⌋) maxLimit).toNat

theorem resolveLimit_pos (limit : Option JsNumber) : 0 < resolveLimit limit := by
  unfold resolveLimit defaultLimit maxLimit
  split <;> omega

/-! ### Cursors -/

structure CursorPosition where
  createdAt : String
  id : String
  deriving DecidableEq, Repr

/-- `{ c: createdAt, i: id }`. -/
def cursorValue (createdAt id : String) : Json.Value (Option Json.Numeral) :=
  .obj [(['c'], .str createdAt.toList), (['i'], .str id.toList)]

def encodeCursor (createdAt id : String) : String :=
  String.ofList (Base64.encode (Utf8.encode (Json.stringify (cursorValue createdAt id))))

/-- The property of an object, where it is a string. -/
def stringProperty (key : Json.Text) (entries : Json.Entries (Option Json.Numeral)) :
    Option String :=
  match entries.lookup key with
  | some (.str s) => some (String.ofList s)
  | _ => none

def decodeCursor (cursor : String) : Option CursorPosition :=
  match Json.parse (Utf8.decode (Base64.decode cursor.toList)) with
  | some (.obj entries) =>
    match stringProperty ['c'] entries, stringProperty ['i'] entries with
    | some createdAt, some id => some ⟨createdAt, id⟩
    | _, _ => none
  | _ => none

theorem reread_cursorValue (createdAt id : String) :
    (cursorValue createdAt id).reread = cursorValue createdAt id := by
  unfold cursorValue
  rw [Json.reread_obj]
  · rfl
  · simp [Json.InOrder, Json.Precedes, Json.isArrayIndex]

/-- **A cursor is the position it was made from.** -/
theorem decodeCursor_encodeCursor (createdAt id : String) :
    decodeCursor (encodeCursor createdAt id) = some ⟨createdAt, id⟩ := by
  unfold decodeCursor encodeCursor
  rw [String.toList_ofList, Base64.decode_encode, Utf8.decode_encode, Json.parse_stringify,
    reread_cursorValue]
  show some (CursorPosition.mk (String.ofList createdAt.toList) (String.ofList id.toList)) = _
  rw [String.ofList_toList, String.ofList_toList]

/-! ### Pages -/

/-- The values of a column that a cursor carries as text, which is read back as the value it was
written from. -/
class Column (κ : Type) [LinearOrder κ] where
  toText : κ → String
  ofText : String → κ
  ofText_toText : ∀ k, ofText (toText k) = k

instance : Column String where
  toText := id
  ofText := id
  ofText_toText _ := rfl

/-- A row of a list: the two columns that it is ordered by, and the others. -/
structure ListedRow (τ ι α : Type) where
  createdAt : τ
  id : ι
  columns : α

instance {τ ι α : Type} [LinearOrder ι] : Row (ListedRow τ ι α) := .ofKey (·.id)

structure ListParams where
  cursor : Option String := none
  limit : Option JsNumber := none

structure CursorPage (ρ : Type) where
  items : List ρ
  nextCursor : Option String

section List

variable {τ ι α : Type} [LinearOrder τ] [LinearOrder ι] [Column τ] [Column ι]

/-- The columns of the `ORDER BY` clause. -/
def ListedRow.position (row : ListedRow τ ι α) : τ ×ₗ ι := toLex (row.createdAt, row.id)

/-- `ORDER BY created_at DESC, id DESC`. -/
def newestFirst (rows : List (ListedRow τ ι α)) : List (ListedRow τ ι α) :=
  sortBy (fun row => OrderDual.toDual row.position) rows

/-- `created_at < ? OR (created_at = ? AND id < ?)`. -/
def isBehind (cursor : CursorPosition) (row : ListedRow τ ι α) : Bool :=
  decide (row.createdAt < Column.ofText cursor.createdAt) ||
    (decide (row.createdAt = Column.ofText cursor.createdAt) &&
      decide (row.id < Column.ofText cursor.id))

/-- A row that the `WHERE` clause of a list lets through; there may be none. -/
def isMatching (filter : Option (ListedRow τ ι α → Bool)) (row : ListedRow τ ι α) : Bool :=
  filter.all fun p => p row

def listByCreatedAt (table : Table (ListedRow τ ι α)) (filter : Option (ListedRow τ ι α → Bool))
    (listParams : ListParams) : CursorPage (ListedRow τ ι α) :=
  let limit := resolveLimit listParams.limit
  let cursor := listParams.cursor.bind fun text => if text = "" then none else decodeCursor text
  let rows := (newestFirst (table.select fun row =>
    isMatching filter row && cursor.all fun cursor => isBehind cursor row)).take (limit + 1)
  let hasMore := limit < rows.length
  let items := if hasMore then rows.take limit else rows
  { items
    nextCursor :=
      if hasMore then
        items.getLast?.map fun last =>
          encodeCursor (Column.toText last.createdAt) (Column.toText last.id)
      else none }

/-- A client that follows the cursors: every request has a limit of its own, and finds the table as it
is then. -/
def follow (filter : Option (ListedRow τ ι α → Bool)) :
    Option String → List (Table (ListedRow τ ι α) × Option JsNumber) →
      List (CursorPage (ListedRow τ ι α))
  | _, [] => []
  | cursor, (table, limit) :: requests =>
    listByCreatedAt table filter { cursor, limit } ::
      match (listByCreatedAt table filter { cursor, limit }).nextCursor with
      | none => []
      | some next => follow filter (some next) requests

/-- The last page has no cursor. -/
def EndOfList {ρ : Type} (pages : List (CursorPage ρ)) : Prop :=
  ∃ last, pages.getLast? = some last ∧ last.nextCursor = none

/-! ### Following the cursors -/

/-- Where a row stands in a list. -/
def ListedRow.place (row : ListedRow τ ι α) : (τ ×ₗ ι)ᵒᵈ := OrderDual.toDual row.position

/-- The cursor of a place. -/
def cursorAt (place : (τ ×ₗ ι)ᵒᵈ) : String :=
  encodeCursor (Column.toText (ofLex (OrderDual.ofDual place)).1)
    (Column.toText (ofLex (OrderDual.ofDual place)).2)

omit [LinearOrder τ] [Column τ] [Column ι] in
theorem distinct_place (table : Table (ListedRow τ ι α)) :
    Distinct ListedRow.place table.rows := by
  refine table.unique.imp fun {row row'} hclash hsame => ?_
  have hid : row.id = row'.id := congrArg (fun place => (ofLex (OrderDual.ofDual place)).2) hsame
  exact of_decide_eq_false hclash hid

theorem encodeCursor_ne (createdAt id : String) : encodeCursor createdAt id ≠ "" := by
  intro h
  have hnone : decodeCursor "" = none := by decide
  rw [← h, decodeCursor_encodeCursor] at hnone
  cases hnone

/-- The rows behind a cursor are those past its place. -/
theorem isBehind_cursorAt (place : (τ ×ₗ ι)ᵒᵈ) (row : ListedRow τ ι α) :
    isBehind ⟨Column.toText (ofLex (OrderDual.ofDual place)).1,
      Column.toText (ofLex (OrderDual.ofDual place)).2⟩ row =
        decide (Past (some place) row.place) := by
  have hlt : place < row.place ↔ row.createdAt < (ofLex (OrderDual.ofDual place)).1 ∨
      row.createdAt = (ofLex (OrderDual.ofDual place)).1 ∧
        row.id < (ofLex (OrderDual.ofDual place)).2 := by
    rw [← OrderDual.ofDual_lt_ofDual, ListedRow.place, OrderDual.ofDual_toDual, ListedRow.position,
      Prod.Lex.lt_iff]
    rfl
  rw [isBehind, Column.ofText_toText, Column.ofText_toText, Bool.eq_iff_iff, decide_eq_true_iff,
    past_some, hlt]
  simp

/-- A client's cursor is read back as the place that it was made from. -/
theorem cursor_bind (cursor : Option (τ ×ₗ ι)ᵒᵈ) :
    ((cursor.map cursorAt).bind fun text => if text = "" then none else decodeCursor text) =
      cursor.map fun place => ⟨Column.toText (ofLex (OrderDual.ofDual place)).1,
        Column.toText (ofLex (OrderDual.ofDual place)).2⟩ := by
  rcases cursor with _ | place
  · rfl
  · rw [Option.map_some, Option.bind_some, cursorAt, if_neg (encodeCursor_ne _ _),
      decodeCursor_encodeCursor, Option.map_some]

/-- The query takes the rows past the cursor, with one more than the page has. -/
theorem query_eq_batch (table : Table (ListedRow τ ι α))
    (filter : Option (ListedRow τ ι α → Bool)) (cursor : Option (τ ×ₗ ι)ᵒᵈ) (limit : ℕ) :
    (newestFirst (table.select fun row => isMatching filter row &&
        ((cursor.map cursorAt).bind fun text =>
          if text = "" then none else decodeCursor text).all fun cursor => isBehind cursor row)).take
        limit =
      batch ListedRow.place (isMatching filter) cursor limit table.rows := by
  have hwhere : ∀ row : ListedRow τ ι α,
      (((cursor.map cursorAt).bind fun text =>
        if text = "" then none else decodeCursor text).all fun cursor => isBehind cursor row) =
          decide (Past cursor row.place) := by
    intro row
    rw [cursor_bind]
    rcases cursor with _ | place
    · simp
    · exact isBehind_cursorAt place row
  simp only [hwhere]
  rfl

theorem listByCreatedAt_eq_page (table : Table (ListedRow τ ι α))
    (filter : Option (ListedRow τ ι α → Bool)) (cursor : Option (τ ×ₗ ι)ᵒᵈ)
    (limit : Option JsNumber) :
    (listByCreatedAt table filter ⟨cursor.map cursorAt, limit⟩).items =
        (page ListedRow.place (isMatching filter) cursor (resolveLimit limit) table.rows).1 ∧
      (listByCreatedAt table filter ⟨cursor.map cursorAt, limit⟩).nextCursor =
        (page ListedRow.place (isMatching filter) cursor (resolveLimit limit) table.rows).2.map
          cursorAt := by
  unfold listByCreatedAt
  simp only [query_eq_batch]
  have htake : (batch ListedRow.place (isMatching filter) cursor (resolveLimit limit + 1)
      table.rows).take (resolveLimit limit) =
        batch ListedRow.place (isMatching filter) cursor (resolveLimit limit) table.rows := by
    rw [batch, batch, List.take_take, Nat.min_eq_left (Nat.le_succ _)]
  unfold page
  by_cases hmore : resolveLimit limit < (batch ListedRow.place (isMatching filter) cursor
      (resolveLimit limit + 1) table.rows).length
  · simp only [if_pos hmore, htake, Option.map_map]
    exact ⟨trivial, rfl⟩
  · simp only [if_neg hmore, Option.map_none]
    rw [← htake, List.take_of_length_le (Nat.le_of_not_lt hmore)]
    exact ⟨rfl, trivial⟩

/-- The page that a client sees. -/
def shown (page : List (ListedRow τ ι α) × Option (τ ×ₗ ι)ᵒᵈ) : CursorPage (ListedRow τ ι α) where
  items := page.1
  nextCursor := page.2.map cursorAt

/-- **A client that follows the cursors** walks through the rows. -/
theorem follow_eq_walk (filter : Option (ListedRow τ ι α → Bool)) (cursor : Option (τ ×ₗ ι)ᵒᵈ)
    (requests : List (Table (ListedRow τ ι α) × Option JsNumber)) :
    follow filter (cursor.map cursorAt) requests =
      (walk ListedRow.place (isMatching filter) cursor
        (requests.map fun request => (request.1.rows, resolveLimit request.2))).map shown := by
  induction requests generalizing cursor with
  | nil => rfl
  | cons request requests ih =>
    obtain ⟨table, limit⟩ := request
    obtain ⟨hitems, hnext⟩ := listByCreatedAt_eq_page table filter cursor limit
    have hpage : listByCreatedAt table filter ⟨cursor.map cursorAt, limit⟩ =
        shown (page ListedRow.place (isMatching filter) cursor (resolveLimit limit) table.rows) := by
      rw [shown, ← hitems, ← hnext]
    rw [follow, List.map_cons, walk, List.map_cons, hpage]
    congr 1
    rcases hplace : (page ListedRow.place (isMatching filter) cursor (resolveLimit limit)
      table.rows).2 with _ | place
    · simp [shown, hplace]
    · simp only [shown, hplace, Option.map_some]
      exact ih (some place)

/-! ### What a client gets -/

theorem flatMap_items_shown (pages : List (List (ListedRow τ ι α) × Option (τ ×ₗ ι)ᵒᵈ)) :
    (pages.map shown).flatMap CursorPage.items = pages.flatMap Prod.fst := by
  rw [List.flatMap_map]
  rfl

theorem endOfList_shown (pages : List (List (ListedRow τ ι α) × Option (τ ×ₗ ι)ᵒᵈ)) :
    EndOfList (pages.map shown) ↔ Finished pages := by
  unfold EndOfList Finished
  rw [List.getLast?_map]
  constructor
  · rintro ⟨last, hlast, hnone⟩
    obtain ⟨page, hpage, rfl⟩ := Option.map_eq_some_iff.mp hlast
    exact ⟨page, hpage, Option.map_eq_none_iff.mp hnone⟩
  · rintro ⟨page, hpage, hnone⟩
    refine ⟨shown page, by rw [hpage, Option.map_some], ?_⟩
    rw [shown, hnone, Option.map_none]

omit [Column τ] [Column ι] in
/-- The rows of a list, as the library has them. -/
theorem left_none (filter : Option (ListedRow τ ι α → Bool)) (table : Table (ListedRow τ ι α)) :
    left ListedRow.place (isMatching filter) none table.rows =
      newestFirst (table.select (isMatching filter)) := by
  simp only [left, past_none, decide_true, Bool.and_true]
  rfl

/-- A table that does not change: a client gets the rows that match, once and in order. -/
theorem follow_one_table (filter : Option (ListedRow τ ι α → Bool))
    (table : Table (ListedRow τ ι α)) {limits : List (Option JsNumber)}
    (henough : table.count (isMatching filter) < limits.length) :
    EndOfList (follow filter none (limits.map fun limit => (table, limit))) ∧
      (follow filter none (limits.map fun limit => (table, limit))).flatMap CursorPage.items =
        newestFirst (table.select (isMatching filter)) ∧
      (follow filter none (limits.map fun limit => (table, limit))).length ≤
        max 1 (table.count (isMatching filter)) ∧
      ∀ page ∈ follow filter none (limits.map fun limit => (table, limit)),
        page.items = [] → table.count (isMatching filter) = 0 := by
  have hcount : (left ListedRow.place (isMatching filter) none table.rows).length =
      table.count (isMatching filter) := by
    rw [left_none, newestFirst, (sortBy_perm _ _).length_eq, Table.count, Table.select,
      List.countP_eq_length_filter]
  have hrequests : (limits.map fun limit => (table, limit)).map
      (fun request => (request.1.rows, resolveLimit request.2)) =
        (limits.map resolveLimit).map fun limit => (table.rows, limit) := by
    rw [List.map_map, List.map_map]
    rfl
  have hfollow := follow_eq_walk filter none (limits.map fun limit => (table, limit))
  rw [Option.map_none, hrequests] at hfollow
  obtain ⟨hfinished, hitems, hpages, hempty⟩ :=
    @walk_eq_left _ _ _ ListedRow.place (isMatching filter) none table.rows (distinct_place table)
      (limits.map resolveLimit)
      (fun limit hlimit => by
        obtain ⟨limit', -, rfl⟩ := List.mem_map.mp hlimit
        exact resolveLimit_pos limit')
      (by rw [hcount, List.length_map]; exact henough)
  rw [hfollow, endOfList_shown, flatMap_items_shown, List.length_map, ← left_none]
  refine ⟨hfinished, hitems, by rw [← hcount]; exact hpages, ?_⟩
  intro page hpage hnil
  obtain ⟨walked, hwalked, rfl⟩ := List.mem_map.mp hpage
  rw [← hcount, hempty walked hwalked hnil, List.length_nil]

/-- A table that changes: a client gets no row twice, and every row that is there all the time. -/
theorem follow_tables (filter : Option (ListedRow τ ι α → Bool))
    (requests : List (Table (ListedRow τ ι α) × Option JsNumber)) :
    ((follow filter none requests).flatMap CursorPage.items).Pairwise
        (fun row row' => row'.position < row.position) ∧
      (EndOfList (follow filter none requests) → ∀ position : τ ×ₗ ι,
        (∀ request ∈ requests, ∃ row ∈ request.1.rows,
          isMatching filter row = true ∧ row.position = position) →
        ∃ row ∈ (follow filter none requests).flatMap CursorPage.items,
          row.position = position) := by
  have hdistinct : ∀ request ∈ requests.map fun request => (request.1.rows, resolveLimit request.2),
      Distinct ListedRow.place request.1 ∧ 0 < request.2 := by
    intro request hrequest
    obtain ⟨⟨table, limit⟩, -, rfl⟩ := List.mem_map.mp hrequest
    exact ⟨distinct_place table, resolveLimit_pos limit⟩
  have hfollow := follow_eq_walk filter none requests
  rw [Option.map_none] at hfollow
  rw [hfollow, endOfList_shown, flatMap_items_shown]
  refine ⟨(walk_pairwise fun request hrequest => (hdistinct request hrequest).1).1, ?_⟩
  intro hfinished position hthere
  obtain ⟨row, hrow, hplace⟩ := walk_has hdistinct hfinished (past_none (OrderDual.toDual position)) (by
    intro request hrequest
    obtain ⟨⟨table, limit⟩, hmem, rfl⟩ := List.mem_map.mp hrequest
    obtain ⟨row, hrow, hmatching, hposition⟩ := hthere _ hmem
    exact ⟨row, hrow, hmatching, congrArg OrderDual.toDual hposition⟩)
  exact ⟨row, hrow, OrderDual.toDual_inj.mp hplace⟩

end List

end MiniCoder
