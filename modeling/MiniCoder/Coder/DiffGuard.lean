import Mathlib.Algebra.GroupWithZero.Nat
import Mathlib.Data.List.Basic
import MiniCoder.Domain.Text
import MiniCoder.Library.Paths

/-!
# The diff guard

What a generated change may touch: `validateRelativePath` normalizes a path or refuses it, and
`assertDiffWithinBounds` bounds the files and the bytes of a change.  A disallowed-path pattern is a
test of a normalized path; the regular expressions of the default list are written out as tests.

* `validateRelativePath_eq_some`: which paths are validated, and what a validated path is.
* `validates_iff`: a validated path is safe to use, and every safe path is validated, unless the
  normalization brings the letter of a drive to the front of the path.
-/

open Paths Paths.Move

namespace MiniCoder

/-- `GeneratedFile`. -/
structure GeneratedFile where
  path : String
  content : String
  deriving DecidableEq, Repr

/-- `ChangedFile`. -/
structure ChangedFile where
  path : String
  bytesChanged : ℕ
  deriving DecidableEq, Repr

/-- The tails of a path after each of its slashes. -/
def tailsAfterSlash : List Char → List (List Char)
  | [] => []
  | c :: l => if c = '/' then l :: tailsAfterSlash l else tailsAfterSlash l

/-- The tails of a path that start at one of its segments: where `(^|\/)` matches. -/
def segmentTails (path : List Char) : List (List Char) := path :: tailsAfterSlash path

/-- `\.env(\..+)?$`, at a segment. -/
def isEnvTail (tail : List Char) : Bool :=
  tail = ".env".toList ||
    (".env.".toList.isPrefixOf tail && tail.length > 5 && !(tail.drop 5).any isLineTerminator)

/-- `DEFAULT_DISALLOWED_PATH_GLOBS`. -/
def defaultDisallowedPathPatterns : List (String → Bool) := [
  fun path => ".github/workflows/".toList.isPrefixOf path.toList,
  fun path => ".git/".toList.isPrefixOf path.toList,
  fun path => (segmentTails path.toList).any isEnvTail,
  fun path => (segmentTails path.toList).any ("secrets/".toList.isPrefixOf ·)]

/-- `DiffGuardOptions`, with the defaults. -/
structure DiffGuardOptions where
  maxFiles : ℕ := 50
  maxBytes : ℕ := 500000
  disallowedPathPatterns : List (String → Bool) := defaultDisallowedPathPatterns

/-- `path.split(/[\\/]+/)`, but for empty segments, which the normalization drops. -/
def pathSegments : List Char → List (List Char)
  | [] => [[]]
  | c :: l =>
    if c = '/' ∨ c = '\\' then [] :: pathSegments l
    else match pathSegments l with
      | [] => [[c]]
      | segment :: rest => (c :: segment) :: rest

/-- Resolves `.` and `..`, on the stack of the segments so far: `none` for a path out of the root. -/
def normalizeSegments : List (List Char) → List (List Char) → Option (List (List Char))
  | stack, [] => some stack.reverse
  | stack, segment :: rest =>
    if segment = [] ∨ segment = ['.'] then normalizeSegments stack rest
    else if segment = ['.', '.'] then
      match stack with
      | [] => none
      | _ :: stack => normalizeSegments stack rest
    else normalizeSegments (segment :: stack) rest

/-- A POSIX path from the root, or a path on a Windows drive. -/
def isAbsolute : List Char → Bool
  | '/' :: _ => true
  | drive :: ':' :: c :: _ => drive.isAlpha && (c = '\\' || c = '/')
  | _ => false

/-- `validateRelativePath`. -/
def validateRelativePath (path : String)
    (disallowedPathPatterns : List (String → Bool) := defaultDisallowedPathPatterns) :
    Option String :=
  let chars := path.toList
  if chars = [] ∨ isAbsolute chars ∨ '\x00' ∈ chars then none
  else match normalizeSegments [] (pathSegments chars) with
    | none | some [] => none
    | some segments =>
      let normalizedPath := String.ofList (['/'].intercalate segments)
      if disallowedPathPatterns.any (· normalizedPath) then none else some normalizedPath

/-- `assertDiffWithinBounds`: the message of the violation. -/
def assertDiffWithinBounds (changedFiles : List ChangedFile) (options : DiffGuardOptions) :
    Except String Unit :=
  let totalBytes := (changedFiles.map (·.bytesChanged)).sum
  if changedFiles = [] then .error "coder run produced no file changes"
  else if changedFiles.length > options.maxFiles then
    .error (s!"diff touches {changedFiles.length} files, exceeding the max of " ++
      s!"{options.maxFiles}")
  else if totalBytes > options.maxBytes then
    .error s!"diff changes {totalBytes} bytes, exceeding the max of {options.maxBytes}"
  else match changedFiles.find? fun file => options.disallowedPathPatterns.any (· file.path) with
    | some file => .error s!"diff touches a disallowed path: {file.path}"
    | none => .ok ()

/-! ### What a path names -/

def isSeparator (c : Char) : Bool := c = '/' || c = '\\'

/-- What a segment of a path does. -/
def moveOf (segment : List Char) : Move (List Char) :=
  if segment = [] ∨ segment = ['.'] then stay
  else if segment = ['.', '.'] then up
  else down segment

/-- A path, as the moves of its segments. -/
def moves (path : String) : List (Move (List Char)) :=
  (path.toList.splitOnP isSeparator).map moveOf

/-- The location that a path names, from the root of the repository. -/
def location (path : String) : List (List Char) := follow [] (moves path)

/-- The path of a location. -/
def render (names : List (List Char)) : String := String.ofList (['/'].intercalate names)

/-- A segment that goes down to a name. -/
def IsName (segment : List Char) : Prop :=
  moveOf segment = down segment ∧ ∀ c ∈ segment, isSeparator c = false

theorem moveOf_eq_down {segment name : List Char} (h : moveOf segment = down name) :
    segment = name := by
  unfold moveOf at h
  split_ifs at h
  exact Move.down.inj h

theorem isName_ne_nil {name : List Char} (h : IsName name) : name ≠ [] := by
  rintro rfl
  have hstay : moveOf [] = stay := rfl
  rw [IsName, hstay] at h
  cases h.1

theorem pathSegments_eq (path : List Char) : pathSegments path = path.splitOnP isSeparator := by
  induction path with
  | nil => rfl
  | cons c path ih =>
    unfold pathSegments
    rw [List.splitOnP_cons_eq_if_modifyHead, ← ih]
    by_cases hc : c = '/' ∨ c = '\\'
    · have hseparator : isSeparator c = true := by simpa [isSeparator] using hc
      rw [if_pos hc, if_pos hseparator]
    · have hseparator : ¬isSeparator c = true := by simpa [isSeparator] using hc
      rw [if_neg hc, if_neg hseparator]
      rcases hsplit : pathSegments path with _ | ⟨first, rest⟩
      · rw [ih] at hsplit
        exact absurd hsplit (List.splitOnP_ne_nil _ _)
      · rfl

/-- **The normalization** follows the path, and refuses one that climbs above the root. -/
theorem normalizeSegments_eq_some {stack : List (List Char)} {segments names : List (List Char)} :
    normalizeSegments stack segments = some names ↔
      Stays stack.length (segments.map moveOf) ∧
        names = follow stack.reverse (segments.map moveOf) := by
  induction segments generalizing stack with
  | nil =>
    have hstays : Stays stack.length ([] : List (Move (List Char))) := stays_nil
    simp [normalizeSegments, hstays, eq_comm]
  | cons segment segments ih =>
    unfold normalizeSegments
    rw [List.map_cons]
    by_cases hstay : segment = [] ∨ segment = ['.']
    · have hmove : moveOf segment = stay := if_pos hstay
      rw [if_pos hstay, hmove, stays_cons_stay, follow_cons]
      exact ih
    · by_cases hup : segment = ['.', '.']
      · have hmove : moveOf segment = up := by rw [moveOf, if_neg hstay, if_pos hup]
        rw [if_neg hstay, if_pos hup, hmove, follow_cons]
        cases stack with
        | nil =>
          have hclimbs : ¬Stays 0 (up :: segments.map moveOf) := not_stays_up
          simp [hclimbs]
        | cons name stack =>
          rw [List.length_cons, stays_cons_up]
          have hdropped : apply (name :: stack).reverse up = stack.reverse := by
            rw [List.reverse_cons, apply, List.dropLast_concat]
          rw [hdropped]
          exact ih
      · have hmove : moveOf segment = down segment := by rw [moveOf, if_neg hstay, if_neg hup]
        rw [if_neg hstay, if_neg hup, hmove, stays_cons_down, follow_cons, ih, List.reverse_cons,
          List.length_cons]
        rfl

/-- The names on the way to a location are segments of the path. -/
theorem of_mem_location {path : String} {name : List Char} (h : name ∈ location path) :
    IsName name ∧ ∀ c ∈ name, c ∈ path.toList := by
  refine forall_follow (p := fun name => IsName name ∧ ∀ c ∈ name, c ∈ path.toList)
    (fun _ hname => absurd hname List.not_mem_nil) (fun name hdown => ?_) name h
  obtain ⟨segment, hsegment, hmove⟩ := List.mem_map.mp hdown
  obtain rfl := moveOf_eq_down hmove
  have hchars := of_mem_splitOnP hsegment
  exact ⟨⟨hmove, fun c hc => (hchars c hc).2⟩, fun c hc => (hchars c hc).1⟩

/-- The path of a location goes down its names. -/
theorem moves_render {names : List (List Char)} (hnames : ∀ name ∈ names, IsName name)
    (hne : names ≠ []) : moves (render names) = names.map down := by
  unfold moves render
  rw [String.toList_ofList, splitOnP_intercalate (by decide) (fun name hname => (hnames name hname).2)
    hne]
  exact List.map_congr_left fun name hname => (hnames name hname).1

theorem location_render {names : List (List Char)} (hnames : ∀ name ∈ names, IsName name)
    (hne : names ≠ []) : location (render names) = names := by
  unfold location
  rw [moves_render hnames hne, follow_downs, List.nil_append]

/-! ### What is validated -/

variable {path safePath : String} {patterns : List (String → Bool)}

/-- A relative path that the guard has no reason to refuse. -/
structure Admissible (patterns : List (String → Bool)) (path : String) : Prop where
  nonempty : path ≠ ""
  relative : isAbsolute path.toList = false
  noNul : '\x00' ∉ path.toList
  stays : Stays 0 (moves path)
  notRoot : location path ≠ []
  allowed : ∀ pattern ∈ patterns, pattern (render (location path)) = false

/-- **The paths that are validated**: the admissible ones, as the path of their location. -/
theorem validateRelativePath_eq_some :
    validateRelativePath path patterns = some safePath ↔
      Admissible patterns path ∧ safePath = render (location path) := by
  unfold validateRelativePath
  dsimp only
  rw [pathSegments_eq]
  have hnormal := @normalizeSegments_eq_some [] (path.toList.splitOnP isSeparator)
  by_cases hraw : path.toList = [] ∨ isAbsolute path.toList ∨ '\x00' ∈ path.toList
  · rw [if_pos hraw]
    refine iff_of_false (by simp) fun hpath => ?_
    rcases hraw with hempty | habsolute | hnul
    · exact hpath.1.nonempty (String.toList_eq_nil_iff.mp hempty)
    · rw [hpath.1.relative] at habsolute
      cases habsolute
    · exact hpath.1.noNul hnul
  · rw [if_neg hraw]
    obtain ⟨hempty, habsolute, hnul⟩ := by simpa only [not_or] using hraw
    rcases hresolved : normalizeSegments [] (path.toList.splitOnP isSeparator) with _ | names
    · refine iff_of_false (by simp) fun hpath => ?_
      have hsome := hnormal.mpr ⟨hpath.1.stays, rfl⟩
      rw [hresolved] at hsome
      cases hsome
    · obtain ⟨hstays, hnames⟩ := hnormal.mp hresolved
      have hlocation : names = location path := hnames
      rcases names with _ | ⟨name, names⟩
      · exact iff_of_false (by simp) fun hpath => hpath.1.notRoot hlocation.symm
      · show (if patterns.any (· (render (name :: names))) then none
          else some (render (name :: names))) = some safePath ↔ _
        rw [hlocation]
        by_cases hallowed : patterns.any (· (render (location path))) = true
        · rw [if_pos hallowed]
          refine iff_of_false (by simp) fun hpath => ?_
          obtain ⟨pattern, hpattern, hmatch⟩ := List.any_eq_true.mp hallowed
          rw [hpath.1.allowed pattern hpattern] at hmatch
          cases hmatch
        · rw [if_neg hallowed, Option.some.injEq, eq_comm, iff_and_self]
          intro _
          exact {
            nonempty := fun h => hempty (String.toList_eq_nil_iff.mpr h)
            relative := Bool.eq_false_iff.mpr habsolute
            noNul := hnul
            stays := hstays
            notRoot := by
              rw [← hlocation]
              exact List.cons_ne_nil _ _
            allowed := by
              intro pattern hpattern
              exact Bool.eq_false_iff.mpr fun hmatch =>
                hallowed (List.any_eq_true.mpr ⟨pattern, hpattern, hmatch⟩) }

/-- A validated path matches no disallowed pattern. -/
theorem validateRelativePath_allowed (h : validateRelativePath path patterns = some safePath) :
    patterns.any (· safePath) = false := by
  obtain ⟨hpath, rfl⟩ := validateRelativePath_eq_some.mp h
  refine Bool.eq_false_iff.mpr fun hmatch => ?_
  obtain ⟨pattern, hpattern, hmatch⟩ := List.any_eq_true.mp hmatch
  rw [hpath.allowed pattern hpattern] at hmatch
  cases hmatch

/-- A validated path names the location of the path. -/
theorem location_validated (h : validateRelativePath path patterns = some safePath) :
    location safePath = location path := by
  obtain ⟨hpath, rfl⟩ := validateRelativePath_eq_some.mp h
  exact location_render (fun name hname => (of_mem_location hname).1) hpath.notRoot

example : validateRelativePath "src/./a/../b.ts" = some "src/b.ts" := by decide +kernel

example : validateRelativePath "docs/.env.local" = none := by decide +kernel

/-! ### What a validated path is -/

/-- A location below the letter of a Windows drive. -/
def OnDrive (names : List (List Char)) : Prop :=
  ∃ drive name rest, drive.isAlpha = true ∧ names = [drive, ':'] :: name :: rest

theorem isAbsolute_iff {path : List Char} : isAbsolute path = true ↔
    (∃ rest, path = '/' :: rest) ∨
      ∃ drive c rest, drive.isAlpha = true ∧ isSeparator c = true ∧
        path = drive :: ':' :: c :: rest := by
  constructor
  · intro h
    unfold isAbsolute at h
    split at h
    · exact Or.inl ⟨_, rfl⟩
    · obtain ⟨halpha, hc⟩ := Bool.and_eq_true_iff.mp h
      exact Or.inr ⟨_, _, _, halpha, (Bool.or_comm _ _).trans hc, rfl⟩
    · cases h
  · rintro (⟨rest, rfl⟩ | ⟨drive, c, rest, halpha, hc, rfl⟩)
    · rfl
    · have hslash : drive ≠ '/' := by
        rintro rfl
        cases halpha
      have hc' : (c = '\\' || c = '/') = true := (Bool.or_comm _ _).trans hc
      unfold isAbsolute
      split
      · rfl
      · rename_i h
        injection h with hdrive h
        injection h with hcolon h
        injection h with hcc h
        rw [← hdrive, ← hcc, halpha, hc']
        rfl
      · rename_i hno
        exact absurd rfl (hno _ _ _)

/-- The path of a location is absolute when the location is on a drive, and else never. -/
theorem isAbsolute_render {names : List (List Char)} (hnames : ∀ name ∈ names, IsName name) :
    isAbsolute (render names).toList = true ↔ OnDrive names := by
  unfold render
  rw [String.toList_ofList]
  rcases names with _ | ⟨first, rest⟩
  · simp [isAbsolute, OnDrive]
  · have hfirst := (hnames first List.mem_cons_self).2
    have hne := isName_ne_nil (hnames first List.mem_cons_self)
    rw [isAbsolute_iff]
    constructor
    · intro habsolute
      -- the path begins with its first name, and a slash can only follow it
      obtain ⟨more, htext, hmore⟩ : ∃ more, ['/'].intercalate (first :: rest) = first ++ more ∧
          ((rest = [] ∧ more = []) ∨ rest ≠ [] ∧ more.head? = some '/') := by
        rcases rest with _ | ⟨second, rest⟩
        · exact ⟨[], by simp, Or.inl ⟨rfl, rfl⟩⟩
        · exact ⟨_, by rw [List.intercalate_cons_cons, List.append_assoc],
            Or.inr ⟨List.cons_ne_nil _ _, rfl⟩⟩
      rw [htext] at habsolute
      obtain ⟨a, first, rfl⟩ := List.exists_cons_of_ne_nil hne
      rcases habsolute with ⟨tail, htail⟩ | ⟨drive, c, tail, halpha, hc, htail⟩
      · have ha : a = '/' := (List.cons.inj htail).1
        have hname := hfirst a List.mem_cons_self
        rw [ha] at hname
        cases hname
      · rw [List.cons_append] at htail
        obtain ⟨rfl, htail₁⟩ := List.cons.inj htail
        rcases first with _ | ⟨b, first⟩
        · rw [List.nil_append] at htail₁
          rw [htail₁] at hmore
          simp at hmore
        · rw [List.cons_append] at htail₁
          obtain ⟨rfl, htail₂⟩ := List.cons.inj htail₁
          rcases first with _ | ⟨c', first⟩
          · rcases rest with _ | ⟨second, rest⟩
            · rw [List.nil_append] at htail₂
              rw [htail₂] at hmore
              simp at hmore
            · exact ⟨a, second, rest, halpha, rfl⟩
          · rw [List.cons_append] at htail₂
            obtain ⟨rfl, -⟩ := List.cons.inj htail₂
            have hname := hfirst c' (by simp)
            rw [hc] at hname
            cases hname
    · rintro ⟨drive, name, tail, halpha, hnames⟩
      obtain ⟨rfl, rfl⟩ := List.cons.inj hnames
      exact Or.inr ⟨drive, '/', _, halpha, rfl, by rw [List.intercalate_cons_cons]; rfl⟩

/-- What a validated path promises to its user. -/
structure SafePath (patterns : List (String → Bool)) (path safePath : String) : Prop where
  nonempty : safePath ≠ ""
  noBackslash : '\\' ∉ safePath.toList
  segments : ∀ segment ∈ safePath.toList.splitOn '/',
    segment ≠ [] ∧ segment ≠ ['.'] ∧ segment ≠ ['.', '.']
  relative : isAbsolute safePath.toList = false
  allowed : ∀ pattern ∈ patterns, pattern safePath = false
  sameLocation : location safePath = location path
  stable : validateRelativePath safePath patterns = some safePath

/-- The validation is sound and accepts what it should. -/
def Validates (patterns : List (String → Bool)) (path : String) : Prop :=
  (∀ safePath, validateRelativePath path patterns = some safePath →
    SafePath patterns path safePath) ∧
  (Admissible patterns path → (validateRelativePath path patterns).isSome = true)

/-- The path of a location keeps every promise but one: it can be a path on a drive. -/
theorem safePath_iff (hpath : Admissible patterns path) :
    SafePath patterns path (render (location path)) ↔ ¬OnDrive (location path) := by
  have hnames : ∀ name ∈ location path, IsName name := fun name h => (of_mem_location h).1
  have habsolute := isAbsolute_render hnames
  have hlocation := location_render hnames hpath.notRoot
  constructor
  · intro hsafe hdrive
    have hrelative := hsafe.relative
    rw [habsolute.mpr hdrive] at hrelative
    cases hrelative
  · intro hdrive
    have hrelative : isAbsolute (render (location path)).toList = false :=
      Bool.eq_false_iff.mpr fun h => hdrive (habsolute.mp h)
    have hchars : ∀ c ∈ (render (location path)).toList,
        c = '/' ∨ isSeparator c = false ∧ c ∈ path.toList := by
      intro c hc
      unfold render at hc
      rw [String.toList_ofList] at hc
      refine (mem_intercalate hc).imp_right ?_
      rintro ⟨name, hname, hcname⟩
      exact ⟨(hnames name hname).2 c hcname, (of_mem_location hname).2 c hcname⟩
    have hnonempty : render (location path) ≠ "" := by
      intro hempty
      have hmoves := moves_render hnames hpath.notRoot
      rw [hempty] at hmoves
      obtain ⟨name, rest, hcons⟩ := List.exists_cons_of_ne_nil hpath.notRoot
      rw [hcons] at hmoves
      cases hmoves
    have hsegments : (render (location path)).toList.splitOn '/' = location path := by
      unfold render
      rw [String.toList_ofList]
      refine List.splitOn_intercalate '/' (fun name hname hslash => ?_) hpath.notRoot
      have hseparator := (hnames name hname).2 '/' hslash
      cases hseparator
    have hadmissible : Admissible patterns (render (location path)) := {
      nonempty := hnonempty
      relative := hrelative
      noNul := by
        intro hnul
        rcases hchars _ hnul with hslash | ⟨-, hpathNul⟩
        · cases hslash
        · exact hpath.noNul hpathNul
      stays := by
        rw [moves_render hnames hpath.notRoot]
        exact stays_downs _
      notRoot := by
        rw [hlocation]
        exact hpath.notRoot
      allowed := by
        rw [hlocation]
        exact hpath.allowed }
    exact {
      nonempty := hnonempty
      noBackslash := by
        intro hbackslash
        rcases hchars _ hbackslash with hslash | ⟨hname, -⟩
        · cases hslash
        · cases hname
      segments := by
        rw [hsegments]
        intro segment hsegment
        have hmove := (hnames segment hsegment).1
        refine ⟨isName_ne_nil (hnames segment hsegment), ?_, ?_⟩
        · rintro rfl
          cases hmove
        · rintro rfl
          cases hmove
      relative := hrelative
      allowed := hpath.allowed
      sameLocation := hlocation
      stable := validateRelativePath_eq_some.mpr ⟨hadmissible, by rw [hlocation]⟩ }

/-- **Validation is sound and accepts what it should** except where the normalization brings a
drive to the front of an admissible path. -/
theorem validates_iff :
    Validates patterns path ↔ ¬(Admissible patterns path ∧ OnDrive (location path)) := by
  constructor
  · rintro ⟨hsound, -⟩ ⟨hpath, hdrive⟩
    have hsafe := hsound _ (validateRelativePath_eq_some.mpr ⟨hpath, rfl⟩)
    exact (safePath_iff hpath).mp hsafe hdrive
  · intro hno
    refine ⟨fun safePath h => ?_, fun hpath => ?_⟩
    · obtain ⟨hpath, rfl⟩ := validateRelativePath_eq_some.mp h
      exact (safePath_iff hpath).mpr fun hdrive => hno ⟨hpath, hdrive⟩
    · rw [validateRelativePath_eq_some.mpr ⟨hpath, rfl⟩]
      rfl

/-- The test for a drive is made before the normalization, which drops the segment before it. -/
theorem not_validates_drive : ¬Validates defaultDisallowedPathPatterns "./C:/x" := by
  intro h
  have hsome : validateRelativePath "./C:/x" = some "C:/x" := by decide +kernel
  have hrelative := (h.1 _ hsome).relative
  have habsolute : isAbsolute "C:/x".toList = true := by decide
  rw [habsolute] at hrelative
  cases hrelative


end MiniCoder
