import MiniCoder.Library.JsonTexts

/-!
# The properties of a JSON value

What a program reads of a value that it knows nothing about.  A property that an object does not have,
and any property of a value that is no object, is `undefined`, which is `none` here.

* `inOrder_of_plain`: keys that are no array indices are in order as soon as they are distinct.
* `get?_parse`: **a property is read back** from the text of an object.
-/

namespace Json

variable {ν : Type}

/-! ### Access -/

/-- The property of an object. -/
def lookup (key : Text) (entries : Entries ν) : Option (Value ν) :=
  (entries.find? fun entry => entry.1 == key).map (·.2)

/-- `v.key`, for a value that is not `null`. -/
def Value.get? (key : Text) : Value ν → Option (Value ν)
  | .obj entries => lookup key entries
  | _ => none

/-- `v.key₁?.key₂?.…`. -/
def Value.path? (keys : List String) (v : Value ν) : Option (Value ν) :=
  keys.foldl (fun v key => v.bind (Value.get? key.toList)) (some v)

/-- `v ?? alternative`. -/
def orElse (v : Option (Value ν)) (alternative : Value ν) : Value ν :=
  match v with
  | none => alternative
  | some .null => alternative
  | some v => v

/-- The text of a value that is a string. -/
def text? : Option (Value ν) → Option String
  | some (.str s) => some (String.ofList s)
  | _ => none

abbrev Value.ofString (s : String) : Value ν := .str s.toList

/-- An object literal, as far as it is written: a property that is `undefined` is left out. -/
def fields (properties : List (String × Option (Value ν))) : Entries ν :=
  properties.filterMap fun property => property.2.map fun v => (property.1.toList, v)

@[simp] theorem text?_ofString (s : String) : text? (some (Value.ofString (ν := ν) s)) = some s := by
  rw [text?, String.ofList_toList]

/-! ### Keys -/

section Keys

variable {entries : Entries ν} {properties : List (String × Option (Value ν))} {key : Text}

theorem lookup_eq_none (h : key ∉ entries.map Prod.fst) : lookup key entries = none := by
  rw [lookup, Option.map_eq_none_iff, List.find?_eq_none]
  intro entry hentry hkey
  exact h (List.mem_map.mpr ⟨entry, hentry, beq_iff_eq.mp hkey⟩)

theorem lookup_append (h : key ∉ entries.map Prod.fst) (more : Entries ν) :
    lookup key (entries ++ more) = lookup key more := by
  have hnone := lookup_eq_none h
  unfold lookup at hnone ⊢
  rw [List.find?_append, Option.map_eq_none_iff.mp hnone, Option.none_or]

theorem lookup_map (f : Value ν → Value ν) :
    lookup key (entries.map fun entry => (entry.1, f entry.2)) = (lookup key entries).map f := by
  unfold lookup
  rw [List.find?_map, Option.map_map, Option.map_map]
  rfl

/-- The keys of a literal stand in it, in its order. -/
theorem sublist_fields (properties : List (String × Option (Value ν))) :
    ((fields properties).map Prod.fst).Sublist (properties.map fun property => property.1.toList) := by
  induction properties with
  | nil => exact List.Sublist.slnil
  | cons property properties ih =>
    unfold fields at ih ⊢
    rw [List.filterMap_cons, List.map_cons]
    cases property.2 with
    | none => exact ih.cons _
    | some v => exact ih.cons₂ _

/-- **Keys that are no array indices are in order** as soon as they are distinct. -/
theorem inOrder_of_plain (hnodup : (entries.map Prod.fst).Nodup)
    (hplain : ∀ key ∈ entries.map Prod.fst, isArrayIndex key = false) : InOrder entries := by
  unfold List.Nodup at hnodup
  rw [List.pairwise_map] at hnodup
  refine hnodup.imp_of_mem fun _ hentry' hne => ⟨hne, fun hindex => ?_⟩
  have hplain' := hplain _ (List.mem_map_of_mem hentry')
  rw [hplain'] at hindex
  cases hindex

end Keys

/-! ### Reading back -/

section Reading

variable [Numbers ν] {entries : Entries ν} {v : Value ν}

theorem get?_reread (h : InOrder entries) (key : Text) :
    (Value.obj entries).reread.get? key = (lookup key entries).map Value.reread := by
  rw [reread_obj h]
  exact lookup_map Value.reread

/-- **A property is read back** from the text of an object. -/
theorem get?_parse (h : InOrder entries) (hparse : parse (stringify (.obj entries)) = some v)
    (key : Text) : v.get? key = (lookup key entries).map Value.reread := by
  rw [parse_stringify] at hparse
  rw [← Option.some.inj hparse]
  exact get?_reread h key

end Reading

end Json
