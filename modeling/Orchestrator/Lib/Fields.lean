import Orchestrator.Lib.PyStr

/-!
Reading and writing the fields of a dictionary.

Each operation comes with the field it sets and the frame of the others, so that a
program over dictionaries is followed field by field.
-/

/-- A dictionary, its fields in order and each once. -/
abbrev Dict := List (String × Json)

namespace Json

/-- `fields.get(name)`. -/
def field? (fields : Dict) (name : String) : Option Json :=
  (fields.find? (fun f => f.1 = name)).map Prod.snd

/-- `fields.pop(name, None)`. -/
def dropField (fields : Dict) (name : String) : Dict := fields.filter (fun f => f.1 ≠ name)

/-- `name in fields`. -/
def hasField (fields : Dict) (name : String) : Bool := fields.any (fun f => f.1 = name)

/-- `value or None`. -/
def orNone : Option Json → Option Json
  | some value => if truthy value then some value else none
  | none => none

/-- `str(value or default)`. -/
def textOr (value : Option Json) (default : String) : String :=
  match orNone value with
  | some value => PyStr.str value
  | none => default

/-- `list(value or [])` of a field that holds a list. -/
def itemsOf : Option Json → List Json
  | some (.arr items) => items
  | _ => []

/-- `float(value or 0.0)` of a field that holds a number. -/
def numberOf : Option Json → Rat
  | some (.num q) => q
  | _ => 0

/-- `int(value or 0)` of a field that holds a number. -/
def intOf (value : Option Json) : Int := (numberOf value).num.tdiv (numberOf value).den

/-- The dictionaries of a list, as a loop with `isinstance(item, dict)` meets them. -/
def dictsOf (items : List Json) : List Dict :=
  items.filterMap fun
    | .obj fields => some fields
    | _ => none

@[simp] theorem field?_nil (name : String) : field? [] name = none := rfl

@[simp] theorem field?_cons (f : String × Json) (fields : Dict) (name : String) :
    field? (f :: fields) name = if f.1 = name then some f.2 else field? fields name := by
  unfold field?
  by_cases h : f.1 = name <;> simp [h]

@[simp] theorem field?_setField_self (fields : Dict) (name : String) (value : Json) :
    field? (setField fields name value) name = some value := by
  induction fields with
  | nil => simp [setField]
  | cons f fields ih =>
      unfold setField
      split
      · simp
      · rename_i hne
        rw [field?_cons, if_neg hne, ih]

@[simp] theorem field?_setField_of_ne (fields : Dict) {name other : String} (value : Json)
    (h : name ≠ other) : field? (setField fields name value) other = field? fields other := by
  induction fields with
  | nil => simp [setField, h]
  | cons f fields ih =>
      unfold setField
      split
      · rename_i heq
        subst heq
        simp [h]
      · rw [field?_cons, field?_cons, ih]

@[simp] theorem field?_dropField_self (fields : Dict) (name : String) :
    field? (dropField fields name) name = none := by
  induction fields with
  | nil => rfl
  | cons f fields ih =>
      by_cases h : f.1 = name
      · simpa [dropField, h] using ih
      · simpa [dropField, h] using ih

@[simp] theorem field?_dropField_of_ne (fields : Dict) {name other : String} (h : name ≠ other) :
    field? (dropField fields name) other = field? fields other := by
  induction fields with
  | nil => rfl
  | cons f fields ih =>
      by_cases hname : f.1 = name
      · have hother : f.1 ≠ other := fun heq => h (hname.symm.trans heq)
        simpa [dropField, hname, h] using ih
      · simpa [dropField, hname] using congrArg (fun r => if f.1 = other then some f.2 else r) ih

theorem merge_cons (fields : Dict) (f : String × Json) (updates : Dict) :
    merge fields (f :: updates) = merge (setField fields f.1 f.2) updates := rfl

@[simp] theorem merge_nil (fields : Dict) : merge fields [] = fields := rfl

/-- A field that is not among the updates keeps its value. -/
theorem field?_merge_of_notMem (fields updates : Dict) {name : String}
    (h : ∀ f ∈ updates, f.1 ≠ name) : field? (merge fields updates) name = field? fields name := by
  induction updates generalizing fields with
  | nil => rfl
  | cons f updates ih =>
      obtain ⟨hf, hrest⟩ := List.forall_mem_cons.mp h
      rw [merge_cons, ih _ hrest, field?_setField_of_ne _ _ hf]

theorem ne_of_not_hasField {fields : Dict} {name : String} (h : ¬ hasField fields name = true) :
    ∀ f ∈ fields, f.1 ≠ name := by
  intro f hf heq
  exact h (List.any_eq_true.mpr ⟨f, hf, decide_eq_true heq⟩)

/-- An updated field does not depend on what it was before. -/
theorem field?_merge_of_hasField {updates : Dict} {name : String}
    (h : hasField updates name = true) (fields other : Dict) :
    field? (merge fields updates) name = field? (merge other updates) name := by
  induction updates generalizing fields other with
  | nil => cases h
  | cons f updates ih =>
      rw [merge_cons, merge_cons]
      by_cases hrest : hasField updates name = true
      · exact ih hrest _ _
      · have hname : f.1 = name := by
          obtain ⟨g, hg, hgname⟩ := List.any_eq_true.mp h
          rcases List.mem_cons.mp hg with rfl | hg
          · exact of_decide_eq_true hgname
          · exact absurd (of_decide_eq_true hgname) (ne_of_not_hasField hrest g hg)
        subst hname
        have hothers := ne_of_not_hasField hrest
        rw [field?_merge_of_notMem _ _ hothers, field?_merge_of_notMem _ _ hothers,
          field?_setField_self, field?_setField_self]

theorem field?_merge_congr {fields other : Dict} (updates : Dict) {name : String}
    (h : field? fields name = field? other name) :
    field? (merge fields updates) name = field? (merge other updates) name := by
  by_cases hupdated : hasField updates name = true
  · exact field?_merge_of_hasField hupdated fields other
  · have hothers := ne_of_not_hasField hupdated
    rw [field?_merge_of_notMem _ _ hothers, field?_merge_of_notMem _ _ hothers, h]

/-- Updates with each field once. -/
theorem field?_merge (fields updates : Dict) (name : String)
    (h : (updates.map Prod.fst).Nodup) :
    field? (merge fields updates) name = (field? updates name).or (field? fields name) := by
  induction updates generalizing fields with
  | nil => rfl
  | cons f updates ih =>
      obtain ⟨hnotMem, hrest⟩ := List.nodup_cons.mp h
      rw [merge_cons, field?_cons]
      by_cases hname : f.1 = name
      · subst hname
        have hothers : ∀ g ∈ updates, g.1 ≠ f.1 := fun g hg heq =>
          hnotMem (List.mem_map.mpr ⟨g, hg, heq⟩)
        rw [field?_merge_of_notMem _ _ hothers, if_pos rfl, field?_setField_self]
        rfl
      · rw [ih _ hrest, if_neg hname, field?_setField_of_ne _ _ hname]

theorem field?_append (fields others : Dict) (name : String) :
    field? (fields ++ others) name = (field? fields name).or (field? others name) := by
  induction fields with
  | nil => rfl
  | cons f fields ih =>
      rw [List.cons_append, field?_cons, field?_cons, ih]
      split <;> rfl

theorem hasField_eq_isSome (fields : Dict) (name : String) :
    hasField fields name = (field? fields name).isSome := by
  induction fields with
  | nil => rfl
  | cons f fields ih =>
      by_cases h : f.1 = name
      · simp [hasField, h]
      · simpa [hasField, h] using ih

@[simp] theorem textOr_none (default : String) : textOr none default = default := rfl

@[simp] theorem textOr_null (default : String) : textOr (some .null) default = default := rfl

@[simp] theorem textOr_str (s default : String) :
    textOr (some (.str s)) default = if s = "" then default else s := by
  by_cases h : s = ""
  · simp [textOr, orNone, truthy, h]
  · simp [textOr, orNone, truthy, h, PyStr.str]

@[simp] theorem itemsOf_none : itemsOf none = [] := rfl

@[simp] theorem itemsOf_arr (items : List Json) : itemsOf (some (.arr items)) = items := rfl

@[simp] theorem numberOf_num (q : Rat) : numberOf (some (.num q)) = q := rfl

@[simp] theorem intOf_none : intOf none = 0 := rfl

@[simp] theorem intOf_num (n : Int) : intOf (some (.num n)) = n := by
  simp [intOf, numberOf]

theorem dictsOf_map_obj (dicts : List Dict) : dictsOf (dicts.map .obj) = dicts := by
  induction dicts with
  | nil => rfl
  | cons d dicts ih =>
      change d :: dictsOf (dicts.map .obj) = d :: dicts
      rw [ih]

end Json

example : Json.textOr (some (.num 3)) "" = "3" := by decide +kernel
