import Orchestrator.Lib.Delimited
import Orchestrator.Lib.Entries

/-!
Nested Python values, as a YAML file holds them: where a setting stands, which
values say the same at every place, and the canonical form that sorted keys give.

A dictionary lists its entries in the order it was filled, each key once. Two
values say the same when at every path they hold the same scalar, a list of the
same length, a dictionary, or nothing. Sorting the keys at every depth keeps what
a value says, and two sorted values that say the same are one value.
-/

/-- A float, by the text that JSON gives it; the text tells any two floats apart. -/
structure FloatText where
  text : String
  chars : ∀ c ∈ text.toList, c ∈ "0123456789+-.einftyINa".toList
  fraction : ∃ c ∈ text.toList, Delimited.isIntChar c = false

inductive PyScalar where
  | none
  | bool (b : Bool)
  | int (n : Int)
  | float (x : FloatText)
  | str (s : String)

inductive PyValue where
  | scalar (v : PyScalar)
  | list (items : List PyValue)
  | dict (entries : List (String × PyValue))

/-- One step into a value. -/
inductive PyStep where
  | key (name : String)
  | index (n : Nat)
  deriving DecidableEq

/-- What a value is, apart from what is inside it. -/
inductive PyShape where
  | scalar (v : PyScalar)
  | list (length : Nat)
  | dict

namespace PyValue

/-- Induction over a value and all that is inside it. -/
@[elab_as_elim, induction_eliminator]
theorem nested {motive : PyValue → Prop} (scalar : ∀ v, motive (.scalar v))
    (list : ∀ xs, (∀ x ∈ xs, motive x) → motive (.list xs))
    (dict : ∀ es, (∀ e ∈ es, motive e.2) → motive (.dict es)) (v : PyValue) : motive v :=
  @PyValue.rec motive (fun xs => ∀ x ∈ xs, motive x) (fun es => ∀ e ∈ es, motive e.2)
    (fun e => motive e.2) scalar list dict (fun _ h => absurd h List.not_mem_nil)
    (fun _ _ hx hxs => List.forall_mem_cons.mpr ⟨hx, hxs⟩) (fun _ h => absurd h List.not_mem_nil)
    (fun _ _ he hes => List.forall_mem_cons.mpr ⟨he, hes⟩) (fun _ _ h => h) v

/-- `bool(v)`. -/
def truthy : PyValue → Bool
  | .scalar .none => false
  | .scalar (.bool b) => b
  | .scalar (.int n) => n ≠ 0
  | .scalar (.float x) => x.text ≠ "0.0" && x.text ≠ "-0.0"
  | .scalar (.str s) => s ≠ ""
  | .list items => !items.isEmpty
  | .dict entries => !entries.isEmpty

/-- `str(v)`, where `repr` writes the lists and the dictionaries. JSON spells the
three floats that are no numbers in its own way. -/
def str (repr : PyValue → String) : PyValue → String
  | .scalar .none => "None"
  | .scalar (.bool b) => if b then "True" else "False"
  | .scalar (.int n) => String.ofList (Delimited.intText n)
  | .scalar (.float x) =>
      if x.text = "NaN" then "nan"
      else if x.text = "Infinity" then "inf"
      else if x.text = "-Infinity" then "-inf" else x.text
  | .scalar (.str s) => s
  | v => repr v

/-- What stands at a path. -/
def at? : List PyStep → PyValue → Option PyValue
  | [], v => some v
  | .key name :: path, .dict es => (es.lookup name).bind (at? path)
  | .index n :: path, .list xs => xs[n]?.bind (at? path)
  | _ :: _, _ => none

def shape : PyValue → PyShape
  | .scalar v => .scalar v
  | .list xs => .list xs.length
  | .dict _ => .dict

def shapeAt (path : List PyStep) (v : PyValue) : Option PyShape := (v.at? path).map shape

@[simp] theorem shapeAt_nil (v : PyValue) : v.shapeAt [] = some v.shape := rfl

@[simp] theorem shapeAt_key (name : String) (path : List PyStep) (es : List (String × PyValue)) :
    (dict es).shapeAt (.key name :: path) = (es.lookup name).bind (shapeAt path) := by
  simp only [shapeAt, at?, Option.map_bind]
  rfl

@[simp] theorem shapeAt_index (n : Nat) (path : List PyStep) (xs : List PyValue) :
    (list xs).shapeAt (.index n :: path) = xs[n]?.bind (shapeAt path) := by
  simp only [shapeAt, at?, Option.map_bind]
  rfl

@[simp] theorem shapeAt_scalar (step : PyStep) (path : List PyStep) (v : PyScalar) :
    (scalar v).shapeAt (step :: path) = none := by
  cases step <;> rfl

@[simp] theorem shapeAt_list_key (name : String) (path : List PyStep) (xs : List PyValue) :
    (list xs).shapeAt (.key name :: path) = none := rfl

@[simp] theorem shapeAt_dict_index (n : Nat) (path : List PyStep) (es : List (String × PyValue)) :
    (dict es).shapeAt (.index n :: path) = none := rfl

/-- The values say the same at every path. -/
def Same (v w : PyValue) : Prop := ∀ path, v.shapeAt path = w.shapeAt path

theorem same_dict_iff {es fs : List (String × PyValue)} :
    Same (dict es) (dict fs) ↔
      ∀ name path, (es.lookup name).bind (shapeAt path) = (fs.lookup name).bind (shapeAt path) := by
  constructor
  · intro h name path
    simpa using h (.key name :: path)
  · intro h path
    cases path with
    | nil => rfl
    | cons step path =>
        cases step with
        | key name => simpa using h name path
        | index n => rfl

mutual
def Everywhere (P : List String → Prop) : PyValue → Prop
  | .scalar _ => True
  | .list items => EverywhereItems P items
  | .dict entries => P (entries.map Prod.fst) ∧ EverywhereEntries P entries

def EverywhereItems (P : List String → Prop) : List PyValue → Prop
  | [] => True
  | item :: items => Everywhere P item ∧ EverywhereItems P items

def EverywhereEntries (P : List String → Prop) : List (String × PyValue) → Prop
  | [] => True
  | (_, value) :: entries => Everywhere P value ∧ EverywhereEntries P entries
end

/-- The keys of every dictionary are distinct, as Python's are. -/
abbrev Distinct : PyValue → Prop := Everywhere List.Nodup

/-- The keys of every dictionary stand in order. -/
abbrev Increasing : PyValue → Prop := Everywhere (List.Pairwise (· < ·))

theorem everywhereItems_iff {P : List String → Prop} {xs : List PyValue} :
    EverywhereItems P xs ↔ ∀ x ∈ xs, Everywhere P x := by
  induction xs with
  | nil => simp [EverywhereItems]
  | cons x xs ih => simp [EverywhereItems, ih]

theorem everywhereEntries_iff {P : List String → Prop} {es : List (String × PyValue)} :
    EverywhereEntries P es ↔ ∀ e ∈ es, Everywhere P e.2 := by
  induction es with
  | nil => simp [EverywhereEntries]
  | cons e es ih => simp [EverywhereEntries, ih]

theorem everywhere_list_iff {P : List String → Prop} {xs : List PyValue} :
    Everywhere P (list xs) ↔ ∀ x ∈ xs, Everywhere P x := by
  rw [Everywhere, everywhereItems_iff]

theorem everywhere_dict_iff {P : List String → Prop} {es : List (String × PyValue)} :
    Everywhere P (dict es) ↔ P (es.map Prod.fst) ∧ ∀ e ∈ es, Everywhere P e.2 := by
  rw [Everywhere, everywhereEntries_iff]

theorem Everywhere.imp {P Q : List String → Prop} (hPQ : ∀ keys, P keys → Q keys) {v : PyValue}
    (h : Everywhere P v) : Everywhere Q v := by
  induction v with
  | scalar v => trivial
  | list xs ih =>
      have hxs := everywhere_list_iff.mp h
      exact everywhere_list_iff.mpr fun x hx => ih x hx (hxs x hx)
  | dict es ih =>
      obtain ⟨hkeys, hvalues⟩ := everywhere_dict_iff.mp h
      exact everywhere_dict_iff.mpr ⟨hPQ _ hkeys, fun e he => ih e he (hvalues e he)⟩

theorem Increasing.distinct {v : PyValue} (h : v.Increasing) : v.Distinct :=
  h.imp fun _ hkeys => hkeys.imp fun hlt => hlt.ne

def ofDict {α : Type} (f : α → PyValue) (d : PyDict α) : PyValue :=
  .dict ((Entries.byKey d.entries).map fun e => (e.1, f e.2))

theorem increasing_ofDict {α : Type} {f : α → PyValue} (hf : ∀ v, (f v).Increasing)
    (d : PyDict α) : (ofDict f d).Increasing := by
  refine everywhere_dict_iff.mpr ⟨?_, fun e he => ?_⟩
  · rw [List.map_map]
    exact Entries.byKey_increasing d.distinct
  · obtain ⟨e', -, rfl⟩ := List.mem_map.mp he
    exact hf e'.2

theorem ofDict_eq_iff {α : Type} {f : α → PyValue} (hf : Function.Injective f) {d e : PyDict α} :
    ofDict f d = ofDict f e ↔ ∀ k, d.get? k = e.get? k := by
  have hentry : Function.Injective fun e : String × α => (e.1, f e.2) := fun a b h =>
    Prod.ext (Prod.mk.inj h).1 (hf (Prod.mk.inj h).2)
  rw [ofDict, ofDict, PyValue.dict.injEq, (List.map_injective_iff.mpr hentry).eq_iff,
    Entries.byKey_eq_iff d.distinct e.distinct]
  rfl

mutual
def sortKeys : PyValue → PyValue
  | .scalar v => .scalar v
  | .list items => .list (sortItems items)
  | .dict entries => .dict (Entries.byKey (sortEntries entries))

def sortItems : List PyValue → List PyValue
  | [] => []
  | item :: items => sortKeys item :: sortItems items

def sortEntries : List (String × PyValue) → List (String × PyValue)
  | [] => []
  | (name, value) :: entries => (name, sortKeys value) :: sortEntries entries
end

theorem sortItems_eq (xs : List PyValue) : sortItems xs = xs.map sortKeys := by
  induction xs with
  | nil => rfl
  | cons x xs ih => rw [sortItems, ih, List.map_cons]

theorem sortEntries_eq (es : List (String × PyValue)) :
    sortEntries es = es.map fun e => (e.1, sortKeys e.2) := by
  induction es with
  | nil => rfl
  | cons e es ih => rw [sortEntries, ih, List.map_cons]

theorem fst_sortEntries (es : List (String × PyValue)) :
    (sortEntries es).map Prod.fst = es.map Prod.fst := by
  rw [sortEntries_eq, List.map_map]
  rfl

theorem lookup_sortEntries {es : List (String × PyValue)} (h : (es.map Prod.fst).Nodup)
    (name : String) :
    (Entries.byKey (sortEntries es)).lookup name = (es.lookup name).map sortKeys := by
  rw [Entries.lookup_byKey (by rwa [fst_sortEntries]), sortEntries_eq, Entries.lookup_map]

/-- Sorting keeps what a value says. -/
theorem shapeAt_sortKeys {v : PyValue} (hv : v.Distinct) (path : List PyStep) :
    (sortKeys v).shapeAt path = v.shapeAt path := by
  induction path generalizing v with
  | nil => cases v <;> simp [sortKeys, shape, sortItems_eq]
  | cons step path ih =>
      cases v with
      | scalar v => simp [sortKeys]
      | list xs =>
          cases step with
          | key name => rfl
          | index n =>
              rw [sortKeys, sortItems_eq, shapeAt_index, shapeAt_index, List.getElem?_map,
                Option.bind_map]
              refine Option.bind_congr fun x hx => ih ?_
              exact everywhere_list_iff.mp hv x (List.mem_of_getElem? hx)
      | dict es =>
          cases step with
          | index n => rfl
          | key name =>
              obtain ⟨hkeys, hvalues⟩ := everywhere_dict_iff.mp hv
              rw [sortKeys, shapeAt_key, shapeAt_key, lookup_sortEntries hkeys, Option.bind_map]
              refine Option.bind_congr fun value hvalue => ih ?_
              exact hvalues _ ((Entries.lookup_eq_some_iff hkeys).mp hvalue)

theorem increasing_sortKeys {v : PyValue} (hv : v.Distinct) : (sortKeys v).Increasing := by
  induction v with
  | scalar v => trivial
  | list xs ih =>
      rw [sortKeys, sortItems_eq]
      refine everywhere_list_iff.mpr fun x hx => ?_
      obtain ⟨y, hy, rfl⟩ := List.mem_map.mp hx
      exact ih y hy (everywhere_list_iff.mp hv y hy)
  | dict es ih =>
      obtain ⟨hkeys, hvalues⟩ := everywhere_dict_iff.mp hv
      rw [sortKeys]
      refine everywhere_dict_iff.mpr
        ⟨Entries.byKey_increasing (by rwa [fst_sortEntries]), fun e he => ?_⟩
      rw [Entries.byKey, List.mem_insertionSort, sortEntries_eq] at he
      obtain ⟨d, hd, rfl⟩ := List.mem_map.mp he
      exact ih d hd (hvalues d hd)

theorem shape_eq_of_same {v w : PyValue} (h : Same v w) : v.shape = w.shape :=
  Option.some.inj (h [])

/-- Sorted values that say the same are one value. -/
theorem eq_of_same {v w : PyValue} (hv : v.Increasing) (hw : w.Increasing) (h : Same v w) :
    v = w := by
  induction v generalizing w with
  | scalar v =>
      cases w with
      | scalar w => exact congrArg scalar (PyShape.scalar.inj (shape_eq_of_same h))
      | list ys => cases shape_eq_of_same h
      | dict fs => cases shape_eq_of_same h
  | list xs ih =>
      cases w with
      | scalar w => cases shape_eq_of_same h
      | dict fs => cases shape_eq_of_same h
      | list ys =>
          have hlength : xs.length = ys.length := PyShape.list.inj (shape_eq_of_same h)
          refine congrArg list (List.ext_getElem hlength fun n hx hy => ?_)
          refine ih _ (List.getElem_mem hx) (everywhere_list_iff.mp hv _ (List.getElem_mem hx))
            (everywhere_list_iff.mp hw _ (List.getElem_mem hy)) fun path => ?_
          simpa [hx, hy] using h (.index n :: path)
  | dict es ih =>
      cases w with
      | scalar w => cases shape_eq_of_same h
      | list ys => cases shape_eq_of_same h
      | dict fs =>
          obtain ⟨hes, hvalues⟩ := everywhere_dict_iff.mp hv
          obtain ⟨hfs, hvalues'⟩ := everywhere_dict_iff.mp hw
          refine congrArg dict (Entries.eq_of_lookup_eq hes hfs fun name => ?_)
          have hname := same_dict_iff.mp h name
          cases hfound : es.lookup name with
          | none =>
              cases hfound' : fs.lookup name with
              | none => rfl
              | some value => simpa [hfound, hfound'] using hname []
          | some value =>
              cases hfound' : fs.lookup name with
              | none => simpa [hfound, hfound'] using hname []
              | some value' =>
                  simp only [hfound, hfound', Option.bind_some] at hname
                  have hmem := (Entries.lookup_eq_some_iff (hes.imp fun hlt => hlt.ne)).mp hfound
                  have hmem' := (Entries.lookup_eq_some_iff (hfs.imp fun hlt => hlt.ne)).mp hfound'
                  exact congrArg some (ih _ hmem (hvalues _ hmem) (hvalues' _ hmem') hname)

/-- Sorted by their keys, values are equal exactly if they say the same. -/
theorem sortKeys_eq_iff {v w : PyValue} (hv : v.Distinct) (hw : w.Distinct) :
    sortKeys v = sortKeys w ↔ Same v w := by
  constructor
  · intro h path
    rw [← shapeAt_sortKeys hv, h, shapeAt_sortKeys hw]
  · intro h
    refine eq_of_same (increasing_sortKeys hv) (increasing_sortKeys hw) fun path => ?_
    rw [shapeAt_sortKeys hv, h, shapeAt_sortKeys hw]

end PyValue
