import Mathlib.Data.List.Nodup
import Mathlib.Data.List.Sort
import Mathlib.Data.String.Basic

/-!
Entries of a dictionary with texts for keys, in the order it was filled, each key
once: what is found under a key, what assigning and deleting do, and the entries
in the order of their keys. `PyDict` carries that its keys are distinct.
-/

namespace Entries
variable {α β : Type}

/-- `entries[key] = value`: the place of a key that is there is kept. -/
def set (es : List (String × α)) (k : String) (v : α) : List (String × α) :=
  if (es.lookup k).isSome then es.map fun e => if e.1 = k then (k, v) else e else es ++ [(k, v)]

/-- `entries.pop(key, None)`. -/
def pop (es : List (String × α)) (k : String) : List (String × α) := es.filter (·.1 ≠ k)

/-- The entries in the order of their keys. -/
def byKey (es : List (String × α)) : List (String × α) :=
  es.insertionSort fun a b => a.1 ≤ b.1

theorem set_of_new {es : List (String × α)} {k : String} (h : ∀ e ∈ es, e.1 ≠ k) (v : α) :
    set es k v = es ++ [(k, v)] := by
  have hnone : es.lookup k = none :=
    List.lookup_eq_none_iff.mpr fun e he => by simpa using (h e he).symm
  simp [set, hnone]

theorem mem_set {es : List (String × α)} {k : String} {v : α} {e : String × α}
    (h : e ∈ set es k v) : e ∈ es ∨ e = (k, v) := by
  rw [set] at h
  split at h
  · obtain ⟨d, hd, rfl⟩ := List.mem_map.mp h
    split
    · exact .inr rfl
    · exact .inl hd
  · rcases List.mem_append.mp h with h | h
    · exact .inl h
    · exact .inr (List.mem_singleton.mp h)

theorem map_fst_set (es : List (String × α)) (k : String) (v : α) :
    (set es k v).map Prod.fst =
      if k ∈ es.map Prod.fst then es.map Prod.fst else es.map Prod.fst ++ [k] := by
  have hsome : (es.lookup k).isSome = true ↔ k ∈ es.map Prod.fst := by
    rw [← Option.ne_none_iff_isSome, Ne, List.lookup_eq_none_iff]
    simp only [List.mem_map]
    grind
  rw [set]
  split
  next h =>
      rw [if_pos (hsome.mp h), List.map_map]
      refine List.map_congr_left fun e _ => ?_
      simp only [Function.comp_apply]
      split
      · exact (by assumption : e.1 = k).symm
      · rfl
  next h => rw [if_neg (fun hmem => h (hsome.mpr hmem)), List.map_append]; rfl

theorem lookup_eq_some_iff {es : List (String × α)} (h : (es.map Prod.fst).Nodup) {k : String}
    {v : α} : es.lookup k = some v ↔ (k, v) ∈ es := by
  induction es with
  | nil => simp
  | cons e es ih =>
      obtain ⟨hnew, hrest⟩ := List.nodup_cons.mp h
      rw [List.lookup_cons]
      by_cases hk : k = e.1
      · subst hk
        have hnone : (e.1, v) ∉ es := fun hmem => hnew (List.mem_map.mpr ⟨_, hmem, rfl⟩)
        simp [hnone, Prod.ext_iff, eq_comm]
      · simp [beq_eq_false_iff_ne.mpr hk, ih hrest, Prod.ext_iff, hk]

theorem lookup_perm {es fs : List (String × α)} (hperm : es.Perm fs)
    (h : (es.map Prod.fst).Nodup) (k : String) : es.lookup k = fs.lookup k := by
  refine Option.ext fun v => ?_
  rw [lookup_eq_some_iff h, lookup_eq_some_iff ((hperm.map _).nodup h), hperm.mem_iff]

theorem lookup_byKey {es : List (String × α)} (h : (es.map Prod.fst).Nodup) (k : String) :
    (byKey es).lookup k = es.lookup k :=
  (lookup_perm (List.perm_insertionSort _ es).symm h k).symm

theorem lookup_map (f : α → β) (es : List (String × α)) (k : String) :
    (es.map fun e => (e.1, f e.2)).lookup k = (es.lookup k).map f := by
  induction es with
  | nil => rfl
  | cons e es ih =>
      rw [List.map_cons, List.lookup_cons, List.lookup_cons]
      split
      · rfl
      · exact ih

theorem lookup_filter (p : String → Bool) (es : List (String × α)) (k : String) :
    (es.filter fun e => p e.1).lookup k = if p k then es.lookup k else none := by
  induction es with
  | nil => simp
  | cons e es ih =>
      by_cases hk : k = e.1
      · subst hk
        cases hp : p e.1 with
        | true =>
            rw [List.filter_cons, if_pos hp, if_pos rfl, List.lookup_cons, List.lookup_cons,
              beq_self_eq_true]
        | false =>
            rw [List.filter_cons_of_neg (by simp [hp]), ih]
            simp [hp]
      · have hbeq : (k == e.1) = false := beq_eq_false_iff_ne.mpr hk
        rw [List.lookup_cons, hbeq, List.filter_cons]
        split
        · rw [List.lookup_cons, hbeq]
          exact ih
        · exact ih

/-- The entries whose value gives another one. -/
def choose (f : α → Option β) (es : List (String × α)) : List (String × β) :=
  es.filterMap fun e => (f e.2).map (e.1, ·)

theorem map_fst_choose_sublist (f : α → Option β) (es : List (String × α)) :
    ((choose f es).map Prod.fst).Sublist (es.map Prod.fst) := by
  induction es with
  | nil => exact List.Sublist.refl _
  | cons e es ih =>
      rw [choose, List.filterMap_cons, List.map_cons]
      cases f e.2 with
      | none => exact ih.cons _
      | some v => exact ih.cons_cons _

theorem lookup_choose (f : α → Option β) {es : List (String × α)} (h : (es.map Prod.fst).Nodup)
    (k : String) : (choose f es).lookup k = (es.lookup k).bind f := by
  have hchoose : ((choose f es).map Prod.fst).Nodup := h.sublist (map_fst_choose_sublist f es)
  refine Option.ext fun w => ?_
  rw [lookup_eq_some_iff hchoose, Option.bind_eq_some_iff, choose, List.mem_filterMap]
  simp only [lookup_eq_some_iff h, Option.map_eq_some_iff, Prod.mk.injEq]
  constructor
  · rintro ⟨⟨name, v⟩, he, w, hw, rfl, rfl⟩
    exact ⟨v, he, hw⟩
  · rintro ⟨v, hv, hw⟩
    exact ⟨(k, v), hv, w, hw, rfl, rfl⟩

/-- Distinct keys in order are strictly increasing. -/
theorem byKey_increasing {es : List (String × α)} (h : (es.map Prod.fst).Nodup) :
    ((byKey es).map Prod.fst).Pairwise (· < ·) := by
  have hle : ((byKey es).map Prod.fst).Pairwise (· ≤ ·) :=
    List.pairwise_map.mpr (List.pairwise_insertionSort _ es)
  have hnodup : ((byKey es).map Prod.fst).Nodup :=
    ((List.perm_insertionSort _ es).map Prod.fst).nodup_iff.mpr h
  exact (hle.and hnodup).imp fun hab => lt_of_le_of_ne hab.1 hab.2

/-- Increasing entries are known by what is found under each key. -/
theorem eq_of_lookup_eq {es fs : List (String × α)} (hes : (es.map Prod.fst).Pairwise (· < ·))
    (hfs : (fs.map Prod.fst).Pairwise (· < ·)) (h : ∀ k, es.lookup k = fs.lookup k) : es = fs := by
  have hes' : es.Pairwise fun a b => a.1 < b.1 := List.pairwise_map.mp hes
  have hfs' : fs.Pairwise fun a b => a.1 < b.1 := List.pairwise_map.mp hfs
  have hmem : ∀ e, e ∈ es ↔ e ∈ fs := fun e => by
    rw [← lookup_eq_some_iff (hes.imp fun hlt => hlt.ne), h,
      lookup_eq_some_iff (hfs.imp fun hlt => hlt.ne)]
  have hperm : es.Perm fs := (List.perm_ext_iff_of_nodup
    (hes'.imp fun hlt heq => absurd (congrArg Prod.fst heq) hlt.ne)
    (hfs'.imp fun hlt heq => absurd (congrArg Prod.fst heq) hlt.ne)).mpr hmem
  exact hperm.eq_of_pairwise (fun a b _ _ hab hba => absurd hab hba.asymm) hes' hfs'

/-- Distinct entries in the order of their keys are known by what is found under each. -/
theorem byKey_eq_iff {es fs : List (String × α)} (hes : (es.map Prod.fst).Nodup)
    (hfs : (fs.map Prod.fst).Nodup) : byKey es = byKey fs ↔ ∀ k, es.lookup k = fs.lookup k := by
  constructor
  · intro h k
    rw [← lookup_byKey hes, h, lookup_byKey hfs]
  · intro h
    refine eq_of_lookup_eq (byKey_increasing hes) (byKey_increasing hfs) fun k => ?_
    rw [lookup_byKey hes, h, lookup_byKey hfs]

theorem nodup_set {es : List (String × α)} (h : (es.map Prod.fst).Nodup) (k : String) (v : α) :
    ((set es k v).map Prod.fst).Nodup := by
  rw [map_fst_set]
  split
  · exact h
  next hnew => exact List.nodup_append.mpr ⟨h, List.nodup_singleton k, by grind⟩

theorem lookup_assign (es : List (String × α)) (k : String) (v : α) (j : String) :
    (es.map fun e => if e.1 = k then (k, v) else e).lookup j =
      if j = k then (es.lookup k).map fun _ => v else es.lookup j := by
  induction es with
  | nil => simp
  | cons e es ih =>
      rw [List.map_cons, List.lookup_cons, List.lookup_cons, List.lookup_cons, ih]
      by_cases hj : j = k
      · subst hj
        by_cases hk : e.1 = j
        · simp [hk]
        · have hbeq : (j == e.1) = false := beq_eq_false_iff_ne.mpr (Ne.symm hk)
          simp [hk, hbeq]
      · by_cases hk : e.1 = k
        · have hbeq : (j == k) = false := beq_eq_false_iff_ne.mpr hj
          simp [hk, hj, hbeq]
        · simp [hk, hj]

theorem lookup_set (es : List (String × α)) (k : String) (v : α) (j : String) :
    (set es k v).lookup j = if j = k then some v else es.lookup j := by
  rw [set]
  split
  next hfound =>
      obtain ⟨u, hu⟩ := Option.isSome_iff_exists.mp hfound
      rw [lookup_assign, hu]
      rfl
  next hnew =>
      have hnone := Option.not_isSome_iff_eq_none.mp hnew
      rw [List.lookup_append, List.lookup_cons, List.lookup_nil]
      by_cases hj : j = k
      · simp [hj, hnone]
      · rw [if_neg hj, beq_eq_false_iff_ne.mpr hj, Option.or_none]

end Entries

/-- A dictionary with texts for keys. -/
structure PyDict (α : Type) where
  entries : List (String × α)
  distinct : (entries.map Prod.fst).Nodup

namespace PyDict
variable {α : Type}

def empty : PyDict α := ⟨[], List.nodup_nil⟩

def get? (d : PyDict α) (k : String) : Option α := d.entries.lookup k

def set (d : PyDict α) (k : String) (v : α) : PyDict α :=
  ⟨Entries.set d.entries k v, Entries.nodup_set d.distinct k v⟩

/-- `d.setdefault(k, v)`, where there is a value to set. -/
def setDefault (d : PyDict α) (k : String) (v : Option α) : PyDict α :=
  match v with
  | some v => if (d.get? k).isSome then d else d.set k v
  | none => d

/-- `d.update(items)`: every item is assigned in turn. -/
def update (d : PyDict α) (items : List (String × α)) : PyDict α :=
  items.foldl (fun d item => d.set item.1 item.2) d

/-- `dict(items)`. -/
def ofItems (items : List (String × α)) : PyDict α := empty.update items

theorem get?_set (d : PyDict α) (k : String) (v : α) (j : String) :
    (d.set k v).get? j = if j = k then some v else d.get? j :=
  Entries.lookup_set d.entries k v j

theorem get?_update (d : PyDict α) {items : List (String × α)} (h : (items.map Prod.fst).Nodup)
    (k : String) : (d.update items).get? k = (items.lookup k).or (d.get? k) := by
  induction items generalizing d with
  | nil => rfl
  | cons e items ih =>
      obtain ⟨hnew, hrest⟩ := List.nodup_cons.mp h
      rw [update, List.foldl_cons]
      refine (ih (d.set e.1 e.2) hrest).trans ?_
      rw [get?_set, List.lookup_cons]
      by_cases hk : k = e.1
      · have hnone : items.lookup k = none := List.lookup_eq_none_iff.mpr fun f hf => by
          have hne : k ≠ f.1 := fun heq => hnew (hk ▸ heq ▸ List.mem_map_of_mem hf)
          simpa using hne
        simp [hk, hk ▸ hnone]
      · rw [if_neg hk, beq_eq_false_iff_ne.mpr hk]

theorem get?_ofItems {items : List (String × α)} (h : (items.map Prod.fst).Nodup) (k : String) :
    (ofItems items).get? k = items.lookup k := by
  rw [ofItems, get?_update empty h, show empty.get? k = none from rfl, Option.or_none]

end PyDict
