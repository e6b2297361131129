import Mathlib.Algebra.Group.Basic
import Mathlib.Algebra.BigOperators.Group.List.Basic
import Mathlib.Data.List.Nodup
import Mathlib.Tactic.Abel

/-!
Relational tables with a primary key.

A table is the list of its rows in insertion order together with the evidence
that no key occurs twice. Insertion is partial (a repeated key is refused), an
update keeps every row in place and may not move a key. The sums at the end are
the accounting rules: how a weight summed over a table reacts to one insertion
and to the update of one row.
-/
universe u v w

structure KeyedTable {ρ : Type u} {κ : Type v} (key : ρ → κ) where
  rows : List ρ
  nodup : (rows.map key).Nodup

namespace KeyedTable
variable {ρ : Type u} {κ : Type v} {key : ρ → κ}

instance [DecidableEq ρ] : DecidableEq (KeyedTable key)
  | ⟨rows, _⟩, ⟨rows', _⟩ => decidable_of_iff (rows = rows') (by simp)

theorem ext_rows {t t' : KeyedTable key} (h : t.rows = t'.rows) : t = t' := by
  cases t; cases t'; simpa using h

def empty : KeyedTable key := ⟨[], List.nodup_nil⟩

/-- `UPDATE ... SET f WHERE p`; `f` may not change the key. -/
def updateWhere (t : KeyedTable key) (p : ρ → Bool) (f : ρ → ρ)
    (hf : ∀ r, key (f r) = key r) : KeyedTable key :=
  ⟨t.rows.map (fun r => if p r then f r else r), by
    have h : (key ∘ fun r => if p r then f r else r) = key := by
      funext r
      by_cases hp : p r <;> simp [hp, hf]
    rw [List.map_map, h]
    exact t.nodup⟩

/-- `DELETE ... WHERE p`. -/
def deleteWhere (t : KeyedTable key) (p : ρ → Bool) : KeyedTable key :=
  ⟨t.rows.filter (fun r => !p r), t.nodup.sublist (List.filter_sublist.map key)⟩

theorem eq_of_key_eq (t : KeyedTable key) {r r' : ρ} (hr : r ∈ t.rows)
    (hr' : r' ∈ t.rows) (h : key r = key r') : r = r' :=
  List.inj_on_of_nodup_map t.nodup hr hr' h

@[simp] theorem rows_empty : (empty : KeyedTable key).rows = [] := rfl

@[simp] theorem rows_updateWhere (t : KeyedTable key) (p : ρ → Bool) (f : ρ → ρ)
    (hf : ∀ r, key (f r) = key r) :
    (t.updateWhere p f hf).rows = t.rows.map (fun r => if p r then f r else r) := rfl

@[simp] theorem rows_deleteWhere (t : KeyedTable key) (p : ρ → Bool) :
    (t.deleteWhere p).rows = t.rows.filter (fun r => !p r) := rfl

variable {M : Type w} [AddCommGroup M]

def sum (t : KeyedTable key) (weight : ρ → M) : M := (t.rows.map weight).sum

@[simp] theorem sum_empty (weight : ρ → M) :
    (empty : KeyedTable key).sum weight = 0 := rfl

theorem sum_congr {t : KeyedTable key} {weight weight' : ρ → M}
    (h : ∀ r ∈ t.rows, weight r = weight' r) : t.sum weight = t.sum weight' := by
  rw [sum, sum, List.map_congr_left h]

theorem sum_add (t : KeyedTable key) (weight weight' : ρ → M) :
    t.sum (fun r => weight r + weight' r) = t.sum weight + t.sum weight' :=
  List.sum_map_add

variable [DecidableEq κ]

def find? (t : KeyedTable key) (k : κ) : Option ρ :=
  t.rows.find? (fun r => key r = k)

/-- `INSERT`: `none` when the key is taken. -/
def insert? (t : KeyedTable key) (r : ρ) : Option (KeyedTable key) :=
  if h : key r ∈ t.rows.map key then none
  else some ⟨t.rows ++ [r], by
    rw [List.map_append, List.nodup_append]
    refine ⟨t.nodup, by simp, ?_⟩
    intro a ha b hb
    rw [List.map_singleton, List.mem_singleton] at hb
    subst hb
    exact fun e => h (e ▸ ha)⟩

/-- `UPDATE ... SET f WHERE key = k`. -/
def update (t : KeyedTable key) (k : κ) (f : ρ → ρ)
    (hf : ∀ r, key (f r) = key r) : KeyedTable key :=
  t.updateWhere (fun r => key r = k) f hf

/-- `INSERT ... ON CONFLICT DO NOTHING`. -/
def insertNew (t : KeyedTable key) (r : ρ) : KeyedTable key :=
  (t.insert? r).getD t

/-- `INSERT ... ON CONFLICT DO UPDATE SET f`. -/
def upsert (t : KeyedTable key) (r : ρ) (f : ρ → ρ) (hf : ∀ r, key (f r) = key r) :
    KeyedTable key :=
  (t.insert? r).getD (t.update (key r) f hf)

theorem find?_sound {t : KeyedTable key} {k : κ} {r : ρ} (h : t.find? k = some r) :
    r ∈ t.rows ∧ key r = k :=
  ⟨List.mem_of_find?_eq_some h, of_decide_eq_true (List.find?_some (p := fun r => key r = k) h)⟩

theorem find?_eq_some_iff {t : KeyedTable key} {k : κ} {r : ρ} :
    t.find? k = some r ↔ r ∈ t.rows ∧ key r = k := by
  refine ⟨find?_sound, ?_⟩
  intro ⟨hr, hk⟩
  cases hf : t.find? k with
  | none =>
      have hall := List.find?_eq_none.mp hf r hr
      simp [hk] at hall
  | some r' =>
      have hk' := (find?_sound hf).2
      rw [t.eq_of_key_eq (find?_sound hf).1 hr (hk'.trans hk.symm)]

theorem find?_eq_none_iff {t : KeyedTable key} {k : κ} :
    t.find? k = none ↔ ∀ r ∈ t.rows, key r ≠ k := by
  simp [find?, List.find?_eq_none]

theorem find?_key {t : KeyedTable key} {k : κ} {r : ρ} (h : t.find? k = some r) :
    key r = k :=
  (find?_eq_some_iff.mp h).2

theorem find?_mem {t : KeyedTable key} {k : κ} {r : ρ} (h : t.find? k = some r) :
    r ∈ t.rows :=
  (find?_eq_some_iff.mp h).1

theorem find?_of_mem {t : KeyedTable key} {r : ρ} (h : r ∈ t.rows) :
    t.find? (key r) = some r :=
  find?_eq_some_iff.mpr ⟨h, rfl⟩

@[simp] theorem find?_empty (k : κ) : (empty : KeyedTable key).find? k = none := rfl

theorem insert?_eq_some_iff {t t' : KeyedTable key} {r : ρ} :
    t.insert? r = some t' ↔ t.find? (key r) = none ∧ t'.rows = t.rows ++ [r] := by
  have hiff : key r ∈ t.rows.map key ↔ ¬ t.find? (key r) = none := by
    simp [find?_eq_none_iff]
  unfold insert?
  split
  · rename_i h
    simp [hiff.mp h]
  · rename_i h
    have hn : t.find? (key r) = none := by simpa [hiff] using h
    simp only [Option.some.injEq, hn, true_and]
    exact ⟨fun e => e ▸ rfl, fun e => ext_rows e.symm⟩

theorem insert?_eq_none_iff {t : KeyedTable key} {r : ρ} :
    t.insert? r = none ↔ (t.find? (key r)).isSome := by
  unfold insert?
  split <;> rename_i h <;> simp [find?, List.find?_isSome] <;> simpa using h

theorem exists_insert {t : KeyedTable key} {r : ρ} (h : t.find? (key r) = none) :
    ∃ t', t.insert? r = some t' := by
  refine Option.isSome_iff_exists.mp (Option.isSome_iff_ne_none.mpr fun hnone => ?_)
  simp [insert?_eq_none_iff, h] at hnone

theorem find?_insert {t t' : KeyedTable key} {r : ρ} (h : t.insert? r = some t') (k : κ) :
    t'.find? k = if key r = k then some r else t.find? k := by
  obtain ⟨hn, hrows⟩ := insert?_eq_some_iff.mp h
  rw [find?, hrows, List.find?_append]
  by_cases hk : key r = k
  · subst hk
    rw [find?] at hn
    simp [hn]
  · simp [hk, find?]

theorem rows_insert {t t' : KeyedTable key} {r : ρ} (h : t.insert? r = some t') :
    t'.rows = t.rows ++ [r] :=
  (insert?_eq_some_iff.mp h).2

theorem find?_updateWhere (t : KeyedTable key) (p : ρ → Bool) (f : ρ → ρ)
    (hf : ∀ r, key (f r) = key r) (k : κ) :
    (t.updateWhere p f hf).find? k =
      (t.find? k).map (fun r => if p r then f r else r) := by
  have h : ((fun r => decide (key r = k)) ∘ fun r => if p r then f r else r) =
      fun r => decide (key r = k) := by
    funext r
    by_cases hp : p r <;> simp [hp, hf]
  rw [find?, find?, rows_updateWhere, List.find?_map, h]

theorem find?_update_self {t : KeyedTable key} {k : κ} {r : ρ} (f : ρ → ρ)
    (hf : ∀ r, key (f r) = key r) (h : t.find? k = some r) :
    (t.update k f hf).find? k = some (f r) := by
  rw [update, find?_updateWhere, h]
  simp [find?_key h]

theorem find?_update_of_ne (t : KeyedTable key) {k k' : κ} (f : ρ → ρ)
    (hf : ∀ r, key (f r) = key r) (h : k' ≠ k) :
    (t.update k f hf).find? k' = t.find? k' := by
  rw [update, find?_updateWhere]
  cases hr : t.find? k' with
  | none => rfl
  | some r => simp [find?_key hr, h]

theorem find?_update (t : KeyedTable key) (k k' : κ) (f : ρ → ρ)
    (hf : ∀ r, key (f r) = key r) :
    (t.update k f hf).find? k' =
      if k' = k then (t.find? k').map f else t.find? k' := by
  by_cases h : k' = k
  · subst h
    cases hr : t.find? k' with
    | none =>
        rw [update, find?_updateWhere, hr]
        simp
    | some r => simpa using find?_update_self f hf hr
  · simpa [h] using find?_update_of_ne t f hf h

theorem find?_upsert_of_some {t : KeyedTable key} {k : κ} {r r₀ : ρ} {f : ρ → ρ}
    (hf : ∀ r, key (f r) = key r) (hk : key r = k) (h : t.find? k = some r₀) :
    (t.upsert r f hf).find? k = some (f r₀) := by
  subst hk
  have hnone : t.insert? r = none := insert?_eq_none_iff.mpr (by simp [h])
  rw [upsert, hnone, Option.getD_none, find?_update_self f hf h]

theorem find?_insertNew (t : KeyedTable key) (r : ρ) (k : κ) :
    (t.insertNew r).find? k = (t.find? k).or (if key r = k then some r else none) := by
  rw [insertNew]
  cases h : t.insert? r with
  | none =>
      obtain ⟨r₀, hr₀⟩ := Option.isSome_iff_exists.mp (insert?_eq_none_iff.mp h)
      by_cases hk : key r = k
      · simp [← hk, hr₀]
      · simp [hk]
  | some t' =>
      rw [Option.getD_some, find?_insert h]
      by_cases hk : key r = k
      · have hnone : t.find? k = none := hk ▸ (insert?_eq_some_iff.mp h).1
        simp [hk, hnone]
      · simp [hk]

theorem find?_insertNew_of_none {t : KeyedTable key} {r : ρ} (h : t.find? (key r) = none) :
    (t.insertNew r).find? (key r) = some r := by
  rw [find?_insertNew, h, Option.none_or, if_pos rfl]

theorem find?_insertNew_of_ne (t : KeyedTable key) {r : ρ} {k : κ} (h : key r ≠ k) :
    (t.insertNew r).find? k = t.find? k := by
  rw [find?_insertNew, if_neg h, Option.or_none]

theorem find?_upsert (t : KeyedTable key) (r : ρ) (f : ρ → ρ) (hf : ∀ r, key (f r) = key r)
    (k : κ) :
    (t.upsert r f hf).find? k = if key r = k then some ((t.find? k).elim r f) else t.find? k := by
  rw [upsert]
  cases h : t.insert? r with
  | none =>
      obtain ⟨r₀, hr₀⟩ := Option.isSome_iff_exists.mp (insert?_eq_none_iff.mp h)
      rw [Option.getD_none, find?_update]
      by_cases hk : key r = k
      · subst hk
        simp [hr₀]
      · simp [hk, Ne.symm hk]
  | some t' =>
      rw [Option.getD_some, find?_insert h]
      by_cases hk : key r = k
      · have hnone : t.find? k = none := hk ▸ (insert?_eq_some_iff.mp h).1
        simp [hk, hnone]
      · simp [hk]

theorem find?_deleteKey (t : KeyedTable key) (k k' : κ) :
    (t.deleteWhere (fun r => key r = k')).find? k = if k = k' then none else t.find? k := by
  by_cases hk : k = k'
  · rw [if_pos hk, find?_eq_none_iff]
    intro r hr hkey
    simp [← hk, hkey] at hr
  · rw [if_neg hk]
    cases h : t.find? k with
    | none =>
        exact find?_eq_none_iff.mpr fun r hr =>
          find?_eq_none_iff.mp h r (List.mem_of_mem_filter hr)
    | some r =>
        have hkey := find?_key h
        refine find?_eq_some_iff.mpr ⟨List.mem_filter.mpr ⟨find?_mem h, ?_⟩, hkey⟩
        simp [hkey, hk]

/-- Of two rows that meet a condition, one has another key than a given one. -/
theorem exists_key_ne_of_one_lt {t : KeyedTable key} {p : ρ → Bool}
    (h : 1 < (t.rows.filter p).length) (k : κ) : ∃ r ∈ t.rows, p r = true ∧ key r ≠ k := by
  by_contra hall
  have hkeys : ∀ k' ∈ (t.rows.filter p).map key, k' = k := by
    intro k' hk'
    obtain ⟨r, hr, rfl⟩ := List.mem_map.mp hk'
    by_contra hne
    exact hall ⟨r, List.mem_of_mem_filter hr, List.of_mem_filter hr, hne⟩
  have hnodup : ((t.rows.filter p).map key).Nodup :=
    t.nodup.sublist (List.filter_sublist.map key)
  rw [List.eq_replicate_of_mem hkeys, List.nodup_replicate, List.length_map] at hnodup
  omega

omit [DecidableEq κ] in
/-- Two rows of different keys that meet a condition are two of those that meet it. -/
theorem one_lt_of_key_ne {t : KeyedTable key} {p : ρ → Bool} {r r' : ρ} (hr : r ∈ t.rows)
    (hr' : r' ∈ t.rows) (hp : p r = true) (hp' : p r' = true) (hne : key r' ≠ key r) :
    1 < (t.rows.filter p).length := by
  have hmem : r ∈ t.rows.filter p := List.mem_filter.mpr ⟨hr, hp⟩
  have hmem' : r' ∈ t.rows.filter p := List.mem_filter.mpr ⟨hr', hp'⟩
  by_contra hfew
  cases hrows : t.rows.filter p with
  | nil => simp [hrows] at hmem
  | cons first rest =>
      have hrest : rest = [] := by
        rw [hrows, List.length_cons] at hfew
        exact List.length_eq_zero_iff.mp (by omega)
      subst hrest
      rw [hrows, List.mem_singleton] at hmem hmem'
      exact hne (by rw [hmem, hmem'])

theorem update_eq_self {t : KeyedTable key} {k : κ} {r : ρ} {f : ρ → ρ}
    (hf : ∀ r, key (f r) = key r) (h : t.find? k = some r) (hr : f r = r) :
    t.update k f hf = t := by
  refine ext_rows ((List.map_congr_left fun r' hr' => ?_).trans (List.map_id _))
  by_cases hk : key r' = k
  · obtain rfl := t.eq_of_key_eq hr' (find?_mem h) (hk.trans (find?_key h).symm)
    simp [hk, hr]
  · simp [hk]

theorem insertNew_of_some {t : KeyedTable key} {r r₀ : ρ} (h : t.find? (key r) = some r₀) :
    t.insertNew r = t := by
  have hnone : t.insert? r = none := insert?_eq_none_iff.mpr (by simp [h])
  rw [insertNew, hnone, Option.getD_none]

theorem exists_find?_insertNew (t : KeyedTable key) (r : ρ) :
    ∃ r', (t.insertNew r).find? (key r) = some r' := by
  cases h : t.find? (key r) with
  | some r₀ => exact ⟨r₀, by rw [insertNew_of_some h, h]⟩
  | none =>
      obtain ⟨t', ht'⟩ := exists_insert h
      exact ⟨r, by rw [insertNew, ht', Option.getD_some, find?_insert ht', if_pos rfl]⟩

section Change
variable {new : ρ → Prop} {step : ρ → ρ → Prop} {t t' : KeyedTable key}

/-- What one statement does to a table: nothing, one insertion, or an update of
some rows in place. -/
inductive Change (new : ρ → Prop) (step : ρ → ρ → Prop) (t : KeyedTable key) :
    KeyedTable key → Prop where
  | unchanged : Change new step t t
  | inserted {r : ρ} {t' : KeyedTable key} (h : t.insert? r = some t') (hr : new r) :
      Change new step t t'
  | updated (p : ρ → Bool) (f : ρ → ρ) (hf : ∀ r, key (f r) = key r)
      (hstep : ∀ r ∈ t.rows, p r → step r (f r)) : Change new step t (t.updateWhere p f hf)

namespace Change

theorem insertNew {r : ρ} (hr : new r) :
    Change new step t (t.insertNew r) := by
  rw [KeyedTable.insertNew]
  cases h : t.insert? r with
  | none => exact .unchanged
  | some t' => exact .inserted h hr

theorem update {k : κ} {f : ρ → ρ} (hf : ∀ r, key (f r) = key r) {r : ρ}
    (h : t.find? k = some r) (hr : step r (f r)) : Change new step t (t.update k f hf) :=
  .updated _ f hf fun r' hr' hk => by
    rwa [t.eq_of_key_eq hr' (find?_mem h) ((of_decide_eq_true hk).trans (find?_key h).symm)]

theorem upsert {r : ρ} {f : ρ → ρ} (hf : ∀ r, key (f r) = key r)
    (hr : new r)
    (hstep : ∀ r', t.find? (key r) = some r' → step r' (f r')) :
    Change new step t (t.upsert r f hf) := by
  rw [KeyedTable.upsert]
  cases h : t.insert? r with
  | some t' => exact .inserted h hr
  | none =>
      obtain ⟨r', hr'⟩ := Option.isSome_iff_exists.mp (insert?_eq_none_iff.mp h)
      exact update hf hr' (hstep r' hr')

/-- No row is lost, and each one is kept or takes one step. -/
theorem find?_forward (h : Change new step t t') {k : κ} {r : ρ} (hr : t.find? k = some r) :
    ∃ r', t'.find? k = some r' ∧ (r' = r ∨ step r r') := by
  cases h with
  | unchanged => exact ⟨r, hr, Or.inl rfl⟩
  | @inserted r₀ _ h _ =>
      have hne : key r₀ ≠ k := by
        rintro rfl
        simp [(insert?_eq_some_iff.mp h).1] at hr
      exact ⟨r, by rw [find?_insert h, if_neg hne, hr], Or.inl rfl⟩
  | updated p f hf hstep =>
      refine ⟨if p r then f r else r, by rw [find?_updateWhere, hr]; rfl, ?_⟩
      by_cases hp : p r
      · exact Or.inr (by simpa [hp] using hstep r (find?_mem hr) hp)
      · exact Or.inl (by simp [hp])

/-- Every row that is there afterwards was inserted or comes from an old one. -/
theorem find?_backward (h : Change new step t t') {k : κ} {r' : ρ}
    (hr' : t'.find? k = some r') :
    (t.find? k = none ∧ new r') ∨ ∃ r, t.find? k = some r ∧ (r' = r ∨ step r r') := by
  cases hr : t.find? k with
  | some r =>
      obtain ⟨r'', hr'', hstep⟩ := h.find?_forward hr
      obtain rfl := Option.some.inj (hr''.symm.trans hr')
      exact Or.inr ⟨r, rfl, hstep⟩
  | none =>
      cases h with
      | unchanged => simp [hr] at hr'
      | @inserted r₀ _ h hnew =>
          rw [find?_insert h, hr] at hr'
          by_cases hk : key r₀ = k
          · rw [if_pos hk] at hr'
            exact Or.inl ⟨rfl, Option.some.inj hr' ▸ hnew⟩
          · simp [hk] at hr'
      | updated p f hf hstep => simp [find?_updateWhere, hr] at hr'

/-- A property of rows that every new row has and every step keeps. -/
theorem forall_rows (h : Change new step t t') {P : ρ → Prop}
    (hnew : ∀ r, new r → P r) (hstep : ∀ r r', P r → step r r' → P r')
    (ht : ∀ r ∈ t.rows, P r) : ∀ r ∈ t'.rows, P r := by
  intro r' hr'
  rcases h.find?_backward (find?_of_mem hr') with ⟨-, hn⟩ | ⟨r, hr, rfl | hs⟩
  · exact hnew r' hn
  · exact ht _ (find?_mem hr)
  · exact hstep r r' (ht r (find?_mem hr)) hs

/-- Columns that no step writes only ever grow by the inserted row. -/
theorem map_rows {α : Type w} (h : Change new step t t') {g : ρ → α}
    (hstep : ∀ r r', step r r' → g r' = g r) :
    t'.rows.map g = t.rows.map g ∨
      ∃ r, new r ∧ t.find? (key r) = none ∧ t'.rows.map g = t.rows.map g ++ [g r] := by
  cases h with
  | unchanged => exact Or.inl rfl
  | @inserted r _ h hr =>
      refine Or.inr ⟨r, hr, (insert?_eq_some_iff.mp h).1, ?_⟩
      rw [rows_insert h, List.map_append, List.map_singleton]
  | updated p f hf hs =>
      left
      rw [rows_updateWhere, List.map_map]
      refine List.map_congr_left fun r hr => ?_
      by_cases hp : p r
      · simpa [hp] using hstep _ _ (hs r hr hp)
      · simp [hp]

/-- The same for the rows of a kind that no step changes. -/
theorem filter_rows {α : Type w} (h : Change new step t t') {p : ρ → Bool} {g : ρ → α}
    (hstep : ∀ r r', step r r' → p r' = p r ∧ g r' = g r) :
    (t'.rows.filter p).map g = (t.rows.filter p).map g ∨
      ∃ r, new r ∧ t.find? (key r) = none ∧
        (t'.rows.filter p).map g =
          (t.rows.filter p).map g ++ if p r then [g r] else [] := by
  cases h with
  | unchanged => exact Or.inl rfl
  | @inserted r _ h hr =>
      refine Or.inr ⟨r, hr, (insert?_eq_some_iff.mp h).1, ?_⟩
      rw [rows_insert h, List.filter_append, List.map_append]
      by_cases hp : p r <;> simp [hp]
  | updated q f hf hs =>
      left
      have hkept (r : ρ) (hr : r ∈ t.rows) :
          p (if q r then f r else r) = p r ∧ g (if q r then f r else r) = g r := by
        by_cases hq : q r
        · simpa [hq] using hstep _ _ (hs r hr hq)
        · simp [hq]
      have hfilter : t.rows.filter (p ∘ fun r => if q r then f r else r) = t.rows.filter p :=
        List.filter_congr fun r hr => (hkept r hr).1
      rw [rows_updateWhere, List.filter_map, List.map_map, hfilter]
      exact List.map_congr_left fun r hr => (hkept r (List.mem_of_mem_filter hr)).2

/-- A relation between earlier and later rows is kept when it holds towards
every inserted row and no step breaks it. -/
theorem pairwise_rows (h : Change new step t t') {R : ρ → ρ → Prop}
    (hnew : ∀ r, new r → t.find? (key r) = none → ∀ r₀ ∈ t.rows, R r₀ r)
    (hstep : ∀ a a' b b', R a b → (a' = a ∨ step a a') → (b' = b ∨ step b b') → R a' b')
    (ht : t.rows.Pairwise R) : t'.rows.Pairwise R := by
  cases h with
  | unchanged => exact ht
  | @inserted r _ h hr =>
      rw [rows_insert h]
      refine List.pairwise_append.mpr ⟨ht, List.pairwise_singleton _ _, ?_⟩
      intro r₀ hr₀ b hb
      rw [List.mem_singleton.mp hb]
      exact hnew r hr (insert?_eq_some_iff.mp h).1 r₀ hr₀
  | updated p f hf hs =>
      rw [rows_updateWhere, List.pairwise_map]
      have hmoved (r : ρ) (hr : r ∈ t.rows) : (if p r then f r else r) = r ∨
          step r (if p r then f r else r) := by
        by_cases hp : p r
        · exact Or.inr (by simpa [hp] using hs r hr hp)
        · exact Or.inl (by simp [hp])
      exact ht.imp_of_mem fun ha hb hR => hstep _ _ _ _ hR (hmoved _ ha) (hmoved _ hb)

end Change

end Change

theorem sum_insert {t t' : KeyedTable key} {r : ρ} (h : t.insert? r = some t')
    (weight : ρ → M) : t'.sum weight = t.sum weight + weight r := by
  rw [sum, sum, rows_insert h]
  simp

private theorem sum_map_eq_of_forall_ne {k : κ} {f : ρ → ρ} {weight weight' : ρ → M} :
    ∀ {rows : List ρ}, k ∉ rows.map key →
      (∀ r ∈ rows, key r ≠ k → weight' r = weight r) →
      (rows.map (fun r => weight' (if key r = k then f r else r))).sum =
        (rows.map weight).sum
  | [], _, _ => rfl
  | r :: rows, hk, hw => by
      simp only [List.map_cons, List.mem_cons, not_or] at hk
      have hr : key r ≠ k := fun e => hk.1 e.symm
      have ih := sum_map_eq_of_forall_ne (f := f) hk.2
        (fun x hx => hw x (List.mem_cons_of_mem r hx))
      simp only [List.map_cons, List.sum_cons, if_neg hr, ih]
      rw [hw r List.mem_cons_self hr]

private theorem sum_map_update {k : κ} {f : ρ → ρ} {weight weight' : ρ → M} {r₀ : ρ} :
    ∀ {rows : List ρ}, (rows.map key).Nodup → r₀ ∈ rows → key r₀ = k →
      (∀ r ∈ rows, key r ≠ k → weight' r = weight r) →
      (rows.map (fun r => weight' (if key r = k then f r else r))).sum =
        (rows.map weight).sum - weight r₀ + weight' (f r₀)
  | [], _, h, _, _ => absurd h List.not_mem_nil
  | r :: rows, hn, hmem, hk, hw => by
      simp only [List.map_cons, List.nodup_cons] at hn
      by_cases hr : key r = k
      · -- the updated row is the head, so no row of the tail has its key
        have hne : k ∉ rows.map key := hr ▸ hn.1
        have heq : r₀ = r := by
          rcases List.mem_cons.mp hmem with e | hmem'
          · exact e
          · exact absurd (hk ▸ List.mem_map_of_mem hmem') hne
        have htail := sum_map_eq_of_forall_ne (f := f) hne
          (fun x hx => hw x (List.mem_cons_of_mem r hx))
        subst heq
        simp only [List.map_cons, List.sum_cons, if_pos hr, htail]
        abel
      · have hmem' : r₀ ∈ rows := by
          rcases List.mem_cons.mp hmem with e | hmem'
          · exact absurd (e ▸ hk) hr
          · exact hmem'
        have ih := sum_map_update (f := f) hn.2 hmem' hk
          (fun x hx => hw x (List.mem_cons_of_mem r hx))
        simp only [List.map_cons, List.sum_cons, if_neg hr, ih]
        rw [hw r List.mem_cons_self hr]
        abel

/-- Updating the row of one key exchanges that row's weight; the weight itself
may change too, as long as it changes on no other row. -/
theorem sum_update {t : KeyedTable key} {k : κ} {r : ρ} (f : ρ → ρ)
    (hf : ∀ r, key (f r) = key r) (h : t.find? k = some r)
    (weight weight' : ρ → M)
    (hw : ∀ x ∈ t.rows, key x ≠ k → weight' x = weight x) :
    (t.update k f hf).sum weight' = t.sum weight - weight r + weight' (f r) := by
  have hmap := sum_map_update (f := f) t.nodup (find?_mem h) (find?_key h) hw
  rw [sum, sum, update, rows_updateWhere, List.map_map, ← hmap]
  congr 1
  exact List.map_congr_left fun x _ => by simp [Function.comp]

end KeyedTable
