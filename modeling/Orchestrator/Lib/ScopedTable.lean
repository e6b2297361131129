import Mathlib.Data.List.Sort

/-!
Keyed rows seen through a partial renaming of their keys.

A view keeps the rows whose key the renaming knows, under the new key. It is a
table of its own: what is written through the renaming is written to the view,
what is written elsewhere leaves it, and a listing of the view is the part of
the listing that the renaming knows. Listings are sorted stably.
-/
universe u v w x

namespace ScopedTable
variable {κ : Type u} {κ' : Type v} {δ : Type w} {ε : Type x}

/-- No two keys get one new key. -/
def Injective (f : κ → Option κ') : Prop :=
  ∀ k₁ k₂ k', f k₁ = some k' → f k₂ = some k' → k₁ = k₂

def renamed (f : κ → Option κ') (r : κ × δ) : Option (κ' × δ) := (f r.1).map fun k' => (k', r.2)

def view (f : κ → Option κ') (rows : List (κ × δ)) : List (κ' × δ) := rows.filterMap (renamed f)

variable {f : κ → Option κ'} {k : κ} {k' : κ'}

theorem view_cons_of_some {r : κ × δ} (h : f r.1 = some k') (rows : List (κ × δ)) :
    view f (r :: rows) = (k', r.2) :: view f rows :=
  List.filterMap_cons_some (by simp [renamed, h])

theorem view_cons_of_none {r : κ × δ} (h : f r.1 = none) (rows : List (κ × δ)) :
    view f (r :: rows) = view f rows :=
  List.filterMap_cons_none (by simp [renamed, h])

theorem view_filter {p : κ → Bool} {q : κ' → Bool} (h : ∀ k k', f k = some k' → p k = q k')
    (rows : List (κ × δ)) :
    view f (rows.filter fun r => p r.1) = (view f rows).filter fun r => q r.1 := by
  induction rows with
  | nil => rfl
  | cons r rows ih =>
      cases hk : f r.1 with
      | none =>
          rw [view_cons_of_none hk, ← ih, List.filter_cons]
          split
          · exact view_cons_of_none hk _
          · rfl
      | some k' =>
          rw [view_cons_of_some hk, List.filter_cons, List.filter_cons, h _ _ hk]
          split
          · rw [view_cons_of_some hk, ih]
          · exact ih

section Rows
variable [DecidableEq κ]

/-- The value at a key, `empty` where there is none. -/
def lookup (empty : δ) (k : κ) : List (κ × δ) → δ
  | [] => empty
  | r :: rows => if r.1 = k then r.2 else lookup empty k rows

/-- The value at a key is changed; a new key comes last. -/
def modify (empty : δ) (k : κ) (g : δ → δ) : List (κ × δ) → List (κ × δ)
  | [] => [(k, g empty)]
  | r :: rows => if r.1 = k then (k, g r.2) :: rows else r :: modify empty k g rows

def remove (k : κ) (rows : List (κ × δ)) : List (κ × δ) := rows.filter fun r => r.1 ≠ k

variable {empty : δ}

theorem view_modify_of_none (h : f k = none) (g : δ → δ) (rows : List (κ × δ)) :
    view f (modify empty k g rows) = view f rows := by
  induction rows with
  | nil => exact view_cons_of_none (r := (k, g empty)) h []
  | cons r rows ih =>
      by_cases hr : r.1 = k
      · rw [modify, if_pos hr, view_cons_of_none (r := (k, g r.2)) h, view_cons_of_none (hr ▸ h)]
      · rw [modify, if_neg hr]
        cases hk : f r.1 with
        | none => rw [view_cons_of_none hk, view_cons_of_none hk, ih]
        | some k₁ => rw [view_cons_of_some hk, view_cons_of_some hk, ih]

theorem view_remove_of_none (h : f k = none) (rows : List (κ × δ)) :
    view f (remove k rows) = view f rows := by
  have hall : (view f rows).filter (fun _ => true) = view f rows := List.filter_true _
  rw [remove, view_filter (p := (· ≠ k)) (q := fun _ => true), hall]
  intro k₁ k' hk
  have hne : k₁ ≠ k := fun he => by simp [← he, hk] at h
  simpa using hne

variable [DecidableEq κ']

theorem lookup_view (hf : Injective f) (h : f k = some k') (rows : List (κ × δ)) :
    lookup empty k' (view f rows) = lookup empty k rows := by
  induction rows with
  | nil => rfl
  | cons r rows ih =>
      by_cases hr : r.1 = k
      · rw [view_cons_of_some (hr ▸ h), lookup, lookup, if_pos rfl, if_pos hr]
      · rw [lookup, if_neg hr]
        cases hk : f r.1 with
        | none => rw [view_cons_of_none hk, ih]
        | some k₁ =>
            have hne : k₁ ≠ k' := fun he => hr (hf _ _ _ (he ▸ hk) h)
            rw [view_cons_of_some hk, lookup, if_neg hne, ih]

theorem view_modify_of_some (hf : Injective f) (h : f k = some k') (g : δ → δ)
    (rows : List (κ × δ)) : view f (modify empty k g rows) = modify empty k' g (view f rows) := by
  induction rows with
  | nil => exact view_cons_of_some (r := (k, g empty)) h []
  | cons r rows ih =>
      by_cases hr : r.1 = k
      · rw [modify, if_pos hr, view_cons_of_some (r := (k, g r.2)) h,
          view_cons_of_some (hr ▸ h), modify, if_pos rfl]
      · rw [modify, if_neg hr]
        cases hk : f r.1 with
        | none => rw [view_cons_of_none hk, view_cons_of_none hk, ih]
        | some k₁ =>
            have hne : k₁ ≠ k' := fun he => hr (hf _ _ _ (he ▸ hk) h)
            rw [view_cons_of_some hk, view_cons_of_some hk, modify, if_neg hne, ih]

theorem view_remove_of_some (hf : Injective f) (h : f k = some k') (rows : List (κ × δ)) :
    view f (remove k rows) = remove k' (view f rows) := by
  refine view_filter (p := (· ≠ k)) (q := (· ≠ k')) (fun k₁ k₁' hk => ?_) rows
  have hiff : k₁ = k ↔ k₁' = k' := by
    constructor
    · rintro rfl
      exact Option.some.inj (hk.symm.trans h)
    · rintro rfl
      exact hf _ _ _ hk h
  simp [hiff]

end Rows

section Listing
variable {α : Type u} {β : Type v} {r : α → α → Prop} {s : β → β → Prop} [DecidableRel r]
  [DecidableRel s] {g : α → Option β}

theorem filterMap_orderedInsert [IsTrans α r]
    (hg : ∀ a b a' b', g a = some a' → g b = some b' → (r a b ↔ s a' b')) (a : α) {l : List α}
    (hl : l.Pairwise r) :
    (l.orderedInsert r a).filterMap g =
      (g a).elim (l.filterMap g) fun a' => (l.filterMap g).orderedInsert s a' := by
  induction l with
  | nil => cases ha : g a <;> simp [ha]
  | cons b l ih =>
      obtain ⟨hb, hl'⟩ := List.pairwise_cons.mp hl
      rw [List.orderedInsert_cons]
      split
      · rename_i hab
        cases ha : g a with
        | none => rw [List.filterMap_cons_none ha, Option.elim]
        | some a' =>
            rw [List.filterMap_cons_some ha, Option.elim]
            -- every element that is left comes after `a`
            have hfirst : ∀ c' ∈ (b :: l).filterMap g, s a' c' := by
              intro c' hc'
              obtain ⟨c, hc, hgc⟩ := List.mem_filterMap.mp hc'
              refine (hg a c a' c' ha hgc).mp ?_
              cases List.mem_cons.mp hc with
              | inl he => exact he ▸ hab
              | inr hmem => exact trans_of r hab (hb c hmem)
            cases hrest : (b :: l).filterMap g with
            | nil => rfl
            | cons c' rest =>
                rw [List.orderedInsert_cons, if_pos (hfirst c' (hrest ▸ List.mem_cons_self))]
      · rename_i hab
        cases hgb : g b with
        | none => rw [List.filterMap_cons_none hgb, List.filterMap_cons_none hgb, ih hl']
        | some b' =>
            rw [List.filterMap_cons_some hgb, List.filterMap_cons_some hgb, ih hl']
            cases ha : g a with
            | none => rfl
            | some a' =>
                rw [Option.elim, Option.elim, List.orderedInsert_cons,
                  if_neg (fun hs => hab ((hg a b a' b' ha hgb).mpr hs))]

/-- A partial map that respects the order commutes with a stable sort. -/
theorem filterMap_insertionSort [IsTrans α r] [Std.Total r]
    (hg : ∀ a b a' b', g a = some a' → g b = some b' → (r a b ↔ s a' b')) (l : List α) :
    (l.insertionSort r).filterMap g = (l.filterMap g).insertionSort s := by
  induction l with
  | nil => rfl
  | cons a l ih =>
      have hsorted := List.pairwise_insertionSort r l
      rw [List.insertionSort_cons, filterMap_orderedInsert hg a hsorted, ih]
      cases ha : g a with
      | none => rw [List.filterMap_cons_none ha, Option.elim]
      | some a' => rw [List.filterMap_cons_some ha, Option.elim, List.insertionSort_cons]

theorem filter_insertionSort {r : α → α → Prop} [DecidableRel r] [IsTrans α r] [Std.Total r]
    (p : α → Bool) (l : List α) : (l.insertionSort r).filter p = (l.filter p).insertionSort r := by
  rw [← List.filterMap_eq_filter]
  refine filterMap_insertionSort (fun a b a' b' ha hb => ?_) l
  obtain ⟨rfl, -⟩ := Option.guard_eq_some_iff.mp ha
  obtain ⟨rfl, -⟩ := Option.guard_eq_some_iff.mp hb
  exact Iff.rfl

/-- The entries of the rows, sorted, each with the key of its row. -/
def listing (le : ε → ε → Prop) [DecidableRel le] (select : δ → List ε) (rows : List (κ × δ)) :
    List (κ × ε) :=
  (rows.flatMap fun r => (select r.2).map fun e => (r.1, e)).insertionSort (fun a b => le a.2 b.2)

theorem filterMap_listing {le : ε → ε → Prop} [DecidableRel le] [IsTrans ε le] [Std.Total le]
    (f : κ → Option κ') (select : δ → List ε) (rows : List (κ × δ)) :
    (listing le select rows).filterMap (renamed f) = listing le select (view f rows) := by
  have : IsTrans (κ × ε) fun a b => le a.2 b.2 := ⟨fun _ _ _ hab hbc => trans_of le hab hbc⟩
  have : Std.Total fun a b : κ × ε => le a.2 b.2 := ⟨fun a b => Std.Total.total a.2 b.2⟩
  rw [listing, filterMap_insertionSort (s := fun a b => le a.2 b.2)]
  · rw [listing]
    congr 1
    induction rows with
    | nil => rfl
    | cons r rows ih =>
        rw [List.flatMap_cons, List.filterMap_append, ih, List.filterMap_map]
        cases hk : f r.1 with
        | none =>
            rw [view_cons_of_none hk]
            have hnone : (renamed f ∘ fun e : ε => (r.1, e)) = fun _ => none := by
              funext e
              simp [renamed, hk]
            rw [hnone, List.filterMap_none, List.nil_append]
        | some k' =>
            rw [view_cons_of_some hk, List.flatMap_cons]
            have hsome : (renamed f ∘ fun e : ε => (r.1, e)) = some ∘ fun e => (k', e) := by
              funext e
              simp [renamed, hk]
            rw [hsome, List.filterMap_eq_map]
  · rintro ⟨k₁, e₁⟩ ⟨k₂, e₂⟩ a' b' ha hb
    obtain ⟨k₁', -, rfl⟩ := Option.map_eq_some_iff.mp ha
    obtain ⟨k₂', -, rfl⟩ := Option.map_eq_some_iff.mp hb
    exact Iff.rfl

/-- Cutting a list before a partial map is cutting it after the map exactly when
all that is kept has an image or nothing that is cut off does. -/
theorem filterMap_take_eq_iff {γ : Type w} (h : β → γ) (n : Nat) (l : List α) :
    ((l.take n).filterMap g).map h = ((l.filterMap g).take n).map h ↔
      (∀ a ∈ l.take n, (g a).isSome) ∨ ∀ a ∈ l.drop n, g a = none := by
  have hsplit : l.filterMap g = (l.take n).filterMap g ++ (l.drop n).filterMap g := by
    rw [← List.filterMap_append, List.take_append_drop]
  have htake := List.length_take_le n l
  have hmap : ((l.take n).filterMap g).length ≤ (l.take n).length := List.length_filterMap_le g _
  rw [hsplit, List.take_append, List.take_of_length_le (hmap.trans htake), List.map_append,
    List.self_eq_append_right, List.map_eq_nil_iff, List.take_eq_nil_iff,
    List.filterMap_eq_nil_iff]
  constructor
  · rintro (hlong | hnone)
    · exact .inl (List.filterMap_length_eq_length.mp (by omega))
    · exact .inr hnone
  · rintro (hall | hnone)
    · have hlength := List.filterMap_length_eq_length.mpr hall
      by_cases hn : n ≤ l.length
      · exact .inl (by rw [hlength, List.length_take_of_le hn, Nat.sub_self])
      · refine .inr fun a ha => ?_
        rw [List.drop_of_length_le (by omega)] at ha
        exact absurd ha List.not_mem_nil
    · exact .inr hnone

end Listing

end ScopedTable
