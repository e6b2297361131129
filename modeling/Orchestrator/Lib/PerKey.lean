import Mathlib.Data.List.Nodup
import Mathlib.Logic.Function.Basic

/-!
Accumulators that are kept per key, and lists in first-seen order.

An event is routed to the accumulator of one key, with what it adds there, or to
none. What a key has gathered is decided by its own events, in their order. The
second part is the gathering of entries by an identity: an entry stays where it
was first seen and later ones with its identity are passed over.
-/
universe u v w x

namespace PerKey
variable {ε : Type u} {κ : Type v} {δ : Type w} {σ : Type x} [DecidableEq κ]
  (route : ε → Option (κ × δ)) (merge : σ → δ → σ)

/-- The accumulators after an event. -/
def accumulate (acc : κ → σ) (event : ε) : κ → σ :=
  match route event with
  | none => acc
  | some (k, added) => Function.update acc k (merge (acc k) added)

/-- What an event adds to a key. -/
def addition (k : κ) (event : ε) : Option δ :=
  match route event with
  | none => none
  | some (l, added) => if l = k then some added else none

/-- The events that are routed to a key. -/
def own (k : κ) (events : List ε) : List ε :=
  events.filter fun event => (addition route k event).isSome

/-- What the events of a key add to it, in order. -/
def additions (k : κ) (events : List ε) : List δ := events.filterMap (addition route k)

theorem accumulate_apply (acc : κ → σ) (event : ε) (k : κ) :
    accumulate route merge acc event k = (addition route k event).elim (acc k) (merge (acc k)) := by
  cases hroute : route event with
  | none => simp only [accumulate, addition, hroute, Option.elim_none]
  | some routed =>
      by_cases hk : routed.1 = k
      · subst hk
        simp only [accumulate, addition, hroute, if_true, Option.elim_some, Function.update_self]
      · simp only [accumulate, addition, hroute, if_neg hk, Option.elim_none,
          Function.update_of_ne (Ne.symm hk)]

/-- A key has gathered what its own events add, from what it had. -/
theorem foldl_accumulate (acc : κ → σ) (events : List ε) (k : κ) :
    events.foldl (accumulate route merge) acc k
      = (additions route k events).foldl merge (acc k) := by
  induction events generalizing acc with
  | nil => rfl
  | cons event events ih =>
      rw [List.foldl_cons, ih, accumulate_apply, additions, additions]
      cases hadded : addition route k event with
      | none => rw [List.filterMap_cons_none hadded, Option.elim_none]
      | some added => rw [List.filterMap_cons_some hadded, Option.elim_some, List.foldl_cons]

/-- The events of other keys add nothing. -/
theorem additions_own (k : κ) (events : List ε) :
    additions route k (own route k events) = additions route k events := by
  rw [additions, own, List.filterMap_filter]
  refine List.filterMap_congr ?_
  intro event _
  cases addition route k event <;> rfl

theorem foldl_own (acc : κ → σ) (events : List ε) (k : κ) :
    (own route k events).foldl (accumulate route merge) acc k
      = events.foldl (accumulate route merge) acc k := by
  rw [foldl_accumulate, foldl_accumulate, additions_own]

end PerKey

section FirstSeen
variable {α : Type u} {κ : Type v} [DecidableEq κ] (key : α → κ)

/-- The entries with the first of each key. -/
def firstSeen : List α → List α
  | [] => []
  | a :: rest => a :: (firstSeen rest).filter fun b => key b ≠ key a

theorem firstSeen_sublist (l : List α) : (firstSeen key l).Sublist l := by
  induction l with
  | nil => exact List.Sublist.refl []
  | cons a rest ih => exact (List.filter_sublist.trans ih).cons_cons a

theorem nodup_firstSeen (l : List α) : ((firstSeen key l).map key).Nodup := by
  induction l with
  | nil => exact List.nodup_nil
  | cons a rest ih =>
      rw [firstSeen, List.map_cons, List.nodup_cons]
      refine ⟨?_, ih.sublist (List.filter_sublist.map key)⟩
      intro hmem
      obtain ⟨b, hb, hkey⟩ := List.mem_map.mp hmem
      exact of_decide_eq_true (List.mem_filter.mp hb).2 hkey

theorem mem_map_firstSeen {k : κ} (l : List α) : k ∈ (firstSeen key l).map key ↔ k ∈ l.map key := by
  induction l with
  | nil => rfl
  | cons a rest ih =>
      rw [firstSeen, List.map_cons, List.map_cons, List.mem_cons, List.mem_cons, ← ih]
      by_cases hk : k = key a
      · simp [hk]
      · simp only [hk, false_or, List.mem_map, List.mem_filter, decide_eq_true_eq]
        constructor
        · rintro ⟨b, ⟨hb, _⟩, hkey⟩
          exact ⟨b, hb, hkey⟩
        · rintro ⟨b, hb, hkey⟩
          exact ⟨b, ⟨hb, hkey ▸ hk⟩, hkey⟩

/-- Entries that come later are added behind those that were there. -/
theorem firstSeen_append (l r : List α) :
    firstSeen key (l ++ r)
      = firstSeen key l ++ (firstSeen key r).filter fun b => key b ∉ l.map key := by
  induction l with
  | nil => simp [firstSeen]
  | cons a l ih =>
      rw [List.cons_append, firstSeen, ih, firstSeen, List.filter_append, List.filter_filter,
        List.cons_append]
      refine congrArg (a :: (firstSeen key l).filter _ ++ ·) (List.filter_congr ?_)
      intro b _
      simp [not_or]

theorem firstSeen_concat_of_mem {l : List α} {a : α} (h : key a ∈ l.map key) :
    firstSeen key (l ++ [a]) = firstSeen key l := by
  have hnone : (firstSeen key [a]).filter (fun b => key b ∉ l.map key) = [] := by
    refine List.filter_eq_nil_iff.mpr fun b hb => ?_
    rw [List.mem_singleton.mp hb, decide_eq_true_eq, not_not]
    exact h
  rw [firstSeen_append, hnone, List.append_nil]

theorem firstSeen_concat_of_not_mem {l : List α} {a : α} (h : key a ∉ l.map key) :
    firstSeen key (l ++ [a]) = firstSeen key l ++ [a] := by
  have hone : (firstSeen key [a]).filter (fun b => key b ∉ l.map key) = [a] := by
    refine List.filter_eq_self.mpr fun b hb => ?_
    rw [List.mem_singleton.mp hb, decide_eq_true_eq]
    exact h
  rw [firstSeen_append, hone]

theorem firstSeen_prefix (l r : List α) : firstSeen key l <+: firstSeen key (l ++ r) := by
  rw [firstSeen_append]
  exact List.prefix_append _ _

theorem firstSeen_of_nodup {l : List α} (h : (l.map key).Nodup) : firstSeen key l = l := by
  induction l with
  | nil => rfl
  | cons a rest ih =>
      rw [List.map_cons, List.nodup_cons] at h
      rw [firstSeen, ih h.2]
      refine congrArg (a :: ·) (List.filter_eq_self.mpr ?_)
      intro b hb
      refine decide_eq_true ?_
      intro hkey
      exact h.1 (hkey ▸ List.mem_map_of_mem hb)

/-- What was gathered stands for the entries it was gathered from. -/
theorem firstSeen_firstSeen_append (l r : List α) :
    firstSeen key (firstSeen key l ++ r) = firstSeen key (l ++ r) := by
  rw [firstSeen_append, firstSeen_append, firstSeen_of_nodup key (nodup_firstSeen key l)]
  simp only [mem_map_firstSeen]

end FirstSeen
