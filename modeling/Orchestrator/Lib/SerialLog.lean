import Mathlib.Data.List.Nodup
import Mathlib.Data.List.Perm.Basic
import Mathlib.Data.List.Sort

/-!
A log whose numbers come from an identity column, written by concurrent
transactions.

A number is drawn when a row is inserted and is used up even when the
transaction is rolled back; the row is seen by others from the commit on. So a
row may become visible after rows with higher numbers. A reader asks for the
rows above a number, in the order of their numbers.
-/
universe u

structure SerialLog {ρ : Type u} (key : ρ → Nat) where
  next : Nat
  /-- Rows of open transactions, with the transaction. -/
  pending : List (Nat × ρ)
  committed : List ρ
  nodup : ((pending.map Prod.snd ++ committed).map key).Nodup
  fresh : ∀ r ∈ pending.map Prod.snd ++ committed, key r < next

namespace SerialLog
variable {ρ : Type u} {key : ρ → Nat}

def empty : SerialLog key := ⟨1, [], [], List.nodup_nil, by simp⟩

def insert (t : SerialLog key) (tx : Nat) (row : Nat → ρ) (hrow : ∀ n, key (row n) = n) :
    SerialLog key where
  next := t.next + 1
  pending := (tx, row t.next) :: t.pending
  committed := t.committed
  nodup := by
    refine List.nodup_cons.mpr ⟨fun hmem => ?_, t.nodup⟩
    obtain ⟨r, hr, hkey⟩ := List.mem_map.mp hmem
    have hlt := t.fresh r hr
    rw [hkey, hrow] at hlt
    exact absurd hlt (Nat.lt_irrefl _)
  fresh := by
    intro r hr
    cases List.mem_cons.mp hr with
    | inl h =>
        rw [h, hrow]
        exact Nat.lt_succ_self _
    | inr h => exact Nat.lt_succ_of_lt (t.fresh r h)

/-- The rows a transaction has inserted. -/
def rowsOf (t : SerialLog key) (tx : Nat) : List ρ :=
  (t.pending.filter (fun p => p.1 = tx)).map Prod.snd

theorem rest_perm (t : SerialLog key) (tx : Nat) :
    ((t.pending.filter (fun p => !decide (p.1 = tx))).map Prod.snd ++
      (t.rowsOf tx ++ t.committed)).Perm (t.pending.map Prod.snd ++ t.committed) := by
  have hsplit := (List.filter_append_perm (fun p : Nat × ρ => decide (p.1 = tx)) t.pending).map
    Prod.snd
  rw [List.map_append] at hsplit
  rw [← List.append_assoc]
  exact (List.perm_append_comm.trans hsplit).append_right _

def commit (t : SerialLog key) (tx : Nat) : SerialLog key where
  next := t.next
  pending := t.pending.filter (fun p => !decide (p.1 = tx))
  committed := t.rowsOf tx ++ t.committed
  nodup := ((t.rest_perm tx).map key).nodup_iff.mpr t.nodup
  fresh := fun r hr => t.fresh r ((t.rest_perm tx).mem_iff.mp hr)

def rollback (t : SerialLog key) (tx : Nat) : SerialLog key where
  next := t.next
  pending := t.pending.filter (fun p => !decide (p.1 = tx))
  committed := t.committed
  nodup := by
    have hsub := ((List.filter_sublist (l := t.pending)
      (p := fun p => !decide (p.1 = tx))).map Prod.snd).append_right t.committed
    exact t.nodup.sublist (hsub.map key)
  fresh := fun r hr => by
    refine t.fresh r (List.mem_append.mpr ?_)
    cases List.mem_append.mp hr with
    | inl h => exact .inl (((List.filter_sublist).map Prod.snd).subset h)
    | inr h => exact .inr h

theorem mem_commit {t : SerialLog key} {tx : Nat} {r : ρ} :
    r ∈ (t.commit tx).committed ↔ r ∈ t.rowsOf tx ∨ r ∈ t.committed := List.mem_append

/-- A row that was not committed has a number of its own. -/
theorem key_ne_of_mem_rowsOf {t : SerialLog key} {tx : Nat} {r c : ρ} (hr : r ∈ t.rowsOf tx)
    (hc : c ∈ t.committed) : key r ≠ key c := by
  have hpending : r ∈ t.pending.map Prod.snd := ((List.filter_sublist).map Prod.snd).subset hr
  have hdisjoint := (List.nodup_append.mp (List.map_append ▸ t.nodup)).2.2
  exact hdisjoint _ (List.mem_map_of_mem hpending) _ (List.mem_map_of_mem hc)

theorem nodup_committed (t : SerialLog key) : (t.committed.map key).Nodup :=
  (List.nodup_append.mp (List.map_append ▸ t.nodup)).2.1

/-- `SELECT ... WHERE p AND key > cursor ORDER BY key`. -/
def above (t : SerialLog key) (p : ρ → Bool) (cursor : Int) : List ρ :=
  (t.committed.filter (fun r => p r && cursor < key r)).insertionSort
    (fun r s => key r ≤ key s)

theorem mem_above {t : SerialLog key} {p : ρ → Bool} {cursor : Int} {r : ρ} :
    r ∈ t.above p cursor ↔ r ∈ t.committed ∧ p r = true ∧ cursor < key r := by
  rw [above, List.mem_insertionSort, List.mem_filter, Bool.and_eq_true, decide_eq_true_iff]

/-- The rows come in strictly increasing order. -/
theorem pairwise_above (t : SerialLog key) (p : ρ → Bool) (cursor : Int) :
    (t.above p cursor).Pairwise (fun r s => key r < key s) := by
  have : Std.Total (fun r s : ρ => key r ≤ key s) := ⟨fun r s => Nat.le_total (key r) (key s)⟩
  have : IsTrans ρ (fun r s => key r ≤ key s) := ⟨fun _ _ _ => Nat.le_trans⟩
  have hsorted : (t.above p cursor).Pairwise (fun r s => key r ≤ key s) :=
    List.pairwise_insertionSort _ _
  have hdistinct : ((t.above p cursor).map key).Nodup := by
    have hperm : (t.above p cursor).Perm (t.committed.filter fun r => p r && cursor < key r) :=
      List.perm_insertionSort _ _
    rw [(hperm.map key).nodup_iff]
    exact t.nodup_committed.sublist (List.filter_sublist.map key)
  exact (hsorted.and (List.pairwise_map.mp hdistinct)).imp fun h => Nat.lt_of_le_of_ne h.1 h.2

end SerialLog
