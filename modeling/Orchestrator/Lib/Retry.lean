import Mathlib.Data.List.Range
import Mathlib.Data.List.Basic

/-!
A call that is made again while it raises what is retried, a bounded number of
times. The attempts are the calls from the first on, up to the one that is not
retried or the last that the budget allows.
-/
universe u v w

namespace Retry
variable {β : Type u} {ε : Type v} {α : Type w}

section Loop
variable (again : ε → Bool) (outcome : β → Except ε α) (calls : Nat → β)

/-- The attempts and their result, with some retries left at the `k`-th call. -/
def run : Nat → Nat → List β × Except ε α
  | 0, k => ([calls k], outcome (calls k))
  | left + 1, k =>
      match outcome (calls k) with
      | .ok a => ([calls k], .ok a)
      | .error exc =>
          if again exc then (calls k :: (run left (k + 1)).1, (run left (k + 1)).2)
          else ([calls k], .error exc)

/-- A call whose error is retried. -/
def Retried (call : β) : Prop := ∃ exc, outcome call = .error exc ∧ again exc = true

end Loop

variable {again : ε → Bool} {outcome : β → Except ε α} {calls : Nat → β} {left k : Nat}

theorem run_of_retried (h : Retried again outcome (calls k)) :
    run again outcome calls (left + 1) k
      = (calls k :: (run again outcome calls left (k + 1)).1,
        (run again outcome calls left (k + 1)).2) := by
  obtain ⟨exc, houtcome, hagain⟩ := h
  simp only [run, houtcome, hagain, if_true]

theorem run_of_not_retried (h : ¬ Retried again outcome (calls k)) :
    run again outcome calls left k = ([calls k], outcome (calls k)) := by
  cases left with
  | zero => rfl
  | succ left =>
      cases houtcome : outcome (calls k) with
      | ok a => simp only [run, houtcome]
      | error exc =>
          have hagain : again exc = false := by
            by_contra hagain
            exact h ⟨exc, houtcome, by simpa using hagain⟩
          simp only [run, houtcome, hagain, if_false, Bool.false_eq_true]

/-- Every attempt but the last is retried, and the last is the last that may be made or is not
retried; its outcome is the result. -/
theorem run_spec (again : ε → Bool) (outcome : β → Except ε α) (calls : Nat → β) (left k : Nat) :
    ∃ last ≤ left, (run again outcome calls left k).1 = (List.range' k (last + 1)).map calls
      ∧ (run again outcome calls left k).2 = outcome (calls (k + last))
      ∧ (∀ j < last, Retried again outcome (calls (k + j)))
      ∧ (last < left → ¬ Retried again outcome (calls (k + last))) := by
  induction left generalizing k with
  | zero => exact ⟨0, Nat.le_refl 0, rfl, rfl, by simp, by simp⟩
  | succ left ih =>
      by_cases h : Retried again outcome (calls k)
      · obtain ⟨last, hlast, hattempts, hresult, hretried, hstop⟩ := ih (k + 1)
        have hshift : ∀ j, k + (j + 1) = k + 1 + j := fun j => by omega
        refine ⟨last + 1, Nat.succ_le_succ hlast, ?_, ?_, ?_, ?_⟩
        · rw [run_of_retried h, hattempts]
          rfl
        · rw [run_of_retried h, hshift last]
          exact hresult
        · intro j hj
          cases j with
          | zero => exact h
          | succ j =>
              rw [hshift]
              exact hretried j (Nat.lt_of_succ_lt_succ hj)
        · intro hlt
          rw [hshift]
          exact hstop (Nat.lt_of_succ_lt_succ hlt)
      · rw [run_of_not_retried h]
        exact ⟨0, Nat.zero_le _, rfl, rfl, by simp, fun _ => h⟩

/-- The attempts are at most one more than the retries. -/
theorem length_attempts_le (again : ε → Bool) (outcome : β → Except ε α) (calls : Nat → β)
    (left k : Nat) : (run again outcome calls left k).1.length ≤ left + 1 := by
  obtain ⟨last, hlast, hattempts, -⟩ := run_spec again outcome calls left k
  rw [hattempts, List.length_map, List.length_range']
  exact Nat.succ_le_succ hlast

/-- The last attempt gives the result. -/
theorem result_of_last (again : ε → Bool) (outcome : β → Except ε α) (calls : Nat → β)
    (left k : Nat) : ∃ earlier call, (run again outcome calls left k).1 = earlier ++ [call]
      ∧ (run again outcome calls left k).2 = outcome call := by
  obtain ⟨last, -, hattempts, hresult, -⟩ := run_spec again outcome calls left k
  refine ⟨(List.range' k last).map calls, calls (k + last), ?_, hresult⟩
  rw [hattempts, List.range'_concat, List.map_append, Nat.one_mul]
  rfl

/-- What holds of every attempt that another follows. -/
theorem forall_earlier_iff {p : β → Prop} :
    (∀ call ∈ (run again outcome calls left 0).1.dropLast, p call) ↔
      ∀ j < left, (∀ i ≤ j, Retried again outcome (calls i)) → p (calls j) := by
  obtain ⟨last, hlast, hattempts, -, hretried, hstop⟩ := run_spec again outcome calls left 0
  have hearlier : (run again outcome calls left 0).1.dropLast = (List.range' 0 last).map calls := by
    rw [hattempts, List.range'_concat, List.map_append, List.map_singleton, List.dropLast_concat]
  simp only [Nat.zero_add] at hretried hstop
  rw [hearlier]
  constructor
  · intro h j hj hall
    refine h (calls j) (List.mem_map_of_mem (List.mem_range'_1.mpr ⟨Nat.zero_le j, ?_⟩))
    by_contra hlong
    exact hstop (by omega) (hall last (by omega))
  · intro h call hcall
    obtain ⟨j, hj, rfl⟩ := List.mem_map.mp hcall
    have hlt := (List.mem_range'_1.mp hj).2
    exact h j (by omega) fun i hi => hretried i (by omega)

end Retry
