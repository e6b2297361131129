import Mathlib.Logic.Function.Basic

/-!
The checkpoints of a graph that stops at interrupts.

A thread is at its last checkpoint. A node that finishes stores the next one; a
node that stops at an interrupt leaves its payload at the checkpoint it started
from, so an interrupt is identified by that checkpoint. Checkpoints are numbered
through over all threads, and none is reused.
-/
universe u v

structure Checkpointer (κ : Type u) (α : Type v) where
  next : Nat
  head : κ → Option Nat
  interrupts : Nat → Option α

namespace Checkpointer
variable {κ : Type u} {α : Type v}

def empty : Checkpointer κ α := ⟨0, fun _ => none, fun _ => none⟩

/-- A node of the thread finished, or a new input came in. -/
def put [DecidableEq κ] (cp : Checkpointer κ α) (thread : κ) : Checkpointer κ α :=
  { cp with next := cp.next + 1, head := Function.update cp.head thread (some cp.next) }

/-- The node that started at the checkpoint stops; when it is run again and
stops again, the interrupt is the same. -/
def stop (cp : Checkpointer κ α) (checkpoint : Nat) (payload : α) : Checkpointer κ α :=
  match cp.interrupts checkpoint with
  | some _ => cp
  | none => { cp with interrupts := Function.update cp.interrupts checkpoint (some payload) }

/-- The interrupt the thread waits at. -/
def pending? (cp : Checkpointer κ α) (thread : κ) : Option (Nat × α) :=
  (cp.head thread).bind fun checkpoint =>
    (cp.interrupts checkpoint).map fun payload => (checkpoint, payload)

/-- No thread is at a checkpoint yet to come or at one of another thread. -/
structure Numbered (cp : Checkpointer κ α) : Prop where
  head_lt : ∀ thread checkpoint, cp.head thread = some checkpoint → checkpoint < cp.next
  head_inj : ∀ thread thread' checkpoint, cp.head thread = some checkpoint →
    cp.head thread' = some checkpoint → thread = thread'
  fresh : ∀ checkpoint, cp.next ≤ checkpoint → cp.interrupts checkpoint = none

section Lemmas
variable {cp : Checkpointer κ α} {thread thread' : κ} {checkpoint : Nat} {payload : α}

@[simp] theorem stop_next : (cp.stop checkpoint payload).next = cp.next := by
  unfold stop
  split <;> rfl

@[simp] theorem stop_head : (cp.stop checkpoint payload).head = cp.head := by
  unfold stop
  split <;> rfl

theorem stop_interrupts_of_ne {c : Nat} (h : c ≠ checkpoint) :
    (cp.stop checkpoint payload).interrupts c = cp.interrupts c := by
  unfold stop
  split
  · rfl
  · exact Function.update_of_ne h ..

theorem pending?_eq_some_iff {p : Nat × α} :
    cp.pending? thread = some p ↔ cp.head thread = some p.1 ∧ cp.interrupts p.1 = some p.2 := by
  obtain ⟨c, a⟩ := p
  simp only [pending?, Option.bind_eq_some_iff, Option.map_eq_some_iff, Prod.mk.injEq]
  constructor
  · rintro ⟨c', hhead, a', hint, rfl, rfl⟩
    exact ⟨hhead, hint⟩
  · rintro ⟨hhead, hint⟩
    exact ⟨c, hhead, a, hint, rfl, rfl⟩

theorem Numbered.empty : (empty : Checkpointer κ α).Numbered :=
  ⟨nofun, nofun, fun _ _ => rfl⟩

theorem Numbered.stop (h : cp.Numbered) (hlt : checkpoint < cp.next) :
    (cp.stop checkpoint payload).Numbered where
  head_lt t c ht := by
    rw [stop_head] at ht
    simpa using h.head_lt t c ht
  head_inj t t' c ht ht' := by
    rw [stop_head] at ht ht'
    exact h.head_inj t t' c ht ht'
  fresh c hc := by
    rw [stop_next] at hc
    rw [stop_interrupts_of_ne (by omega)]
    exact h.fresh c hc

variable [DecidableEq κ]

@[simp] theorem put_next : (cp.put thread).next = cp.next + 1 := rfl

@[simp] theorem put_interrupts : (cp.put thread).interrupts = cp.interrupts := rfl

@[simp] theorem put_head_self : (cp.put thread).head thread = some cp.next :=
  Function.update_self ..

theorem put_head_of_ne (h : thread' ≠ thread) : (cp.put thread).head thread' = cp.head thread' :=
  Function.update_of_ne h ..

theorem Numbered.put (h : cp.Numbered) : (cp.put thread).Numbered where
  head_lt t c ht := by
    by_cases heq : t = thread
    · subst heq
      obtain rfl := Option.some.inj (put_head_self.symm.trans ht)
      exact Nat.lt_succ_self _
    · rw [put_head_of_ne heq] at ht
      exact Nat.lt_succ_of_lt (h.head_lt t c ht)
  head_inj t t' c ht ht' := by
    by_cases heq : t = thread <;> by_cases heq' : t' = thread
    · rw [heq, heq']
    · subst heq
      rw [put_head_of_ne heq'] at ht'
      obtain rfl := Option.some.inj (put_head_self.symm.trans ht)
      exact absurd (h.head_lt t' _ ht') (Nat.lt_irrefl _)
    · subst heq'
      rw [put_head_of_ne heq] at ht
      obtain rfl := Option.some.inj (put_head_self.symm.trans ht')
      exact absurd (h.head_lt t _ ht) (Nat.lt_irrefl _)
    · rw [put_head_of_ne heq] at ht
      rw [put_head_of_ne heq'] at ht'
      exact h.head_inj t t' c ht ht'
  fresh c hc := h.fresh c (Nat.le_of_succ_le hc)

end Lemmas

end Checkpointer
