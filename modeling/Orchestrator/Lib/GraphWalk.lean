import Mathlib.Data.List.Basic

/-!
Walks on a graph of nodes that act on a state.

A node that is executed leaves a state and names the node to go to, or the end;
or it raises, and the walk is aborted. What a node does may depend on how many
nodes were executed before it, so the world around a walk may answer the same
call differently each time. The visits are kept, the first one first. The rules
give invariants of a walk and an end from a measure.
-/
universe u v w

namespace GraphWalk

inductive Position (ν : Type u) (ε : Type w) where
  | running (node : ν)
  | ended
  | aborted (exc : ε)
  deriving DecidableEq

structure Visit (ν : Type u) (σ : Type v) where
  node : ν
  before : σ
  /-- The state the node left, unless it raised. -/
  left : Option σ

end GraphWalk

structure GraphWalk (ν : Type u) (σ : Type v) (ε : Type w) where
  position : GraphWalk.Position ν ε
  state : σ
  visits : List (GraphWalk.Visit ν σ)

namespace GraphWalk
variable {ν : Type u} {σ : Type v} {ε : Type w}

def start (entry : ν) (s : σ) : GraphWalk ν σ ε := ⟨.running entry, s, []⟩

def moved (k : GraphWalk ν σ ε) (node : ν) (s : σ) (next : Option ν) : GraphWalk ν σ ε where
  position := next.elim .ended .running
  state := s
  visits := k.visits ++ [⟨node, k.state, some s⟩]

def raised (k : GraphWalk ν σ ε) (node : ν) (exc : ε) : GraphWalk ν σ ε where
  position := .aborted exc
  state := k.state
  visits := k.visits ++ [⟨node, k.state, none⟩]

def Running (k : GraphWalk ν σ ε) : Prop := ∃ node, k.position = .running node

variable (exec : Nat → ν → σ → Except ε (σ × Option ν))

def step (k : GraphWalk ν σ ε) : GraphWalk ν σ ε :=
  match k.position with
  | .running node =>
      match exec k.visits.length node k.state with
      | .ok (s, next) => k.moved node s next
      | .error exc => k.raised node exc
  | _ => k

/-- The walk `n` executions later. -/
def steps (k : GraphWalk ν σ ε) : Nat → GraphWalk ν σ ε
  | 0 => k
  | n + 1 => (k.steps n).step exec

variable {exec} {k : GraphWalk ν σ ε}

theorem step_ok {node : ν} {s : σ} {next : Option ν} (hrunning : k.position = .running node)
    (hexec : exec k.visits.length node k.state = .ok (s, next)) :
    k.step exec = k.moved node s next := by
  simp only [step, hrunning, hexec]

theorem step_error {node : ν} {exc : ε} (hrunning : k.position = .running node)
    (hexec : exec k.visits.length node k.state = .error exc) :
    k.step exec = k.raised node exc := by
  simp only [step, hrunning, hexec]

theorem step_settled (hsettled : ¬ k.Running) : k.step exec = k := by
  cases hposition : k.position with
  | running node => exact absurd ⟨node, hposition⟩ hsettled
  | ended => simp only [step, hposition]
  | aborted exc => simp only [step, hposition]

/-- The node that is executed is visited, whatever comes of it. -/
theorem step_visits {node : ν} (hrunning : k.position = .running node) :
    ∃ left, (k.step exec).visits = k.visits ++ [⟨node, k.state, left⟩] := by
  cases hexec : exec k.visits.length node k.state with
  | ok result => exact ⟨some result.1, by rw [step_ok hrunning hexec]; rfl⟩
  | error exc => exact ⟨none, by rw [step_error hrunning hexec]; rfl⟩

theorem steps_succ (n : Nat) : k.steps exec (n + 1) = (k.step exec).steps exec n := by
  induction n with
  | zero => rfl
  | succ n ih => exact congrArg (step exec) ih

theorem steps_settled (hsettled : ¬ k.Running) (n : Nat) : k.steps exec n = k := by
  induction n with
  | zero => rfl
  | succ n ih => rw [steps, ih, step_settled hsettled]

theorem steps_add (m n : Nat) : k.steps exec (m + n) = (k.steps exec m).steps exec n := by
  induction n with
  | zero => rfl
  | succ n ih => exact congrArg (step exec) ih

/-- A walk settles in one state. -/
theorem settled_unique {m n : Nat} (hm : ¬ (k.steps exec m).Running)
    (hn : ¬ (k.steps exec n).Running) : k.steps exec m = k.steps exec n := by
  cases Nat.le_total m n with
  | inl hle =>
      obtain ⟨d, rfl⟩ := Nat.exists_eq_add_of_le hle
      rw [steps_add, steps_settled hm]
  | inr hle =>
      obtain ⟨d, rfl⟩ := Nat.exists_eq_add_of_le hle
      rw [steps_add, steps_settled hn]

/-- A visit stays what it was. -/
theorem visits_steps {i : Nat} {visit : Visit ν σ} (h : k.visits[i]? = some visit) (n : Nat) :
    (k.steps exec n).visits[i]? = some visit := by
  induction n with
  | zero => exact h
  | succ n ih =>
      by_cases hrunning : (k.steps exec n).Running
      · obtain ⟨left, hvisits⟩ := step_visits hrunning.choose_spec
        rw [steps, hvisits, List.getElem?_append_left (List.getElem?_eq_some_iff.mp ih).1, ih]
      · rw [steps, step_settled hrunning, ih]

/-- Where the walk has settled it has made all its visits. -/
theorem visits_settled {m n i : Nat} {visit : Visit ν σ} (hn : ¬ (k.steps exec n).Running)
    (h : (k.steps exec m).visits[i]? = some visit) :
    (k.steps exec n).visits[i]? = some visit := by
  have hlater : ((k.steps exec m).steps exec n).visits[i]? = some visit := visits_steps h n
  rw [← steps_add, Nat.add_comm, steps_add, steps_settled hn] at hlater
  exact hlater

theorem not_running_of_ended (h : k.position = .ended) : ¬ k.Running := by
  intro hrunning
  cases h.symm.trans hrunning.choose_spec

/-- A walk that ends is not aborted on the way. -/
theorem not_aborted_of_ended {m : Nat} (hended : (k.steps exec m).position = .ended) (n : Nat)
    (exc : ε) : (k.steps exec n).position ≠ .aborted exc := by
  intro haborted
  have hsettled : ¬ (k.steps exec n).Running := by
    intro hrunning
    cases haborted.symm.trans hrunning.choose_spec
  rw [settled_unique hsettled (not_running_of_ended hended), hended] at haborted
  cases haborted

/-- What holds at the start and is kept by every execution of a node holds on
the whole walk. -/
theorem steps_invariant {inv : GraphWalk ν σ ε → Prop}
    (moves : ∀ k node s next, inv k → k.position = .running node →
      exec k.visits.length node k.state = .ok (s, next) → inv (k.moved node s next))
    (raises : ∀ k node exc, inv k → k.position = .running node →
      exec k.visits.length node k.state = .error exc → inv (k.raised node exc))
    (hk : inv k) (n : Nat) : inv (k.steps exec n) := by
  induction n with
  | zero => exact hk
  | succ n ih =>
      change inv ((k.steps exec n).step exec)
      by_cases hrunning : (k.steps exec n).Running
      · obtain ⟨node, hposition⟩ := hrunning
        cases hexec : exec (k.steps exec n).visits.length node (k.steps exec n).state with
        | ok result => rw [step_ok hposition hexec]; exact moves _ _ _ _ ih hposition hexec
        | error exc => rw [step_error hposition hexec]; exact raises _ _ _ ih hposition hexec
      · rwa [step_settled hrunning]

/-- A walk whose moves decrease a measure settles within that many executions. -/
theorem settles (rank : ν → σ → Nat)
    (decreases : ∀ n node s t node', exec n node s = .ok (t, some node') →
      rank node' t < rank node s)
    {node : ν} (hrunning : k.position = .running node) {bound : Nat}
    (hbound : rank node k.state < bound) : ¬ (k.steps exec bound).Running := by
  induction bound generalizing k node with
  | zero => exact absurd hbound (Nat.not_lt_zero _)
  | succ bound ih =>
      rw [steps_succ]
      cases hexec : exec k.visits.length node k.state with
      | error exc =>
          rw [step_error hrunning hexec]
          have hsettled : ¬ (k.raised node exc).Running := by
            intro h
            cases h.choose_spec
          rwa [steps_settled hsettled]
      | ok result =>
          obtain ⟨s, next⟩ := result
          rw [step_ok hrunning hexec]
          cases next with
          | none =>
              have hsettled : ¬ (k.moved node s none).Running := by
                intro h
                cases h.choose_spec
              rwa [steps_settled hsettled]
          | some node' =>
              have hlt : rank node' s < rank node k.state := decreases _ _ _ _ _ hexec
              exact ih (k := k.moved node s (some node')) rfl (Nat.lt_of_lt_of_le hlt
                (Nat.le_of_lt_succ hbound))

end GraphWalk
